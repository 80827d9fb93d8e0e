import HermesEnterprise.Approvals.Counting
import HermesEnterprise.Approvals.Outcomes

/-! # The vote ledger of every reachable database

Votes name existing requests and revisions no newer than the current one. On the
current revision they carry its hash, each reviewer voted at most once, and
while the approval is pending they all approve.
-/
namespace HermesEnterprise.Approvals
open Foundation.Runs

variable {env : Platform} {db db' : Db} {requestId : RequestId} {row row' : ApprovalRow}
variable {vote : VoteRow}

/-- The votes recorded on one revision of a request. -/
def votesAt (db : Db) (requestId : RequestId) (revision : ℕ) : List VoteRow :=
  db.votes.filter fun v => v.requestId = requestId ∧ v.revision = revision

structure Ledger (db : Db) : Prop where
  ids : ∀ id row, db.requests id = some row → id < db.nextId
  voteIds : ∀ v ∈ db.votes, v.requestId < db.nextId
  revisions : ∀ v ∈ db.votes, ∀ row, db.requests v.requestId = some row →
    v.revision ≤ row.authorizationRevision
  hashes : ∀ v ∈ db.votes, ∀ row, db.requests v.requestId = some row →
    v.revision = row.authorizationRevision → v.authorizationHash = row.authorizationHash
  approving : ∀ v ∈ db.votes, ∀ row, db.requests v.requestId = some row → row.status = .pending →
    v.revision = row.authorizationRevision → v.decision = .approve
  once : ∀ id row, db.requests id = some row →
    ((votesAt db id row.authorizationRevision).map VoteRow.reviewerMemberId).Nodup

theorem Initial.ledger (h : Initial db) : Ledger db := by
  refine ⟨?_,?_,?_,?_,?_,?_⟩ <;> simp [h.requests, h.votes]

theorem mem_votesAt {v : VoteRow} {revision : ℕ} : v ∈ votesAt db requestId revision ↔
    v ∈ db.votes ∧ v.requestId = requestId ∧ v.revision = revision := by
  simp [votesAt]

theorem mem_votesFor {v : VoteRow} : v ∈ votesFor db requestId row ↔ v ∈ db.votes ∧
    v.requestId = requestId ∧ v.revision = row.authorizationRevision ∧
    v.authorizationHash = row.authorizationHash := by
  simp [votesFor, List.mem_insertionSort]

/-- The loaded votes of a row are all votes on its revision. -/
theorem Ledger.votesFor_perm (h : Ledger db) (hrow : db.requests requestId = some row) :
    (votesFor db requestId row).Perm (votesAt db requestId row.authorizationRevision) := by
  refine (List.perm_insertionSort _ _).trans (List.Perm.of_eq ?_)
  unfold votesAt
  apply List.filter_congr
  intro v hv
  by_cases hid : v.requestId = requestId
  · by_cases hr : v.revision = row.authorizationRevision
    · simp [hid, hr, h.hashes v hv row (by rw [hid]; exact hrow) hr]
    · simp [hr]
  · simp [hid]

/-- Writing a row of the same revision keeps the ledger, if it does not return to pending. -/
theorem Ledger.setRow (h : Ledger db) (row' : ApprovalRow) (hrow : db.requests requestId = some row)
    (hrev : row'.authorizationRevision = row.authorizationRevision)
    (hhash : row'.authorizationHash = row.authorizationHash)
    (hstatus : row'.status = .pending → row.status = .pending)
    (hreq : db'.requests = Function.update db.requests requestId (some row'))
    (hvotes : db'.votes = db.votes) (hnext : db'.nextId = db.nextId) : Ledger db' := by
  have hold : ∀ id r', db'.requests id = some r' → ∃ r, db.requests id = some r ∧
      r'.authorizationRevision = r.authorizationRevision ∧
      r'.authorizationHash = r.authorizationHash ∧ (r'.status = .pending → r.status = .pending) := by
    intro id r' hr'
    rw [hreq] at hr'
    by_cases hid : id = requestId
    · subst hid
      rw [Function.update_self, Option.some.injEq] at hr'
      subst hr'
      exact ⟨row,hrow,hrev,hhash,hstatus⟩
    · rw [Function.update_of_ne hid] at hr'
      exact ⟨r',hr',rfl,rfl,fun hp => hp⟩
  refine ⟨?_,?_,?_,?_,?_,?_⟩
  · intro id r' hr'
    obtain ⟨r,hr,-⟩ := hold id r' hr'
    exact hnext ▸ h.ids id r hr
  · rw [hvotes, hnext]
    exact h.voteIds
  · rw [hvotes]
    intro v hv r' hr'
    obtain ⟨r,hr,hrev,-⟩ := hold _ r' hr'
    exact hrev ▸ h.revisions v hv r hr
  · rw [hvotes]
    intro v hv r' hr' he
    obtain ⟨r,hr,hrev,hhash,-⟩ := hold _ r' hr'
    exact hhash ▸ h.hashes v hv r hr (hrev ▸ he)
  · rw [hvotes]
    intro v hv r' hr' hp he
    obtain ⟨r,hr,hrev,-,hp'⟩ := hold _ r' hr'
    exact h.approving v hv r hr (hp' hp) (hrev ▸ he)
  · intro id r' hr'
    obtain ⟨r,hr,hrev,-⟩ := hold id r' hr'
    simpa only [votesAt, hvotes, hrev] using h.once id r hr

/-- A vote of a new reviewer keeps the ledger, if it approves or the approval leaves pending. -/
theorem Ledger.cast (h : Ledger db) (vote : VoteRow) (row' : ApprovalRow)
    (hrow : db.requests requestId = some row)
    (hid : vote.requestId = requestId) (hvrev : vote.revision = row.authorizationRevision)
    (hvhash : vote.authorizationHash = row.authorizationHash)
    (hnew : vote.reviewerMemberId ∉ (votesAt db requestId row.authorizationRevision).map
      VoteRow.reviewerMemberId)
    (hrev : row'.authorizationRevision = row.authorizationRevision)
    (hhash : row'.authorizationHash = row.authorizationHash)
    (hstatus : row'.status = .pending → row.status = .pending ∧ vote.decision = .approve)
    (hreq : db'.requests = Function.update db.requests requestId (some row'))
    (hvotes : db'.votes = db.votes ++ [vote]) (hnext : db'.nextId = db.nextId + 1) : Ledger db' := by
  have hrest : Ledger { db' with votes := db.votes, nextId := db.nextId } :=
    h.setRow row' hrow hrev hhash (fun hp => (hstatus hp).1) hreq rfl rfl
  have hself : db'.requests vote.requestId = some row' := by rw [hreq, hid, Function.update_self]
  have hsplit : ∀ v ∈ db'.votes, v ∈ db.votes ∨ v = vote := by
    intro v hv
    rw [hvotes] at hv
    simpa using hv
  refine ⟨?_,?_,?_,?_,?_,?_⟩
  · intro id r hr
    exact hnext ▸ Nat.lt_succ_of_lt (hrest.ids id r hr)
  · intro v hv
    rw [hnext]
    rcases hsplit v hv with hv | rfl
    · exact Nat.lt_succ_of_lt (h.voteIds v hv)
    · exact Nat.lt_succ_of_lt (hid ▸ h.ids requestId row hrow)
  · intro v hv r hr
    rcases hsplit v hv with hv | rfl
    · exact hrest.revisions v hv r hr
    · cases hself.symm.trans hr
      exact (hvrev.trans hrev.symm).le
  · intro v hv r hr he
    rcases hsplit v hv with hv | rfl
    · exact hrest.hashes v hv r hr he
    · cases hself.symm.trans hr
      exact hvhash.trans hhash.symm
  · intro v hv r hr hp he
    rcases hsplit v hv with hv | rfl
    · exact hrest.approving v hv r hr hp he
    · cases hself.symm.trans hr
      exact (hstatus hp).2
  · intro id r hr
    have hold := hrest.once id r hr
    have happ : votesAt db' id r.authorizationRevision =
        votesAt db id r.authorizationRevision ++
          [vote].filter (fun v => v.requestId = id ∧ v.revision = r.authorizationRevision) := by
      simp only [votesAt, hvotes, List.filter_append]
    rw [happ, List.map_append, List.nodup_append]
    by_cases hv : vote.requestId = id ∧ vote.revision = r.authorizationRevision
    · obtain ⟨rfl,hvr⟩ := hv
      cases hself.symm.trans hr
      refine ⟨hold,by simp [hvr],?_⟩
      intro a ha b hb hab
      simp only [List.filter_cons, hvr, and_self, decide_true, if_true, List.filter_nil,
        List.map_cons, List.map_nil, List.mem_singleton] at hb
      rw [hid, hrev] at ha
      exact hnew (hb ▸ hab ▸ ha)
    · refine ⟨hold,by simp [hv],by simp [hv]⟩

/-- A request written at a revision without votes keeps the ledger. -/
theorem Ledger.fresh (h : Ledger db) (requestId : RequestId) (hlt : requestId < db'.nextId)
    (hempty : ∀ v ∈ db.votes, v.requestId = requestId → v.revision < row'.authorizationRevision)
    (hreq : db'.requests = Function.update db.requests requestId (some row'))
    (hvotes : db'.votes = db.votes) (hnext : db.nextId ≤ db'.nextId) : Ledger db' := by
  have hsplit : ∀ id r, db'.requests id = some r →
      (id = requestId ∧ r = row') ∨ (id ≠ requestId ∧ db.requests id = some r) := by
    intro id r hr
    rw [hreq] at hr
    by_cases hid : id = requestId
    · subst hid
      rw [Function.update_self, Option.some.injEq] at hr
      exact Or.inl ⟨rfl,hr.symm⟩
    · rw [Function.update_of_ne hid] at hr
      exact Or.inr ⟨hid,hr⟩
  refine ⟨?_,?_,?_,?_,?_,?_⟩
  · intro id r hr
    rcases hsplit id r hr with ⟨rfl,-⟩ | ⟨-,hr⟩
    · exact hlt
    · exact (h.ids id r hr).trans_le hnext
  · rw [hvotes]
    exact fun v hv => (h.voteIds v hv).trans_le hnext
  · rw [hvotes]
    intro v hv r hr
    rcases hsplit _ r hr with ⟨hid,rfl⟩ | ⟨-,hr⟩
    · exact (hempty v hv hid).le
    · exact h.revisions v hv r hr
  · rw [hvotes]
    intro v hv r hr he
    rcases hsplit _ r hr with ⟨hid,rfl⟩ | ⟨-,hr⟩
    · exact absurd he (hempty v hv hid).ne
    · exact h.hashes v hv r hr he
  · rw [hvotes]
    intro v hv r hr hp he
    rcases hsplit _ r hr with ⟨hid,rfl⟩ | ⟨-,hr⟩
    · exact absurd he (hempty v hv hid).ne
    · exact h.approving v hv r hr hp he
  · intro id r hr
    rcases hsplit id r hr with ⟨rfl,rfl⟩ | ⟨-,hr⟩
    · have : votesAt db' id r.authorizationRevision = [] := by
        rw [List.eq_nil_iff_forall_not_mem]
        intro v hv
        obtain ⟨hv,hid,he⟩ := mem_votesAt.mp hv
        rw [hvotes] at hv
        exact absurd he (hempty v hv hid).ne
      simp [this]
    · simpa only [votesAt, hvotes] using h.once id r hr

variable {context : ApprovalHumanContext} {input : DecideApprovalInput}
variable {reviewer : MemberRow} {step : PolicyStep}

theorem Ballot.new_reviewer (b : Ballot env db requestId context input row reviewer step)
    (h : Ledger db) : reviewer.id ∉ (votesAt db requestId row.authorizationRevision).map
      VoteRow.reviewerMemberId := by
  intro hm
  obtain ⟨v,hv,he⟩ := List.mem_map.mp hm
  exact (admitReviewer_ok b.admitted).2.2.2 v ((h.votesFor_perm b.loaded).mem_iff.mpr hv) he

/-- An admitted approving vote keeps the ledger. -/
theorem Ledger.recorded (h : Ledger db)
    (b : Ballot env db requestId context input row reviewer step) (hd : input.decision = .approve) :
    Ledger (recordVote env db requestId row step reviewer input) :=
  h.cast (newVote db requestId row step reviewer input) row b.loaded rfl rfl rfl
    (b.new_reviewer h) rfl rfl (fun _ => ⟨b.pending,hd⟩)
    (by rw [← b.loaded, Function.update_eq_self]; rfl) rfl rfl

theorem Ledger.markExpired (h : Ledger db) (hrow : db.requests requestId = some row) :
    Ledger (markExpired db requestId row) :=
  h.setRow (statusRow row .expired .cancelled (some "The authorization expired.")) hrow rfl rfl
    (fun hs => by cases hs) rfl rfl rfl

/-- One change keeps the ledger. -/
theorem Ledger.change (h : Ledger db) (hc : Change env db db') : Ledger db' := by
  cases hc with
  | environment directory mail elapsed =>
    exact ⟨h.ids,h.voteIds,h.revisions,h.hashes,h.approving,h.once⟩
  | proposed context input p hp =>
    refine h.fresh db.nextId (Nat.lt_succ_self _) ?_ rfl rfl (Nat.le_succ _)
    intro v hv hid
    exact absurd (h.voteIds v hv) (hid ▸ Nat.lt_irrefl _)
  | expired requestId row hrow hp hexp =>
    exact h.markExpired hrow
  | decided requestId context input db' hd =>
    cases hd with
    | replayed _ => exact h
    | expired row hrow hp hexp => exact h.markExpired hrow
    | closed row reviewer step b hd =>
      obtain ⟨hframe,hreq,-⟩ := closeDecision_spec (recordVote env db requestId row step reviewer
        input) requestId row input.decision reviewer.name
      refine h.cast (newVote db requestId row step reviewer input) (closedRow row input.decision)
        b.loaded rfl rfl rfl (b.new_reviewer h) rfl rfl ?_ hreq hframe.votes hframe.nextId
      intro hs
      simp only [closedRow, statusRow] at hs
      split at hs <;> cases hs
    | counted row reviewer step b hd _ =>
      exact h.recorded b hd
    | finalized row reviewer step f b hd hall hf =>
      have hspec := finalizeApproval_spec hf
      obtain ⟨row',hreq,effect,work,reason,job,rfl⟩ := hspec.approved
      have hframe := writeApprovalReceipt_frame f requestId row .approved reviewer.name
      refine h.cast (newVote db requestId row step reviewer input) _ b.loaded rfl rfl rfl
        (b.new_reviewer h) ?_ ?_ ?_ ((writeApprovalReceipt_requests _ _ _ _ _).1.trans hreq)
        (hframe.votes.trans hspec.votes) (hframe.nextId.trans hspec.nextId)
      · rfl
      · rfl
      · simp [approvedRow, b.pending]
  | revised requestId row proposal r db' hr =>
    obtain ⟨reason,hreq⟩ := hr.requests
    refine h.fresh requestId (hr.nextId ▸ h.ids requestId row hr.loaded) ?_ hreq hr.votes hr.nextId.ge
    intro v hv hid
    exact Nat.lt_succ_of_le (h.revisions v hv row (hid ▸ hr.loaded))
  | routed requestId row route db' hr =>
    obtain ⟨commands,rfl⟩ := hr.changed
    refine ⟨fun id r hr => Nat.lt_succ_of_lt (h.ids id r hr),
      fun v hv => Nat.lt_succ_of_lt (h.voteIds v hv),h.revisions,h.hashes,h.approving,h.once⟩

theorem ReachableDb.ledger (h : ReachableDb env db) : Ledger db :=
  h.invariant (fun _ hi => hi.ledger) fun _ _ _ hl hs => hl.change hs.change

end HermesEnterprise.Approvals
