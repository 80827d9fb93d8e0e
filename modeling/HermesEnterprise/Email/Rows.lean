import HermesEnterprise.Approvals.Standing
import HermesEnterprise.Email.System

/-! # The rows of the outbox

An approval that becomes final appends rows under the next ids, one for each recipient that may be
written to. Every other step rewrites rows in place: a row keeps its request, revision and recipient,
and one in a final state keeps everything.
-/
namespace HermesEnterprise.Email
open Approvals Jobs Foundation.Runs Foundation.Tables

section Queueing
variable {email : ApprovedEmail} {binding : SenderBinding} {thread : Option ReplyThread}
variable {mail : MailTables} {engagements : List EngagementRow} {outbox outbox' : Outbox} {ids : List OutboxId}

/-- What queueing from recipient `i` on appended. -/
structure Queues (email : ApprovedEmail) (binding : SenderBinding) (thread : Option ReplyThread) (i : ℕ)
    (outbox outbox' : Outbox) (ids : List OutboxId) (new : List OutboxRow) : Prop where
  rows : outbox'.rows = outbox.rows ++ new
  nextId : outbox'.nextId = outbox.nextId + new.length
  ids : ids = new.map OutboxRow.id
  fresh : new.map OutboxRow.id = List.range' outbox.nextId new.length
  made : ∀ r ∈ new, ∃ id j recipient address,
    r = newRow email binding thread id j recipient address ∧ i ≤ j
  places : new.Pairwise fun r r' => r.recipientIndex < r'.recipientIndex
  resend : ∀ r ∈ new, blocksResend outbox.rows email.requestId email.revision r.recipientIndex = false

/-- A row of the revision that is queued is no earlier attempt. -/
theorem blocksResend_append (rows : List OutboxRow) (requestId : RequestId) (revision index : ℕ) {row : OutboxRow}
    (h : row.authorizationRevision = revision) :
    blocksResend (rows ++ [row]) requestId revision index = blocksResend rows requestId revision index := by
  have hfilter : (rows ++ [row]).filter (fun r =>
      decide (r.requestId = requestId ∧ r.recipientIndex = index ∧ r.authorizationRevision < revision)) =
      rows.filter fun r =>
        decide (r.requestId = requestId ∧ r.recipientIndex = index ∧ r.authorizationRevision < revision) := by
    have hlast : [row].filter (fun r =>
        decide (r.requestId = requestId ∧ r.recipientIndex = index ∧ r.authorizationRevision < revision)) = [] := by
      rw [List.filter_eq_nil_iff]
      intro r hr
      rw [List.mem_singleton.mp hr]
      simp [h]
    rw [List.filter_append, hlast, List.append_nil]
  simp only [blocksResend, hfilter]

/-- A row may be queued for this recipient only when its earlier rows are all cancelled. -/
theorem cancelled_of_resend {rows : List OutboxRow} {requestId : RequestId} {revision index : ℕ}
    (h : blocksResend rows requestId revision index = false) {r : OutboxRow} (hr : r ∈ rows)
    (hrequest : r.requestId = requestId) (hindex : r.recipientIndex = index)
    (hrevision : r.authorizationRevision < revision) : r.state = .cancelled := by
  have hmem : r ∈ rows.filter fun r =>
      decide (r.requestId = requestId ∧ r.recipientIndex = index ∧ r.authorizationRevision < revision) :=
    List.mem_filter.mpr ⟨hr,by simp [hrequest, hindex, hrevision]⟩
  simp only [blocksResend, Bool.and_eq_false_iff, Bool.not_eq_false', List.isEmpty_iff, List.all_eq_true,
    List.mem_filter, decide_eq_true_eq] at h
  rcases h with hnil | hall
  · exact absurd (hnil ▸ hmem) List.not_mem_nil
  · by_contra hne
    exact hne (hall r ⟨⟨hr,hrequest,hindex,hrevision⟩,Or.inl hne⟩).1

/-- No row of this revision stands at recipient `i` or after. -/
def Unqueued (email : ApprovedEmail) (i : ℕ) (rows : List OutboxRow) : Prop :=
  ∀ r ∈ rows, r.requestId = email.requestId → r.authorizationRevision = email.revision → r.recipientIndex < i

theorem Unqueued.insertRow (h : Unqueued email i outbox.rows) {recipient : Recipient} {address : String} :
    insertRow email binding thread i recipient address outbox =
      (⟨outbox.rows ++ [newRow email binding thread outbox.nextId i recipient address],outbox.nextId + 1⟩,
        outbox.nextId) := by
  have hnone : existingRow outbox.rows email i = none := by
    rw [existingRow, List.find?_eq_none]
    intro r hr hfound
    simp only [decide_eq_true_eq] at hfound
    have hlt := h r hr hfound.1 hfound.2.1
    omega
  rw [Email.insertRow, hnone]

theorem queueRecipient_spec {recipient : Recipient} {i : ℕ} (h : Unqueued email i outbox.rows)
    (hq : queueRecipient mail engagements email binding thread i recipient outbox = .ok (outbox',ids)) :
    (outbox' = outbox ∧ ids = []) ∨ ∃ address, recipient.address = some address ∧
      outbox' = ⟨outbox.rows ++ [newRow email binding thread outbox.nextId i recipient address],outbox.nextId + 1⟩ ∧
      ids = [outbox.nextId] ∧ blocksResend outbox.rows email.requestId email.revision i = false := by
  unfold queueRecipient at hq
  cases ha : recipient.address with
  | none => rw [ha] at hq; cases hq
  | some address =>
    rw [ha] at hq
    simp only at hq
    split at hq
    next => cases hq
    next =>
      split at hq
      next => cases hq; exact Or.inl ⟨rfl,rfl⟩
      next hblocks =>
        simp only [Result.bind_eq_ok] at hq
        obtain ⟨_,-,hq⟩ := hq
        split at hq
        next => cases hq
        next =>
          rw [Result.pure_eq_ok, h.insertRow] at hq
          cases hq
          exact Or.inr ⟨address,rfl,rfl,rfl,Bool.not_eq_true _ ▸ hblocks⟩

theorem Queues.nil (email : ApprovedEmail) (binding : SenderBinding) (thread : Option ReplyThread) (i : ℕ)
    (outbox : Outbox) : Queues email binding thread i outbox outbox [] [] :=
  ⟨(List.append_nil _).symm,rfl,rfl,rfl,fun _ hr => absurd hr List.not_mem_nil,List.Pairwise.nil,
    fun _ hr => absurd hr List.not_mem_nil⟩

theorem queueRecipients_spec {recipients : List Recipient} {i : ℕ} (h : Unqueued email i outbox.rows)
    (hq : queueRecipients mail engagements email binding thread i recipients outbox = .ok (outbox',ids)) :
    ∃ new, Queues email binding thread i outbox outbox' ids new := by
  induction recipients generalizing i outbox outbox' ids with
  | nil =>
    cases hq
    exact ⟨[],.nil ..⟩
  | cons recipient rest ih =>
    simp only [queueRecipients, Result.bind_eq_ok, Result.pure_eq_ok] at hq
    obtain ⟨⟨next,here⟩,hhere,⟨last,more⟩,hrest,hq⟩ := hq
    cases hq
    rcases queueRecipient_spec h hhere with ⟨rfl,rfl⟩ | ⟨address,-,rfl,rfl,hresend⟩
    · have hnext : Unqueued email (i + 1) next.rows := fun r hr hrequest hrevision =>
        Nat.lt_succ_of_lt (h r hr hrequest hrevision)
      obtain ⟨new,hnew⟩ := ih hnext hrest
      refine ⟨new,hnew.rows,hnew.nextId,hnew.ids,hnew.fresh,fun r hr => ?_,hnew.places,hnew.resend⟩
      obtain ⟨id,j,recipient,address,hrow,hle⟩ := hnew.made r hr
      exact ⟨id,j,recipient,address,hrow,Nat.le_of_succ_le hle⟩
    · have hnext : Unqueued email (i + 1)
          (outbox.rows ++ [newRow email binding thread outbox.nextId i recipient address]) := by
        intro r hr hrequest hrevision
        rcases List.mem_append.mp hr with hr | hr
        · exact Nat.lt_succ_of_lt (h r hr hrequest hrevision)
        · rw [List.mem_singleton.mp hr]
          exact Nat.lt_succ_self i
      obtain ⟨new,hnew⟩ := ih hnext hrest
      refine ⟨newRow email binding thread outbox.nextId i recipient address :: new,?_,?_,?_,?_,?_,?_,?_⟩
      · rw [hnew.rows, List.append_assoc]
        rfl
      · rw [hnew.nextId, List.length_cons]
        exact Nat.add_right_comm _ _ _
      · rw [hnew.ids]
        rfl
      · rw [List.map_cons, hnew.fresh, List.length_cons, List.range'_succ]
        rfl
      · intro r hr
        rcases List.mem_cons.mp hr with rfl | hr
        · exact ⟨_,i,recipient,address,rfl,le_rfl⟩
        · obtain ⟨id,j,recipient,address,hrow,hle⟩ := hnew.made r hr
          exact ⟨id,j,recipient,address,hrow,Nat.le_of_succ_le hle⟩
      · refine List.pairwise_cons.mpr ⟨fun r hr => ?_,hnew.places⟩
        obtain ⟨id,j,recipient,address,rfl,hle⟩ := hnew.made r hr
        exact hle
      · intro r hr
        rcases List.mem_cons.mp hr with rfl | hr
        · exact hresend
        · have hblocks := hnew.resend r hr
          exact (blocksResend_append outbox.rows _ _ _ rfl).symm.trans hblocks

end Queueing

section Rewriting
variable {env : Approvals.Platform} {db db' db'' : Db}

/-- The authorization of an approval stays, with its outcome, or a next one takes its place. -/
def Advanced (q q' : ApprovalRow) : Prop :=
  (q'.authorizationRevision = q.authorizationRevision ∧ q'.authorizationHash = q.authorizationHash ∧
    (q.status ≠ .pending → q'.status = q.status)) ∨ q.authorizationRevision < q'.authorizationRevision

theorem Advanced.refl (q : ApprovalRow) : Advanced q q := Or.inl ⟨rfl,rfl,fun _ => rfl⟩

theorem Advanced.trans {q q' q'' : ApprovalRow} (h : Advanced q q') (h' : Advanced q' q'') : Advanced q q'' := by
  rcases h with ⟨hrev,hhash,hstatus⟩ | hlt
  · rcases h' with ⟨hrev',hhash',hstatus'⟩ | hlt'
    · refine Or.inl ⟨hrev'.trans hrev,hhash'.trans hhash,fun hne => ?_⟩
      have heq := hstatus hne
      exact (hstatus' (heq ▸ hne)).trans heq
    · exact Or.inr (hrev ▸ hlt')
  · rcases h' with ⟨hrev',-,-⟩ | hlt'
    · exact Or.inr (hrev' ▸ hlt)
    · exact Or.inr (hlt.trans hlt')

/-- The states that no step leaves. -/
def OutboxState.final : OutboxState → Bool
  | .sent | .simulated | .failed | .cancelled => true
  | _ => false

/-- A step over a row: what the row is about stays, and a row in a final state stays whole. -/
structure Moves (r r' : OutboxRow) : Prop where
  id : r'.id = r.id
  request : r'.requestId = r.requestId
  revision : r'.authorizationRevision = r.authorizationRevision
  hash : r'.authorizationHash = r.authorizationHash
  index : r'.recipientIndex = r.recipientIndex
  final : r.state.final = true → r' = r

theorem Moves.refl (r : OutboxRow) : Moves r r := ⟨rfl,rfl,rfl,rfl,rfl,fun _ => rfl⟩

theorem Moves.trans {r r' r'' : OutboxRow} (h : Moves r r') (h' : Moves r' r'') : Moves r r'' := by
  refine ⟨h'.id.trans h.id,h'.request.trans h.request,h'.revision.trans h.revision,h'.hash.trans h.hash,
    h'.index.trans h.index,fun hc => ?_⟩
  have heq := h.final hc
  exact (h'.final (heq ▸ hc)).trans heq

/-- A transaction that appends no row: rows move in place, approvals keep or advance their authorization. -/
structure Rewrites (db db' : Db) : Prop where
  rows : ∃ g : OutboxRow → OutboxRow, db'.outbox.rows = db.outbox.rows.map g ∧ ∀ r ∈ db.outbox.rows, Moves r (g r)
  nextId : db'.outbox.nextId = db.outbox.nextId
  requests : ∀ id q, db.requests id = some q → ∃ q', db'.requests id = some q' ∧ Advanced q q'
  ids : (∀ id q, db.requests id = some q → id < db.nextId) → ∀ id q, db'.requests id = some q → id < db'.nextId

theorem Rewrites.same (hrows : db'.outbox = db.outbox) (hrequests : db'.requests = db.requests)
    (hnext : db'.nextId = db.nextId) : Rewrites db db' := by
  refine ⟨⟨id,?_,fun r _ => .refl r⟩,?_,fun id q hq => ⟨q,?_,.refl q⟩,fun h id q hq => ?_⟩
  · rw [hrows, List.map_id]
  · rw [hrows]
  · rw [hrequests, hq]
  · rw [hnext]
    exact h id q (hrequests ▸ hq)

theorem Rewrites.trans (h : Rewrites db db') (h' : Rewrites db' db'') : Rewrites db db'' := by
  obtain ⟨g,hg,hmoves⟩ := h.rows
  obtain ⟨g',hg',hmoves'⟩ := h'.rows
  refine ⟨⟨g' ∘ g,?_,fun r hr => ?_⟩,h'.nextId.trans h.nextId,fun id q hq => ?_,fun hids => h'.ids (h.ids hids)⟩
  · rw [hg', hg, List.map_map]
  · exact (hmoves r hr).trans (hmoves' (g r) (hg ▸ List.mem_map_of_mem hr))
  · obtain ⟨q',hq',hadv⟩ := h.requests id q hq
    obtain ⟨q'',hq'',hadv'⟩ := h'.requests id q' hq'
    exact ⟨q'',hq'',hadv.trans hadv'⟩

theorem rewrites_updateOutbox (db : Db) {p : OutboxRow → Bool} {f : OutboxRow → OutboxRow}
    (h : ∀ r ∈ db.outbox.rows, p r = true → Moves r (f r)) : Rewrites db (updateOutbox db p f) := by
  refine ⟨⟨fun r => if p r then f r else r,rfl,fun r hr => ?_⟩,rfl,fun id q hq => ⟨q,hq,.refl q⟩,fun hids => hids⟩
  dsimp only
  split
  next hp => exact h r hr hp
  next => exact .refl r

/-- What a write of an effect keeps of the approval. -/
def KeepsAuthorization (f : ApprovalRow → ApprovalRow) : Prop :=
  ∀ q, (f q).authorizationRevision = q.authorizationRevision ∧ (f q).authorizationHash = q.authorizationHash ∧
    (f q).status = q.status

theorem updateRequest_some {requestId id : RequestId} {f : ApprovalRow → ApprovalRow} {q : ApprovalRow}
    (h : db.requests id = some q) :
    (updateRequest db requestId f).requests id = some (if id = requestId then f q else q) := by
  by_cases hid : id = requestId
  · subst hid
    simp [updateRequest, h]
  · simp [updateRequest, hid, h]

theorem rewrites_updateRequest (db : Db) (requestId : RequestId) {f : ApprovalRow → ApprovalRow}
    (h : KeepsAuthorization f) : Rewrites db (updateRequest db requestId f) := by
  refine ⟨⟨id,(List.map_id _).symm,fun r _ => .refl r⟩,rfl,fun id q hq => ⟨_,updateRequest_some hq,?_⟩,fun hids id q hq => ?_⟩
  · split
    next =>
      obtain ⟨hrev,hhash,hstatus⟩ := h q
      exact Or.inl ⟨hrev,hhash,fun _ => hstatus⟩
    next => exact .refl q
  · cases hold : db.requests id with
    | some old => exact hids id old hold
    | none =>
      have hnone : (updateRequest db requestId f).requests id = none := by
        by_cases hid : id = requestId
        · subst hid
          simp [updateRequest, hold]
        · simp [updateRequest, hid, hold]
      cases hnone.symm.trans hq

theorem keeps_effectFailed (reason : String) : KeepsAuthorization (effectFailed reason) := fun _ => ⟨rfl,rfl,rfl⟩

theorem keeps_effectDone (status : EffectStatus) (reason : String) : KeepsAuthorization (effectDone status reason) :=
  fun _ => ⟨rfl,rfl,rfl⟩

end Rewriting

section Invariant
variable {env : Approvals.Platform} {db db' : Db}

/-- Rows of one recipient of one request. -/
def SameRecipient (r r' : OutboxRow) : Prop := r.requestId = r'.requestId ∧ r.recipientIndex = r'.recipientIndex

/-- Ids are distinct, each row was queued by the approval of its revision, and of two rows of a recipient the
earlier is cancelled. -/
structure OutboxKept (db : Db) : Prop where
  requests : ∀ id q, db.requests id = some q → id < db.nextId
  ids : ∀ r ∈ db.outbox.rows, r.id < db.outbox.nextId
  nodup : (db.outbox.rows.map OutboxRow.id).Nodup
  authorized : ∀ r ∈ db.outbox.rows, ∃ q, db.requests r.requestId = some q ∧
    r.authorizationRevision ≤ q.authorizationRevision ∧ (r.authorizationRevision = q.authorizationRevision →
      q.status ≠ .pending ∧ r.authorizationHash = q.authorizationHash)
  earlier : ∀ r ∈ db.outbox.rows, ∀ r' ∈ db.outbox.rows, SameRecipient r r' → r = r' ∨
    (r.authorizationRevision < r'.authorizationRevision ∧ r.state = .cancelled) ∨
    (r'.authorizationRevision < r.authorizationRevision ∧ r'.state = .cancelled)

theorem OutboxKept.eq_of_id (h : OutboxKept db) {r r' : OutboxRow} (hr : r ∈ db.outbox.rows)
    (hr' : r' ∈ db.outbox.rows) (hid : r.id = r'.id) : r = r' :=
  List.inj_on_of_nodup_map h.nodup hr hr' hid

theorem OutboxKept.initial (h : Approvals.Initial db) : OutboxKept db := by
  refine ⟨fun id q hq => ?_,?_,?_,?_,?_⟩
  · rw [h.requests id] at hq
    cases hq
  all_goals rw [h.outbox]
  · exact fun _ hr => absurd hr List.not_mem_nil
  · exact List.nodup_nil
  · exact fun _ hr => absurd hr List.not_mem_nil
  · exact fun _ hr => absurd hr List.not_mem_nil

/-- The authorization that a row was queued by is behind it or undone by no step. -/
theorem authorized_of_advanced {q q' : ApprovalRow} {revision : ℕ} {hash : String} (hadv : Advanced q q')
    (hle : revision ≤ q.authorizationRevision)
    (heq : revision = q.authorizationRevision → q.status ≠ .pending ∧ hash = q.authorizationHash) :
    revision ≤ q'.authorizationRevision ∧ (revision = q'.authorizationRevision →
      q'.status ≠ .pending ∧ hash = q'.authorizationHash) := by
  rcases hadv with ⟨hrev,hhash,hstatus⟩ | hlt
  · refine ⟨hrev ▸ hle,fun h => ?_⟩
    obtain ⟨hne,hsame⟩ := heq (h.trans hrev)
    rw [hstatus hne, hhash]
    exact ⟨hne,hsame⟩
  · exact ⟨hle.trans hlt.le,fun h => absurd (h ▸ hle) (Nat.not_le.mpr hlt)⟩

theorem OutboxKept.rewrites (h : OutboxKept db) (hr : Rewrites db db') : OutboxKept db' := by
  obtain ⟨g,hg,hmoves⟩ := hr.rows
  have hold : ∀ r ∈ db'.outbox.rows, ∃ s ∈ db.outbox.rows, r = g s ∧ Moves s (g s) := by
    intro r hr
    rw [hg] at hr
    obtain ⟨s,hs,rfl⟩ := List.mem_map.mp hr
    exact ⟨s,hs,rfl,hmoves s hs⟩
  refine ⟨hr.ids h.requests,?_,?_,?_,?_⟩
  · intro r hmem
    obtain ⟨s,hs,rfl,hmove⟩ := hold r hmem
    rw [hr.nextId, hmove.id]
    exact h.ids s hs
  · have hids : db'.outbox.rows.map OutboxRow.id = db.outbox.rows.map OutboxRow.id := by
      rw [hg, List.map_map]
      exact List.map_congr_left fun s hs => (hmoves s hs).id
    rw [hids]
    exact h.nodup
  · intro r hmem
    obtain ⟨s,hs,rfl,hmove⟩ := hold r hmem
    obtain ⟨q,hq,hle,heq⟩ := h.authorized s hs
    obtain ⟨q',hq',hadv⟩ := hr.requests _ q hq
    refine ⟨q',hmove.request ▸ hq',?_⟩
    rw [hmove.revision, hmove.hash]
    exact authorized_of_advanced hadv hle heq
  · intro r hmem r' hmem' hsame
    obtain ⟨s,hs,rfl,hmove⟩ := hold r hmem
    obtain ⟨s',hs',rfl,hmove'⟩ := hold r' hmem'
    have hrecipient : SameRecipient s s' :=
      ⟨hmove.request.symm.trans (hsame.1.trans hmove'.request),hmove.index.symm.trans (hsame.2.trans hmove'.index)⟩
    rw [hmove.revision, hmove'.revision]
    rcases h.earlier s hs s' hs' hrecipient with rfl | ⟨hlt,hc⟩ | ⟨hlt,hc⟩
    · exact Or.inl rfl
    · exact Or.inr (Or.inl ⟨hlt,(hmove.final (by rw [hc]; rfl)).symm ▸ hc⟩)
    · exact Or.inr (Or.inr ⟨hlt,(hmove'.final (by rw [hc]; rfl)).symm ▸ hc⟩)

end Invariant

section Approving
variable {env : Approvals.Platform} {db db' : Db} {e : Approvals.Event}

/-- An approval step keeps or advances every authorization, and creates no request out of turn. -/
theorem advanced_of_restated (h : Restated db e db') (hids : ∀ id q, db.requests id = some q → id < db.nextId) :
    (∀ id q, db.requests id = some q → ∃ q', db'.requests id = some q' ∧ Advanced q q') ∧
      ∀ id q, db'.requests id = some q → id < db'.nextId := by
  have hupdate : ∀ {requestId : RequestId} {row row' : ApprovalRow}, db.requests requestId = some row →
      Advanced row row' → db'.requests = Function.update db.requests requestId (some row') → db.nextId ≤ db'.nextId →
      (∀ id q, db.requests id = some q → ∃ q', db'.requests id = some q' ∧ Advanced q q') ∧
        ∀ id q, db'.requests id = some q → id < db'.nextId := by
    intro requestId row row' hrow hadv hreq hnext
    refine ⟨fun id q hq => ?_,fun id q hq => ?_⟩
    · by_cases hid : id = requestId
      · subst hid
        cases hrow.symm.trans hq
        exact ⟨row',by rw [hreq, Function.update_self],hadv⟩
      · exact ⟨q,by rw [hreq, Function.update_of_ne hid, hq],.refl q⟩
    · by_cases hid : id = requestId
      · exact hid ▸ (hids requestId row hrow).trans_le hnext
      · rw [hreq, Function.update_of_ne hid] at hq
        exact (hids id q hq).trans_le hnext
  cases h with
  | untouched hu =>
    refine ⟨fun id q hq => ⟨q,hu.requests ▸ hq,.refl q⟩,fun id q hq => ?_⟩
    exact (hids id q (hu.requests ▸ hq)).trans_le hu.nextId
  | opened row ho =>
    refine ⟨fun id q hq => ⟨q,?_,.refl q⟩,fun id q hq => ?_⟩
    · rw [ho.requests, Function.update_of_ne (hids id q hq).ne, hq]
    · rw [ho.nextId]
      by_cases hid : id = db.nextId
      · exact hid ▸ Nat.lt_succ_self _
      · rw [ho.requests, Function.update_of_ne hid] at hq
        exact Nat.lt_succ_of_lt (hids id q hq)
  | closed requestId row row' status hc =>
    exact hupdate hc.loaded (Or.inl ⟨hc.same.revision,hc.same.hash,fun hne => absurd hc.pending hne⟩) hc.requests
      hc.nextId
  | revised requestId row row' hstatus ha =>
    exact hupdate ha.loaded (Or.inr (ha.revision ▸ Nat.lt_succ_self _)) ha.requests ha.nextId
  | reopened requestId userId row row' he hstatus htype ha =>
    exact hupdate ha.loaded (Or.inr (ha.revision ▸ Nat.lt_succ_self _)) ha.requests ha.nextId

/-- What an approval step did to the outbox: nothing, or it queued the email that it made final. -/
inductive Appended (db db' : Db) : Prop
  | kept : db'.outbox = db.outbox → Appended db db'
  | queued (requestId : RequestId) (row row' : ApprovalRow) (d : CommunicationDetails)
      (thread : Option ReplyThread) (ids : List OutboxId) (new : List OutboxRow) :
      db.requests requestId = some row → row.status = .pending →
      db'.requests = Function.update db.requests requestId (some row') → row'.status = .approved →
      row'.authorizationRevision = row.authorizationRevision → row'.authorizationHash = row.authorizationHash →
      Queues ⟨requestId,row.authorizationRevision,row.authorizationHash,d⟩ (senderBinding db.mail d) thread 0
        db.outbox db'.outbox ids new → Appended db db'

/-- Rows of a revision are there only once it is decided. -/
theorem OutboxKept.unqueued (h : OutboxKept db) {requestId : RequestId} {row : ApprovalRow}
    (hrow : db.requests requestId = some row) (hp : row.status = .pending) (d : CommunicationDetails) :
    Unqueued ⟨requestId,row.authorizationRevision,row.authorizationHash,d⟩ 0 db.outbox.rows := by
  intro r hr hrequest hrevision
  obtain ⟨q,hq,-,heq⟩ := h.authorized r hr
  rw [hrequest, hrow] at hq
  cases hq
  exact absurd hp (heq hrevision).1

theorem queueApprovedEmail_spec {mail : MailTables} {engagements : List EngagementRow} {email : ApprovedEmail}
    {outbox outbox' : Outbox} {queued : Option QueuedEmailOutbox} (h : Unqueued email 0 outbox.rows)
    (hq : queueApprovedEmail mail engagements email outbox = .ok (outbox',queued)) :
    (outbox' = outbox ∧ queued = none) ∨ ∃ thread ids new,
      Queues email (senderBinding mail email.details) thread 0 outbox outbox' ids new ∧
      queued = some ⟨ids,(senderBinding mail email.details).state,thread.isSome⟩ := by
  unfold queueApprovedEmail at hq
  split at hq
  next => cases hq; exact Or.inl ⟨rfl,rfl⟩
  next =>
    simp only [Result.bind_eq_ok, Result.pure_eq_ok] at hq
    obtain ⟨thread,-,⟨next,ids⟩,hnext,hq⟩ := hq
    cases hq
    obtain ⟨new,hnew⟩ := queueRecipients_spec h hnext
    exact Or.inr ⟨thread,ids,new,hnew,rfl⟩

theorem appended_of_decided {requestId : RequestId} {context : ApprovalHumanContext} {input : DecideApprovalInput}
    (h : OutboxKept db) (hd : Decided env db requestId context input db') : Appended db db' := by
  cases hd with
  | replayed _ => exact .kept rfl
  | expired row hrow hp hexp => exact .kept rfl
  | closed row reviewer step b hd =>
    exact .kept (closeDecision_spec _ _ _ _ _).2.2.1
  | counted row reviewer step b hd hall => exact .kept rfl
  | finalized row reviewer step f b hd hall hf =>
    have hspec := finalizeApproval_spec hf
    obtain ⟨hreceipt,hout,-⟩ := writeApprovalReceipt_requests f requestId row .approved reviewer.name
    rcases hspec.outbox with hsame | ⟨queued,hqueue⟩
    · exact .kept (hout.trans hsame)
    · unfold queueFinalizedEmail at hqueue
      split at hqueue
      next d hdetails =>
        rcases queueApprovedEmail_spec (h.unqueued b.loaded b.pending d) hqueue with
          ⟨hsame,-⟩ | ⟨thread,ids,new,hnew,-⟩
        · exact .kept (hout.trans hsame)
        · obtain ⟨row',hreq,effect,work,reason,job,hrow'⟩ := hspec.approved
          refine .queued requestId row row' d thread ids new b.loaded b.pending (hreceipt.trans hreq) ?_ ?_ ?_ ?_
          · simp [hrow', approvedRow, b.pending]
          · rw [hrow']
            rfl
          · rw [hrow']
            rfl
          · rw [hout]
            exact hnew
      next =>
        rw [Except.ok.injEq, Prod.mk.injEq] at hqueue
        exact .kept (hout.trans hqueue.1.symm)

theorem appended_of_step (h : OutboxKept db) (hs : Approvals.Step env db e db') : Appended db db' := by
  cases hs.change with
  | environment directory mail elapsed => exact .kept rfl
  | proposed context input p hp => exact .kept rfl
  | expired requestId row hrow hp hexp => exact .kept rfl
  | decided requestId context input db' hd => exact appended_of_decided h hd
  | revised requestId row proposal r db' hr => exact .kept hr.outbox
  | routed requestId row route db' hr =>
    obtain ⟨commands,rfl⟩ := hr.changed
    exact .kept rfl

theorem OutboxKept.queues {requestId : RequestId} {row row' : ApprovalRow} {d : CommunicationDetails}
    {binding : SenderBinding} {thread : Option ReplyThread} {ids : List OutboxId} {new : List OutboxRow}
    (h : OutboxKept db) (hrow : db.requests requestId = some row) (hp : row.status = .pending)
    (hreq : db'.requests = Function.update db.requests requestId (some row')) (happroved : row'.status = .approved)
    (hrev : row'.authorizationRevision = row.authorizationRevision)
    (hhash : row'.authorizationHash = row.authorizationHash)
    (hq : Queues ⟨requestId,row.authorizationRevision,row.authorizationHash,d⟩ binding thread 0 db.outbox db'.outbox
      ids new)
    (hrequests : ∀ id q, db.requests id = some q → ∃ q', db'.requests id = some q' ∧ Advanced q q')
    (hids : ∀ id q, db'.requests id = some q → id < db'.nextId) : OutboxKept db' := by
  have hmade : ∀ r ∈ new, r.requestId = requestId ∧ r.authorizationRevision = row.authorizationRevision ∧
      r.authorizationHash = row.authorizationHash := by
    intro r hr
    obtain ⟨id,j,recipient,address,rfl,-⟩ := hq.made r hr
    exact ⟨rfl,rfl,rfl⟩
  have hfresh : ∀ r ∈ new, db.outbox.nextId ≤ r.id ∧ r.id < db'.outbox.nextId := by
    intro r hr
    have hmem := List.mem_map_of_mem (f := OutboxRow.id) hr
    rw [hq.fresh, List.mem_range'_1] at hmem
    rw [hq.nextId]
    exact hmem
  have hearlier : ∀ r ∈ db.outbox.rows, ∀ r' ∈ new, SameRecipient r r' →
      r.authorizationRevision < r'.authorizationRevision ∧ r.state = .cancelled := by
    intro r hr r' hr' ⟨hrequest,hindex⟩
    obtain ⟨hrequest',hrevision',-⟩ := hmade r' hr'
    have hlt : r.authorizationRevision < row.authorizationRevision := by
      obtain ⟨q,hq,hle,heq⟩ := h.authorized r hr
      rw [hrequest, hrequest', hrow] at hq
      cases hq
      exact Nat.lt_of_le_of_ne hle fun he => (heq he).1 hp
    refine ⟨hrevision' ▸ hlt,cancelled_of_resend (hq.resend r' hr') hr (hrequest.trans hrequest') hindex ?_⟩
    exact hlt
  refine ⟨hids,?_,?_,?_,?_⟩
  · intro r hr
    rw [hq.rows] at hr
    rcases List.mem_append.mp hr with hr | hr
    · rw [hq.nextId]
      exact Nat.lt_of_lt_of_le (h.ids r hr) (Nat.le_add_right _ _)
    · exact (hfresh r hr).2
  · rw [hq.rows, List.map_append, hq.fresh]
    refine h.nodup.append List.nodup_range' fun id hid hid' => ?_
    obtain ⟨r,hr,rfl⟩ := List.mem_map.mp hid
    exact absurd (List.mem_range'_1.mp hid').1 (Nat.not_le.mpr (h.ids r hr))
  · intro r hr
    rw [hq.rows] at hr
    rcases List.mem_append.mp hr with hr | hr
    · obtain ⟨q,hq,hle,heq⟩ := h.authorized r hr
      obtain ⟨q',hq',hadv⟩ := hrequests _ q hq
      exact ⟨q',hq',authorized_of_advanced hadv hle heq⟩
    · obtain ⟨hrequest,hrevision,hsame⟩ := hmade r hr
      refine ⟨row',by rw [hrequest, hreq, Function.update_self],?_,fun _ => ⟨?_,?_⟩⟩
      · rw [hrevision, hrev]
      · rw [happroved]
        decide
      · rw [hsame, hhash]
  · intro r hr r' hr' hsame
    rw [hq.rows] at hr hr'
    rcases List.mem_append.mp hr with hr | hr
    · rcases List.mem_append.mp hr' with hr' | hr'
      · exact h.earlier r hr r' hr' hsame
      · exact Or.inr (Or.inl (hearlier r hr r' hr' hsame))
    · rcases List.mem_append.mp hr' with hr' | hr'
      · exact Or.inr (Or.inr (hearlier r' hr' r hr ⟨hsame.1.symm,hsame.2.symm⟩))
      · have hplaces : (new.map OutboxRow.recipientIndex).Nodup :=
          List.pairwise_map.mpr (hq.places.imp Nat.ne_of_lt)
        exact Or.inl (List.inj_on_of_nodup_map hplaces hr hr' hsame.2)

theorem OutboxKept.step (h : OutboxKept db) (hs : Approvals.Step env db e db') : OutboxKept db' := by
  obtain ⟨hrequests,hids⟩ := advanced_of_restated hs.restated h.requests
  cases appended_of_step h hs with
  | kept hout =>
    refine h.rewrites ⟨⟨id,?_,fun r _ => .refl r⟩,?_,hrequests,fun _ => hids⟩
    · rw [hout, List.map_id]
    · rw [hout]
  | queued requestId row row' d thread ids new hrow hp hreq happroved hrev hhash hq =>
    exact h.queues hrow hp hreq happroved hrev hhash hq hrequests hids

end Approving

end HermesEnterprise.Email
