import HermesEnterprise.Approvals.Lineage
import HermesEnterprise.Approvals.Soundness

/-! # The three status columns of an approval

The status stands on the approval, on its request and on the row of its current
revision. Every operation moves the three together, revisions are numbered from
one without gaps, and only the current one may be undecided.
-/
namespace HermesEnterprise.Approvals
open Foundation.Runs Foundation.Tables Jobs Email

variable {env : Platform} {db db' : Db} {requestId : RequestId} {row row' : ApprovalRow}

/-- The revisions of one request, in the order they were written. -/
def revisionsOf (db : Db) (requestId : RequestId) : List RevisionRow :=
  db.revisions.filter fun r => r.requestId = requestId

/-- The status columns of one approval agree, and its revisions are in order. -/
structure Standing (db : Db) (requestId : RequestId) (row : ApprovalRow) : Prop where
  request : row.requestStatus = row.status
  stored : row.payload.authorization.revision = row.authorizationRevision ∧
    row.payload.authorization.hash = row.authorizationHash
  first : 1 ≤ row.authorizationRevision
  numbered : (revisionsOf db requestId).map RevisionRow.revision =
    List.range' 1 row.authorizationRevision
  current : ∀ r ∈ revisionsOf db requestId, r.revision = row.authorizationRevision →
    r.status = .current row.status ∧ r.authorizationHash = row.authorizationHash
  decided : ∀ r ∈ revisionsOf db requestId, r.status = .current .pending →
    r.revision = row.authorizationRevision

/-- Every approval stands, and revisions belong to requests that were created. -/
structure Stands (db : Db) : Prop where
  approvals : ∀ id row, db.requests id = some row → id < db.nextId ∧ Standing db id row
  revisions : ∀ r ∈ db.revisions, r.requestId < db.nextId

/-- The row numbered by the approval exists and has its status. -/
theorem Standing.exists_current (h : Standing db requestId row) :
    ∃ r ∈ revisionsOf db requestId, r.revision = row.authorizationRevision ∧
      r.status = .current row.status := by
  have hm : row.authorizationRevision ∈ (revisionsOf db requestId).map RevisionRow.revision := by
    rw [h.numbered, List.mem_range']
    exact ⟨row.authorizationRevision - 1,by have := h.first; omega,by have := h.first; omega⟩
  obtain ⟨r,hr,hrev⟩ := List.mem_map.mp hm
  exact ⟨r,hr,hrev,(h.current r hr hrev).1⟩

section Changes

/-- Nothing about approvals or revisions was written. -/
structure Untouched (db db' : Db) : Prop where
  requests : db'.requests = db.requests
  revisions : db'.revisions = db.revisions
  nextId : db.nextId ≤ db'.nextId

/-- A pending approval got its outcome in all three columns. -/
structure Closes (db : Db) (requestId : RequestId) (row : ApprovalRow) (status : ApprovalStatus)
    (row' : ApprovalRow) (db' : Db) : Prop where
  loaded : db.requests requestId = some row
  pending : row.status = .pending
  outcome : status ≠ .pending
  column : row'.status = status
  request : row.requestStatus = .pending → row'.requestStatus = status
  same : SameRevision row row'
  requests : db'.requests = Function.update db.requests requestId (some row')
  revisions : db'.revisions =
    (db.setRevisionStatus requestId row.authorizationRevision (.current status)).revisions
  nextId : db.nextId ≤ db'.nextId

/-- The next revision was written over the row, pending in all three columns. -/
structure Advances (db : Db) (requestId : RequestId) (row row' : ApprovalRow) (db' : Db) : Prop where
  loaded : db.requests requestId = some row
  column : row'.status = .pending ∧ row'.requestStatus = .pending
  revision : row'.authorizationRevision = row.authorizationRevision + 1
  stored : row'.payload.authorization.revision = row'.authorizationRevision ∧
    row'.payload.authorization.hash = row'.authorizationHash
  requests : db'.requests = Function.update db.requests requestId (some row')
  revisions : db'.revisions = supersede requestId row db.revisions ++
    [⟨requestId,row'.authorizationRevision,row'.authorizationHash,row'.payload,.current .pending⟩]
  nextId : db.nextId ≤ db'.nextId

/-- The first revision of a new request was written. -/
structure Opens (db : Db) (row : ApprovalRow) (db' : Db) : Prop where
  column : row.status = .pending ∧ row.requestStatus = .pending
  revision : row.authorizationRevision = 1
  stored : row.payload.authorization.revision = 1 ∧
    row.payload.authorization.hash = row.authorizationHash
  requests : db'.requests = Function.update db.requests db.nextId (some row)
  revisions : db'.revisions = db.revisions ++
    [⟨db.nextId,1,row.authorizationHash,row.payload,.current .pending⟩]
  nextId : db'.nextId = db.nextId + 1

/-- What an event did to the status columns. Only a revision of an undecided approval and the
reopening of an approved communication write a next revision. -/
inductive Restated (db : Db) (e : Event) (db' : Db) : Prop
  | untouched : Untouched db db' → Restated db e db'
  | opened (row : ApprovalRow) : Opens db row db' → Restated db e db'
  | closed (requestId : RequestId) (row row' : ApprovalRow) (status : ApprovalStatus) :
      Closes db requestId row status row' db' → Restated db e db'
  | revised (requestId : RequestId) (row row' : ApprovalRow) :
      (row.status = .pending ∨ row.status = .changesRequested) →
      Advances db requestId row row' db' → Restated db e db'
  | reopened (requestId : RequestId) (userId : UserId) (row row' : ApprovalRow) :
      e = .reopen requestId userId → row.status = .approved →
      row.payload.approvalType = .communication → Advances db requestId row row' db' →
      Restated db e db'

theorem writeApprovalReceipt_revisions (db : Db) (requestId : RequestId) (row : ApprovalRow)
    (decision : ApprovalStatus) (actor : String) :
    (writeApprovalReceipt db requestId row decision actor).revisions = db.revisions := by
  unfold writeApprovalReceipt
  split
  · rfl
  · split
    · rfl
    · split <;> rfl

theorem writeStage_revisions (db : Db) (requestId : RequestId) (details : ProposalDetails)
    (queued : Option QueuedEmailOutbox) :
    (writeStage db requestId details queued).revisions = db.revisions := by
  unfold writeStage
  split
  · split <;> rfl
  · rfl

theorem enqueueFollowOn_revisions (db : Db) (requestId : RequestId) (row : ApprovalRow) :
    (enqueueFollowOn db requestId row).revisions = db.revisions := by
  unfold enqueueFollowOn
  split
  · rfl
  · dsimp only
    split <;> rfl

theorem finalizeApproval_revisions {simulate : Bool} {f : Db}
    (h : finalizeApproval env db requestId row simulate = .ok f) :
    f.revisions = (approveStatuses db requestId row).revisions := by
  simp only [finalizeApproval, Result.bind_eq_ok] at h
  obtain ⟨materialized,-,h⟩ := h
  split at h
  · rw [Result.pure_eq_ok] at h
    exact h ▸ rfl
  · rw [Result.bind_eq_ok] at h
    obtain ⟨⟨outbox,queued⟩,-,h⟩ := h
    rw [Result.pure_eq_ok] at h
    subst h
    simp only [continueFinalized]
    rw [enqueueFollowOn_revisions, writeStage_revisions]

theorem closes_markExpired (hrow : db.requests requestId = some row) (hp : row.status = .pending) :
    Closes db requestId row .expired
      (statusRow row .expired .cancelled (some "The authorization expired."))
      (markExpired db requestId row) :=
  ⟨hrow,hp,by decide,rfl,fun _ => rfl,⟨rfl,rfl,rfl,rfl⟩,rfl,rfl,le_rfl⟩

theorem advances_writeRevision {userId : UserId} {proposal : ApprovalProposal} {requested : Option ℕ}
    (hrow : db.requests requestId = some row)
    (h : writeRevision env db requestId userId row proposal requested = .ok db') :
    ∃ row', Advances db requestId row row' db' := by
  simp only [writeRevision, Result.bind_eq_ok] at h
  obtain ⟨r,-,_,-,h⟩ := h
  split at h
  · cases h
  · rw [Result.pure_eq_ok] at h
    subst h
    exact ⟨_,hrow,⟨rfl,rfl⟩,rfl,⟨rfl,rfl⟩,rfl,rfl,le_rfl⟩

theorem Advances.setEffectReason (h : Advances db requestId row row' db') (reason : String) :
    ∃ row', Advances db requestId row row' (setEffectReason db' requestId reason) := by
  have hrow : db'.requests requestId = some row' := by rw [h.requests, Function.update_self]
  unfold Approvals.setEffectReason
  rw [hrow]
  refine ⟨{ row' with effect := { row'.effect with reason := some reason } },h.loaded,h.column,
    h.revision,h.stored,?_,h.revisions,h.nextId⟩
  rw [setRequest_requests, h.requests, Function.update_idem]

theorem restated_decided {context : ApprovalHumanContext} {input : DecideApprovalInput} {e : Event}
    (h : Decided env db requestId context input db') : Restated db e db' := by
  cases h with
  | replayed _ => exact .untouched ⟨rfl,rfl,le_rfl⟩
  | expired row hrow hp _ => exact .closed requestId row _ _ (closes_markExpired hrow hp)
  | closed row reviewer step b hd =>
    obtain ⟨hframe,hreq,-⟩ := closeDecision_spec (recordVote env db requestId row step reviewer input)
      requestId row input.decision reviewer.name
    have hrevs : (closeDecision (recordVote env db requestId row step reviewer input) requestId row
        input.decision reviewer.name).revisions = (db.setRevisionStatus requestId
          row.authorizationRevision (.current (closedRow row input.decision).status)).revisions := by
      rw [closeDecision]
      exact (writeApprovalReceipt_revisions _ _ _ _ _).trans rfl
    refine .closed requestId row (closedRow row input.decision) _ ⟨b.loaded,b.pending,?_,rfl,
      fun _ => rfl,⟨rfl,rfl,rfl,rfl⟩,hreq,hrevs,hframe.nextId ▸ Nat.le_succ _⟩
    simp only [closedRow, statusRow]
    split <;> decide
  | counted row reviewer step b _ _ => exact .untouched ⟨rfl,rfl,Nat.le_succ _⟩
  | finalized row reviewer step f b _ _ hf =>
    have hspec := finalizeApproval_spec hf
    obtain ⟨row',hreq,effect,work,reason,job,hrow'⟩ := hspec.approved
    have hframe := writeApprovalReceipt_frame f requestId row .approved reviewer.name
    refine .closed requestId row row' .approved ⟨b.loaded,b.pending,by decide,?_,?_,
      hrow' ▸ ⟨rfl,rfl,rfl,rfl⟩,(writeApprovalReceipt_requests _ _ _ _ _).1.trans hreq,?_,?_⟩
    · simp [hrow', approvedRow, b.pending]
    · intro hr
      simp [hrow', approvedRow, hr]
    · rw [writeApprovalReceipt_revisions, finalizeApproval_revisions hf]
      rfl
    · rw [hframe.nextId, hspec.nextId]
      exact Nat.le_succ _

theorem restated_revise {context : ApprovalHumanContext} {input : ReviseApprovalInput}
    {result : CommandResult} {e : Event}
    (h : reviseApproval env db requestId context input = .ok (db',result)) : Restated db e db' := by
  simp only [reviseApproval, Result.bind_eq_ok] at h
  obtain ⟨replay,-,h⟩ := h
  cases replay with
  | true =>
    simp only [if_true, Result.bind_eq_ok, Result.pure_eq_ok] at h
    obtain ⟨view,-,h⟩ := h
    cases h
    exact .untouched ⟨rfl,rfl,le_rfl⟩
  | false =>
    simp only [Bool.false_eq_true, if_false, Result.bind_eq_ok, Result.pure_eq_ok] at h
    obtain ⟨row,hrow,_,-,_,hstatus,_,-,revised,hw,view,-,h⟩ := h
    simp only [requireRevisable, Result.bind_eq_ok, require_eq_ok, decide_eq_true_eq] at hstatus
    obtain ⟨_,hstatus,-⟩ := hstatus
    cases h
    obtain ⟨row',ha⟩ := advances_writeRevision (loadApprovalRow_ok hrow) hw
    exact .revised requestId row row' hstatus
      ⟨ha.loaded,ha.column,ha.revision,ha.stored,ha.requests,ha.revisions,ha.nextId⟩

theorem restated_reopen {userId : UserId}
    (h : reopenApprovalForResend env db requestId userId = .ok db') :
    Restated db (.reopen requestId userId) db' := by
  simp only [reopenApprovalForResend, Result.bind_eq_ok] at h
  obtain ⟨row,hrow,h⟩ := h
  split at h
  · rw [Result.pure_eq_ok] at h
    exact h ▸ .untouched ⟨rfl,rfl,le_rfl⟩
  · simp only [Result.bind_eq_ok, Result.pure_eq_ok, require_eq_ok, decide_eq_true_eq] at h
    obtain ⟨_,happroved,_,htype,revised,hw,h⟩ := h
    obtain ⟨next,ha⟩ := advances_writeRevision (loadApprovalRow_ok hrow) hw
    obtain ⟨row',ha⟩ := ha.setEffectReason reopenedReason
    exact .reopened requestId userId row row' rfl happroved htype (h ▸ ha)

theorem restated_route {context : ApprovalHumanContext} {input : RouteApprovalInput}
    {result : CommandResult} {e : Event}
    (h : routeApproval env db requestId context input = .ok (db',result)) : Restated db e db' := by
  simp only [routeApproval, Result.bind_eq_ok] at h
  obtain ⟨replay,-,h⟩ := h
  cases replay with
  | true =>
    simp only [if_true, Result.bind_eq_ok, Result.pure_eq_ok] at h
    obtain ⟨view,-,h⟩ := h
    cases h
    exact .untouched ⟨rfl,rfl,le_rfl⟩
  | false =>
    simp only [Bool.false_eq_true, if_false, Result.bind_eq_ok, Result.pure_eq_ok] at h
    obtain ⟨row,-,_,-,_,-,parties,-,_,-,view,-,h⟩ := h
    cases h
    exact .untouched ⟨rfl,rfl,Nat.le_succ _⟩

theorem restated_read {viewerUserId : UserId} {view : ApprovalView} {e : Event}
    (h : getApproval db requestId viewerUserId = .ok (db',view)) : Restated db e db' := by
  simp only [getApproval, Result.bind_eq_ok, Result.pure_eq_ok] at h
  obtain ⟨_,-,row,hrow,_,-,h⟩ := h
  simp only [Prod.mk.injEq] at h
  obtain ⟨rfl,-⟩ := h
  split
  next hexp => exact .closed requestId row _ _ (closes_markExpired (loadApprovalRow_ok hrow) hexp.1)
  next => exact .untouched ⟨rfl,rfl,le_rfl⟩

/-- Every step restates the columns in one of these ways. -/
theorem Step.restated {e : Event} (h : Step env db e db') : Restated db e db' := by
  unfold Step apply at h
  cases e with
  | propose context input =>
    obtain ⟨view,h⟩ := Result.map_fst_ok h
    rcases proposeApproval_ok h with rfl | ⟨p,hp,rfl⟩
    · exact .untouched ⟨rfl,rfl,le_rfl⟩
    · exact .opened _ ⟨⟨rfl,rfl⟩,rfl,⟨rfl,rfl⟩,rfl,rfl,rfl⟩
  | decide requestId context input =>
    obtain ⟨result,h⟩ := Result.map_fst_ok h
    exact restated_decided (decideApproval_ok h)
  | revise requestId context input =>
    obtain ⟨result,h⟩ := Result.map_fst_ok h
    exact restated_revise h
  | route requestId context input =>
    obtain ⟨result,h⟩ := Result.map_fst_ok h
    exact restated_route h
  | reopen requestId userId => exact restated_reopen h
  | read requestId viewerUserId =>
    obtain ⟨view,h⟩ := Result.map_fst_ok h
    exact restated_read h
  | directory next => cases h; exact .untouched ⟨rfl,rfl,le_rfl⟩
  | mail next => cases h; exact .untouched ⟨rfl,rfl,le_rfl⟩
  | tick elapsed => cases h; exact .untouched ⟨rfl,rfl,le_rfl⟩

end Changes

section Invariant
variable {id : RequestId} {status : ApprovalStatus}

theorem mem_revisionsOf {r : RevisionRow} :
    r ∈ revisionsOf db requestId ↔ r ∈ db.revisions ∧ r.requestId = requestId := by
  simp [revisionsOf]

/-- An approval stands by its own revisions. -/
theorem Standing.congr (h : Standing db id row) (hr : revisionsOf db' id = revisionsOf db id) :
    Standing db' id row :=
  ⟨h.request,h.stored,h.first,hr ▸ h.numbered,hr ▸ h.current,hr ▸ h.decided⟩

/-- Rows of one request are rewritten; the revisions of every other one stay. -/
theorem revisionsOf_update_ne {p : RevisionRow → Bool} {f : RevisionRow → RevisionRow}
    {rest : List RevisionRow} (hne : id ≠ requestId) (hp : ∀ r, p r = true → r.requestId = requestId)
    (hf : ∀ r, (f r).requestId = r.requestId) (hrest : ∀ r ∈ rest, r.requestId = requestId)
    (h : db'.revisions = updateWhere p f db.revisions ++ rest) :
    revisionsOf db' id = revisionsOf db id := by
  have hlast : rest.filter (fun r => decide (r.requestId = id)) = [] := by
    rw [List.filter_eq_nil_iff]
    intro r hr
    simpa [hrest r hr] using hne.symm
  rw [revisionsOf, h, List.filter_append, hlast, List.append_nil,
    filter_updateWhere fun s _ _ => by rw [hf], revisionsOf]
  apply updateWhere_eq_self
  intro r hr
  have hid : r.requestId = id := by simpa using (List.mem_filter.mp hr).2
  rw [← Bool.not_eq_true]
  exact fun h => hne (hid ▸ hp r h)

theorem Closes.revisionsOf_eq (hc : Closes db requestId row status row' db') :
    revisionsOf db' requestId = updateWhere
      (fun r => r.requestId = requestId ∧ r.revision = row.authorizationRevision)
      (fun r => { r with status := .current status }) (revisionsOf db requestId) := by
  rw [revisionsOf, hc.revisions]
  exact filter_updateWhere fun _ _ _ => rfl

theorem Standing.closes (h : Standing db requestId row)
    (hc : Closes db requestId row status row' db') : Standing db' requestId row' := by
  obtain ⟨hrev,hhash,-,hpayload⟩ := hc.same
  have hrevs := hc.revisionsOf_eq
  refine ⟨?_,?_,?_,?_,?_,?_⟩
  · rw [hc.column]
    exact hc.request (h.request.trans hc.pending)
  · rw [hrev, hhash, hpayload]
    exact h.stored
  · rw [hrev]
    exact h.first
  · rw [hrev, ← h.numbered, hrevs]
    exact map_updateWhere RevisionRow.revision fun _ _ _ => rfl
  · intro r hr hnum
    rw [hrevs] at hr
    rw [hc.column, hhash]
    rcases mem_updateWhere.mp hr with ⟨s,hs,hp,rfl⟩ | ⟨hr,hp⟩
    · exact ⟨rfl,(h.current s hs (by simpa using (of_decide_eq_true hp).2)).2⟩
    · exact absurd ⟨(mem_revisionsOf.mp hr).2,hnum.trans hrev⟩ (of_decide_eq_false hp)
  · intro r hr hpending
    rw [hrevs] at hr
    rcases mem_updateWhere.mp hr with ⟨s,hs,-,rfl⟩ | ⟨hr,hp⟩
    · exact absurd (RevisionStatus.current.inj hpending) hc.outcome
    · exact absurd ⟨(mem_revisionsOf.mp hr).2,h.decided r hr hpending⟩ (of_decide_eq_false hp)

theorem Advances.revisionsOf_eq (ha : Advances db requestId row row' db') :
    revisionsOf db' requestId = supersede requestId row (revisionsOf db requestId) ++
      [⟨requestId,row'.authorizationRevision,row'.authorizationHash,row'.payload,
        .current .pending⟩] := by
  rw [revisionsOf, ha.revisions, List.filter_append]
  congr 1
  · exact filter_updateWhere fun _ _ _ => rfl
  · simp

theorem Standing.advances (h : Standing db requestId row)
    (ha : Advances db requestId row row' db') : Standing db' requestId row' := by
  have hrevs := ha.revisionsOf_eq
  have hkept : (supersede requestId row (revisionsOf db requestId)).map RevisionRow.revision =
      (revisionsOf db requestId).map RevisionRow.revision :=
    map_updateWhere RevisionRow.revision fun _ _ _ => rfl
  have hold : ∀ r ∈ supersede requestId row (revisionsOf db requestId),
      r.revision < row'.authorizationRevision := by
    intro r hr
    have hm : r.revision ∈ (supersede requestId row (revisionsOf db requestId)).map
        RevisionRow.revision := List.mem_map_of_mem hr
    rw [hkept, h.numbered, List.mem_range'] at hm
    obtain ⟨k,hk,he⟩ := hm
    rw [ha.revision]
    omega
  refine ⟨ha.column.2.trans ha.column.1.symm,ha.stored,ha.revision ▸ Nat.succ_pos _,?_,?_,?_⟩
  · rw [hrevs, List.map_append, hkept, h.numbered, ha.revision, List.range'_1_concat]
    simp [Nat.add_comm]
  · intro r hr hnum
    rw [hrevs] at hr
    rcases List.mem_append.mp hr with hr | hr
    · exact absurd hnum (hold r hr).ne
    · rw [List.mem_singleton.mp hr, ha.column.1]
      exact ⟨rfl,rfl⟩
  · intro r hr hpending
    rw [hrevs] at hr
    rcases List.mem_append.mp hr with hr | hr
    · rcases mem_updateWhere.mp hr with ⟨s,hs,-,rfl⟩ | ⟨hr,hp⟩
      · cases hpending
      · exact absurd ⟨(mem_revisionsOf.mp hr).2,h.decided r hr hpending,Or.inl hpending⟩
          (of_decide_eq_false hp)
    · rw [List.mem_singleton.mp hr]

theorem Standing.opens (hrevs : ∀ r ∈ db.revisions, r.requestId < db.nextId)
    (ho : Opens db row db') : Standing db' db.nextId row := by
  have hnone : revisionsOf db db.nextId = [] := by
    rw [List.eq_nil_iff_forall_not_mem]
    intro r hr
    obtain ⟨hr,hid⟩ := mem_revisionsOf.mp hr
    exact absurd hid (hrevs r hr).ne
  have hone : revisionsOf db' db.nextId =
      [⟨db.nextId,1,row.authorizationHash,row.payload,.current .pending⟩] := by
    rw [revisionsOf, ho.revisions, List.filter_append, ← revisionsOf, hnone]
    simp
  refine ⟨ho.column.2.trans ho.column.1.symm,⟨ho.stored.1.trans ho.revision.symm,ho.stored.2⟩,
    ho.revision.ge,?_,?_,?_⟩
  · simp [hone, ho.revision]
  · intro r hr _
    rw [hone] at hr
    rw [List.mem_singleton.mp hr, ho.column.1]
    exact ⟨rfl,rfl⟩
  · intro r hr _
    rw [hone] at hr
    rw [List.mem_singleton.mp hr, ho.revision]

/-- Rows of a request that is not the one written stay as they were. -/
theorem requests_of_ne (hreq : db'.requests = Function.update db.requests requestId (some row'))
    (hrow : db'.requests id = some row) : (id = requestId ∧ row = row') ∨
      (id ≠ requestId ∧ db.requests id = some row) := by
  rw [hreq] at hrow
  by_cases hid : id = requestId
  · subst hid
    rw [Function.update_self, Option.some.injEq] at hrow
    exact Or.inl ⟨rfl,hrow.symm⟩
  · rw [Function.update_of_ne hid] at hrow
    exact Or.inr ⟨hid,hrow⟩

theorem Stands.advances (h : Stands db) (ha : Advances db requestId row row' db') : Stands db' := by
  obtain ⟨hlt,hstands⟩ := h.approvals requestId row ha.loaded
  refine ⟨fun id r hr => ?_,fun r hr => ?_⟩
  · rcases requests_of_ne ha.requests hr with ⟨rfl,rfl⟩ | ⟨hid,hr⟩
    · exact ⟨hlt.trans_le ha.nextId,hstands.advances ha⟩
    · obtain ⟨hlt,hstands⟩ := h.approvals id r hr
      refine ⟨hlt.trans_le ha.nextId,hstands.congr ?_⟩
      refine revisionsOf_update_ne hid ?_ ?_ ?_ ha.revisions
      · exact fun r hp => (of_decide_eq_true hp).1
      · exact fun _ => rfl
      · exact fun r hr => by rw [List.mem_singleton.mp hr]
  · refine Nat.lt_of_lt_of_le ?_ ha.nextId
    rw [ha.revisions] at hr
    rcases List.mem_append.mp hr with hr | hr
    · rcases mem_updateWhere.mp hr with ⟨s,hs,-,rfl⟩ | ⟨hr,-⟩
      · exact h.revisions s hs
      · exact h.revisions r hr
    · rw [List.mem_singleton.mp hr]
      exact hlt

theorem Stands.closes (h : Stands db) (hc : Closes db requestId row status row' db') :
    Stands db' := by
  obtain ⟨hlt,hstands⟩ := h.approvals requestId row hc.loaded
  refine ⟨fun id r hr => ?_,fun r hr => ?_⟩
  · rcases requests_of_ne hc.requests hr with ⟨rfl,rfl⟩ | ⟨hid,hr⟩
    · exact ⟨hlt.trans_le hc.nextId,hstands.closes hc⟩
    · obtain ⟨hlt,hstands⟩ := h.approvals id r hr
      refine ⟨hlt.trans_le hc.nextId,hstands.congr ?_⟩
      refine revisionsOf_update_ne hid ?_ ?_ ?_ (hc.revisions.trans (List.append_nil _).symm)
      · exact fun r hp => (of_decide_eq_true hp).1
      · exact fun _ => rfl
      · exact fun r hr => absurd hr List.not_mem_nil
  · refine Nat.lt_of_lt_of_le ?_ hc.nextId
    rw [hc.revisions] at hr
    rcases mem_updateWhere.mp hr with ⟨s,hs,-,rfl⟩ | ⟨hr,-⟩
    · exact h.revisions s hs
    · exact h.revisions r hr

theorem Stands.opens (h : Stands db) (ho : Opens db row db') : Stands db' := by
  refine ⟨fun id r hr => ?_,fun r hr => ?_⟩
  · rcases requests_of_ne ho.requests hr with ⟨rfl,rfl⟩ | ⟨hid,hr⟩
    · exact ⟨ho.nextId ▸ Nat.lt_succ_self _,Standing.opens h.revisions ho⟩
    · obtain ⟨hlt,hstands⟩ := h.approvals id r hr
      refine ⟨ho.nextId ▸ Nat.lt_succ_of_lt hlt,hstands.congr ?_⟩
      rw [revisionsOf, ho.revisions, List.filter_append]
      simp [revisionsOf, hid.symm]
  · rw [ho.nextId]
    rw [ho.revisions] at hr
    rcases List.mem_append.mp hr with hr | hr
    · exact Nat.lt_succ_of_lt (h.revisions r hr)
    · rw [List.mem_singleton.mp hr]
      exact Nat.lt_succ_self _

/-- One event keeps every approval standing. -/
theorem Stands.restated {e : Event} (h : Stands db) (hr : Restated db e db') : Stands db' := by
  cases hr with
  | untouched hu =>
    refine ⟨fun id r hr => ?_,fun r hr => ?_⟩
    · obtain ⟨hlt,hstands⟩ := h.approvals id r (hu.requests ▸ hr)
      exact ⟨hlt.trans_le hu.nextId,hstands.congr (by rw [revisionsOf, hu.revisions, revisionsOf])⟩
    · exact (h.revisions r (hu.revisions ▸ hr)).trans_le hu.nextId
  | opened row ho => exact h.opens ho
  | closed requestId row row' status hc => exact h.closes hc
  | revised requestId row row' _ ha => exact h.advances ha
  | reopened requestId userId row row' _ _ _ ha => exact h.advances ha

theorem Initial.stands (h : Initial db) : Stands db :=
  ⟨fun id row hr => by simp [h.requests] at hr,fun r hr => by simp [h.revisions] at hr⟩

theorem ReachableDb.stands (h : ReachableDb env db) : Stands db :=
  h.invariant (fun _ hi => hi.stands) fun _ _ _ hs hst => hs.restated hst.restated

end Invariant

section Transitions

/-- What an event may do to the status of one approval: a declined or expired one keeps it, and
an approved one changes only by reopening a communication. -/
structure Proceeds (requestId : RequestId) (e : Event) (row row' : ApprovalRow) : Prop where
  declined : row.status = .declined → row'.status = .declined
  expired : row.status = .expired → row'.status = .expired
  approved : row.status = .approved → row'.status = .approved ∨
    ∃ userId, e = .reopen requestId userId ∧ row.payload.approvalType = .communication

theorem Proceeds.of_status {e : Event} (h : row'.status = row.status) : Proceeds requestId e row row' :=
  ⟨fun hs => h.trans hs,fun hs => h.trans hs,fun hs => Or.inl (h.trans hs)⟩

/-- A pending or returned approval may take any status. -/
theorem Proceeds.of_open {e : Event} (h : row.status = .pending ∨ row.status = .changesRequested) :
    Proceeds requestId e row row' := by
  rcases h with h | h <;> exact ⟨fun hs => by simp [h] at hs,fun hs => by simp [h] at hs,
    fun hs => by simp [h] at hs⟩

theorem proceeds_update {e : Event} {other : RequestId} {old new : ApprovalRow}
    (hreq : db'.requests = Function.update db.requests other (some new))
    (hold : db.requests other = some old) (hrow : db.requests requestId = some row)
    (h : Proceeds other e old new) :
    ∃ row', db'.requests requestId = some row' ∧ Proceeds requestId e row row' := by
  rw [hreq]
  by_cases hid : requestId = other
  · subst hid
    cases hrow.symm.trans hold
    exact ⟨new,Function.update_self ..,h⟩
  · exact ⟨row,by rw [Function.update_of_ne hid, hrow],.of_status rfl⟩

theorem Restated.proceeds {e : Event} (h : Restated db e db') (hs : Stands db)
    (hrow : db.requests requestId = some row) :
    ∃ row', db'.requests requestId = some row' ∧ Proceeds requestId e row row' := by
  cases h with
  | untouched hu => exact ⟨row,by rw [hu.requests, hrow],.of_status rfl⟩
  | opened first ho =>
    have hid : requestId ≠ db.nextId := (hs.approvals requestId row hrow).1.ne
    exact ⟨row,by rw [ho.requests, Function.update_of_ne hid, hrow],.of_status rfl⟩
  | closed other old new status hc =>
    exact proceeds_update hc.requests hc.loaded hrow (.of_open (Or.inl hc.pending))
  | revised other old new hopen ha => exact proceeds_update ha.requests ha.loaded hrow (.of_open hopen)
  | reopened other userId old new he happroved htype ha =>
    refine proceeds_update ha.requests ha.loaded hrow ⟨fun hd => ?_,fun hx => ?_,fun _ => ?_⟩
    · simp [happroved] at hd
    · simp [happroved] at hx
    · exact Or.inr ⟨userId,he,htype⟩

/-- Whatever run ends here, the status columns of every approval agree, its stored payload has the
current revision and hash, its revisions are numbered from one without gaps, only the current one
may be pending, and every next event proceeds from its status. -/
theorem status_columns_agree (env : Platform) (db : Db) (h : ReachableDb env db)
    (requestId : RequestId) (row : ApprovalRow) (hrow : db.requests requestId = some row) :
    (Standing db requestId row ∧ ∃ r ∈ revisionsOf db requestId,
      r.revision = row.authorizationRevision ∧ r.status = .current row.status) ∧
    ∀ e db', Step env db e db' →
      ∃ row', db'.requests requestId = some row' ∧ Proceeds requestId e row row' := by
  have hstands := (h.stands.approvals requestId row hrow).2
  exact ⟨⟨hstands,hstands.exists_current⟩,fun e db' hst => hst.restated.proceeds h.stands hrow⟩

/-- The approved plan of the sample. -/
theorem status_columns_agree_plan : ∃ row,
    (after samplePlatform proposedPlanDb (sampleVote 1 "vote-1")).requests 0 = some row ∧
    row.status = .approved ∧ ∃ r ∈ revisionsOf (after samplePlatform proposedPlanDb
      (sampleVote 1 "vote-1")) 0, r.revision = 1 ∧ r.status = .current .approved := by
  have hreach : ReachableDb samplePlatform (after samplePlatform proposedPlanDb
      (sampleVote 1 "vote-1")) :=
    reachable_proposedPlanDb.tail (step_after (by decide))
  have happroved : ((after samplePlatform proposedPlanDb (sampleVote 1 "vote-1")).requests 0).map
      (fun row => (row.status,row.authorizationRevision)) = some (.approved,1) := by decide
  obtain ⟨row,hrow,hs⟩ := Option.map_eq_some_iff.mp happroved
  obtain ⟨hstatus,hrevision⟩ := Prod.mk.injEq .. ▸ hs
  obtain ⟨r,hr,hnum,hst⟩ := (status_columns_agree samplePlatform _ hreach 0 row hrow).1.2
  exact ⟨row,hrow,hstatus,r,hr,hnum.trans hrevision,hst.trans (by rw [hstatus])⟩

end Transitions

end HermesEnterprise.Approvals
