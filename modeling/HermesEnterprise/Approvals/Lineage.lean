import HermesEnterprise.Approvals.Ledger

/-! # A revision keeps its authorization

Whatever happens to an approval, its row stays, its revision only grows, and
while the revision stays the same so do its payload, hash and requester.
-/
namespace HermesEnterprise.Approvals
open Foundation.Runs

variable {env : Platform} {db db' : Db} {requestId : RequestId} {row row' : ApprovalRow}

/-- The same authorization, possibly further along. -/
structure SameRevision (row row' : ApprovalRow) : Prop where
  revision : row'.authorizationRevision = row.authorizationRevision
  hash : row'.authorizationHash = row.authorizationHash
  requester : row'.requesterMemberId = row.requesterMemberId
  payload : row'.payload = row.payload

theorem SameRevision.refl (row : ApprovalRow) : SameRevision row row := ⟨rfl,rfl,rfl,rfl⟩

theorem SameRevision.trans {row'' : ApprovalRow} (h : SameRevision row row')
    (h' : SameRevision row' row'') : SameRevision row row'' :=
  ⟨h'.revision.trans h.revision,h'.hash.trans h.hash,h'.requester.trans h.requester,
    h'.payload.trans h.payload⟩

/-- A row, the same authorization or a newer one. -/
def Follows (row row' : ApprovalRow) : Prop :=
  SameRevision row row' ∨ row.authorizationRevision < row'.authorizationRevision

theorem Follows.trans {row'' : ApprovalRow} (h : Follows row row') (h' : Follows row' row'') :
    Follows row row'' := by
  rcases h with h | h <;> rcases h' with h' | h'
  · exact Or.inl (h.trans h')
  · exact Or.inr (h.revision ▸ h')
  · exact Or.inr (h'.revision ▸ h)
  · exact Or.inr (h.trans h')

theorem follows_update (db : Db) {other : RequestId} {old new : ApprovalRow}
    (hrow : db.requests requestId = some row) (hold : db.requests other = some old)
    (h : Follows old new) :
    ∃ row', Function.update db.requests other (some new) requestId = some row' ∧ Follows row row' := by
  by_cases hid : requestId = other
  · subst hid
    cases hrow.symm.trans hold
    exact ⟨new,Function.update_self ..,h⟩
  · exact ⟨row,by rw [Function.update_of_ne hid, hrow],Or.inl (.refl row)⟩

/-- One change keeps every row at its authorization or moves it to the next. -/
theorem Change.follows (hc : Change env db db') (hl : Ledger db)
    (hrow : db.requests requestId = some row) :
    ∃ row', db'.requests requestId = some row' ∧ Follows row row' := by
  have hsame : db'.requests = db.requests →
      ∃ row', db'.requests requestId = some row' ∧ Follows row row' :=
    fun h => ⟨row,by rw [h, hrow],Or.inl (.refl row)⟩
  cases hc with
  | environment directory mail elapsed => exact hsame rfl
  | proposed context input p hp =>
    have hid : requestId ≠ db.nextId := (hl.ids requestId row hrow).ne
    exact ⟨row,by simp [insertProposal, Function.update_of_ne hid, hrow],Or.inl (.refl row)⟩
  | expired other old hold hp hexp => exact follows_update _ hrow hold (Or.inl ⟨rfl,rfl,rfl,rfl⟩)
  | decided other context input db' hd =>
    cases hd with
    | replayed _ => exact hsame rfl
    | expired old hold hp hexp => exact follows_update _ hrow hold (Or.inl ⟨rfl,rfl,rfl,rfl⟩)
    | closed old reviewer step b hd =>
      rw [(closeDecision_spec _ _ _ _ _).2.1]
      exact follows_update db hrow b.loaded (Or.inl ⟨rfl,rfl,rfl,rfl⟩)
    | counted old reviewer step b hd _ => exact hsame rfl
    | finalized old reviewer step f b hd hall hf =>
      obtain ⟨new,hreq,effect,work,reason,job,rfl⟩ := (finalizeApproval_spec hf).approved
      rw [(writeApprovalReceipt_requests _ _ _ _ _).1, hreq]
      exact follows_update db hrow b.loaded (Or.inl ⟨rfl,rfl,rfl,rfl⟩)
  | revised other old proposal r db' hr =>
    obtain ⟨reason,hreq⟩ := hr.requests
    rw [hreq]
    exact follows_update _ hrow hr.loaded (Or.inr (Nat.lt_succ_self _))
  | routed other old route db' hr =>
    obtain ⟨commands,rfl⟩ := hr.changed
    exact hsame rfl

/-- Along a run every row follows its beginning. -/
theorem follows_of_run {events : List Event} (h : Run (Step env) db events db') (hl : Ledger db)
    (hrow : db.requests requestId = some row) :
    ∃ row', db'.requests requestId = some row' ∧ Follows row row' := by
  suffices H : Ledger db' ∧ ∃ row', db'.requests requestId = some row' ∧ Follows row row' from H.2
  refine h.invariant (P := fun db => Ledger db ∧
    ∃ row', db.requests requestId = some row' ∧ Follows row row') ⟨hl,row,hrow,Or.inl (.refl row)⟩ ?_
  rintro s e t ⟨hs,mid,hmid,hfollows⟩ hstep
  obtain ⟨row',hrow',hnext⟩ := hstep.change.follows hs hmid
  exact ⟨hs.change hstep.change,row',hrow',hfollows.trans hnext⟩

end HermesEnterprise.Approvals
