import HermesEnterprise.Approvals.System

/-! # What each operation can do

One inversion lemma for each operation: it either replays, expires, or makes its
one change under guards that held before. Frames say what no operation touches.
-/
namespace HermesEnterprise.Approvals
open Foundation.Runs Jobs Email

variable {env : Platform} {db db' f : Db} {requestId : RequestId} {row row' : ApprovalRow}

/-- The tables that only votes, routes, proposals and the environment write are unchanged. -/
structure Frame (db db' : Db) : Prop where
  now : db'.now = db.now
  nextId : db'.nextId = db.nextId
  directory : db'.directory = db.directory
  watchChecks : db'.watchChecks = db.watchChecks
  votes : db'.votes = db.votes
  routes : db'.routes = db.routes
  mail : db'.mail = db.mail

theorem Frame.refl (db : Db) : Frame db db := ⟨rfl,rfl,rfl,rfl,rfl,rfl,rfl⟩

theorem Frame.trans (h : Frame db db') (h' : Frame db' f) : Frame db f :=
  ⟨h'.now.trans h.now,h'.nextId.trans h.nextId,h'.directory.trans h.directory,
    h'.watchChecks.trans h.watchChecks,h'.votes.trans h.votes,h'.routes.trans h.routes,
    h'.mail.trans h.mail⟩

theorem frame_setEngagementStage (stage : String) : Frame db (db.setEngagementStage requestId stage) :=
  ⟨rfl,rfl,rfl,rfl,rfl,rfl,rfl⟩

@[simp] theorem setRequest_requests :
    (db.setRequest requestId row).requests = Function.update db.requests requestId (some row) := rfl

@[simp] theorem setRevisionStatus_requests (revision : ℕ) (status : RevisionStatus) :
    (db.setRevisionStatus requestId revision status).requests = db.requests := rfl

@[simp] theorem setEngagementStage_requests (stage : String) :
    (db.setEngagementStage requestId stage).requests = db.requests := rfl

section Finalization
variable {simulate : Bool} {outbox : Outbox} {queued : Option QueuedEmailOutbox}

theorem writeApprovalReceipt_frame (db : Db) (requestId : RequestId) (row : ApprovalRow)
    (decision : ApprovalStatus) (actor : String) :
    Frame db (writeApprovalReceipt db requestId row decision actor) := by
  unfold writeApprovalReceipt
  split
  · exact .refl db
  · split
    · exact .refl db
    · split
      · exact .refl db
      · exact ⟨rfl,rfl,rfl,rfl,rfl,rfl,rfl⟩

/-- A receipt touches nothing but the receipts. -/
theorem writeApprovalReceipt_requests (db : Db) (requestId : RequestId) (row : ApprovalRow)
    (decision : ApprovalStatus) (actor : String) :
    (writeApprovalReceipt db requestId row decision actor).requests = db.requests ∧
    (writeApprovalReceipt db requestId row decision actor).outbox = db.outbox ∧
    (writeApprovalReceipt db requestId row decision actor).jobs = db.jobs := by
  unfold writeApprovalReceipt
  split
  · exact ⟨rfl,rfl,rfl⟩
  · split
    · exact ⟨rfl,rfl,rfl⟩
    · split <;> exact ⟨rfl,rfl,rfl⟩

theorem writeStage_frame (db : Db) (requestId : RequestId) (queued : Option QueuedEmailOutbox)
    (details : ProposalDetails) :
    Frame db (writeStage db requestId details queued) ∧
    (writeStage db requestId details queued).requests = db.requests ∧
    (writeStage db requestId details queued).outbox = db.outbox ∧
    (writeStage db requestId details queued).jobs = db.jobs := by
  unfold writeStage
  split
  · split
    · exact ⟨frame_setEngagementStage _,rfl,rfl,rfl⟩
    · exact ⟨.refl db,rfl,rfl,rfl⟩
  · exact ⟨.refl db,rfl,rfl,rfl⟩

/-- What the approving transaction leaves in the row: the approval, with its outcome columns free. -/
structure Approves (db : Db) (row row' : ApprovalRow) : Prop where
  columns : ∃ effect work reason job, row' = { approvedRow db row with
    effect := effect, workStatus := work, workReason := reason, finalizationJobId := job }

/-- Finalization writes the approved row, appends outbox rows, enqueues jobs and nothing else. -/
structure Finalizes (env : Platform) (db : Db) (requestId : RequestId) (row : ApprovalRow)
    (f : Db) : Prop extends Frame db f where
  approved : ∃ row', f.requests = Function.update db.requests requestId (some row') ∧
    Approves db row row'
  outbox : f.outbox = db.outbox ∨ ∃ queued, queueFinalizedEmail db requestId row = .ok (f.outbox,queued)

theorem approvedRow_now (row : ApprovalRow) (h : db'.now = db.now) : approvedRow db' row = approvedRow db row := by
  simp only [approvedRow, h]

theorem enqueueFollowOn_spec (h : db.requests requestId = some (approvedRow db row)) :
    Frame db (enqueueFollowOn db requestId row) ∧
    (enqueueFollowOn db requestId row).outbox = db.outbox ∧
    ∃ job, (enqueueFollowOn db requestId row).requests = Function.update db.requests requestId
      (some { approvedRow db row with finalizationJobId := job }) := by
  have hsame : db.requests = Function.update db.requests requestId
      (some { approvedRow db row with finalizationJobId := (approvedRow db row).finalizationJobId }) := by
    rw [← h, Function.update_eq_self]
  unfold enqueueFollowOn
  split
  · exact ⟨.refl db,rfl,_,hsame⟩
  · dsimp only
    split
    · exact ⟨⟨rfl,rfl,rfl,rfl,rfl,rfl,rfl⟩,rfl,_,rfl⟩
    · exact ⟨.refl db,rfl,_,hsame⟩

theorem continueFinalized_spec (db : Db) (requestId : RequestId) (row : ApprovalRow) (simulate : Bool)
    (outbox : Outbox) (queued : Option QueuedEmailOutbox) :
    let f := continueFinalized (approveStatuses db requestId row) requestId row simulate outbox queued
    Frame db f ∧ f.outbox = outbox ∧
      ∃ job, f.requests = Function.update db.requests requestId
        (some { approvedRow db row with finalizationJobId := job }) := by
  intro f
  obtain ⟨jobs,hf⟩ : ∃ jobs, f = enqueueFollowOn (writeStage { approveStatuses db requestId row with
      outbox := outbox, jobs := jobs } requestId row.payload.details queued) requestId row := ⟨_,rfl⟩
  set base : Db := { approveStatuses db requestId row with outbox := outbox, jobs := jobs } with hbase
  obtain ⟨hframe,hreq,hout,_⟩ := writeStage_frame base requestId queued row.payload.details
  have hnow := approvedRow_now row hframe.now
  have hbase' : Frame db base := ⟨rfl,rfl,rfl,rfl,rfl,rfl,rfl⟩
  have hnow' := approvedRow_now row hbase'.now
  have hrow : (writeStage base requestId row.payload.details queued).requests requestId =
      some (approvedRow (writeStage base requestId row.payload.details queued) row) := by
    rw [hreq, hnow, hnow']
    simp [hbase, approveStatuses]
  obtain ⟨hframe',hout',job,hreq'⟩ := enqueueFollowOn_spec hrow
  rw [hf]
  refine ⟨(hbase'.trans hframe).trans hframe',hout'.trans hout,job,?_⟩
  rw [hreq', hreq, hnow, hnow']
  simp [hbase, approveStatuses]

theorem finalizeApproval_spec (h : finalizeApproval env db requestId row simulate = .ok f) :
    Finalizes env db requestId row f := by
  simp only [finalizeApproval, Result.bind_eq_ok] at h
  obtain ⟨materialized,_,h⟩ := h
  by_cases hm : materialized = true
  · rw [if_pos hm, Result.pure_eq_ok] at h
    subst h
    refine ⟨⟨rfl,rfl,rfl,rfl,rfl,rfl,rfl⟩,⟨materializedRow (approvedRow db row),?_,?_⟩,Or.inl rfl⟩
    · simp [approveStatuses]
    · unfold materializedRow
      split <;> exact ⟨_,_,_,_,rfl⟩
  · rw [if_neg hm, Result.bind_eq_ok] at h
    obtain ⟨⟨outbox,queued⟩,hq,h⟩ := h
    rw [Result.pure_eq_ok] at h
    subst h
    obtain ⟨hframe,hout,job,hreq⟩ := continueFinalized_spec db requestId row simulate outbox queued
    exact ⟨hframe,⟨_,hreq,⟨_,_,_,_,rfl⟩⟩,Or.inr ⟨queued,by rw [hout]; exact hq⟩⟩

end Finalization

section Deciding
variable {context : ApprovalHumanContext} {input : DecideApprovalInput} {result : CommandResult}
variable {reviewer : MemberRow} {step : PolicyStep}

/-- The guards under which a command records a vote of `reviewer` for `step`. -/
structure Ballot (env : Platform) (db : Db) (requestId : RequestId) (context : ApprovalHumanContext)
    (input : DecideApprovalInput) (row : ApprovalRow) (reviewer : MemberRow) (step : PolicyStep) :
    Prop where
  fresh : commandReplay db requestId .decision input.idempotencyKey (decisionHash env input) = .ok false
  loaded : db.requests requestId = some row
  revision : row.authorizationRevision = input.expectedAuthorizationRevision
  hash : row.authorizationHash = input.expectedAuthorizationHash
  pending : row.status = .pending
  unexpired : db.now < row.expiresAt
  change : (partnerEngagementChange row.payload.details = true ∨
    sharedIntelligenceChange row.payload.details = true) → input.decision ≠ .requestChanges
  admitted : admitReviewer db row (votesFor db requestId row) context.userId = .ok reviewer
  chosen : chooseStep db requestId row (votesFor db requestId row) reviewer = .ok step

/-- What a decision command did. -/
inductive Decided (env : Platform) (db : Db) (requestId : RequestId) (context : ApprovalHumanContext)
    (input : DecideApprovalInput) : Db → Prop
  | replayed : commandReplay db requestId .decision input.idempotencyKey (decisionHash env input) =
      .ok true → Decided env db requestId context input db
  | expired (row : ApprovalRow) : db.requests requestId = some row → row.status = .pending →
      row.expiresAt ≤ db.now → Decided env db requestId context input (markExpired db requestId row)
  | closed (row : ApprovalRow) (reviewer : MemberRow) (step : PolicyStep) :
      Ballot env db requestId context input row reviewer step → input.decision ≠ .approve →
      Decided env db requestId context input
        (closeDecision (recordVote env db requestId row step reviewer input) requestId row
          input.decision reviewer.name)
  | counted (row : ApprovalRow) (reviewer : MemberRow) (step : PolicyStep) :
      Ballot env db requestId context input row reviewer step → input.decision = .approve →
      allApproved row.requesterMemberId row.payload.policy (activeMembers db.directory.members)
        (votesFor (recordVote env db requestId row step reviewer input) requestId row) = false →
      Decided env db requestId context input (recordVote env db requestId row step reviewer input)
  | finalized (row : ApprovalRow) (reviewer : MemberRow) (step : PolicyStep) (f : Db) :
      Ballot env db requestId context input row reviewer step → input.decision = .approve →
      allApproved row.requesterMemberId row.payload.policy (activeMembers db.directory.members)
        (votesFor (recordVote env db requestId row step reviewer input) requestId row) = true →
      finalizeApproval env (recordVote env db requestId row step reviewer input) requestId row
        context.simulateEmailReplies = .ok f →
      Decided env db requestId context input (writeApprovalReceipt f requestId row .approved
        reviewer.name)

theorem loadApprovalRow_ok (h : loadApprovalRow db requestId = .ok row) :
    db.requests requestId = some row := by
  unfold loadApprovalRow at h
  split at h
  · cases h; assumption
  · simp at h

theorem castVote_ok (h : castVote env db requestId context row input = .ok db')
    (hfresh : commandReplay db requestId .decision input.idempotencyKey (decisionHash env input) =
      .ok false) (hrow : db.requests requestId = some row) (hpending : row.status = .pending)
    (hexpiry : db.now < row.expiresAt)
    (hbound : row.authorizationRevision = input.expectedAuthorizationRevision ∧
      row.authorizationHash = input.expectedAuthorizationHash) :
    Decided env db requestId context input db' := by
  simp only [castVote, Result.bind_eq_ok, require_eq_ok] at h
  obtain ⟨_,hchange,reviewer,hreviewer,step,hstep,h⟩ := h
  have ballot : Ballot env db requestId context input row reviewer step := by
    refine ⟨hfresh,hrow,hbound.1,hbound.2,hpending,hexpiry,?_,hreviewer,hstep⟩
    intro hc hd
    rcases hc with hc | hc <;> simp [hc, hd] at hchange
  by_cases hd : input.decision = .approve
  · rw [if_neg (not_not.mpr hd)] at h
    unfold countApproval at h
    split at h
    next hall =>
      rw [Result.bind_eq_ok] at h
      obtain ⟨f,hf,h⟩ := h
      rw [Result.pure_eq_ok] at h
      exact h ▸ .finalized row reviewer step f ballot hd hall hf
    next hall =>
      cases h
      exact .counted row reviewer step ballot hd (Bool.not_eq_true _ ▸ hall)
  · rw [if_pos hd, Result.pure_eq_ok] at h
    exact h ▸ .closed row reviewer step ballot hd

theorem decideApproval_ok (h : decideApproval env db requestId context input = .ok (db',result)) :
    Decided env db requestId context input db' := by
  simp only [decideApproval, Result.bind_eq_ok] at h
  obtain ⟨replay,hreplay,h⟩ := h
  cases replay with
  | true =>
    simp only [if_true, Result.bind_eq_ok, Result.pure_eq_ok] at h
    obtain ⟨view,-,h⟩ := h
    cases h
    exact .replayed hreplay
  | false =>
    simp only [Bool.false_eq_true, if_false, Result.bind_eq_ok] at h
    obtain ⟨row,hrow,_,hbound,h⟩ := h
    have hrow := loadApprovalRow_ok hrow
    simp only [assertBinding, require_eq_ok, decide_eq_true_eq] at hbound
    split at h
    next hexpired =>
      simp only [Result.bind_eq_ok, Result.pure_eq_ok] at h
      obtain ⟨view,-,h⟩ := h
      cases h
      exact .expired row hrow hexpired.1 hexpired.2
    next hlive =>
      simp only [Result.bind_eq_ok, Result.pure_eq_ok, require_eq_ok, decide_eq_true_eq] at h
      obtain ⟨_,hpending,decided,hcast,view,-,h⟩ := h
      cases h
      refine castVote_ok hcast hreplay hrow hpending ?_ hbound
      exact Nat.lt_of_not_le fun hle => hlive ⟨hpending,hle⟩

theorem decideApproval_replayed (h : decideApproval env db requestId context input = .ok (db',result))
    (hreplay : commandReplay db requestId .decision input.idempotencyKey (decisionHash env input) =
      .ok true) : db' = db := by
  simp only [decideApproval, hreplay, Result.bind_eq_ok] at h
  obtain ⟨_,hr,h⟩ := h
  cases hr
  simp only [if_true, Result.bind_eq_ok, Result.pure_eq_ok] at h
  obtain ⟨view,-,h⟩ := h
  cases h
  rfl

/-- The row a declined or returned revision is left with. -/
def closedRow (row : ApprovalRow) (decision : VoteDecision) : ApprovalRow :=
  statusRow row (if decision = .decline then .declined else .changesRequested) .cancelled
    (some (if decision = .decline then "The proposal was declined."
      else "A material revision is required."))

theorem closeDecision_spec (db : Db) (requestId : RequestId) (row : ApprovalRow)
    (decision : VoteDecision) (actor : String) :
    Frame db (closeDecision db requestId row decision actor) ∧
    (closeDecision db requestId row decision actor).requests =
      Function.update db.requests requestId (some (closedRow row decision)) ∧
    (closeDecision db requestId row decision actor).outbox = db.outbox ∧
    (closeDecision db requestId row decision actor).jobs = db.jobs := by
  set status : ApprovalStatus := if decision = .decline then .declined else .changesRequested
  set closed := db.setStatus requestId row status .cancelled
    (some (if decision = .decline then "The proposal was declined."
      else "A material revision is required."))
  obtain ⟨hreq,hout,hjobs⟩ := writeApprovalReceipt_requests closed requestId row status actor
  have hclosed : Frame db closed := ⟨rfl,rfl,rfl,rfl,rfl,rfl,rfl⟩
  have hframe := writeApprovalReceipt_frame closed requestId row status actor
  exact ⟨(hclosed.trans hframe).trans (frame_setEngagementStage _),hreq,hout,hjobs⟩

theorem admitReviewer_ok {votes : List VoteRow} {userId : UserId}
    (h : admitReviewer db row votes userId = .ok reviewer) :
    reviewer ∈ activeMembers db.directory.members ∧ reviewer.userId = userId ∧
    (row.payload.policy.preventSelfReview = true → some reviewer.id ≠ row.requesterMemberId) ∧
    ∀ v ∈ votes, v.reviewerMemberId ≠ reviewer.id := by
  simp only [admitReviewer, Result.bind_eq_ok, Result.pure_eq_ok, require_eq_ok] at h
  obtain ⟨member,hm,_,hself,_,hdup,rfl⟩ := h
  unfold activeReviewer at hm
  split at hm
  next m hfind =>
    cases hm
    refine ⟨List.mem_of_find?_eq_some hfind,by simpa using List.find?_some hfind,?_,?_⟩
    · intro hp he
      simp [hp, he] at hself
    · intro v hv he
      have hd := row.payload.policy.valid.distinct
      simp only [hd, Bool.true_and, Bool.not_eq_true', List.any_eq_false] at hdup
      exact absurd he (by simpa using hdup v hv)
  next => simp at hm

end Deciding

section Revising
variable {proposal : ApprovalProposal} {userId : UserId}

/-- The row of the next revision, with the reason shown for its effect. -/
def nextRow (env : Platform) (row : ApprovalRow) (proposal : ApprovalProposal) (r : Resolution)
    (reason : Option String) : ApprovalRow :=
  revisedRow row (revisionPayload env row proposal r)
    { effectFor proposal r.bindings with reason := reason }

/-- The next revision was resolved against the old row and written over it. -/
structure Revised (env : Platform) (db : Db) (requestId : RequestId) (row : ApprovalRow)
    (proposal : ApprovalProposal) (r : Resolution) (db' : Db) : Prop extends Frame db db' where
  loaded : db.requests requestId = some row
  status : row.status = .pending ∨ row.status = .changesRequested ∨ row.status = .approved
  resolved : ∃ userId requested, resolveRevision env db requestId userId row proposal requested = .ok r
  requests : ∃ reason, db'.requests = Function.update db.requests requestId
    (some (nextRow env row proposal r reason))
  outbox : db'.outbox = db.outbox
  jobs : db'.jobs = db.jobs
  engagements : db'.engagements = db.engagements

theorem writeRevision_ok {requested : Option ℕ} (hrow : db.requests requestId = some row)
    (hs : row.status = .pending ∨ row.status = .changesRequested ∨ row.status = .approved)
    (h : writeRevision env db requestId userId row proposal requested = .ok db') :
    ∃ r, Revised env db requestId row proposal r db' := by
  simp only [writeRevision, Result.bind_eq_ok] at h
  obtain ⟨r,hr,_,_,h⟩ := h
  split at h
  · cases h
  · rw [Result.pure_eq_ok] at h
    subst h
    exact ⟨r,⟨rfl,rfl,rfl,rfl,rfl,rfl,rfl⟩,hrow,hs,⟨userId,requested,hr⟩,⟨_,rfl⟩,rfl,rfl,rfl⟩

theorem Revised.recordCommand {r : Resolution} (h : Revised env db requestId row proposal r db')
    (operation : Operation) (key hash : String) :
    Revised env db requestId row proposal r (db'.recordCommand requestId operation key hash) :=
  ⟨h.toFrame.trans ⟨rfl,rfl,rfl,rfl,rfl,rfl,rfl⟩,h.loaded,h.status,h.resolved,h.requests,h.outbox,h.jobs,
    h.engagements⟩

theorem Revised.setEffectReason {r : Resolution} (h : Revised env db requestId row proposal r db')
    (reason : String) : Revised env db requestId row proposal r
      (setEffectReason db' requestId reason) := by
  obtain ⟨old,hreq⟩ := h.requests
  have hrow : db'.requests requestId = some (nextRow env row proposal r old) := by
    rw [hreq, Function.update_self]
  unfold Approvals.setEffectReason
  rw [hrow]
  refine ⟨h.toFrame.trans ⟨rfl,rfl,rfl,rfl,rfl,rfl,rfl⟩,h.loaded,h.status,h.resolved,⟨some reason,?_⟩,
    h.outbox,h.jobs,h.engagements⟩
  rw [setRequest_requests, hreq, Function.update_idem]
  rfl

/-- A route was added under its guards. -/
structure Routed (db : Db) (requestId : RequestId) (row : ApprovalRow) (route : RouteRow) (db' : Db) :
    Prop where
  loaded : db.requests requestId = some row
  pending : row.status = .pending
  requestId_eq : route.requestId = requestId
  revision : route.revision = row.authorizationRevision
  changed : ∃ commands, db' = { db with
    routes := db.routes ++ [route], nextId := db.nextId + 1, commands := commands }

/-- What one event did to the approvals: nothing, or one change of one kind. -/
inductive Change (env : Platform) (db : Db) : Db → Prop
  | environment (directory : Directory) (mail : MailTables) (elapsed : ℕ) :
      Change env db { db with directory := directory, mail := mail, now := db.now + elapsed }
  | proposed (context : ApprovalProposerContext) (input : ProposeApprovalInput) (p : Proposed) :
      resolveProposal env db context input = .ok p →
      Change env db (insertProposal db context db.nextId (proposedRow env context input p) p)
  | expired (requestId : RequestId) (row : ApprovalRow) : db.requests requestId = some row →
      row.status = .pending → row.expiresAt ≤ db.now → Change env db (markExpired db requestId row)
  | decided (requestId : RequestId) (context : ApprovalHumanContext) (input : DecideApprovalInput)
      (db' : Db) : Decided env db requestId context input db' → Change env db db'
  | revised (requestId : RequestId) (row : ApprovalRow) (proposal : ApprovalProposal)
      (r : Resolution) (db' : Db) : Revised env db requestId row proposal r db' → Change env db db'
  | routed (requestId : RequestId) (row : ApprovalRow) (route : RouteRow) (db' : Db) :
      Routed db requestId row route db' → Change env db db'

theorem Change.same : Change env db db := .environment db.directory db.mail 0

/-- A revision is a replay or writes the next revision of its request. -/
theorem reviseApproval_ok {context : ApprovalHumanContext} {input : ReviseApprovalInput}
    {result : CommandResult} (h : reviseApproval env db requestId context input = .ok (db',result)) :
    (db' = db ∧ commandReplay db requestId .revision input.idempotencyKey (revisionHash env input) =
      .ok true) ∨
    (commandReplay db requestId .revision input.idempotencyKey (revisionHash env input) = .ok false ∧
      ∃ row r, Revised env db requestId row input.proposal r db') := by
  simp only [reviseApproval, Result.bind_eq_ok] at h
  obtain ⟨replay,hreplay,h⟩ := h
  cases replay with
  | true =>
    simp only [if_true, Result.bind_eq_ok, Result.pure_eq_ok] at h
    obtain ⟨view,-,h⟩ := h
    cases h
    exact Or.inl ⟨rfl,hreplay⟩
  | false =>
    simp only [Bool.false_eq_true, if_false, Result.bind_eq_ok, Result.pure_eq_ok] at h
    obtain ⟨row,hrow,_,_,_,hstatus,_,_,revised,hw,view,-,h⟩ := h
    simp only [requireRevisable, Result.bind_eq_ok, require_eq_ok, decide_eq_true_eq] at hstatus
    obtain ⟨_,hstatus,-⟩ := hstatus
    cases h
    obtain ⟨r,hr⟩ := writeRevision_ok (loadApprovalRow_ok hrow)
      (hstatus.imp_right Or.inl) hw
    exact Or.inr ⟨hreplay,row,r,hr.recordCommand _ _ _⟩

/-- Reopening does nothing to a pending approval and revises an approved email. -/
theorem reopenApprovalForResend_ok (h : reopenApprovalForResend env db requestId userId = .ok db') :
    (db' = db ∧ ∃ row, db.requests requestId = some row ∧ row.status = .pending) ∨
    ∃ row r, row.status = .approved ∧
      Revised env db requestId row (storedProposal row.payload) r db' := by
  simp only [reopenApprovalForResend, Result.bind_eq_ok] at h
  obtain ⟨row,hrow,h⟩ := h
  split at h
  next hp =>
    rw [Result.pure_eq_ok] at h
    exact Or.inl ⟨h.symm,row,loadApprovalRow_ok hrow,hp⟩
  next hp =>
    simp only [Result.bind_eq_ok, Result.pure_eq_ok, require_eq_ok, decide_eq_true_eq] at h
    obtain ⟨_,ha,_,_,revised,hw,h⟩ := h
    obtain ⟨r,hr⟩ := writeRevision_ok (loadApprovalRow_ok hrow) (Or.inr (Or.inr ha)) hw
    exact Or.inr ⟨row,r,ha,h ▸ hr.setEffectReason reopenedReason⟩

/-- Routing is a replay or adds one route. -/
theorem routeApproval_ok {context : ApprovalHumanContext} {input : RouteApprovalInput}
    {result : CommandResult} (h : routeApproval env db requestId context input = .ok (db',result)) :
    db' = db ∨ ∃ row route, Routed db requestId row route db' := by
  simp only [routeApproval, Result.bind_eq_ok] at h
  obtain ⟨replay,_,h⟩ := h
  cases replay with
  | true =>
    simp only [if_true, Result.bind_eq_ok, Result.pure_eq_ok] at h
    obtain ⟨view,-,h⟩ := h
    cases h
    exact Or.inl rfl
  | false =>
    simp only [Bool.false_eq_true, if_false, Result.bind_eq_ok, Result.pure_eq_ok, require_eq_ok,
      decide_eq_true_eq] at h
    obtain ⟨row,hrow,_,_,_,hlive,⟨actor,target⟩,_,_,_,view,-,h⟩ := h
    cases h
    exact Or.inr ⟨row,_,loadApprovalRow_ok hrow,hlive.1,rfl,rfl,_,rfl⟩

/-- A read changes nothing or marks its overdue approval. -/
theorem getApproval_ok {viewerUserId : UserId} {view : ApprovalView}
    (h : getApproval db requestId viewerUserId = .ok (db',view)) :
    ∃ row, db.requests requestId = some row ∧
      db' = if row.status = .pending ∧ row.expiresAt ≤ db.now then markExpired db requestId row
        else db := by
  simp only [getApproval, Result.bind_eq_ok, Result.pure_eq_ok] at h
  obtain ⟨_,_,row,hrow,_,_,h⟩ := h
  simp only [Prod.mk.injEq] at h
  exact ⟨row,loadApprovalRow_ok hrow,h.1.symm⟩

theorem proposeApproval_ok {context : ApprovalProposerContext} {input : ProposeApprovalInput}
    {view : ApprovalView} (h : proposeApproval env db context input = .ok (db',view)) :
    db' = db ∨ ∃ p, resolveProposal env db context input = .ok p ∧
      db' = insertProposal db context db.nextId (proposedRow env context input p) p := by
  simp only [proposeApproval, Result.bind_eq_ok] at h
  obtain ⟨_,_,_,_,_,_,h⟩ := h
  split at h
  · simp only [Result.bind_eq_ok, Result.pure_eq_ok, Prod.mk.injEq] at h
    obtain ⟨_,_,_,_,h,-⟩ := h
    exact Or.inl h.symm
  · simp only [Result.bind_eq_ok, Result.pure_eq_ok, Prod.mk.injEq] at h
    obtain ⟨p,hp,_,_,h,-⟩ := h
    exact Or.inr ⟨p,hp,h.symm⟩

theorem Result.map_fst_ok {α β : Type} {x : Result (α × β)} {a : α} (h : x.map Prod.fst = .ok a) :
    ∃ b, x = .ok (a,b) := by
  cases x with
  | error e => cases h
  | ok p => cases h; exact ⟨p.2,rfl⟩

/-- Every step of the system is one change. -/
theorem Step.change {e : Event} (h : Step env db e db') : Change env db db' := by
  unfold Step apply at h
  cases e with
  | propose context input =>
    obtain ⟨view,h⟩ := Result.map_fst_ok h
    rcases proposeApproval_ok h with rfl | ⟨p,hp,rfl⟩
    · exact .same
    · exact .proposed context input p hp
  | decide requestId context input =>
    obtain ⟨result,h⟩ := Result.map_fst_ok h
    exact .decided requestId context input db' (decideApproval_ok h)
  | revise requestId context input =>
    obtain ⟨result,h⟩ := Result.map_fst_ok h
    rcases reviseApproval_ok h with ⟨rfl,-⟩ | ⟨-,row,r,hr⟩
    · exact .same
    · exact .revised requestId row _ r db' hr
  | route requestId context input =>
    obtain ⟨result,h⟩ := Result.map_fst_ok h
    rcases routeApproval_ok h with rfl | ⟨row,route,hr⟩
    · exact .same
    · exact .routed requestId row route db' hr
  | reopen requestId userId =>
    rcases reopenApprovalForResend_ok h with ⟨rfl,-⟩ | ⟨row,r,-,hr⟩
    · exact .same
    · exact .revised requestId row _ r db' hr
  | read requestId viewerUserId =>
    obtain ⟨view,h⟩ := Result.map_fst_ok h
    obtain ⟨row,hrow,rfl⟩ := getApproval_ok h
    split
    next hexp => exact .expired requestId row hrow hexp.1 hexp.2
    next => exact .same
  | directory next => cases h; exact .environment next db.mail 0
  | mail next => cases h; exact .environment db.directory next 0
  | tick elapsed => cases h; exact .environment db.directory db.mail elapsed

end Revising

end HermesEnterprise.Approvals
