import HermesEnterprise.Approvals.Soundness

/-! # Which pending approvals can still be completed

A vote is counted for the first current step it matches, and its reviewer votes
once. So a feasible approval can be voted into a dead end; what is left can be
completed exactly when the open slots have distinct reviewers who did not vote.
-/
namespace HermesEnterprise.Approvals
open Foundation.Runs Foundation.Representatives

section Definitions
variable (env : Platform) (db : Db) (requestId : RequestId) (row : ApprovalRow)

def missing (step : PolicyStep) : ℕ := step.quorum - (countedFor db requestId row step).card

/-- A pending approval that members can vote on, none of its steps routed. -/
structure Votable : Prop where
  reachable : ReachableDb env db
  loaded : db.requests requestId = some row
  pending : row.status = .pending
  unexpired : db.now < row.expiresAt
  unrouted : ∀ r ∈ db.routes, r.requestId = requestId → r.revision ≠ row.authorizationRevision
  requester : (db.directory.agents row.requesterAgentId).isSome = true

/-- A votable approval whose recount still misses approvals. -/
structure Open : Prop extends Votable env db requestId row where
  incomplete : allApproved row.requesterMemberId row.payload.policy
    (activeMembers db.directory.members) (votesFor db requestId row) = false

/-- A votable revision without votes whose policy the members of the moment can satisfy. -/
structure OpenedFeasible : Prop extends Votable env db requestId row where
  unvoted : ∀ v ∈ db.votes, v.requestId = requestId → v.revision ≠ row.authorizationRevision
  feasible : ∃ owners, validatePolicyFeasibility row.payload.policy
    (activeMembers db.directory.members) row.requesterMemberId owners = .ok ()

end Definitions

variable {env : Platform} {db db' : Db} {requestId : RequestId} {row row' : ApprovalRow}
variable {context : ApprovalHumanContext} {input : DecideApprovalInput} {result : CommandResult}
variable {reviewer : MemberRow} {step : PolicyStep} {team : PolicyStep → Finset MemberId}

section Votes

theorem mem_currentSteps {policy : ApprovalPolicy} {requester : Option MemberId}
    {members : List MemberRow} {pending : Bool} {votes : List VoteRow}
    (h : step ∈ currentSteps requester policy members pending votes) :
    step ∈ policy.steps ∧ completed requester policy members votes step = false := by
  have hfilter : step ∈ (orderedSteps policy).filter
      (fun s => !completed requester policy members votes s) := by
    unfold currentSteps at h
    dsimp only at h
    split at h
    · cases h
    · split at h
      · exact h
      · exact List.mem_of_mem_head? (Option.mem_toList.mp h)
  rw [List.mem_filter, Bool.not_eq_true', mem_orderedSteps] at hfilter
  exact hfilter

/-- The chosen step misses an approval, and the reviewer matches it without a vote on it. -/
theorem chooseStep_ok {votes : List VoteRow}
    (h : chooseStep db requestId row votes reviewer = .ok step) :
    step ∈ row.payload.policy.steps ∧ step.reviewers.any (selectorMatches reviewer) = true ∧
    completed row.requesterMemberId row.payload.policy (activeMembers db.directory.members) votes
      step = false := by
  unfold chooseStep at h
  dsimp only at h
  split at h
  next s hfind =>
    have hs := List.mem_of_find?_eq_some hfind
    simp only [List.mem_filter, List.mem_map, Bool.decide_and, Bool.and_eq_true,
      decide_eq_true_eq, Bool.decide_eq_true] at hs
    split at h
    · simp at h
    · cases h
      obtain ⟨hmem,⟨c,hc,hid⟩,hmatch⟩ := hs
      obtain ⟨hcs,hinc⟩ := mem_currentSteps hc
      rw [step_eq_of_id hcs hmem hid] at hinc
      exact ⟨hmem,hmatch,hinc⟩
  next => simp at h

theorem Ballot.eligible (b : Ballot env db requestId context input row reviewer step) :
    reviewer.id ∈ eligibleIds row.requesterMemberId row.payload.policy
      (activeMembers db.directory.members) step := by
  obtain ⟨hactive,-,hself,-⟩ := admitReviewer_ok b.admitted
  obtain ⟨-,hmatch,-⟩ := chooseStep_ok b.chosen
  exact mem_eligibleIds.mpr ⟨reviewer,hactive,rfl,by simpa using hmatch,hself⟩

end Votes

section Teams

end Teams

section Acceptance

theorem activeMemberOf_of_active (h : reviewer ∈ activeMembers db.directory.members) :
    activeMemberOf db reviewer.userId = some reviewer := by
  cases hf : activeMemberOf db reviewer.userId with
  | none =>
    have hn := List.find?_eq_none.mp hf reviewer h
    simp at hn
  | some member =>
    have hid : member.userId = reviewer.userId := by simpa using List.find?_some hf
    have hm := (List.mem_filter.mp (List.mem_of_find?_eq_some hf)).1
    have hr := (List.mem_filter.mp h).1
    rw [List.inj_on_of_nodup_map db.directory.members.users hm hr hid]

/-- An active member is admitted unless the policy forbids it or a vote of theirs is on record. -/
theorem admitReviewer_active {votes : List VoteRow} (h : reviewer ∈ activeMembers db.directory.members)
    (hself : row.payload.policy.preventSelfReview = true → some reviewer.id ≠ row.requesterMemberId)
    (hnew : ∀ v ∈ votes, v.reviewerMemberId ≠ reviewer.id) :
    admitReviewer db row votes reviewer.userId = .ok reviewer := by
  simp only [admitReviewer, Result.bind_eq_ok, require_eq_ok]
  refine ⟨reviewer,by simp [activeReviewer, activeMemberOf_of_active h],(),?_,(),?_,rfl⟩
  · cases hp : row.payload.policy.preventSelfReview with
    | false => rfl
    | true => simpa using hself hp
  · simp only [Bool.not_eq_true', Bool.and_eq_false_iff, List.any_eq_false, decide_eq_true_eq]
    exact Or.inr hnew

theorem exists_view (hvis : hiddenFrom db requestId context.userId = false)
    (hrow : db.requests requestId = some row)
    (hreq : (db.directory.agents row.requesterAgentId).isSome = true) :
    ∃ view, loadApprovalView db requestId (some context.userId) = .ok view := by
  simp only [loadApprovalView, Result.bind_eq_ok, Result.pure_eq_ok]
  refine ⟨_,(),?_,row,?_,(),require_eq_ok.mpr hreq,rfl⟩
  · simp [requirePartnerWatchViewer, require_eq_ok, hvis]
  · simp [loadApprovalRow, hrow]

theorem view_visible {userId : UserId} {view : ApprovalView}
    (h : loadApprovalView db requestId (some userId) = .ok view) :
    hiddenFrom db requestId userId = false := by
  simp only [loadApprovalView, Result.bind_eq_ok] at h
  obtain ⟨_,hview,-⟩ := h
  simpa [requirePartnerWatchViewer, require_eq_ok] using hview

theorem hiddenFrom_frame (h : Frame db db') (userId : UserId) :
    hiddenFrom db' requestId userId = hiddenFrom db requestId userId := by
  simp only [hiddenFrom, activeMemberOf, h.watchChecks, h.directory]

/-- The vote section of a ballot: it closes the revision, or counts the approval. -/
theorem Ballot.castVote_eq (b : Ballot env db requestId context input row reviewer step) :
    castVote env db requestId context row input =
      if input.decision ≠ .approve then
        .ok (closeDecision (recordVote env db requestId row step reviewer input) requestId row
          input.decision reviewer.name)
      else countApproval env (recordVote env db requestId row step reviewer input) requestId
        context.simulateEmailReplies row reviewer.name := by
  have hchange : (!((partnerEngagementChange row.payload.details ||
      sharedIntelligenceChange row.payload.details) && decide (input.decision = .requestChanges))) =
        true := by
    simp only [Bool.not_eq_true', Bool.and_eq_false_imp, Bool.or_eq_true, decide_eq_false_iff_not]
    exact b.change
  simp only [castVote, hchange, require, if_true, b.admitted, b.chosen, bind, Except.bind, pure,
    Except.pure]

/-- A ballot whose vote leads on to `db'` commits, if its voter may see the request. -/
theorem Ballot.decides (b : Ballot env db requestId context input row reviewer step)
    (hcast : castVote env db requestId context row input = .ok db')
    (hframe : Frame (recordVote env db requestId row step reviewer input) db')
    (hrow : db'.requests requestId = some row')
    (hagent : row'.requesterAgentId = row.requesterAgentId)
    (hreq : (db.directory.agents row.requesterAgentId).isSome = true)
    (hvis : hiddenFrom db requestId context.userId = false) :
    ∃ view, decideApproval env db requestId context input = .ok (db',⟨view,false⟩) := by
  obtain ⟨view,hview⟩ : ∃ view, loadApprovalView db' requestId (some context.userId) = .ok view :=
    exists_view ((hiddenFrom_frame hframe context.userId).trans hvis) hrow
      (by rw [hframe.directory, hagent]; exact hreq)
  have hlive : ¬ (row.status = .pending ∧ row.expiresAt ≤ db.now) := fun h =>
    Nat.not_le_of_lt b.unexpired h.2
  refine ⟨view,?_⟩
  simp only [decideApproval, Result.bind_eq_ok]
  refine ⟨false,b.fresh,?_⟩
  simp only [Bool.false_eq_true, if_false, Result.bind_eq_ok]
  refine ⟨row,by simp [loadApprovalRow, b.loaded],(),
    by simp [assertBinding, require_eq_ok, b.revision, b.hash],?_⟩
  rw [if_neg hlive]
  simp only [Result.bind_eq_ok, Result.pure_eq_ok, require_eq_ok]
  exact ⟨(),by simp [b.pending],db',hcast,view,hview,rfl⟩

/-- An approving ballot whose count leads on to `db'` is accepted. -/
theorem Ballot.accepted (b : Ballot env db requestId context input row reviewer step)
    (hd : input.decision = .approve)
    (hcount : countApproval env (recordVote env db requestId row step reviewer input) requestId
      context.simulateEmailReplies row reviewer.name = .ok db')
    (hframe : Frame (recordVote env db requestId row step reviewer input) db')
    (hrow : db'.requests requestId = some row')
    (hagent : row'.requesterAgentId = row.requesterAgentId)
    (hreq : (db.directory.agents row.requesterAgentId).isSome = true)
    (hvis : hiddenFrom db requestId context.userId = false) :
    Step env db (.decide requestId context input) db' := by
  have hcast : castVote env db requestId context row input = .ok db' := by
    rw [b.castVote_eq, if_neg (not_not.mpr hd), hcount]
  obtain ⟨view,hdecide⟩ := b.decides hcast hframe hrow hagent hreq hvis
  simp [Step, Applied, apply, hdecide, Except.map]

end Acceptance

section Runs

theorem Open.ballot (o : Open env db requestId row)
    (hchoice : chooseStep db requestId row (votesFor db requestId row) reviewer = .ok step)
    (hactive : reviewer ∈ activeMembers db.directory.members)
    (hself : row.payload.policy.preventSelfReview = true → some reviewer.id ≠ row.requesterMemberId)
    (hnew : ∀ v ∈ votesFor db requestId row, v.reviewerMemberId ≠ reviewer.id) :
    ∃ input : DecideApprovalInput, input.decision = .approve ∧
      Ballot env db requestId ⟨reviewer.userId,false⟩ input row reviewer step := by
  obtain ⟨key,hkey⟩ := Infinite.exists_notMem_finset
    (db.commands.map CommandRow.idempotencyKey).toFinset
  rw [List.mem_toFinset] at hkey
  refine ⟨⟨row.authorizationRevision,row.authorizationHash,key,.approve,none⟩,rfl,
    ⟨?_,o.loaded,rfl,rfl,o.pending,o.unexpired,fun _ => by simp,?_,hchoice⟩⟩
  · have hnone : db.commands.find? (fun c => c.idempotencyKey = key) = none := by
      rw [List.find?_eq_none]
      intro c hc he
      exact hkey (List.mem_map.mpr ⟨c,hc,by simpa using he⟩)
    simp [commandReplay, hnone]
  · exact admitReviewer_active hactive hself hnew

theorem Open.recorded (o : Open env db requestId row)
    (hs : Step env db (.decide requestId context input)
      (recordVote env db requestId row step reviewer input))
    (hinc : allApproved row.requesterMemberId row.payload.policy (activeMembers db.directory.members)
      (votesFor (recordVote env db requestId row step reviewer input) requestId row) = false) :
    Open env (recordVote env db requestId row step reviewer input) requestId row :=
  ⟨⟨o.reachable.tail hs,o.loaded,o.pending,o.unexpired,o.unrouted,o.requester⟩,hinc⟩

theorem Finalizes.approved_row {f : Db} (h : Finalizes env db requestId row f) (hp : row.status = .pending) :
    ∃ row', f.requests requestId = some row' ∧ row'.status = .approved ∧
      row'.requesterAgentId = row.requesterAgentId := by
  obtain ⟨row',hreq,effect,work,reason,job,rfl⟩ := h.approved
  refine ⟨_,(congrFun hreq requestId).trans (Function.update_self ..),?_,rfl⟩
  simp [approvedRow, hp]

/-- The approval is decided or overdue. -/
def Ended (db : Db) (requestId : RequestId) : Prop :=
  ∃ row, db.requests requestId = some row ∧ (row.status ≠ .pending ∨ row.expiresAt ≤ db.now)

theorem OpenedFeasible.votesFor_nil (h : OpenedFeasible env db requestId row) :
    votesFor db requestId row = [] := by
  rw [List.eq_nil_iff_forall_not_mem]
  intro v hv
  obtain ⟨hv,hid,hrev,-⟩ := mem_votesFor.mp hv
  exact h.unvoted v hv hid hrev

theorem OpenedFeasible.open (h : OpenedFeasible env db requestId row) : Open env db requestId row := by
  refine ⟨h.toVotable,?_⟩
  have hnone := h.votesFor_nil
  obtain ⟨step,hstep⟩ := List.exists_mem_of_length_pos row.payload.policy.valid.nonempty
  have hquorum : 1 ≤ step.quorum := by
    have := row.payload.policy.valid.steps step hstep
    simp only [PolicyStep.wellFormed, Bool.decide_and, Bool.and_eq_true, decide_eq_true_eq] at this
    exact this.2.2.2.2.1
  simp only [allApproved, List.all_eq_false, Bool.not_eq_true]
  refine ⟨step,hstep,?_⟩
  simp only [hnone, completed, validApprovals, countVotes, List.foldl_nil, Finset.card_empty,
    decide_eq_false_iff_not]
  omega

end Runs

section Sample

end Sample

end HermesEnterprise.Approvals
