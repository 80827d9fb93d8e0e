import HermesEnterprise.Approvals.Completion
import HermesEnterprise.Approvals.Drift

/-! # What is shown and what is accepted

The view names the members a step waits on and the decisions a viewer may take.
The write path tests both again, by the routes and members of the moment.
-/
namespace HermesEnterprise.Approvals
open Foundation.Runs Jobs Email

variable {env : Platform} {db db' : Db} {requestId : RequestId} {row row' : ApprovalRow}
variable {context : ApprovalHumanContext} {input : DecideApprovalInput} {result : CommandResult}
variable {reviewer : MemberRow} {step : PolicyStep} {votes : List VoteRow} {m : MemberId}

section Reviewers

/-- The steps of an approval that may collect votes at this moment. -/
def currentNow (db : Db) (requestId : RequestId) (row : ApprovalRow) : List PolicyStep :=
  currentSteps row.requesterMemberId row.payload.policy (activeMembers db.directory.members)
    (row.status = .pending) (votesFor db requestId row)

/-- The members who are eligible for a step at this moment. -/
def eligibleNow (db : Db) (row : ApprovalRow) (step : PolicyStep) : List MemberId :=
  eligibleIds row.requesterMemberId row.payload.policy (activeMembers db.directory.members) step

/-- The progress a view of the approval shows. -/
def projected (db : Db) (requestId : RequestId) (row : ApprovalRow) : ProgressState :=
  progress row row.payload (activeMembers db.directory.members) (votesFor db requestId row)
    (routeAssignments db requestId row)

/-- The step is not routed, or routed to this member. -/
def OpenTo (db : Db) (requestId : RequestId) (row : ApprovalRow) (step : PolicyStep)
    (m : MemberId) : Prop :=
  ∀ assigned, routeAssignments db requestId row step.id = some assigned → assigned = m

def Unvoted (db : Db) (requestId : RequestId) (row : ApprovalRow) (m : MemberId) : Prop :=
  ∀ v ∈ votesFor db requestId row, v.reviewerMemberId ≠ m

/-- The reviewer guards of `decideApproval` let the member vote, for this step. -/
def AcceptedAs (db : Db) (requestId : RequestId) (row : ApprovalRow) (m : MemberId)
    (step : PolicyStep) : Prop :=
  ∃ reviewer, reviewer.id = m ∧
    admitReviewer db row (votesFor db requestId row) reviewer.userId = .ok reviewer ∧
    chooseStep db requestId row (votesFor db requestId row) reviewer = .ok step

theorem all_openTo : (routeAssignments db requestId row step.id).all (fun a => a = m) = true ↔
    OpenTo db requestId row step m := by
  unfold OpenTo
  cases routeAssignments db requestId row step.id <;> simp

/-- The chosen step is current, matches the reviewer and is open to them. -/
theorem chooseStep_current
    (h : chooseStep db requestId row (votesFor db requestId row) reviewer = .ok step) :
    step ∈ currentNow db requestId row ∧ step.reviewers.any (selectorMatches reviewer) = true ∧
      OpenTo db requestId row step reviewer.id := by
  unfold chooseStep at h
  dsimp only at h
  split at h
  next s hfind =>
    have hopen := List.find?_some hfind
    have hs := List.mem_of_find?_eq_some hfind
    simp only [List.mem_filter, List.mem_map, Bool.decide_and, Bool.and_eq_true,
      decide_eq_true_eq, Bool.decide_eq_true] at hs
    split at h
    · simp at h
    · cases h
      obtain ⟨hmem,⟨c,hc,hid⟩,hmatch⟩ := hs
      rw [step_eq_of_id (mem_currentSteps hc).1 hmem hid] at hc
      exact ⟨hc,hmatch,all_openTo.mp hopen⟩
  next => simp at h

/-- Without a vote of the reviewer, some step is chosen when one is current, matches and is open. -/
theorem exists_chooseStep (hnew : Unvoted db requestId row reviewer.id)
    (hc : step ∈ currentNow db requestId row)
    (hmatch : step.reviewers.any (selectorMatches reviewer) = true)
    (hopen : OpenTo db requestId row step reviewer.id) :
    ∃ s, chooseStep db requestId row (votesFor db requestId row) reviewer = .ok s := by
  have hfound : (row.payload.policy.steps.filter fun s => s.id ∈ (currentNow db requestId row).map
      PolicyStep.id ∧ s.reviewers.any (selectorMatches reviewer)).find? (fun s =>
        (routeAssignments db requestId row s.id).all fun a => a = reviewer.id) ≠ none := by
    intro hnone
    refine List.find?_eq_none.mp hnone step ?_ (all_openTo.mpr hopen)
    rw [List.mem_filter]
    exact ⟨(mem_currentSteps hc).1,by simpa using ⟨⟨step,hc,rfl⟩,by simpa using hmatch⟩⟩
  obtain ⟨s,hs⟩ := Option.ne_none_iff_exists'.mp hfound
  refine ⟨s,?_⟩
  unfold chooseStep
  dsimp only
  rw [show currentSteps row.requesterMemberId row.payload.policy
    (activeMembers db.directory.members) (row.status = .pending) (votesFor db requestId row) =
      currentNow db requestId row from rfl, hs]
  dsimp only
  rw [if_neg]
  simp only [List.any_eq_true, decide_eq_true_eq, not_exists, not_and]
  exact fun v hv _ => hnew v hv

/-- Who is accepted: an eligible member without a vote who has a current step open to them. -/
theorem acceptedAs_iff (hnew : Unvoted db requestId row m) :
    (∃ step ∈ currentNow db requestId row, AcceptedAs db requestId row m step) ↔
      ∃ step ∈ currentNow db requestId row, m ∈ eligibleNow db row step ∧
        OpenTo db requestId row step m := by
  constructor
  · rintro ⟨step,-,reviewer,rfl,hreview,hchoose⟩
    obtain ⟨hactive,-,hself,-⟩ := admitReviewer_ok hreview
    obtain ⟨hc,hmatch,hopen⟩ := chooseStep_current hchoose
    exact ⟨step,hc,mem_eligibleIds.mpr ⟨reviewer,hactive,rfl,by simpa using hmatch,hself⟩,hopen⟩
  · rintro ⟨step,hc,hm,hopen⟩
    obtain ⟨reviewer,hactive,rfl,hmatch,hself⟩ := mem_eligibleIds.mp hm
    obtain ⟨s,hs⟩ := exists_chooseStep hnew hc (by simpa using hmatch) hopen
    exact ⟨s,(chooseStep_current hs).1,reviewer,rfl,admitReviewer_active hactive hself hnew,hs⟩

/-- The members a step is shown as waiting on: its routed reviewer while eligible, else everyone. -/
def listedFor (db : Db) (requestId : RequestId) (row : ApprovalRow) (step : PolicyStep) :
    List MemberId :=
  match (routeAssignments db requestId row step.id).filter (fun a => a ∈ eligibleNow db row step) with
  | some assigned => [assigned]
  | none => eligibleNow db row step

/-- Whoever is listed for a current step, and has not voted, is accepted for a current step. -/
def ListedCanAct (db : Db) (requestId : RequestId) (row : ApprovalRow) : Prop :=
  ∀ view ∈ (projected db requestId row).steps, view.status = .current →
    ∀ m ∈ view.currentReviewerMemberIds, Unvoted db requestId row m →
      ∃ step ∈ currentNow db requestId row, AcceptedAs db requestId row m step

/-- No current step is routed to a member who is not eligible for it, unless every eligible member
without a vote has another current step that is not routed, or routed to them. -/
def RoutesStand (db : Db) (requestId : RequestId) (row : ApprovalRow) : Prop :=
  ∀ step ∈ currentNow db requestId row, ∀ assigned,
    routeAssignments db requestId row step.id = some assigned → assigned ∉ eligibleNow db row step →
    ∀ m ∈ eligibleNow db row step, Unvoted db requestId row m →
      ∃ other ∈ currentNow db requestId row, m ∈ eligibleNow db row other ∧
        OpenTo db requestId row other m

theorem currentNow_pending (h : step ∈ currentNow db requestId row) : row.status = .pending := by
  by_contra hp
  simp [currentNow, currentSteps, hp] at h

/-- While an approval is pending no vote of its revision ends it. -/
theorem Ledger.no_terminal (h : Ledger db) (hrow : db.requests requestId = some row)
    (hp : row.status = .pending) :
    (votesFor db requestId row).find? (fun v => v.decision ≠ .approve) = none := by
  rw [List.find?_eq_none]
  intro v hv
  obtain ⟨hv,hid,hrev,-⟩ := mem_votesFor.mp hv
  simp [h.approving v hv row (hid ▸ hrow) hp hrev]

/-- The steps shown as current are the current ones, each with its list. -/
theorem mem_shown {view : StepView} : (view ∈ (projected db requestId row).steps ∧ view.status = .current) →
      ∃ step ∈ currentNow db requestId row,
        view.currentReviewerMemberIds = listedFor db requestId row step := by
  rintro ⟨hview,hs⟩
  obtain ⟨step,hstep,rfl⟩ := List.mem_map.mp hview
  refine ⟨step,?_,rfl⟩
  simp only [stepStatus] at hs
  split at hs
  · split at hs <;> cases hs
  · split at hs
    · cases hs
    · split at hs
      next hc =>
        obtain ⟨c,hc,hid⟩ := List.mem_map.mp (of_decide_eq_true hc)
        rw [step_eq_of_id (mem_currentSteps hc).1 (mem_orderedSteps.mp hstep) hid] at hc
        exact hc
      next => cases hs

theorem exists_shown (h : Ledger db) (hrow : db.requests requestId = some row)
    (hc : step ∈ currentNow db requestId row) :
    ∃ view ∈ (projected db requestId row).steps, view.status = .current ∧
      view.currentReviewerMemberIds = listedFor db requestId row step := by
  obtain ⟨hstep,hinc⟩ := mem_currentSteps hc
  refine ⟨_,List.mem_map_of_mem (mem_orderedSteps.mpr hstep),?_,rfl⟩
  have hterminal := h.no_terminal hrow (currentNow_pending hc)
  have hid : step.id ∈ (currentNow db requestId row).map PolicyStep.id := List.mem_map_of_mem hc
  simp only [hterminal, stepStatus, Option.filter_none, hinc]
  rw [if_neg (by decide)]
  exact if_pos (decide_eq_true hid)

theorem mem_listedFor_eligible (h : m ∈ listedFor db requestId row step) :
    m ∈ eligibleNow db row step := by
  unfold listedFor at h
  split at h
  next assigned ha =>
    rw [List.mem_singleton.mp h]
    simpa using (Option.filter_eq_some_iff.mp ha).2
  next => exact h

/-- In every reachable state whoever is listed can act exactly when the routes stand. -/
theorem listed_can_act_iff (env : Platform) (db : Db) (h : ReachableDb env db)
    (requestId : RequestId) (row : ApprovalRow) (hrow : db.requests requestId = some row) :
    ListedCanAct db requestId row ↔ RoutesStand db requestId row := by
  constructor
  · intro hl step hc assigned hroute hlost m hm hnew
    obtain ⟨view,hview,hs,hlist⟩ := exists_shown h.ledger hrow hc
    have hall : listedFor db requestId row step = eligibleNow db row step := by
      simp [listedFor, hroute, Option.filter_some, hlost]
    exact (acceptedAs_iff hnew).mp (hl view hview hs m (by rw [hlist, hall]; exact hm) hnew)
  · intro hr view hview hs m hm hnew
    obtain ⟨step,hc,hlist⟩ := mem_shown ⟨hview,hs⟩
    rw [hlist] at hm
    have hme := mem_listedFor_eligible hm
    rw [acceptedAs_iff hnew]
    cases hroute : routeAssignments db requestId row step.id with
    | none => exact ⟨step,hc,hme,fun a ha => by simp [hroute] at ha⟩
    | some assigned =>
      by_cases hlost : assigned ∈ eligibleNow db row step
      · -- the routed reviewer is the only one listed
        have hone : m = assigned := by simpa [listedFor, hroute, Option.filter_some, hlost] using hm
        refine ⟨step,hc,hme,fun a ha => ?_⟩
        rw [hroute, Option.some.injEq] at ha
        exact ha.symm.trans hone.symm
      · exact hr step hc assigned hroute hlost m hme hnew

end Reviewers

section RouteSample

/-- Two Admins review plans. -/
def twoAdminsDb : Db :=
  sampleDb (sampleDirectory ⟨[sampleMember 1 "admin" [], sampleMember 2 "admin" []],by decide,by decide⟩
    (samplePolicyRow .runPlan .sequential [] [⟨"s1","Review",0,[.role "admin" 1],1⟩]) fun _ => none)

/-- Admin 1 routes the review to Admin 2. -/
def sampleRoute : Event :=
  .route 0 ⟨1,false⟩ ⟨1,"sha256:3600000","route-1","s1",2,"Ada knows the terms."⟩

def routedDb : Db := afterAll samplePlatform twoAdminsDb [planProposal, sampleRoute]

/-- Member 2 is no longer an Admin. -/
def demotedDb : Db :=
  { routedDb with directory := { routedDb.directory with members :=
      ⟨[sampleMember 1 "admin" [], sampleMember 2 "member" []],by decide,by decide⟩ } }

theorem reachable_routedDb : ReachableDb samplePlatform routedDb :=
  ⟨twoAdminsDb,[planProposal, sampleRoute],initial_sampleDb _,run_afterAll (by decide)⟩

/-- The routed Admin is listed alone and can act. -/
theorem listed_can_act_routed : ∃ row, routedDb.requests 0 = some row ∧
    ListedCanAct routedDb 0 row := by
  have hopen : (routedDb.requests 0).any (fun row => (currentNow routedDb 0 row).all fun step =>
      (routeAssignments routedDb 0 row step.id).all fun a => a ∈ eligibleNow routedDb row step) =
        true := by decide
  rw [Option.any_eq_true] at hopen
  obtain ⟨row,hrow,hall⟩ := hopen
  refine ⟨row,hrow,(listed_can_act_iff samplePlatform routedDb reachable_routedDb 0 row hrow).mpr ?_⟩
  intro step hc assigned hroute hlost
  have hin := List.all_eq_true.mp hall step hc
  rw [hroute, Option.all_some, decide_eq_true_eq] at hin
  exact absurd hin hlost

/-- After the demotion the step is shown as waiting on Admin 1, whom the decision refuses. -/
theorem listed_reviewer_refused : ReachableDb samplePlatform demotedDb ∧
    (∃ row, demotedDb.requests 0 = some row ∧ ¬ ListedCanAct demotedDb 0 row) ∧
    (∃ e, decideApproval samplePlatform demotedDb 0 ⟨1,false⟩ (sampleApprove "vote-1") =
      .error (.route e) ∧ e.reason = "reviewer_not_eligible") := by
  have hdemoted : Step samplePlatform routedDb (.directory demotedDb.directory) demotedDb := rfl
  refine ⟨reachable_routedDb.tail hdemoted,?_,⟨_,rfl,rfl⟩⟩
  have hstate : (demotedDb.requests 0).any (fun row =>
      (projected demotedDb 0 row).steps.any (fun view =>
        view.status = .current ∧ 1 ∈ view.currentReviewerMemberIds) ∧
      votesFor demotedDb 0 row = [] ∧ (currentNow demotedDb 0 row).all fun step =>
        routeAssignments demotedDb 0 row step.id = some 2) = true := by decide
  rw [Option.any_eq_true] at hstate
  obtain ⟨row,hrow,hstate⟩ := hstate
  simp only [decide_eq_true_eq, List.any_eq_true, List.all_eq_true] at hstate
  obtain ⟨⟨view,hview,hs,hm⟩,hvotes,hrouted⟩ := hstate
  refine ⟨row,hrow,fun hl => ?_⟩
  have hnew : Unvoted demotedDb 0 row 1 := by simp [Unvoted, hvotes]
  obtain ⟨step,hc,-,hopen⟩ := (acceptedAs_iff hnew).mp (hl view hview hs 1 hm hnew)
  exact absurd (hopen 2 (hrouted step hc)) (by decide)

end RouteSample

section Capabilities
variable {userId : UserId} {view : ApprovalView}

theorem mem_eligibleStepIds {viewer : MemberRow} {stepId : String} :
    stepId ∈ eligibleStepIds db requestId row ((currentNow db requestId row).map PolicyStep.id) viewer ↔
      ∃ step ∈ currentNow db requestId row, step.id = stepId ∧
        step.reviewers.any (selectorMatches viewer) = true ∧
        (row.payload.policy.preventSelfReview = true → some viewer.id ≠ row.requesterMemberId) ∧
        OpenTo db requestId row step viewer.id := by
  have hfind : ∀ step ∈ currentNow db requestId row,
      row.payload.policy.steps.find? (fun s => s.id = step.id) = some step := by
    intro step hc
    exact Foundation.Tables.find?_key row.payload.policy.valid.ids (mem_currentSteps hc).1
  have hself : ∀ viewer : MemberRow, (!(row.payload.policy.preventSelfReview &&
      decide (some viewer.id = row.requesterMemberId))) = true ↔
      (row.payload.policy.preventSelfReview = true → some viewer.id ≠ row.requesterMemberId) := by
    intro viewer
    cases row.payload.policy.preventSelfReview <;> simp
  unfold eligibleStepIds
  rw [List.mem_filter, List.mem_map]
  constructor
  · rintro ⟨⟨step,hc,rfl⟩,h⟩
    rw [hfind step hc] at h
    simp only [Bool.and_eq_true] at h
    exact ⟨step,hc,rfl,h.1.1,(hself viewer).mp h.1.2,all_openTo.mp h.2⟩
  · rintro ⟨step,hc,rfl,hmatch,hs,hopen⟩
    refine ⟨⟨step,hc,rfl⟩,?_⟩
    rw [hfind step hc]
    simp only [Bool.and_eq_true]
    exact ⟨⟨hmatch,(hself viewer).mpr hs⟩,all_openTo.mpr hopen⟩

/-- Something is left to a viewer exactly when the reviewer guards of a decision let them vote. -/
theorem actionable_iff : actionableStepIds db requestId row (votesFor db requestId row)
      ((currentNow db requestId row).map PolicyStep.id) (activeMemberOf db userId) ≠ [] ↔
    ∃ reviewer step, admitReviewer db row (votesFor db requestId row) userId = .ok reviewer ∧
      chooseStep db requestId row (votesFor db requestId row) reviewer = .ok step := by
  constructor
  · intro h
    cases hm : activeMemberOf db userId with
    | none => simp [actionableStepIds, hm] at h
    | some member =>
      have hactive := List.mem_of_find?_eq_some hm
      have hid : member.userId = userId := by simpa using List.find?_some hm
      simp only [actionableStepIds, hm, row.payload.policy.valid.distinct, Bool.true_and] at h
      split at h
      · exact absurd rfl h
      next hmine =>
        have hnil : (votesFor db requestId row).filter (fun v => v.reviewerMemberId = member.id) = [] := by
          simpa using hmine
        have hnew : Unvoted db requestId row member.id := by
          intro v hv he
          exact List.not_mem_nil (hnil ▸ List.mem_filter.mpr ⟨hv,decide_eq_true he⟩)
        obtain ⟨stepId,hs⟩ := List.exists_mem_of_ne_nil _ h
        obtain ⟨step,hc,-,hmatch,hself,hopen⟩ := mem_eligibleStepIds.mp (List.mem_filter.mp hs).1
        obtain ⟨s,hs⟩ := exists_chooseStep hnew hc hmatch hopen
        exact ⟨member,s,hid ▸ admitReviewer_active hactive hself hnew,hs⟩
  · rintro ⟨reviewer,step,hreview,hchoose⟩
    obtain ⟨hactive,rfl,hself,hnew⟩ := admitReviewer_ok hreview
    obtain ⟨hc,hmatch,hopen⟩ := chooseStep_current hchoose
    have hnil : (votesFor db requestId row).filter (fun v => v.reviewerMemberId = reviewer.id) = [] := by
      rw [List.filter_eq_nil_iff]
      intro v hv
      simpa using hnew v hv
    have hin := mem_eligibleStepIds.mpr ⟨step,hc,rfl,hmatch,hself,hopen⟩
    simp only [actionableStepIds, activeMemberOf_of_active hactive, hnil, List.isEmpty_nil,
      Bool.not_true, Bool.and_false, Bool.false_eq_true, if_false, List.map_nil]
    exact List.ne_nil_of_mem (List.mem_filter.mpr ⟨hin,by simp⟩)

/-- The command is bound to the current revision and hash, under a key no command used. -/
structure Fresh (db : Db) (row : ApprovalRow) (revision : ℕ) (hash key : String) : Prop where
  revision : row.authorizationRevision = revision
  hash : row.authorizationHash = hash
  unused : ∀ c ∈ db.commands, c.idempotencyKey ≠ key

/-- The decision commits with a new vote of this member. -/
def RecordsVote (env : Platform) (db : Db) (requestId : RequestId) (context : ApprovalHumanContext)
    (input : DecideApprovalInput) : Prop :=
  ∃ db' result v, decideApproval env db requestId context input = .ok (db',result) ∧
    db'.votes = db.votes ++ [v] ∧ v.requestId = requestId ∧ v.reviewerUserId = context.userId ∧
    v.decision = input.decision

/-- The vote would complete the policy, and the finalization it triggers is refused. -/
def FinalizationRefused (env : Platform) (db : Db) (requestId : RequestId) (row : ApprovalRow)
    (context : ApprovalHumanContext) (input : DecideApprovalInput) : Prop :=
  input.decision = .approve ∧ ∃ reviewer step e,
    Ballot env db requestId context input row reviewer step ∧
    allApproved row.requesterMemberId row.payload.policy (activeMembers db.directory.members)
      (votesFor (recordVote env db requestId row step reviewer input) requestId row) = true ∧
    finalizeApproval env (recordVote env db requestId row step reviewer input) requestId row
      context.simulateEmailReplies = .error e

/-- The two kinds of approval whose content changes only through a fresh proposal. -/
def onlyFreshProposals (row : ApprovalRow) : Bool :=
  partnerEngagementChange row.payload.details || sharedIntelligenceChange row.payload.details

theorem fresh_replay {operation : Operation} {revision : ℕ} {hash key command : String}
    (h : Fresh db row revision hash key) : commandReplay db requestId operation key command = .ok false := by
  have hnone : db.commands.find? (fun c => c.idempotencyKey = key) = none := by
    rw [List.find?_eq_none]
    intro c hc
    simpa using h.unused c hc
  simp [commandReplay, hnone]

/-- What a loaded view says a viewer may do. -/
theorem loadApprovalView_ok (h : loadApprovalView db requestId (some userId) = .ok view) :
    ∃ row, db.requests requestId = some row ∧
      (db.directory.agents row.requesterAgentId).isSome = true ∧
      (∀ d, d ∈ view.allowedDecisions ↔ (row.status = .pending ∧ db.now < row.expiresAt) ∧
        actionableStepIds db requestId row (votesFor db requestId row)
          ((currentNow db requestId row).map PolicyStep.id) (activeMemberOf db userId) ≠ []) ∧
      (view.canSubmitRevision = true ↔ (row.status = .pending ∨ row.status = .changesRequested) ∧
        (activeMemberOf db userId).any (fun m => m.role = "admin" ∨
          some m.id = row.requesterMemberId) = true) := by
  simp only [loadApprovalView, Result.bind_eq_ok, Result.pure_eq_ok, require_eq_ok] at h
  obtain ⟨_,-,row,hrow,_,hagent,rfl⟩ := h
  refine ⟨row,loadApprovalRow_ok hrow,hagent,fun d => ?_,?_⟩
  · change d ∈ (if _ then _ else _) ↔ _
    split
    next ha => exact ⟨fun _ => ha,fun _ => by cases d <;> simp⟩
    next ha => exact ⟨fun hd => absurd hd List.not_mem_nil,fun hd => absurd hd ha⟩
  · simp only [Option.bind_some, decide_eq_true_eq, Bool.decide_and, Bool.and_eq_true]

/-- A ballot records its vote, unless the vote completes the policy and finalization is refused. -/
theorem Ballot.records (b : Ballot env db requestId context input row reviewer step)
    (hreq : (db.directory.agents row.requesterAgentId).isSome = true)
    (hvis : hiddenFrom db requestId context.userId = false) :
    RecordsVote env db requestId context input ∨
      FinalizationRefused env db requestId row context input := by
  set voted := recordVote env db requestId row step reviewer input with hvoted
  have huser : reviewer.userId = context.userId := (admitReviewer_ok b.admitted).2.1
  have hrecords : ∀ (db' : Db) (row' : ApprovalRow),
      castVote env db requestId context row input = .ok db' → Frame voted db' →
      db'.requests requestId = some row' → row'.requesterAgentId = row.requesterAgentId →
      RecordsVote env db requestId context input := by
    intro db' row' hcast hframe hrow hagent
    obtain ⟨view,h⟩ := b.decides hcast hframe hrow hagent hreq hvis
    exact ⟨db',_,newVote db requestId row step reviewer input,h,hframe.votes,rfl,huser,rfl⟩
  have hcast := b.castVote_eq
  rw [← hvoted] at hcast
  by_cases hd : input.decision = .approve
  · rw [if_neg (not_not.mpr hd), countApproval] at hcast
    split at hcast
    next hall =>
      cases hf : finalizeApproval env voted requestId row context.simulateEmailReplies with
      | error e => exact Or.inr ⟨hd,reviewer,step,e,b,hall,hf⟩
      | ok f =>
        rw [hf] at hcast
        have hspec := finalizeApproval_spec hf
        obtain ⟨row',hrow',-,hagent⟩ := hspec.approved_row b.pending
        refine Or.inl (hrecords _ row' hcast
          (hspec.toFrame.trans (writeApprovalReceipt_frame f requestId row .approved reviewer.name))
          ?_ hagent)
        rw [(writeApprovalReceipt_requests _ _ _ _ _).1, hrow']
    next => exact Or.inl (hrecords voted row hcast (.refl voted) b.loaded rfl)
  · rw [if_pos hd] at hcast
    obtain ⟨hframe,hrow,-⟩ := closeDecision_spec voted requestId row input.decision reviewer.name
    refine Or.inl (hrecords _ (closedRow row input.decision) hcast hframe ?_ rfl)
    rw [hrow, Function.update_self]

/-- A decision that records a vote was cast under a ballot. -/
theorem RecordsVote.ballot (h : RecordsVote env db requestId context input) :
    ∃ row reviewer step, Ballot env db requestId context input row reviewer step := by
  obtain ⟨db',result,v,hd,hvotes,-⟩ := h
  cases decideApproval_ok hd with
  | replayed _ => simp at hvotes
  | expired row _ _ _ => simp [markExpired, Db.setStatus, Db.setRevisionStatus, Db.setRequest] at hvotes
  | closed row reviewer step b _ => exact ⟨row,reviewer,step,b⟩
  | counted row reviewer step b _ _ => exact ⟨row,reviewer,step,b⟩
  | finalized row reviewer step f b _ _ _ => exact ⟨row,reviewer,step,b⟩

theorem requireRevisable_ok {proposal : ApprovalProposal}
    (hstatus : row.status = .pending ∨ row.status = .changesRequested)
    (hkind : onlyFreshProposals row = false)
    (htype : proposal.approvalType = row.payload.approvalType) :
    requireRevisable row proposal = .ok () := by
  simp only [onlyFreshProposals, Bool.or_eq_false_iff] at hkind
  simp only [requireRevisable, Result.bind_eq_ok, require_eq_ok]
  exact ⟨(),decide_eq_true hstatus,(),by simp [hkind.1],(),by simp [hkind.2],
    decide_eq_true htype.symm⟩

/-- What a viewer is shown against what the server accepts. A decision that records a vote is
shown; a shown decision records one, or completes the policy and its finalization is refused,
where a request for changes is not one of those that only a fresh proposal answers. A viewer who is
shown that they may revise is refused only by what the new content resolves to. -/
theorem capabilities_match (env : Platform) (db : Db) (requestId : RequestId) (userId : UserId)
    (view : ApprovalView) (hview : loadApprovalView db requestId (some userId) = .ok view) :
    ∃ row, db.requests requestId = some row ∧
    (∀ (simulate : Bool) (input : DecideApprovalInput),
      Fresh db row input.expectedAuthorizationRevision input.expectedAuthorizationHash
        input.idempotencyKey →
      (RecordsVote env db requestId ⟨userId,simulate⟩ input → input.decision ∈ view.allowedDecisions) ∧
      (input.decision ∈ view.allowedDecisions →
        (onlyFreshProposals row = true → input.decision ≠ .requestChanges) →
        RecordsVote env db requestId ⟨userId,simulate⟩ input ∨
          FinalizationRefused env db requestId row ⟨userId,simulate⟩ input)) ∧
    (view.canSubmitRevision = true → onlyFreshProposals row = false →
      ∀ (simulate : Bool) (input : ReviseApprovalInput),
      Fresh db row input.expectedAuthorizationRevision input.expectedAuthorizationHash
        input.idempotencyKey →
      input.proposal.approvalType = row.payload.approvalType →
      ∀ e, reviseApproval env db requestId ⟨userId,simulate⟩ input = .error e →
        writeRevision env db requestId userId row input.proposal input.requestedExpiresAt =
          .error e) := by
  obtain ⟨row,hrow,hagent,hallowed,hrevise⟩ := loadApprovalView_ok hview
  have hvis := view_visible hview
  refine ⟨row,hrow,fun simulate input hfresh => ⟨fun h => ?_,fun h hkind => ?_⟩,
    fun hcan hkind simulate input hfresh htype e he => ?_⟩
  · obtain ⟨row',reviewer,step,b⟩ := h.ballot
    cases hrow.symm.trans b.loaded
    exact (hallowed input.decision).mpr ⟨⟨b.pending,b.unexpired⟩,
      actionable_iff.mpr ⟨reviewer,step,b.admitted,b.chosen⟩⟩
  · obtain ⟨⟨hpending,hlive⟩,hact⟩ := (hallowed input.decision).mp h
    obtain ⟨reviewer,step,hreview,hchoose⟩ := actionable_iff.mp hact
    have b : Ballot env db requestId ⟨userId,simulate⟩ input row reviewer step :=
      ⟨fresh_replay hfresh,hrow,hfresh.revision,hfresh.hash,hpending,hlive,
        fun hc => hkind (by simpa [onlyFreshProposals] using hc),hreview,hchoose⟩
    exact b.records hagent hvis
  · obtain ⟨hstatus,hviewer⟩ := hrevise.mp hcan
    have hreplay : commandReplay db requestId .revision input.idempotencyKey (revisionHash env input) =
        .ok false := fresh_replay hfresh
    have hload : loadApprovalRow db requestId = .ok row := by simp [loadApprovalRow, hrow]
    have hbound : assertBinding row input.expectedAuthorizationRevision
        input.expectedAuthorizationHash = .ok () :=
      require_eq_ok.mpr (decide_eq_true ⟨hfresh.revision,hfresh.hash⟩)
    have hrevisable := requireRevisable_ok hstatus hkind htype
    have hreviser : requireReviser db row userId = .ok () := require_eq_ok.mpr hviewer
    simp only [reviseApproval, hreplay, Bool.false_eq_true, if_false, hload, hbound, hrevisable,
      hreviser, bind, Except.bind] at he
    cases hw : writeRevision env db requestId userId row input.proposal input.requestedExpiresAt with
    | error e' =>
      rw [hw] at he
      cases he
      rfl
    | ok revised =>
      obtain ⟨r,hr⟩ := writeRevision_ok hrow (hstatus.imp_right Or.inl) hw
      have hrecorded := hr.recordCommand .revision input.idempotencyKey (revisionHash env input)
      obtain ⟨reason,hrow'⟩ := hrecorded.requests
      obtain ⟨shown,hshown⟩ := @exists_view _ requestId _ ⟨userId,simulate⟩
        ((hiddenFrom_frame hrecorded.toFrame userId).trans hvis)
        (by rw [hrow', Function.update_self]) (by rw [hrecorded.directory]; exact hagent)
      rw [hw] at he
      simp only [hshown] at he
      cases he

end Capabilities

section CapabilitySample

/-- A fresh decision of the sample Admin on the first revision. -/
def sampleDecision (decision : VoteDecision) : DecideApprovalInput :=
  ⟨1,"sha256:3600000","vote-1",decision,none⟩

/-- The address of the proposed email was suppressed after it was proposed. -/
def suppressedDb : Db :=
  { proposedEmailDb with mail := { proposedEmailDb.mail with suppressions := ["b@example.com"] } }

/-- A registered system of partner records. -/
def partnerRecordsDb : Db :=
  sampleDb (sampleDirectory ⟨[sampleMember 1 "admin" []],sampleAdmin_ids,sampleAdmin_users⟩
    (samplePolicyRow .recordChange .sequential [] [⟨"s1","Review",0,[.role "admin" 1],1⟩])
    fun id => if id = "enterprise-partner-records" then
      some ⟨1,some "v1",some "digest",false,true⟩ else none)

def proposedTermsDb : Db :=
  after samplePlatform partnerRecordsDb (sampleProposal (.recordChange "enterprise-partner-records"))

/-- Whether the view of Admin 1 lists a decision that the server then refuses. -/
def listedAndRefused (db : Db) (decision : VoteDecision) : Bool :=
  (match loadApprovalView db 0 (some 1) with
    | .ok view => decision ∈ view.allowedDecisions
    | .error _ => false) &&
  !(decideApproval samplePlatform db 0 ⟨1,false⟩ (sampleDecision decision)).isOk

/-- A shown approval may be refused by its finalization, and a shown request for changes by the
kind of the approval, under a fresh key and the current revision and hash. -/
theorem shown_decisions_refused :
    (ReachableDb samplePlatform suppressedDb ∧ listedAndRefused suppressedDb .approve = true ∧
      ∃ row, suppressedDb.requests 0 = some row ∧ Fresh suppressedDb row 1 "sha256:3600000" "vote-1") ∧
    (ReachableDb samplePlatform proposedTermsDb ∧
      listedAndRefused proposedTermsDb .requestChanges = true ∧
      ∃ row, proposedTermsDb.requests 0 = some row ∧
        Fresh proposedTermsDb row 1 "sha256:3600000" "vote-1") := by
  have hfresh : ∀ db : Db, (db.requests 0).any (fun row => row.authorizationRevision = 1 ∧
      row.authorizationHash = "sha256:3600000") = true → db.commands = [] →
      ∃ row, db.requests 0 = some row ∧ Fresh db row 1 "sha256:3600000" "vote-1" := by
    intro db h hc
    rw [Option.any_eq_true] at h
    obtain ⟨row,hrow,h⟩ := h
    rw [decide_eq_true_eq] at h
    exact ⟨row,hrow,h.1,h.2,by simp [hc]⟩
  have hproposed : ReachableDb samplePlatform proposedEmailDb :=
    ⟨emailDb,[sampleProposal (.communication emailDetails)],initial_sampleDb _,
      run_afterAll (by decide)⟩
  have hmail : Step samplePlatform proposedEmailDb (.mail suppressedDb.mail) suppressedDb := rfl
  exact ⟨⟨hproposed.tail hmail,by decide +kernel,hfresh _ (by decide) (by decide)⟩,
    ⟨⟨partnerRecordsDb,[sampleProposal (.recordChange "enterprise-partner-records")],
      initial_sampleDb _,run_afterAll (by decide)⟩,by decide,hfresh _ (by decide) (by decide)⟩⟩

/-- The Admin of the sample plan may request changes, and the request is recorded. -/
theorem capabilities_match_plan :
    RecordsVote samplePlatform proposedPlanDb 0 ⟨1,false⟩ (sampleDecision .requestChanges) := by
  have hview : (match loadApprovalView proposedPlanDb 0 (some 1) with
      | .ok view => decide (.requestChanges ∈ view.allowedDecisions)
      | .error _ => false) = true := by decide
  split at hview
  next view hload =>
    obtain ⟨row,hrow,hdecide,-⟩ := capabilities_match samplePlatform proposedPlanDb 0 1 view hload
    have hstate : (proposedPlanDb.requests 0).any (fun row => row.authorizationRevision = 1 ∧
        row.authorizationHash = "sha256:3600000" ∧ onlyFreshProposals row = false) = true := by decide
    rw [hrow, Option.any_some, decide_eq_true_eq] at hstate
    have hfresh : Fresh proposedPlanDb row 1 "sha256:3600000" "vote-1" :=
      ⟨hstate.1,hstate.2.1,fun c hc => by cases hc⟩
    rcases (hdecide false (sampleDecision .requestChanges) hfresh).2 (of_decide_eq_true hview)
      (fun hk => by rw [hstate.2.2] at hk; cases hk) with h | ⟨hd,-⟩
    · exact h
    · cases hd
  next => cases hview

end CapabilitySample

end HermesEnterprise.Approvals
