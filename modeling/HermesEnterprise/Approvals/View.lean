import HermesEnterprise.Approvals.Progress

/-! # The projected view of an approval

What a viewer is shown: the steps with their progress, and which decisions the
viewer may take. A private watch review is invisible to everyone but its owner.
-/
namespace HermesEnterprise.Approvals

variable (db : Db) (requestId : RequestId)

def activeMemberOf (userId : UserId) : Option MemberRow :=
  (activeMembers db.directory.members).find? fun m => m.userId = userId

/-- Whether a watch review hides this request from the user. -/
def hiddenFrom (userId : UserId) : Bool :=
  match db.watchChecks.find? (fun c => c.reviewId = some requestId) with
  | none => false
  | some check => !((activeMemberOf db userId).isSome && userId = check.ownerUserId)

def requirePartnerWatchViewer (viewerUserId : Option UserId) : Result Unit :=
  require (viewerUserId.all fun u => !hiddenFrom db requestId u) "no such approval request"
    "unknown_approval" 404

def loadApprovalRow : Result ApprovalRow :=
  match db.requests requestId with
  | some row => .ok row
  | none => refuse "no such approval request" "unknown_approval" 404

def statusText : ApprovalStatus → String
  | .pending => "pending"
  | .approved => "approved"
  | .declined => "declined"
  | .changesRequested => "changes_requested"
  | .expired => "expired"
  | .withdrawn => "withdrawn"

structure ApprovalView where
  requestId : RequestId
  status : ApprovalStatus
  payload : ApprovalPayload
  votes : List VoteRow
  steps : List StepView
  allowedDecisions : List VoteDecision
  eligibleStepIds : List String
  canRoute : Bool
  canSubmitRevision : Bool
  reason : Option String
  effect : Effect
  workStatus : WorkStatus
  workReason : Option String
  continuationId : Option Uuid
  finalizedAt : Option ℕ

/-- The current steps the viewer could vote for, by selector, self-review rule and route. -/
def eligibleStepIds (row : ApprovalRow) (current : List String) (viewer : MemberRow) : List String :=
  current.filter fun stepId =>
    match row.payload.policy.steps.find? (fun s => s.id = stepId) with
    | none => false
    | some step =>
      step.reviewers.any (selectorMatches viewer) &&
        !(row.payload.policy.preventSelfReview && some viewer.id = row.requesterMemberId) &&
        (routeAssignments db requestId row stepId).all fun m => m = viewer.id

/-- The steps left to the viewer: none after a vote when reviewers must be distinct. -/
def actionableStepIds (row : ApprovalRow) (votes : List VoteRow) (current : List String)
    (viewer : Option MemberRow) : List String :=
  match viewer with
  | none => []
  | some member =>
    let mine := votes.filter fun v => v.reviewerMemberId = member.id
    if row.payload.policy.requireDistinctReviewers && !mine.isEmpty then []
    else (eligibleStepIds db requestId row current member).filter
      fun stepId => stepId ∉ mine.map VoteRow.stepId

def loadApprovalView (viewerUserId : Option UserId) : Result ApprovalView := do
  requirePartnerWatchViewer db requestId viewerUserId
  let row ← loadApprovalRow db requestId
  let votes := votesFor db requestId row
  let state := progress row row.payload (activeMembers db.directory.members) votes
    (routeAssignments db requestId row)
  let viewer := viewerUserId.bind (activeMemberOf db)
  let actionable := actionableStepIds db requestId row votes state.current viewer
  let pending := row.status = .pending ∧ db.now < row.expiresAt
  require (db.directory.agents row.requesterAgentId).isSome
    "the requester agent no longer exists" "invalid_requester_agent" 409
  return {
    requestId := requestId
    status := row.status
    payload := row.payload
    votes := votes
    steps := state.steps
    allowedDecisions :=
      if pending ∧ actionable ≠ [] then [.approve,.decline,.requestChanges] else []
    eligibleStepIds := actionable
    canRoute := pending ∧ viewer.any (fun m => m.role = "admin")
    canSubmitRevision := (row.status = .pending ∨ row.status = .changesRequested) ∧
      viewer.any (fun m => m.role = "admin" ∨ some m.id = row.requesterMemberId)
    reason :=
      if pending then
        if actionable = [] then some "This request is waiting on another reviewer." else none
      else some ("This authorization is " ++ statusText row.status ++ ".")
    effect := row.effect
    workStatus := row.workStatus
    workReason := row.workReason
    continuationId := row.continuationId
    finalizedAt := row.finalizedAt }

/-- The members who could review under any step of the policy. -/
def approvalReviewerMemberIds : List MemberId :=
  match db.requests requestId with
  | none => []
  | some row => row.payload.policy.steps.flatMap
      (eligibleIds row.requesterMemberId row.payload.policy (activeMembers db.directory.members))

end HermesEnterprise.Approvals
