import HermesEnterprise.Approvals.Finalization
import HermesEnterprise.Approvals.View

/-! # Deciding an approval

A reviewer's vote is bound to the revision and hash it was read at. The vote
counts for the first current step the reviewer may act on; the recount after it
decides whether the approval is final.
-/
namespace HermesEnterprise.Approvals

variable (env : Platform) (db : Db) (requestId : RequestId)

/-- The view a command returns, and whether the command was a replay. -/
structure CommandResult where
  view : ApprovalView
  duplicate : Bool

def commandReplay (operation : Operation) (key hash : String) : Result Bool :=
  match db.commands.find? (fun c => c.idempotencyKey = key) with
  | none => .ok false
  | some prior => do
    require (prior.requestId = requestId ∧ prior.operation = operation ∧ prior.commandHash = hash)
      "idempotency key was already used for another approval command" "idempotency_conflict" 409
    return true

def assertBinding (row : ApprovalRow) (revision : ℕ) (hash : String) : Result Unit :=
  require (row.authorizationRevision = revision ∧ row.authorizationHash = hash)
    "the approval revision changed; refresh before acting" "stale_authorization" 409

def decisionHash (input : DecideApprovalInput) : String :=
  env.commandHash (.decision input.expectedAuthorizationRevision input.expectedAuthorizationHash
    input.decision input.note)

def activeReviewer (userId : UserId) : Result MemberRow :=
  match activeMemberOf db userId with
  | some member => .ok member
  | none => refuse "the reviewer is not an active workspace member" "reviewer_not_active" 403

/-- The member who votes: active, not the requester where that is forbidden, and not again. -/
def admitReviewer (row : ApprovalRow) (votes : List VoteRow) (userId : UserId) : Result MemberRow := do
  let reviewer ← activeReviewer db userId
  require (!(row.payload.policy.preventSelfReview && some reviewer.id = row.requesterMemberId))
    "self-review is not allowed by this policy" "self_review_forbidden" 403
  require (!(row.payload.policy.requireDistinctReviewers &&
      votes.any (fun v => v.reviewerMemberId = reviewer.id)))
    "this reviewer already voted on the current revision" "duplicate_reviewer" 409
  return reviewer

/-- The first step, in policy order, that is current, matches and is free or routed to the reviewer. -/
def chooseStep (row : ApprovalRow) (votes : List VoteRow) (reviewer : MemberRow) :
    Result PolicyStep :=
  let members := activeMembers db.directory.members
  let current := currentSteps row.requesterMemberId row.payload.policy members
    (row.status = .pending) votes
  let eligibleSteps := row.payload.policy.steps.filter fun step =>
    step.id ∈ current.map PolicyStep.id ∧ step.reviewers.any (selectorMatches reviewer)
  match eligibleSteps.find? (fun step =>
      (routeAssignments db requestId row step.id).all fun m => m = reviewer.id) with
  | some step =>
    if votes.any (fun v => v.stepId = step.id ∧ v.reviewerMemberId = reviewer.id) then
      refuse "this reviewer already voted on the current revision" "duplicate_reviewer" 409
    else .ok step
  | none => refuse "this member is not a current eligible reviewer" "reviewer_not_eligible" 403

def newVote (row : ApprovalRow) (step : PolicyStep) (reviewer : MemberRow)
    (input : DecideApprovalInput) : VoteRow where
  id := db.nextId
  requestId := requestId
  revision := row.authorizationRevision
  authorizationHash := row.authorizationHash
  stepId := step.id
  decision := input.decision
  reviewerMemberId := reviewer.id
  reviewerUserId := reviewer.userId
  note := input.note
  idempotencyKey := input.idempotencyKey
  recordedAt := db.now

/-- Insert the vote and its command in one transaction. -/
def recordVote (row : ApprovalRow) (step : PolicyStep) (reviewer : MemberRow)
    (input : DecideApprovalInput) : Db :=
  ({ db with votes := db.votes ++ [newVote db requestId row step reviewer input],
             nextId := db.nextId + 1 }).recordCommand requestId .decision input.idempotencyKey
    (decisionHash env input)

/-- A decline or a request for changes ends the revision at once. -/
def closeDecision (row : ApprovalRow) (decision : VoteDecision) (actor : String) : Db :=
  let declined := decision = .decline
  let status : ApprovalStatus := if declined then .declined else .changesRequested
  let reason := if declined then "The proposal was declined." else "A material revision is required."
  (writeApprovalReceipt (db.setStatus requestId row status .cancelled (some reason)) requestId row
    status actor).setEngagementStage requestId (if declined then "declined" else "changes_requested")

/-- Recount with the new vote; the vote that completes every step finalizes. -/
def countApproval (simulateEmailReplies : Bool) (row : ApprovalRow) (actor : String) : Result Db :=
  if allApproved row.requesterMemberId row.payload.policy (activeMembers db.directory.members)
      (votesFor db requestId row) then do
    let finalized ← finalizeApproval env db requestId row simulateEmailReplies
    return writeApprovalReceipt finalized requestId row .approved actor
  else .ok db

/-- The vote of one admitted command. -/
def castVote (context : ApprovalHumanContext) (row : ApprovalRow) (input : DecideApprovalInput) :
    Result Db := do
  require (!((partnerEngagementChange row.payload.details ||
      sharedIntelligenceChange row.payload.details) && input.decision = .requestChanges))
    "Submit changed content as a fresh exact-source proposal." "approval_revision_forbidden" 409
  let votes := votesFor db requestId row
  let reviewer ← admitReviewer db row votes context.userId
  let step ← chooseStep db requestId row votes reviewer
  let voted := recordVote env db requestId row step reviewer input
  if input.decision ≠ .approve then
    return closeDecision voted requestId row input.decision reviewer.name
  else countApproval env voted requestId context.simulateEmailReplies row reviewer.name

def decideApproval (context : ApprovalHumanContext) (input : DecideApprovalInput) :
    Result (Db × CommandResult) := do
  let replay ← commandReplay db requestId .decision input.idempotencyKey (decisionHash env input)
  if replay then
    let view ← loadApprovalView db requestId (some context.userId)
    return (db,⟨view,true⟩)
  else
    let row ← loadApprovalRow db requestId
    assertBinding row input.expectedAuthorizationRevision input.expectedAuthorizationHash
    if row.status = .pending ∧ row.expiresAt ≤ db.now then
      let expired := markExpired db requestId row
      let view ← loadApprovalView expired requestId (some context.userId)
      return (expired,⟨view,false⟩)
    else
      require (row.status = .pending) ("this approval is " ++ statusText row.status)
        "approval_not_pending" 409
      let decided ← castVote env db requestId context row input
      let view ← loadApprovalView decided requestId (some context.userId)
      return (decided,⟨view,false⟩)

end HermesEnterprise.Approvals
