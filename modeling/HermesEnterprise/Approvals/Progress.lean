import HermesEnterprise.Approvals.Db

/-! # Votes, routes and the progress of a policy

Votes count for the current revision and hash only. Progress recounts them
against the members of the moment: an approval counts for its step while its
reviewer is eligible, and no reviewer counts twice.
-/
namespace HermesEnterprise.Approvals
open Foundation.Representatives

def voteOrder (a b : VoteRow) : Prop :=
  a.recordedAt < b.recordedAt ∨ (a.recordedAt = b.recordedAt ∧ a.id ≤ b.id)

instance : DecidableRel voteOrder := fun _ _ => inferInstanceAs (Decidable (_ ∨ _))

def votesFor (db : Db) (requestId : RequestId) (row : ApprovalRow) : List VoteRow :=
  (db.votes.filter fun v => v.requestId = requestId ∧ v.revision = row.authorizationRevision ∧
    v.authorizationHash = row.authorizationHash).insertionSort voteOrder

/-- Newest first, as `DISTINCT ON` picks. -/
def routeOrder (a b : RouteRow) : Prop :=
  b.createdAt < a.createdAt ∨ (a.createdAt = b.createdAt ∧ b.id ≤ a.id)

instance : DecidableRel routeOrder := fun _ _ => inferInstanceAs (Decidable (_ ∨ _))

/-- The member each step of the current revision is routed to. -/
def routeAssignments (db : Db) (requestId : RequestId) (row : ApprovalRow) (stepId : String) :
    Option MemberId :=
  (((db.routes.filter fun r => r.requestId = requestId ∧ r.revision = row.authorizationRevision ∧
    r.stepId = stepId).insertionSort routeOrder).head?).map RouteRow.reviewerMemberId

/-- Counted reviewers for each step, and all of them together. -/
structure Tally where
  validApprovals : String → Finset MemberId
  usedReviewerIds : Finset MemberId

def orderedSteps (policy : ApprovalPolicy) : List PolicyStep :=
  policy.steps.insertionSort fun a b => a.order ≤ b.order

section Progress
variable (requesterMemberId : Option MemberId) (policy : ApprovalPolicy) (members : List MemberRow)

def eligibleIds (step : PolicyStep) : List MemberId :=
  (eligibleForStep step members requesterMemberId policy.preventSelfReview).map MemberRow.id

def countVote (t : Tally) (vote : VoteRow) : Tally :=
  if vote.decision ≠ .approve then t
  else match (orderedSteps policy).find? (fun step => step.id = vote.stepId) with
  | none => t
  | some step =>
    if vote.reviewerMemberId ∈ eligibleIds requesterMemberId policy members step ∧
        ¬ (policy.requireDistinctReviewers = true ∧ vote.reviewerMemberId ∈ t.usedReviewerIds) then
      ⟨Function.update t.validApprovals step.id
          (insert vote.reviewerMemberId (t.validApprovals step.id)),
        insert vote.reviewerMemberId t.usedReviewerIds⟩
    else t

def countVotes (votes : List VoteRow) : Tally :=
  votes.foldl (countVote requesterMemberId policy members) ⟨fun _ => ∅,∅⟩

def validApprovals (votes : List VoteRow) : String → Finset MemberId :=
  (countVotes requesterMemberId policy members votes).validApprovals

def completed (votes : List VoteRow) (step : PolicyStep) : Bool :=
  step.quorum ≤ (validApprovals requesterMemberId policy members votes step.id).card

/-- The steps that may collect votes now. -/
def currentSteps (pending : Bool) (votes : List VoteRow) : List PolicyStep :=
  let incomplete := (orderedSteps policy).filter
    fun step => !completed requesterMemberId policy members votes step
  if !pending then []
  else match policy.mode with
  | .parallel => incomplete
  | .sequential => incomplete.head?.toList

/-- Every step of the policy has its quorum. -/
def allApproved (votes : List VoteRow) : Bool :=
  policy.steps.all (completed requesterMemberId policy members votes)

end Progress

inductive StepStatus
  | declined
  | changesRequested
  | approved
  | current
  | blocked
  deriving DecidableEq, Repr

/-- One step as it is shown: its status, its count and who is asked to act. -/
structure StepView where
  stepId : String
  label : String
  order : ℕ
  status : StepStatus
  approvalsRecorded : ℕ
  quorum : ℕ
  currentReviewerMemberIds : List MemberId
  deriving DecidableEq, Repr

structure ProgressState where
  steps : List StepView
  current : List String
  validApprovals : String → Finset MemberId

def stepStatus (terminalVote : Option VoteRow) (step : PolicyStep) (done current : Bool) : StepStatus :=
  match terminalVote.filter (fun v => v.stepId = step.id) with
  | some v => if v.decision = .decline then .declined else .changesRequested
  | none => if done then .approved else if current then .current else .blocked

def progress (row : ApprovalRow) (payload : ApprovalPayload) (members : List MemberRow)
    (votes : List VoteRow) (assignments : String → Option MemberId) : ProgressState :=
  let requester := row.requesterMemberId
  let policy := payload.policy
  let current := (currentSteps requester policy members (row.status = .pending) votes).map PolicyStep.id
  let terminalVote := votes.find? fun v => v.decision ≠ .approve
  let valid := validApprovals requester policy members votes
  let view (step : PolicyStep) : StepView :=
    let eligible := eligibleIds requester policy members step
    let reviewers := match (assignments step.id).filter (fun m => m ∈ eligible) with
      | some assigned => [assigned]
      | none => eligible
    ⟨step.id,step.label,step.order,
      stepStatus terminalVote step (completed requester policy members votes step) (step.id ∈ current),
      (valid step.id).card,step.quorum,reviewers⟩
  ⟨(orderedSteps policy).map view,current,valid⟩

end HermesEnterprise.Approvals
