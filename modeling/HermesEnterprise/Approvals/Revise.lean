import HermesEnterprise.Approvals.Decide
import HermesEnterprise.Approvals.Targets

/-! # Revisions, reopening, routing and reading

A revision is a fresh authorization: new targets, policy, bindings, expiry and
hash, and no votes. Reopening an approved email writes the same proposal as the
next revision. Reading an overdue approval expires it.
-/
namespace HermesEnterprise.Approvals
open Foundation.Tables

variable (env : Platform) (db : Db) (requestId : RequestId)

/-- What the server resolves for a proposal before it is authorized. -/
structure Resolution where
  targets : TargetContext
  selected : SelectedPolicy
  expiresAt : ℕ
  bindings : List ApprovalResourceBinding

/-- The expiry: the policy's limit, or an earlier requested time that is still ahead. -/
def chooseExpiry (now maxDurationSeconds : ℕ) (requested : Option ℕ) : Result ℕ :=
  let maximum := now + maxDurationSeconds * 1000
  let expiry := requested.getD maximum
  if now < expiry ∧ expiry ≤ maximum then .ok expiry
  else refuse "the requested expiry is outside the selected policy limit" "invalid_expiry" 422

def revisionContext (old : ApprovalServerContext) (targets : TargetContext) : ApprovalServerContext :=
  { old with
    targetAgentIds := targets.targetAgentIds
    targetMemberIds := targets.targetMemberIds
    targetResourceIds := targets.targetResourceIds
    dependentRequestIds := targets.dependentRequestIds }

/-- Resolve a revised proposal against the stored context of the old one. -/
def resolveRevision (userId : UserId) (row : ApprovalRow) (proposal : ApprovalProposal)
    (requestedExpiresAt : Option ℕ) : Result Resolution := do
  let old := row.payload
  env.validatePartnerWatchRevision db requestId userId old proposal
  let targets ← validatedTargetContext env db proposal
    ⟨old.context.targetAgentIds,old.context.targetMemberIds,old.context.targetResourceIds,
      old.context.dependentRequestIds⟩
  let selected ← selectPolicy env db.directory proposal row.requesterAgentId
    targets.targetResourceIds old.policy.key
  let _ ← env.validatePartnerOutreachContact db row.requesterAgentId selected.row.fields.key proposal
    (some requestId)
  validatePolicyFeasibility selected.policy (activeMembers db.directory.members)
    row.requesterMemberId targets.requiredOwnerIds
  let expiresAt ← chooseExpiry db.now selected.row.maxDurationSeconds requestedExpiresAt
  return ⟨targets,selected,expiresAt,
    resolveResourceBindings env db.directory (resourceRows db.directory targets.targetResourceIds)
      ⟨old.context.requester.userId,old.context.runId,old.context.requester.agentId⟩ proposal⟩

def revisionPayload (row : ApprovalRow) (proposal : ApprovalProposal) (r : Resolution) :
    ApprovalPayload :=
  let context := revisionContext row.payload.context r.targets
  { proposal with
    context := context
    authorization := ⟨row.authorizationRevision + 1,
      env.authorizationHash ⟨proposal,context,r.selected.policy,r.bindings,r.expiresAt⟩,r.expiresAt⟩
    policy := r.selected.policy
    resourceBindings := r.bindings.map storedBinding }

/-- The row of the next revision: pending again, with nothing decided. -/
def revisedRow (row : ApprovalRow) (payload : ApprovalPayload) (effect : Effect) : ApprovalRow :=
  { row with
    policyId := payload.policy.id
    policyVersion := payload.policy.version
    authorizationRevision := payload.authorization.revision
    authorizationHash := payload.authorization.hash
    status := .pending
    requestStatus := .pending
    expiresAt := payload.authorization.expiresAt
    effect := effect
    workStatus := .waiting
    workReason := none
    finalizedAt := none
    payload := payload }

/-- An undecided revision is superseded; an approved one keeps its attempt on record. -/
def supersede (row : ApprovalRow) (rows : List RevisionRow) : List RevisionRow :=
  updateWhere (fun r => r.requestId = requestId ∧ r.revision = row.authorizationRevision ∧
      (r.status = .current .pending ∨ r.status = .current .changesRequested))
    (fun r => { r with status := .superseded }) rows

def writeRevision (userId : UserId) (row : ApprovalRow) (proposal : ApprovalProposal)
    (requestedExpiresAt : Option ℕ) : Result Db := do
  let r ← resolveRevision env db requestId userId row proposal requestedExpiresAt
  let payload := revisionPayload env row proposal r
  let hash := payload.authorization.hash
  require (hash ≠ row.authorizationHash) "the revision does not materially change the authorization"
    "unchanged_revision" 422
  if db.revisions.any (fun v => v.requestId = requestId ∧ v.authorizationHash = hash) then
    .error (.error "approval_revisions_hash")
  else
    let next : RevisionRow := ⟨requestId,payload.authorization.revision,hash,payload,.current .pending⟩
    return ({ db with revisions := supersede requestId row db.revisions ++ [next] }).setRequest
      requestId (revisedRow row payload (effectFor proposal r.bindings))

def revisionHash (input : ReviseApprovalInput) : String :=
  env.commandHash (.revision input.expectedAuthorizationRevision input.expectedAuthorizationHash
    input.proposal input.changeSummary input.requestedExpiresAt)

/-- Who may revise: an Admin or the requester. -/
def requireReviser (row : ApprovalRow) (userId : UserId) : Result Unit :=
  require ((activeMemberOf db userId).any fun m =>
      m.role = "admin" ∨ some m.id = row.requesterMemberId)
    "only the requester or an Admin may submit a revision" "revision_forbidden" 403

def requireRevisable (row : ApprovalRow) (proposal : ApprovalProposal) : Result Unit := do
  require (row.status = .pending ∨ row.status = .changesRequested)
    ("this approval is " ++ statusText row.status) "approval_not_revisable" 409
  require (!partnerEngagementChange row.payload.details)
    "Submit changed engagement terms as a fresh exact-source proposal." "approval_revision_forbidden" 409
  require (!sharedIntelligenceChange row.payload.details)
    "Submit changed content as a fresh exact-source proposal." "approval_revision_forbidden" 409
  require (row.payload.approvalType = proposal.approvalType) "a revision cannot change approval type"
    "approval_type_changed" 422

def reviseApproval (context : ApprovalHumanContext) (input : ReviseApprovalInput) :
    Result (Db × CommandResult) := do
  let hash := revisionHash env input
  let replay ← commandReplay db requestId .revision input.idempotencyKey hash
  if replay then
    let view ← loadApprovalView db requestId (some context.userId)
    return (db,⟨view,true⟩)
  else
    let row ← loadApprovalRow db requestId
    assertBinding row input.expectedAuthorizationRevision input.expectedAuthorizationHash
    requireRevisable row input.proposal
    requireReviser db row context.userId
    let revised ← writeRevision env db requestId context.userId row input.proposal
      input.requestedExpiresAt
    let recorded := revised.recordCommand requestId .revision input.idempotencyKey hash
    let view ← loadApprovalView recorded requestId (some context.userId)
    return (recorded,⟨view,false⟩)

/-- The proposal inside a stored payload. -/
def storedProposal (payload : ApprovalPayload) : ApprovalProposal := payload.toApprovalProposal

/-- The reason shown once a resend was reopened. -/
def reopenedReason : String :=
  "A reviewer confirmed the email was not sent. Approve it again to send it."

def setEffectReason (reason : String) : Db :=
  match db.requests requestId with
  | none => db
  | some row => db.setRequest requestId { row with effect := { row.effect with reason := some reason } }

/-- Reopen an approved email; an approval that is pending again already covers it. -/
def reopenApprovalForResend (userId : UserId) : Result Db := do
  let row ← loadApprovalRow db requestId
  if row.status = .pending then return db
  else
    require (row.status = .approved) ("this approval is " ++ statusText row.status)
      "approval_not_reopenable" 409
    require (row.payload.approvalType = .communication)
      "only an approved email can be reopened to send again" "approval_not_reopenable" 409
    let revised ← writeRevision env db requestId userId row (storedProposal row.payload) none
    return setEffectReason revised requestId reopenedReason

def routeHash (input : RouteApprovalInput) : String :=
  env.commandHash (.route input.expectedAuthorizationRevision input.expectedAuthorizationHash
    input.stepId input.reviewerMemberId input.reason)

/-- The acting Admin and the routed member, both active now. -/
def routeParties (context : ApprovalHumanContext) (input : RouteApprovalInput) :
    Result (MemberRow × MemberRow) :=
  match (activeMemberOf db context.userId).filter (fun m => m.role = "admin") with
  | none => refuse "routing an approval needs an Admin" "admin_required" 403
  | some actor =>
    match (activeMembers db.directory.members).find? (fun m => m.id = input.reviewerMemberId) with
    | none => refuse "the routed reviewer is not active in this workspace" "invalid_reviewer" 422
    | some target => .ok (actor,target)

/-- The routed member already votes or is routed for another step. -/
def routedElsewhere (row : ApprovalRow) (stepId : String) (target : MemberId) : Bool :=
  (votesFor db requestId row).any (fun v => v.reviewerMemberId = target ∧ v.stepId ≠ stepId) ||
    db.routes.any fun r => r.requestId = requestId ∧ r.revision = row.authorizationRevision ∧
      r.stepId ≠ stepId ∧ routeAssignments db requestId row r.stepId = some target

def checkRoute (row : ApprovalRow) (stepId : String) (target : MemberRow) : Result Unit := do
  let policy := row.payload.policy
  require ((policy.steps.find? (fun s => s.id = stepId)).any fun s =>
      s.reviewers.any (selectorMatches target))
    "the routed member is not eligible under the immutable policy" "reviewer_not_eligible" 422
  require (!(policy.preventSelfReview && some target.id = row.requesterMemberId))
    "self-review is not allowed by this policy" "self_review_forbidden" 422
  require (!(policy.requireDistinctReviewers && routedElsewhere db requestId row stepId target.id))
    "a routed member cannot satisfy more than one step" "distinct_reviewer_required" 422

def routeApproval (context : ApprovalHumanContext) (input : RouteApprovalInput) :
    Result (Db × CommandResult) := do
  let hash := routeHash env input
  let replay ← commandReplay db requestId .route input.idempotencyKey hash
  if replay then
    let view ← loadApprovalView db requestId (some context.userId)
    return (db,⟨view,true⟩)
  else
    let row ← loadApprovalRow db requestId
    assertBinding row input.expectedAuthorizationRevision input.expectedAuthorizationHash
    require (row.status = .pending ∧ db.now < row.expiresAt)
      "only a current pending approval can be routed" "approval_not_pending" 409
    let (actor,target) ← routeParties db context input
    checkRoute db requestId row input.stepId target
    let route : RouteRow := ⟨db.nextId,requestId,row.authorizationRevision,input.stepId,target.id,
      actor.id,input.reason,input.idempotencyKey,db.now⟩
    let routed := ({ db with routes := db.routes ++ [route],
                             nextId := db.nextId + 1 }).recordCommand requestId .route
      input.idempotencyKey hash
    let view ← loadApprovalView routed requestId (some context.userId)
    return (routed,⟨view,false⟩)

/-- Reading an overdue pending approval marks it expired first. -/
def getApproval (viewerUserId : UserId) : Result (Db × ApprovalView) := do
  requirePartnerWatchViewer db requestId (some viewerUserId)
  let row ← loadApprovalRow db requestId
  let read := if row.status = .pending ∧ row.expiresAt ≤ db.now then markExpired db requestId row
    else db
  let view ← loadApprovalView read requestId (some viewerUserId)
  return (read,view)

end HermesEnterprise.Approvals
