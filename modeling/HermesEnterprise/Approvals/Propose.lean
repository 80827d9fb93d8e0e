import HermesEnterprise.Approvals.Revise

/-! # Proposing an approval

The server authenticates the requester, resolves targets, policy, expiry and
bindings, and stores revision 1. A repeated key returns the existing approval.
-/
namespace HermesEnterprise.Approvals
open Foundation.CanonicalJson Foundation.Tables

variable (env : Platform) (db : Db)

structure RequesterContext where
  userId : Option UserId
  memberId : Option MemberId
  sessionId : Option SessionId
  runId : Option RunId
  deriving DecidableEq, Repr

def requireAgent (context : ApprovalProposerContext) : Result Unit :=
  let allowed : List AgentStatus :=
    if context.sourceTrigger.isSome then [.draft,.started] else [.started]
  require ((db.directory.agents context.agentId).any fun s => s ∈ allowed)
    "the proposing agent is not active in this workspace" "invalid_requester_agent" 422

/-- The human behind the source session, who must be the supplied requester if one is given. -/
def sessionUser (context : ApprovalProposerContext) (userId : Option UserId) :
    Result (Option UserId) :=
  match context.sessionId with
  | none => .ok userId
  | some sessionId =>
    match (db.directory.sessions sessionId).filter (fun s => s.agentId = some context.agentId) with
    | none => refuse "the source session is not bound to the proposing agent" "invalid_source_session" 422
    | some session => do
      require (userId.all fun u => u = session.ownerId)
        "the supplied requester does not own the source session" "invalid_requester" 422
      return some session.ownerId

def requireSourceRun (context : ApprovalProposerContext) : Result Unit :=
  match context.runId, context.sessionId with
  | none, _ => .ok ()
  | some _, none => refuse "a source run requires its source session" "invalid_source_run" 422
  | some runId, some sessionId =>
    require ((db.directory.runs runId).any fun r => r.sessionId = sessionId ∧
        r.agentId = some context.agentId ∧ (r.status = "working" ∨ r.status = "waiting") ∧
        !r.stopRequested)
      "the source run is not bound to the source session and agent" "invalid_source_run" 422

def requesterContext (context : ApprovalProposerContext) : Result RequesterContext := do
  requireAgent db context
  let userId ← sessionUser db context (context.requesterUserId <|> context.userId)
  requireSourceRun db context
  match userId with
  | none => return ⟨none,none,context.sessionId,context.runId⟩
  | some u =>
    match activeMemberOf db u with
    | none => refuse "the requester is not an active workspace member" "invalid_requester" 422
    | some member => return ⟨some u,some member.id,context.sessionId,context.runId⟩

/-- An Admin creates the review for another maker. -/
def delegatedRequester (context : ApprovalProposerContext) : Bool :=
  context.requesterUserId.isSome && context.requesterUserId ≠ context.userId

/-- Only an Admin may do so, and only for an owner-shared Shared Intelligence proposal. -/
def requireDelegation (context : ApprovalProposerContext) (proposal : ApprovalProposal) : Result Unit :=
  require (!delegatedRequester context || (sharedIntelligenceChange proposal.details &&
      (context.userId.bind (activeMemberOf db)).any fun m => m.role = "admin"))
    "Only an authenticated Admin may create review for an owner-shared Shared Intelligence proposal"
    "approval_requester_override_forbidden" 403

/-- A member join proposes coordination with the newly owned agent. -/
def requireJoinTarget (context : ApprovalProposerContext) (proposal : ApprovalProposal) : Result Unit :=
  match context.sourceTrigger with
  | none => .ok ()
  | some trigger =>
    let valid := match proposal.details with
      | .teamCommitment _ recipientAgentId receivingOwnerMemberId =>
        recipientAgentId = trigger.agentId ∧ receivingOwnerMemberId = trigger.memberId
      | .runPlan participatingAgents _ => participatingAgents = [trigger.agentId]
      | _ => False
    require valid "the join trigger must propose coordination with the newly owned agent"
      "invalid_join_target" 422

def requireCommitmentAgent (context : ApprovalProposerContext) (proposal : ApprovalProposal) :
    Result Unit :=
  match proposal.details with
  | .teamCommitment requesterAgentId _ _ =>
    require (requesterAgentId = context.agentId)
      "the team commitment requester must be the authenticated agent" "requester_agent_mismatch" 422
  | _ => .ok ()

def proposalMaterial (context : ApprovalProposerContext) (input : ProposeApprovalInput) :
    ProposalMaterial where
  requesterAgentId := context.agentId
  requesterUserId := context.requesterUserId <|> context.userId
  delegatedActor := if delegatedRequester context then some context.userId else none
  sessionId := context.sessionId
  runId := context.runId
  sourceTrigger := context.sourceTrigger
  input := { input with idempotencyKey := "" }

def serverContext (context : ApprovalProposerContext) (requester : RequesterContext)
    (targets : TargetContext) : ApprovalServerContext where
  requester := ⟨context.agentId,requester.memberId,requester.userId⟩
  targetAgentIds := targets.targetAgentIds
  targetMemberIds := targets.targetMemberIds
  targetResourceIds := targets.targetResourceIds
  sessionId := requester.sessionId
  runId := requester.runId
  dependentRequestIds := targets.dependentRequestIds
  trigger := context.sourceTrigger

/-- Everything `proposeApproval` verifies before it writes. -/
structure Proposed extends Resolution where
  requester : RequesterContext
  watchCheckId : Option Uuid
  engagement : Option PartnerEngagement

def resolveProposal (context : ApprovalProposerContext) (input : ProposeApprovalInput) :
    Result Proposed := do
  let requester ← requesterContext db context
  let watchCheckId ← env.validatePartnerWatchReview db context input
  requireCommitmentAgent context input.proposal
  let targets ← validatedTargetContext env db input.proposal
    ⟨input.targetAgentIds,input.targetMemberIds,input.targetResourceIds,input.dependentRequestIds⟩
  let selected ← selectPolicy env db.directory input.proposal context.agentId
    targets.targetResourceIds input.policyKey
  let engagement ← env.validatePartnerOutreachContact db context.agentId selected.row.fields.key
    input.proposal none
  validatePolicyFeasibility selected.policy (activeMembers db.directory.members)
    requester.memberId targets.requiredOwnerIds
  let expiresAt ← chooseExpiry db.now selected.row.maxDurationSeconds input.requestedExpiresAt
  let bindings := resolveResourceBindings env db.directory
    (resourceRows db.directory targets.targetResourceIds)
    ⟨requester.userId,requester.runId,context.agentId⟩ input.proposal
  return ⟨⟨targets,selected,expiresAt,bindings⟩,requester,watchCheckId,engagement⟩

def proposedPayload (context : ApprovalProposerContext) (proposal : ApprovalProposal) (p : Proposed) :
    ApprovalPayload :=
  let serverContext := serverContext context p.requester p.targets
  { proposal with
    context := serverContext
    authorization := ⟨1,env.authorizationHash
      ⟨proposal,serverContext,p.selected.policy,p.bindings,p.expiresAt⟩,p.expiresAt⟩
    policy := p.selected.policy
    resourceBindings := p.bindings.map storedBinding }

def proposedRow (context : ApprovalProposerContext) (input : ProposeApprovalInput) (p : Proposed) :
    ApprovalRow :=
  let payload := proposedPayload env context input.proposal p
  { status := .pending
    requestStatus := .pending
    policyId := p.selected.policy.id
    policyVersion := p.selected.policy.version
    authorizationRevision := 1
    authorizationHash := payload.authorization.hash
    expiresAt := p.expiresAt
    requesterAgentId := context.agentId
    requesterMemberId := p.requester.memberId
    requesterUserId := p.requester.userId
    sourceSessionId := p.requester.sessionId
    sourceRunId := p.requester.runId
    proposalIdempotencyKey := input.idempotencyKey
    proposalIdempotencyHash := env.proposalHash (proposalMaterial context input)
    effect := effectFor input.proposal p.bindings
    workStatus := .waiting
    workReason := none
    continuationId := none
    finalizationJobId := none
    finalizedAt := none
    toolCallId := input.idempotencyKey
    payload := payload }

/-- Insert the request with its first revision, its review link and its engagement. -/
def insertProposal (context : ApprovalProposerContext) (requestId : RequestId) (row : ApprovalRow)
    (p : Proposed) : Db :=
  let first : RevisionRow := ⟨requestId,1,row.authorizationHash,row.payload,.current .pending⟩
  let opened := p.engagement.toList.map fun e =>
    (⟨context.agentId,e.candidateId,requestId,e.stage,none⟩ : EngagementRow)
  ({ db with
    nextId := requestId + 1
    revisions := db.revisions ++ [first]
    engagements := db.engagements ++ opened
    watchChecks := updateWhere (fun c => some c.id = p.watchCheckId)
      (fun c => { c with reviewId := some requestId }) db.watchChecks }).setRequest requestId row

/-- The request an idempotency key already created: `requests` keys are below `nextId`. -/
def priorProposal (key : String) : Option RequestId :=
  (List.range db.nextId).find? fun id =>
    (db.requests id).any fun row => row.proposalIdempotencyKey = key

def proposeApproval (context : ApprovalProposerContext) (input : ProposeApprovalInput) :
    Result (Db × ApprovalView) := do
  requireDelegation db context input.proposal
  env.validateJoinSource db.directory context input.proposal
  requireJoinTarget context input.proposal
  match priorProposal db input.idempotencyKey with
  | some requestId =>
    require ((db.requests requestId).any fun row =>
        row.proposalIdempotencyHash = env.proposalHash (proposalMaterial context input))
      "idempotency key was already used for a different approval proposal" "idempotency_conflict" 409
    let view ← loadApprovalView db requestId context.userId
    return (db,view)
  | none =>
    let p ← resolveProposal env db context input
    let requestId := db.nextId
    let created := insertProposal db context requestId (proposedRow env context input p) p
    let creator := if delegatedRequester context then context.userId else p.requester.userId
    let view ← loadApprovalView created requestId creator
    return (created,view)

end HermesEnterprise.Approvals
