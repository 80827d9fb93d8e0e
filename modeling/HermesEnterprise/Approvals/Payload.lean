import HermesEnterprise.Foundation.CanonicalJson
import HermesEnterprise.Approvals.Policy

/-! # Typed proposals and the stored payload

The ten proposal types with the details that the approval code reads. What it
only stores and hashes travels in `other`. The stored payload adds the verified
context, the authorization binding, the policy and the resource bindings.
-/
namespace HermesEnterprise.Approvals
open Foundation.CanonicalJson

/-- Uuid text as stored keys; the text form appears in hashed values only. -/
abbrev Uuid := ℕ

inductive EvidenceKind
  | source
  | document
  | artifact
  | request
  | run
  deriving DecidableEq, Repr

structure Evidence where
  id : String
  kind : EvidenceKind
  deriving DecidableEq, Repr

/-- The reviewed limits of a run plan. -/
structure RunPlanBudget where
  currency : String
  capMinor : ℕ
  totalTokenCap : ℕ
  callCap : ℕ
  maxOutputTokensPerCall : ℕ
  maxParallelCalls : ℕ
  modelIds : List String
  deriving DecidableEq, Repr

inductive Channel
  | email
  | message
  | social
  deriving DecidableEq, Repr

structure Sender where
  memberId : MemberId
  address : String
  deriving DecidableEq, Repr

structure Recipient where
  name : String
  address : Option String
  candidateId : Option Uuid
  /-- `phone_numbers` and `social_profiles`, as printed fields. -/
  contact : List (String × Json)

structure ReplyTo where
  inboxId : Uuid
  messageId : Uuid
  caution : Bool
  deriving DecidableEq, Repr

structure CommunicationDetails where
  channel : Channel
  draftOnly : Bool
  sender : Sender
  recipients : List Recipient
  subject : Option String
  body : String
  attachments : List String
  replyTo : Option ReplyTo

structure DeliverableDetails where
  artifactId : String
  version : String
  content : String
  evidenceIds : List String
  missingInformation : List String
  releasesDependentRequestIds : List RequestId
  deriving DecidableEq, Repr

inductive ProposalDetails
  | runPlan (participatingAgents : List AgentId) (budget : RunPlanBudget)
  | teamCommitment (requesterAgentId recipientAgentId : AgentId) (receivingOwnerMemberId : MemberId)
  | access (resourceId : String) (requestedAgentId : AgentId)
  | communication (details : CommunicationDetails)
  | sharedLearning (skillId : String)
  | deliverable (details : DeliverableDetails)
  | dataDisclosure (resourceIds : List String)
  | recordChange (systemId : String)
  | exception (ruleId : String)
  | agentGovernance (agentId : AgentId)

inductive ApprovalType
  | runPlan
  | teamCommitment
  | access
  | communication
  | sharedLearning
  | deliverable
  | dataDisclosure
  | recordChange
  | exception
  | agentGovernance
  deriving DecidableEq, Repr

def ProposalDetails.approvalType : ProposalDetails → ApprovalType
  | .runPlan _ _ => .runPlan
  | .teamCommitment _ _ _ => .teamCommitment
  | .access _ _ => .access
  | .communication _ => .communication
  | .sharedLearning _ => .sharedLearning
  | .deliverable _ => .deliverable
  | .dataDisclosure _ => .dataDisclosure
  | .recordChange _ => .recordChange
  | .exception _ => .exception
  | .agentGovernance _ => .agentGovernance

structure ApprovalProposal where
  details : ProposalDetails
  evidence : List Evidence
  illustrative : Bool
  /-- The fields no operation reads; they enter the authorization hash. -/
  other : Json

def ApprovalProposal.approvalType (p : ApprovalProposal) : ApprovalType := p.details.approvalType

inductive BindingKind
  | attachment
  | agentFile
  | document
  | artifact
  | request
  | run
  | skill
  | resource
  deriving DecidableEq, Repr

structure ApprovalResourceBinding where
  kind : BindingKind
  id : String
  version : Option String
  sha256 : Option String
  immutable : Bool
  executorAvailable : Bool
  reason : Option String
  deriving DecidableEq, Repr

structure Requester where
  agentId : AgentId
  memberId : Option MemberId
  userId : Option UserId
  deriving DecidableEq, Repr

/-- The invitation behind a member join proposal; its kind is always `member_agent_joined`. -/
structure SourceTrigger where
  invitationId : Uuid
  memberId : MemberId
  agentId : AgentId
  deriving DecidableEq, Repr

structure ApprovalServerContext where
  requester : Requester
  targetAgentIds : List AgentId
  targetMemberIds : List MemberId
  targetResourceIds : List String
  sessionId : Option SessionId
  runId : Option RunId
  dependentRequestIds : List RequestId
  trigger : Option SourceTrigger
  deriving DecidableEq, Repr

structure AuthorizationBinding where
  revision : ℕ
  hash : String
  expiresAt : ℕ
  deriving DecidableEq, Repr

structure ApprovalPayload extends ApprovalProposal where
  context : ApprovalServerContext
  authorization : AuthorizationBinding
  policy : ApprovalPolicy
  resourceBindings : List ApprovalResourceBinding

/-- What the authorization hash covers. -/
structure AuthorizationMaterial where
  proposal : ApprovalProposal
  context : ApprovalServerContext
  policy : ApprovalPolicy
  resourceBindings : List ApprovalResourceBinding
  expiresAt : ℕ

inductive EffectKind
  | none
  | access
  | communication
  | sharedLearningPublish
  | dataDisclosure
  | recordChange
  | agentGovernanceChange
  deriving DecidableEq, Repr

inductive EffectStatus
  | notRequired
  | waiting
  | unavailable
  | executed
  | failed
  | cancelled
  | simulated
  deriving DecidableEq, Repr

structure Effect where
  kind : EffectKind
  status : EffectStatus
  reason : Option String
  deriving DecidableEq, Repr

def noExecutor : String := "No supported executor is configured for this approved consequence."

/-- Whether one text begins another. -/
def startsWith (text start : String) : Bool := start.toList.isPrefixOf text.toList

/-- White space and line terminators, as `trim` removes them. -/
def isTrimmed (c : Char) : Bool :=
  let n := c.toNat
  (9 ≤ n && n ≤ 13) || n = 32 || n = 0xA0 || n = 0x1680 || (0x2000 ≤ n && n ≤ 0x200A) ||
    n = 0x2028 || n = 0x2029 || n = 0x202F || n = 0x205F || n = 0x3000 || n = 0xFEFF

def trim (text : String) : String :=
  String.ofList ((text.toList.dropWhile isTrimmed).reverse.dropWhile isTrimmed).reverse

/-- `trim().toLowerCase()` of an address. -/
def normalized (text : String) : String := (trim text).toLower

def sortedUnique (values : List String) : List String :=
  (values.dedup).insertionSort (fun a b => a ≤ b)

def sortedUniqueIds (values : List ℕ) : List ℕ := (values.dedup).insertionSort (fun a b => a ≤ b)

def emailInboxResourceKey (uuidText : Uuid → String) (inboxId : Uuid) : String :=
  "email-inbox:" ++ uuidText inboxId

def emailCautionResourceKey (uuidText : Uuid → String) (inboxId : Uuid) : String :=
  "email-inbox:" ++ uuidText inboxId ++ ":caution"

def emailMessageResourceKey (uuidText : Uuid → String) (messageId : Uuid) : String :=
  "email-message:" ++ uuidText messageId

def proposalResourceIds (uuidText : Uuid → String) (proposal : ApprovalProposal) : List String :=
  match proposal.details with
  | .access resourceId _ => [resourceId]
  | .sharedLearning skillId => [skillId]
  | .deliverable d => [d.artifactId]
  | .dataDisclosure resourceIds => resourceIds
  | .recordChange systemId => [systemId]
  | .exception ruleId => [ruleId]
  | .communication d =>
    match d.replyTo with
    | none => []
    | some reply =>
      [emailInboxResourceKey uuidText reply.inboxId, emailMessageResourceKey uuidText reply.messageId] ++
        if reply.caution then [emailCautionResourceKey uuidText reply.inboxId] else []
  | .runPlan _ _ | .teamCommitment _ _ _ | .agentGovernance _ => []

def effectKindFor : ApprovalType → EffectKind
  | .access => .access
  | .communication => .communication
  | .sharedLearning => .sharedLearningPublish
  | .dataDisclosure => .dataDisclosure
  | .recordChange => .recordChange
  | .agentGovernance => .agentGovernanceChange
  | .runPlan | .teamCommitment | .deliverable | .exception => .none

/-- The reason of the first binding without an immutable digest. -/
def unboundReason (bindings : List ApprovalResourceBinding) : Option String :=
  (bindings.find? fun b => !b.immutable).bind ApprovalResourceBinding.reason

def effectFor (proposal : ApprovalProposal) (bindings : List ApprovalResourceBinding) : Effect :=
  let kind := effectKindFor proposal.approvalType
  let unavailable : Effect := ⟨kind,.unavailable,some ((unboundReason bindings).getD noExecutor)⟩
  if kind = .none then ⟨kind,.notRequired,none⟩
  else match proposal.details with
  | .communication d =>
    if d.draftOnly then
      ⟨kind,.notRequired,
        some "Draft only. Approval records the reviewed copy and does not send it."⟩
    else if d.channel = .email then
      ⟨kind,.waiting,some ("Approval queues this exact revision for the configured sender; " ++
        "it waits safely if that mailbox is not connected.")⟩
    else unavailable
  | .sharedLearning skillId =>
    let publication := bindings.find? fun b => b.kind = .resource ∧ b.id = skillId
    if publication.any (fun b => b.executorAvailable) && bindings.all (fun b => b.immutable) then
      ⟨kind,.waiting,some ("Approval publishes this exact reviewed version to the selected " ++
        "Library audiences.")⟩
    else unavailable
  | _ => unavailable

end HermesEnterprise.Approvals
