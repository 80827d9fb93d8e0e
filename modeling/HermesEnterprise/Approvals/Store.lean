import HermesEnterprise.Approvals.Payload
import Mathlib.Logic.Function.Basic

/-! # The tables of one workspace

Tables that approval operations only read form the directory. The others are the
approval rows with their votes, routes, revisions and commands, and the rows that
finalization queues: outbox emails and jobs. Row-level security leaves one
workspace visible, so rows carry no workspace id.
-/
namespace HermesEnterprise.Approvals
open Foundation.CanonicalJson

abbrev OutboxId := ℕ
abbrev JobId := ℕ
abbrev AccountId := ℕ

inductive AgentStatus
  | draft
  | started
  | stopped
  deriving DecidableEq, Repr

structure SessionRow where
  ownerId : UserId
  agentId : Option AgentId
  deriving DecidableEq, Repr

structure RunRow where
  sessionId : SessionId
  agentId : Option AgentId
  status : String
  stopRequested : Bool
  endedAt : Option String
  runtimeRequest : Option Json

structure ResourceRow where
  ownerMemberId : MemberId
  version : Option String
  sha256 : Option String
  executorAvailable : Bool
  active : Bool
  deriving DecidableEq, Repr

/-- An active or inactive policy version; `steps` is parsed when it is selected. -/
structure PolicyRow where
  fields : PolicyFields
  approvalType : ApprovalType
  requesterAgentId : Option AgentId
  targetResourceIds : List String
  maxBudgetMinor : Option ℕ
  priority : ℤ
  maxDurationSeconds : ℕ
  active : Bool
  deriving DecidableEq, Repr

structure AttachmentRow where
  completedAt : Option String
  sha256 : Option String
  ready : Bool
  deleted : Bool
  deriving DecidableEq, Repr

structure AgentFileRow where
  updatedAt : Option String
  sha256 : Option String
  deriving DecidableEq, Repr

structure DocumentRow where
  version : ℕ
  payload : Json
  requestId : RequestId

structure EvidenceRequestRow where
  updatedAt : String
  payload : Json

/-- An active grant to read one partner handoff, joined with its assignment and connection. -/
structure HandoffGrantRow where
  runId : RunId
  requestId : RequestId
  capability : String
  effect : String
  revoked : Bool
  allowedActions : List String
  assignmentState : String
  assignmentRevision : ℕ
  grantedRevision : ℕ
  connectionState : String
  capabilityDenies : List String
  deriving DecidableEq, Repr

/-- A mailbox snapshot joined with the team agents its source is granted to. -/
structure MailboxSnapshotRow where
  id : Uuid
  agentId : AgentId
  principalUserId : UserId
  versionId : String
  sha256 : String
  deriving DecidableEq, Repr

/-- A source artifact joined with the watch check of the run that cites it. -/
structure WatchArtifactRow where
  id : Uuid
  runId : RunId
  agentId : AgentId
  fetchedAt : String
  sha256 : String
  deriving DecidableEq, Repr

structure EvidenceTables where
  attachments : Uuid → Option AttachmentRow
  agentFiles : Uuid → Option AgentFileRow
  documents : Uuid → Option DocumentRow
  requests : Uuid → Option EvidenceRequestRow
  requestAudiences : List (RequestId × UserId)
  handoffGrants : List HandoffGrantRow
  mailboxSnapshots : List MailboxSnapshotRow
  watchArtifacts : List WatchArtifactRow

/-- What approval operations read and never write. -/
structure Directory where
  members : MemberTable
  agents : AgentId → Option AgentStatus
  agentOwners : AgentId → Option MemberId
  sessions : SessionId → Option SessionRow
  runs : RunId → Option RunRow
  policies : List PolicyRow
  resources : String → Option ResourceRow
  evidence : EvidenceTables

inductive ApprovalStatus
  | pending
  | approved
  | declined
  | changesRequested
  | expired
  | withdrawn
  deriving DecidableEq, Repr

/-- An old revision that was replaced before a decision is `superseded`. -/
inductive RevisionStatus
  | current (status : ApprovalStatus)
  | superseded
  deriving DecidableEq, Repr

inductive WorkStatus
  | waiting
  | ready
  | admitted
  | completed
  | cancelled
  deriving DecidableEq, Repr

/-- A row of `approval_requests` joined with its row of `requests`. -/
structure ApprovalRow where
  status : ApprovalStatus
  requestStatus : ApprovalStatus
  policyId : PolicyId
  policyVersion : ℕ
  authorizationRevision : ℕ
  authorizationHash : String
  expiresAt : ℕ
  requesterAgentId : AgentId
  requesterMemberId : Option MemberId
  requesterUserId : Option UserId
  sourceSessionId : Option SessionId
  sourceRunId : Option RunId
  proposalIdempotencyKey : String
  proposalIdempotencyHash : String
  effect : Effect
  workStatus : WorkStatus
  workReason : Option String
  continuationId : Option Uuid
  finalizationJobId : Option JobId
  finalizedAt : Option ℕ
  toolCallId : String
  payload : ApprovalPayload

inductive VoteDecision
  | approve
  | decline
  | requestChanges
  deriving DecidableEq, Repr

structure VoteRow where
  id : ℕ
  requestId : RequestId
  revision : ℕ
  authorizationHash : String
  stepId : String
  decision : VoteDecision
  reviewerMemberId : MemberId
  reviewerUserId : UserId
  note : Option String
  idempotencyKey : String
  recordedAt : ℕ
  deriving DecidableEq, Repr

structure RouteRow where
  id : ℕ
  requestId : RequestId
  revision : ℕ
  stepId : String
  reviewerMemberId : MemberId
  routedByMemberId : MemberId
  reason : String
  idempotencyKey : String
  createdAt : ℕ
  deriving DecidableEq, Repr

structure RevisionRow where
  requestId : RequestId
  revision : ℕ
  authorizationHash : String
  payload : ApprovalPayload
  status : RevisionStatus

inductive Operation
  | decision
  | revision
  | route
  deriving DecidableEq, Repr

structure CommandRow where
  requestId : RequestId
  operation : Operation
  idempotencyKey : String
  commandHash : String
  deriving DecidableEq, Repr

/-- A `receipt` message in the session a proposal came from, by its `client_id`. -/
structure ReceiptRow where
  sessionId : SessionId
  requestId : RequestId
  revision : ℕ
  decision : ApprovalStatus
  actor : String
  deriving DecidableEq, Repr

structure EngagementRow where
  agentId : AgentId
  candidateId : Uuid
  requestId : RequestId
  stage : String
  lastOutreachAt : Option ℕ
  deriving DecidableEq, Repr

structure WatchCheckRow where
  id : Uuid
  ownerUserId : UserId
  reviewId : Option RequestId
  deriving DecidableEq, Repr

end HermesEnterprise.Approvals
