import HermesEnterprise.Email.Outbox

/-! # Database, platform and command inputs

The whole state that approval operations and email sends work on. The platform
holds what the code calls but this development does not open: digests, text
order, uuid text, and the guards of the join, watch, outreach and record flows.
-/
namespace HermesEnterprise.Approvals
open Foundation.CanonicalJson Foundation.Tables Jobs Email

/-- `now` is the clock, `nextId` the source of fresh row ids. -/
structure Db where
  now : ℕ
  nextId : ℕ
  directory : Directory
  watchChecks : List WatchCheckRow
  requests : RequestId → Option ApprovalRow
  votes : List VoteRow
  routes : List RouteRow
  revisions : List RevisionRow
  commands : List CommandRow
  receipts : List ReceiptRow
  engagements : List EngagementRow
  mail : MailTables
  outbox : Outbox
  jobs : JobTables

structure ProposeApprovalInput where
  label : String
  policyKey : String
  proposal : ApprovalProposal
  targetAgentIds : List AgentId
  targetMemberIds : List MemberId
  targetResourceIds : List String
  dependentRequestIds : List RequestId
  requestedExpiresAt : Option ℕ
  idempotencyKey : String

structure DecideApprovalInput where
  expectedAuthorizationRevision : ℕ
  expectedAuthorizationHash : String
  idempotencyKey : String
  decision : VoteDecision
  note : Option String
  deriving DecidableEq, Repr

structure ReviseApprovalInput where
  expectedAuthorizationRevision : ℕ
  expectedAuthorizationHash : String
  idempotencyKey : String
  proposal : ApprovalProposal
  changeSummary : String
  requestedExpiresAt : Option ℕ

structure RouteApprovalInput where
  expectedAuthorizationRevision : ℕ
  expectedAuthorizationHash : String
  idempotencyKey : String
  stepId : String
  reviewerMemberId : MemberId
  reason : String
  deriving DecidableEq, Repr

/-- A command without its idempotency key, as the command hash sees it. -/
inductive CommandMaterial
  | decision (expectedRevision : ℕ) (expectedHash : String) (decision : VoteDecision)
      (note : Option String)
  | revision (expectedRevision : ℕ) (expectedHash : String) (proposal : ApprovalProposal)
      (changeSummary : String) (requestedExpiresAt : Option ℕ)
  | route (expectedRevision : ℕ) (expectedHash stepId : String) (reviewerMemberId : MemberId)
      (reason : String)

/-- Who proposes, as the guarded route verified it. -/
structure ApprovalProposerContext where
  agentId : AgentId
  userId : Option UserId
  /-- The frozen maker when an Admin creates the review for someone else. -/
  requesterUserId : Option UserId
  sessionId : Option SessionId
  runId : Option RunId
  sourceTrigger : Option SourceTrigger
  deriving DecidableEq, Repr

/-- What the proposal idempotency hash covers. -/
structure ProposalMaterial where
  requesterAgentId : AgentId
  requesterUserId : Option UserId
  delegatedActor : Option (Option UserId)
  sessionId : Option SessionId
  runId : Option RunId
  sourceTrigger : Option SourceTrigger
  input : ProposeApprovalInput

/-- The engagement a proposal opens with one stored candidate. -/
structure PartnerEngagement where
  candidateId : Uuid
  stage : String
  deriving DecidableEq, Repr

structure Platform where
  /-- SHA-256 in hex, of a text. -/
  sha256 : List Char → String
  authorizationHash : AuthorizationMaterial → String
  commandHash : CommandMaterial → String
  proposalHash : ProposalMaterial → String
  uuidText : Uuid → String
  /-- The uuid a text spells, if it is one. -/
  parseUuid : String → Option Uuid
  /-- `localeCompare` puts the first key before the second. -/
  localeBefore : String → String → Bool
  validateJoinSource : Directory → ApprovalProposerContext → ApprovalProposal → Result Unit
  /-- The watch check a proposal reviews, after its own validation. -/
  validatePartnerWatchReview : Db → ApprovalProposerContext → ProposeApprovalInput →
    Result (Option Uuid)
  validatePartnerWatchRevision : Db → RequestId → UserId → ApprovalPayload → ApprovalProposal →
    Result Unit
  validatePartnerOutreachContact : Db → AgentId → String → ApprovalProposal → Option RequestId →
    Result (Option PartnerEngagement)
  /-- Whether an internal record change or publication was applied at finalization. -/
  materialize : Directory → RequestId → ℕ → String → ApprovalPayload → Result Bool

/-- The signed-in member behind a command; `simulateEmailReplies` is a deployment policy. -/
structure ApprovalHumanContext where
  userId : UserId
  simulateEmailReplies : Bool
  deriving DecidableEq, Repr

section Updates
variable (db : Db) (requestId : RequestId)

/-- Write the row of one approval; every other request keeps its row. -/
def Db.setRequest (row : ApprovalRow) : Db :=
  { db with requests := Function.update db.requests requestId (some row) }

/-- `UPDATE approval_revisions SET status` for one revision of a request. -/
def Db.setRevisionStatus (revision : ℕ) (status : RevisionStatus) : Db :=
  { db with
    revisions := updateWhere (fun r => r.requestId = requestId ∧ r.revision = revision)
      (fun r => { r with status := status }) db.revisions }

/-- `UPDATE partner_engagements SET stage` of a request. -/
def Db.setEngagementStage (stage : String) : Db :=
  { db with
    engagements := updateWhere (fun e => e.requestId = requestId)
      (fun e => { e with stage := stage }) db.engagements }

def Db.recordCommand (operation : Operation) (key hash : String) : Db :=
  { db with commands := db.commands ++ [⟨requestId,operation,key,hash⟩] }

end Updates

end HermesEnterprise.Approvals
