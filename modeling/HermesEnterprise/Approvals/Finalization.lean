import HermesEnterprise.Approvals.Progress

/-! # Finalization, expiry and receipts

The last approving vote approves all three status columns in one transaction,
applies an internal change or queues the email, and enqueues the continuation.
-/
namespace HermesEnterprise.Approvals
open Jobs Email

variable (env : Platform) (db : Db) (requestId : RequestId) (row : ApprovalRow)

/-- The row with its status, the status of its request, and the work columns set. -/
def statusRow (status : ApprovalStatus) (work : WorkStatus) (workReason : Option String) : ApprovalRow :=
  { row with status := status, requestStatus := status, workStatus := work, workReason := workReason }

/-- Set the status of the approval, its current revision and its request. -/
def Db.setStatus (status : ApprovalStatus) (work : WorkStatus) (workReason : Option String) : Db :=
  (db.setRequest requestId (statusRow row status work workReason)).setRevisionStatus requestId
    row.authorizationRevision (.current status)

def markExpired : Db :=
  db.setStatus requestId row .expired .cancelled (some "The authorization expired.")

/-- The row after the three status updates of finalization. -/
def approvedRow : ApprovalRow :=
  { row with
    status := if row.status = .pending then .approved else row.status
    requestStatus := if row.requestStatus = .pending then .approved else row.requestStatus
    workStatus := if row.status = .pending then .ready else row.workStatus
    finalizedAt := if row.status = .pending then some db.now else row.finalizedAt }

def approveStatuses : Db :=
  (db.setRequest requestId (approvedRow db row)).setRevisionStatus requestId
    row.authorizationRevision (.current .approved)

/-- The two proposal shapes with an internal materializer. -/
def partnerEngagementChange : ProposalDetails → Bool
  | .recordChange systemId => systemId = "enterprise-partner-records"
  | _ => false

def sharedIntelligenceChange : ProposalDetails → Bool
  | .sharedLearning skillId => startsWith skillId "shared-intelligence:"
  | _ => false

/-- What a materializer writes on the approval row when it applied the change. -/
def materializedRow (row : ApprovalRow) : ApprovalRow :=
  if partnerEngagementChange row.payload.details then
    { row with
      effect := ⟨row.effect.kind,.executed,some "Authorized engagement record materialized atomically."⟩
      workStatus := .completed
      workReason := some "The exact reviewed terms are available for one invoice check."
      finalizationJobId := none }
  else
    { row with
      effect := ⟨row.effect.kind,.executed,
        some "Published the exact reviewed Library source version."⟩ }

def queueFinalizedEmail : Result (Outbox × Option QueuedEmailOutbox) :=
  match row.payload.details with
  | .communication d => queueApprovedEmail db.mail db.engagements
      ⟨requestId,row.authorizationRevision,row.authorizationHash,d⟩ db.outbox
  | _ => .ok (db.outbox,none)

/-- Only a queued email, or a reply that may be simulated, has work to do now. -/
def sendsNow (simulateEmailReplies : Bool) (queued : QueuedEmailOutbox) : Bool :=
  queued.state = .queued || (queued.reply && simulateEmailReplies)

def enqueueSends (now : ℕ) (ids : List OutboxId) (jobs : JobTables) : JobTables :=
  ids.foldl (fun t id => (enqueueJob now (.outboundEmailSend id) (.outbox id) t).1) jobs

/-- The stage of the engagement behind a communication to a stored candidate. -/
def approvedStage (d : CommunicationDetails) (queued : Option QueuedEmailOutbox) : Option String :=
  if (d.recipients.head?.bind Recipient.candidateId).isNone then none
  else if d.draftOnly then some "draft_approved"
  else if queued.any (fun q => q.state = .queued) then some "queued"
  else some "pending_connection"

def writeStage (details : ProposalDetails) (queued : Option QueuedEmailOutbox) : Db :=
  match details with
  | .communication d =>
    match approvedStage d queued with
    | some stage => db.setEngagementStage requestId stage
    | none => db
  | _ => db

def finalizedHook : ApprovalFinalizedHook where
  requestId := requestId
  approvalType := row.payload.details.approvalType
  authorizationRevision := row.authorizationRevision
  authorizationHash := row.authorizationHash
  expiresAt := row.payload.authorization.expiresAt
  requesterAgentId := row.requesterAgentId
  requesterMemberId := row.requesterMemberId
  sourceSessionId := row.sourceSessionId
  sourceRunId := row.sourceRunId
  dependentRequestIds := row.payload.context.dependentRequestIds
  runPlanBudget := match row.payload.details with
    | .runPlan _ budget => some budget
    | _ => none
  resourceBindings := row.payload.resourceBindings
  finalizedAt := db.now

/-- An outbox row of an earlier revision: the agent's run already continued once. -/
def earlierAttempt : Bool :=
  db.outbox.rows.any fun r =>
    r.requestId = requestId ∧ r.authorizationRevision < row.authorizationRevision

/-- The follow-on job of a finalized approval. -/
def followOn : JobKey × JobPayload :=
  match row.requesterUserId with
  | some owner =>
    if startsWith row.toolCallId "partner-first-search:" then
      (.partnerScreening requestId,.screening row.requesterAgentId owner requestId)
    else (.approvalContinue requestId row.authorizationRevision row.authorizationHash,
      .hook (finalizedHook db requestId row))
  | none => (.approvalContinue requestId row.authorizationRevision row.authorizationHash,
      .hook (finalizedHook db requestId row))

/-- Enqueue the follow-on job once and link it to the row. -/
def enqueueFollowOn : Db :=
  if earlierAttempt db requestId row then db
  else
    let key := followOn db requestId row
    match enqueueJob db.now key.1 key.2 db.jobs with
    | (jobs,some jobId) =>
      { db with jobs := jobs }.setRequest requestId
        { approvedRow db row with finalizationJobId := some jobId }
    | (_,none) => db

/-- After the statuses: jobs for the emails, the engagement stage, the continuation. -/
def continueFinalized (simulateEmailReplies : Bool) (outbox : Outbox)
    (queued : Option QueuedEmailOutbox) : Db :=
  let jobs := match queued with
    | some q => if sendsNow simulateEmailReplies q then enqueueSends db.now q.ids db.jobs else db.jobs
    | none => db.jobs
  enqueueFollowOn (writeStage { db with outbox := outbox, jobs := jobs } requestId
    row.payload.details queued) requestId row

/-- Whether an internal materializer applied the approved change. -/
def materializeInternal : Result Bool :=
  if partnerEngagementChange row.payload.details || sharedIntelligenceChange row.payload.details then
    env.materialize db.directory requestId row.authorizationRevision row.authorizationHash row.payload
  else .ok false

def finalizeApproval (simulateEmailReplies : Bool) : Result Db := do
  let approved := approveStatuses db requestId row
  let materialized ← materializeInternal env db requestId row
  if materialized then
    return approved.setRequest requestId (materializedRow (approvedRow db row))
  else
    let (outbox,queued) ← queueFinalizedEmail db requestId row
    return continueFinalized approved requestId row simulateEmailReplies outbox queued

/-- One receipt in the source session, keyed by request, revision and outcome. -/
def writeApprovalReceipt (decision : ApprovalStatus) (actor : String) : Db :=
  match row.sourceSessionId with
  | none => db
  | some sessionId =>
    if db.receipts.any (fun r => r.sessionId = sessionId ∧ r.requestId = requestId ∧
        r.revision = row.authorizationRevision ∧ r.decision = decision) then db
    else if (db.directory.sessions sessionId).isNone then db
    else { db with
      receipts := db.receipts ++ [⟨sessionId,requestId,row.authorizationRevision,decision,actor⟩] }

end HermesEnterprise.Approvals
