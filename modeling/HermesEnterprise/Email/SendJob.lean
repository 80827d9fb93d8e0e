import HermesEnterprise.Approvals.Db

/-! # The send job

One transaction prepares a row: it is refused, sent back to wait, or committed as
`sending`. The provider is called outside any transaction, and a second
transaction records the answer. Uncertain outcomes never retry.
-/
namespace HermesEnterprise.Email
open Approvals Foundation.Tables

/-- The deployment variables a send reads; an unset one is empty. -/
structure Deployment where
  environment : String
  effectExecutorMode : String
  recipientMode : String
  /-- Whether the `EMAIL` binding exists. -/
  email : Bool
  deriving DecidableEq, Repr

/-- `effectExecutorMode` answers `simulated`; production never does. -/
def Deployment.simulates (d : Deployment) : Bool :=
  d.environment ≠ "production" ∧ d.effectExecutorMode = "simulated"

inductive Provider
  | mailbox (provider : SendingProvider)
  | agent
  deriving DecidableEq, Repr

def Provider.name : Provider → String
  | .mailbox .gmail => "Gmail"
  | .mailbox .microsoft => "Microsoft"
  | .agent => "The email service"

/-- What a call to the provider threw. -/
inductive SendError
  /-- A `GmailApiError`, of Gmail or Microsoft. -/
  | api (message : String) (status : ℕ)
  /-- An `AgentSendError` with the code of the binding. -/
  | agent (code : String)
  /-- Any other error by its message, or a thrown value that is no error. -/
  | other (message : Option String)
  deriving DecidableEq, Repr

/-- Codes returned before a message is accepted: nothing was sent. -/
def rejectedCodes : List String :=
  ["E_VALIDATION_ERROR", "E_SENDER_NOT_VERIFIED", "E_SENDER_DOMAIN_NOT_AVAILABLE",
    "E_RECIPIENT_NOT_ALLOWED", "E_RECIPIENT_SUPPRESSED", "E_TOO_MANY_RECIPIENTS",
    "E_CONTENT_TOO_LARGE", "E_HEADER_NOT_ALLOWED", "E_HEADER_USE_API_FIELD",
    "E_HEADER_VALUE_INVALID", "E_HEADER_VALUE_TOO_LONG", "E_HEADER_NAME_INVALID"]

def limitCodes : List String := ["E_RATE_LIMIT_EXCEEDED", "E_DAILY_LIMIT_EXCEEDED"]

def SendError.retryable : SendError → Bool
  | .api _ status => status = 429
  | .agent code => code ∈ limitCodes
  | .other _ => false

def SendError.ambiguous : SendError → Bool
  | .api _ status => 500 ≤ status
  | .agent code => code ∉ limitCodes ∧ code ∉ rejectedCodes
  | .other _ => true

def SendError.message : SendError → String
  | .api message _ => message
  | .agent code => "agent_send_failed:" ++ code
  | .other message => message.getD "gmail_send_failed"

inductive ProviderAnswer
  | accepted (messageId : String)
  | failed (error : SendError)
  deriving DecidableEq, Repr

/-- The provider surely did not take the message. -/
def ProviderAnswer.refused : ProviderAnswer → Bool
  | .accepted _ => false
  | .failed error => error.retryable || !error.ambiguous

section Updates
variable (db : Db)

/-- `UPDATE outbound_email_outbox … WHERE`. -/
def updateOutbox (p : OutboxRow → Bool) (f : OutboxRow → OutboxRow) : Db :=
  { db with outbox := { db.outbox with rows := updateWhere p f db.outbox.rows } }

/-- `UPDATE approval_requests … WHERE request_id`. -/
def updateRequest (requestId : RequestId) (f : ApprovalRow → ApprovalRow) : Db :=
  { db with requests := Function.update db.requests requestId ((db.requests requestId).map f) }

end Updates

def effectFailed (reason : String) (row : ApprovalRow) : ApprovalRow :=
  { row with
    effect := { row.effect with status := .failed, reason := some reason }
    workStatus := .completed }

def effectDone (status : EffectStatus) (reason : String) (row : ApprovalRow) : ApprovalRow :=
  { row with
    effect := { row.effect with status := status, reason := some reason }
    workStatus := .completed
    workReason := none }

/-- What resolving the token of a connected account led to. -/
inductive TokenAnswer
  | resolved
  | grantRevoked
  | failed (message : String)
  deriving DecidableEq, Repr

/-- A connected account with its token, or the code of `SendingAccountUnavailable`. -/
inductive ResolvedAccount
  | account (account : AccountRow)
  | unavailable (code : String)
  deriving DecidableEq, Repr

section Prepare
variable (db : Db) (deployment : Deployment) (row : OutboxRow)

/-- The provider will not honour the grant again; a disconnect is not overwritten. -/
def quarantine (accountId : AccountId) : Db :=
  { db with mail := { db.mail with
      accounts := updateWhere (fun a => a.id = accountId ∧ a.status = .connected)
        (fun a => { a with status := .error, lastError := some "refresh_grant_revoked" })
        db.mail.accounts } }

def resolveSendingAccessToken (token : TokenAnswer) (accountId : AccountId) :
    Result (Db × ResolvedAccount) :=
  match db.mail.accounts.find? (fun a => a.id = accountId) with
  | none => .ok (db,.unavailable "gmail_account_not_connected")
  | some account =>
    if account.status ≠ .connected then .ok (db,.unavailable "gmail_account_not_connected")
    else match token with
    | .resolved => .ok (db,.account account)
    | .grantRevoked => .ok (quarantine db accountId,.unavailable "refresh_grant_revoked")
    | .failed message => .error (.error message)

/-- Members only, where the deployment says so; any unknown mode allows nobody. -/
def recipientAllowed (address : String) : Bool :=
  if deployment.recipientMode = "" then true
  else if deployment.recipientMode ≠ "members" then false
  else (activeMembers db.directory.members).any fun m => m.email.toLower = normalized address

/-- The request is approved, at the revision and hash of the row. -/
def authorized : Bool :=
  (db.requests row.requestId).any fun r => r.status = .approved ∧
    r.authorizationRevision = row.authorizationRevision ∧ r.authorizationHash = row.authorizationHash

def setRow (f : OutboxRow → OutboxRow) : Db := updateOutbox db (fun r => r.id = row.id) f

def cancelRow (reason : String) : Db :=
  setRow db row fun r => { r with state := .cancelled, lastError := some reason }

def interruptedReason : String :=
  "The send was interrupted, so the approved email may or may not have been sent. Check the mailbox before sending it again."

/-- A row found `sending`: an earlier attempt stopped before it recorded an answer. -/
def interrupt : Db :=
  updateRequest (setRow db row fun r =>
      { r with state := .ambiguous, lastError := some "send_interrupted_outcome_unknown" })
    row.requestId (effectFailed interruptedReason)

def recordSimulatedReply (reference : String) : Db :=
  updateRequest (setRow db row fun r =>
      { r with state := .simulated, providerMessageId := some reference, sentAt := some db.now,
               lastError := none })
    row.requestId (effectDone .simulated ("Simulated delivery " ++ reference ++
      ". Nothing was sent: this environment has no connected sender and simulates email."))

def disallow : Db :=
  updateRequest (cancelRow db row "recipient_not_allowed") row.requestId
    (effectFailed ("Nothing was sent: this test workspace only emails its members, and " ++
      row.recipientAddress ++ " is not one."))

def waitForMailbox (code : String) : Db :=
  setRow db row fun r =>
    { r with state := .pendingConnection, accountId := none, lastError := some code }

def startSending : Db :=
  setRow db row fun r =>
    { r with state := .sending, attemptCount := r.attemptCount + 1, lastError := none }

/-- A row committed as `sending`, and who will be asked to send it. -/
structure PreparedSend where
  row : OutboxRow
  provider : Provider
  deriving DecidableEq, Repr

/-- The agent's address must still be its own, still receiving, and the one approved. -/
def prepareAgent : Db × Option PreparedSend :=
  let inbox := db.mail.inboxes.find? fun i => some i.id = row.senderInboxId
  if inbox.any (fun i => i.active ∧ i.address = row.senderAddress) then
    (startSending db row,some ⟨row,.agent⟩)
  else (cancelRow db row "sender_account_mismatch",none)

def prepareMailbox (token : TokenAnswer) : Result (Db × Option PreparedSend) :=
  match row.accountId with
  | none => .ok (db,none)
  | some accountId => do
    let (resolved,answer) ← resolveSendingAccessToken db token accountId
    match answer with
    | .unavailable code => return (waitForMailbox resolved row code,none)
    | .account account =>
      if account.address ≠ row.senderAddress then
        return (cancelRow resolved row "sender_account_mismatch",none)
      else return (startSending resolved row,some ⟨row,.mailbox account.provider⟩)

def asAgent : Bool := row.accountId.isNone && row.senderInboxId.isSome && deployment.email

def simulate : Bool :=
  !asAgent deployment row && row.inboundMessageId.isSome && row.accountId.isNone &&
    deployment.simulates

/-- A row that waits: `pending_connection` or `queued`. -/
def prepareWaiting (token : TokenAnswer) (reference : String) : Result (Db × Option PreparedSend) :=
  if !simulate deployment row && !asAgent deployment row &&
      (row.state = .pendingConnection || row.accountId.isNone) then .ok (db,none)
  else if !authorized db row then .ok (cancelRow db row "authorization_no_longer_valid",none)
  else if row.recipientAddress ∈ db.mail.suppressions then
    .ok (cancelRow db row "recipient_suppressed",none)
  else if simulate deployment row then .ok (recordSimulatedReply db row reference,none)
  else if !recipientAllowed db deployment row.recipientAddress then .ok (disallow db row,none)
  else if asAgent deployment row then .ok (prepareAgent db row)
  else prepareMailbox db row token

/-- The first transaction of `runOutboundEmailSendJob`; `reference` names a simulated delivery. -/
def prepareSend (outboxId : OutboxId) (token : TokenAnswer) (reference : String) :
    Result (Db × Option PreparedSend) :=
  match db.outbox.rows.find? (fun r => r.id = outboxId) with
  | none => .ok (db,none)
  | some row =>
    match row.state with
    -- A failed send already told the reviewer, so a revived job must not send it after all.
    | .sent | .simulated | .ambiguous | .cancelled | .failed => .ok (db,none)
    | .sending => .ok (interrupt db row,none)
    | .pendingConnection | .queued => prepareWaiting db deployment row token reference

end Prepare

section Record
variable (db : Db) (prepared : PreparedSend)

/-- The row of a prepared send while it is still `sending`. -/
def isSending (r : OutboxRow) : Bool := r.id = prepared.row.id ∧ r.state = .sending

def sentEngagement : Db :=
  match prepared.row.candidateId with
  | none => db
  | some candidateId =>
    { db with
      engagements := updateWhere
        (fun e => e.candidateId = candidateId ∧ e.requestId = prepared.row.requestId)
        (fun e => { e with stage := "sent", lastOutreachAt := some db.now }) db.engagements }

/-- The transaction after an accepted call; a row settled meanwhile is left alone. -/
def recordAccepted (messageId : String) : Db :=
  if db.outbox.rows.any (isSending prepared) then
    updateRequest (sentEngagement (updateOutbox db (isSending prepared) fun r =>
        { r with state := .sent, providerMessageId := some messageId, sentAt := some db.now,
                 lastError := none }) prepared)
      prepared.row.requestId (effectDone .executed "The approved email was sent.")
  else db

def failedReason (error : SendError) : String :=
  prepared.provider.name ++
    if error.ambiguous then
      " did not confirm whether the approved email was sent. Review the mailbox before retrying."
    else " rejected the approved email."

def failedState (error : SendError) : OutboxState :=
  if error.retryable then .queued else if error.ambiguous then .ambiguous else .failed

/-- The transaction after a failed call. -/
def recordFailed (error : SendError) : Db :=
  let recorded := updateOutbox db (isSending prepared) fun r =>
    { r with state := failedState error,
             lastError := some (String.ofList (error.message.toList.take 500)) }
  if error.retryable then recorded
  else updateRequest recorded prepared.row.requestId (effectFailed (failedReason prepared error))

end Record

end HermesEnterprise.Email
