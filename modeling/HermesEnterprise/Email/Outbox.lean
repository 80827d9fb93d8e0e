import HermesEnterprise.Jobs.Queue

/-! # The outbox of approved emails

One row for each recipient of an approved revision. Approving a reopened email
adds rows only for recipients that have none, or whose earlier rows a person all
settled as not sent.
-/
namespace HermesEnterprise.Email
open Approvals Jobs

inductive OutboxState
  | pendingConnection
  | queued
  | sending
  | sent
  | simulated
  | failed
  | ambiguous
  | cancelled
  deriving DecidableEq, Repr

inductive SettledOutcome
  | sent
  | notSent
  deriving DecidableEq, Repr

structure OutboxRow where
  id : OutboxId
  requestId : RequestId
  authorizationRevision : ℕ
  authorizationHash : String
  candidateId : Option Uuid
  accountId : Option AccountId
  recipientIndex : ℕ
  senderAddress : String
  recipientName : String
  recipientAddress : String
  subject : String
  body : String
  state : OutboxState
  inboundMessageId : Option Uuid
  inReplyTo : Option String
  referencesHeader : Option String
  senderInboxId : Option Uuid
  attemptCount : ℕ
  lastError : Option String
  providerMessageId : Option String
  sentAt : Option ℕ
  settledOutcome : Option SettledOutcome
  settledBy : Option UserId
  settledAt : Option ℕ
  deriving DecidableEq, Repr

inductive AccountStatus
  | disconnected
  | connected
  | error
  | revoked
  deriving DecidableEq, Repr

inductive SendingProvider
  | gmail
  | microsoft
  deriving DecidableEq, Repr

structure AccountRow where
  id : AccountId
  address : String
  provider : SendingProvider
  status : AccountStatus
  lastError : Option String
  deriving DecidableEq, Repr

structure InboxRow where
  id : Uuid
  address : String
  agentKind : Bool
  active : Bool
  deriving DecidableEq, Repr

/-- `senderFacts` is what `hasCaution` says of them, when they parse. -/
structure InboundMessageRow where
  id : Uuid
  inboxId : Uuid
  fromAddress : String
  messageId : Option String
  referencesHeader : Option String
  senderFacts : Option Bool
  deriving DecidableEq, Repr

/-- The mail tables that approval reads: mailboxes, suppressions and received messages. -/
structure MailTables where
  accounts : List AccountRow
  inboxes : List InboxRow
  suppressions : List String
  inbound : List InboundMessageRow
  deriving DecidableEq, Repr

structure ReplyThread where
  messageId : Uuid
  inReplyTo : Option String
  references : Option String
  deriving DecidableEq, Repr

/-- The words of a header, without the blanks between them. -/
def splitBlanks (text : String) : List String :=
  ((text.toList.splitOnP isTrimmed).map String.ofList).filter fun w => w ≠ ""

def joinWords : List String → String
  | [] => ""
  | [w] => w
  | w :: rest => w ++ " " ++ joinWords rest

/-- The last fifty ids of the thread, ending with the message that is answered. -/
def threadReferences (message : InboundMessageRow) : Option String :=
  let ids := (message.referencesHeader.map splitBlanks).getD [] ++
    (message.messageId.toList.filter fun w => w ≠ "")
  if ids.isEmpty then none else some (joinWords (ids.drop (ids.length - 50)))

/-- The received message an approved reply answers, checked again at approval. -/
def replyThread (mail : MailTables) (d : CommunicationDetails) : Result (Option ReplyThread) :=
  match d.replyTo with
  | none => .ok none
  | some reply =>
    match mail.inbound.find? (fun m => m.id = reply.messageId ∧ m.inboxId = reply.inboxId) with
    | none =>
      refuse "The email this reply answers is no longer stored, so the reply was not queued."
        "reply_source_missing" 409
    | some message => do
      require (d.recipients.length = 1 ∧
          (d.recipients.head?.bind Recipient.address).map normalized = some message.fromAddress)
        "A reply can only go to the address that sent the email. Change the recipient back or write a new message."
        "reply_recipient_changed" 409
      require (message.senderFacts = some reply.caution)
        "This reply was reviewed under the wrong rule for its sender. Ask the agent for a new suggestion."
        "reply_caution_mismatch" 409
      return some ⟨message.id,message.messageId,threadReferences message⟩

inductive QueuedState
  | pendingConnection
  | queued
  deriving DecidableEq, Repr

def QueuedState.outboxState : QueuedState → OutboxState
  | .pendingConnection => .pendingConnection
  | .queued => .queued

structure QueuedEmailOutbox where
  ids : List OutboxId
  state : QueuedState
  reply : Bool
  deriving DecidableEq, Repr

/-- The outbox with its id sequence. -/
structure Outbox where
  rows : List OutboxRow
  nextId : OutboxId
  deriving DecidableEq, Repr

/-- Where an approved email comes from: its account, else the agent's own inbox, else nothing yet. -/
structure SenderBinding where
  sender : String
  accountId : Option AccountId
  agentInbox : Option Uuid
  deriving DecidableEq, Repr

def SenderBinding.state (b : SenderBinding) : QueuedState :=
  if b.accountId.isSome || b.agentInbox.isSome then .queued else .pendingConnection

def senderBinding (mail : MailTables) (d : CommunicationDetails) : SenderBinding :=
  let sender := normalized d.sender.address
  let account := mail.accounts.find? fun a => a.address = sender ∧ a.status = .connected
  let inbox := mail.inboxes.find? fun i => i.address = sender ∧ i.agentKind ∧ i.active
  ⟨sender,account.map AccountRow.id,if account.isSome then none else inbox.map InboxRow.id⟩

/-- Earlier attempts exist, and not all of them were settled as not sent. -/
def blocksResend (rows : List OutboxRow) (requestId : RequestId) (revision recipientIndex : ℕ) : Bool :=
  let earlier := rows.filter fun r =>
    r.requestId = requestId ∧ r.recipientIndex = recipientIndex ∧ r.authorizationRevision < revision
  -- `bool_and` skips NULL, which is what the conjunction is for a cancelled row nobody settled.
  let settled := fun r : OutboxRow => r.state ≠ .cancelled ∨ r.settledOutcome ≠ none
  !earlier.isEmpty && !((earlier.filter fun r => settled r).all fun r =>
    r.state = .cancelled ∧ r.settledOutcome = some .notSent)

/-- What `queueApprovedEmail` is asked to queue: one approved revision. -/
structure ApprovedEmail where
  requestId : RequestId
  revision : ℕ
  hash : String
  details : CommunicationDetails

def newRow (email : ApprovedEmail) (binding : SenderBinding) (thread : Option ReplyThread)
    (id : OutboxId) (recipientIndex : ℕ) (recipient : Recipient) (address : String) : OutboxRow where
  id := id
  requestId := email.requestId
  authorizationRevision := email.revision
  authorizationHash := email.hash
  candidateId := recipient.candidateId
  accountId := binding.accountId
  recipientIndex := recipientIndex
  senderAddress := binding.sender
  recipientName := recipient.name
  recipientAddress := normalized address
  subject := email.details.subject.getD ""
  body := email.details.body
  state := binding.state.outboxState
  inboundMessageId := thread.map ReplyThread.messageId
  inReplyTo := thread.bind ReplyThread.inReplyTo
  referencesHeader := thread.bind ReplyThread.references
  senderInboxId := binding.agentInbox
  attemptCount := 0
  lastError := none
  providerMessageId := none
  sentAt := none
  settledOutcome := none
  settledBy := none
  settledAt := none

/-- The row of this exact revision and recipient, if it is there already. -/
def existingRow (rows : List OutboxRow) (email : ApprovedEmail) (recipientIndex : ℕ) :
    Option OutboxRow :=
  rows.find? fun r => r.requestId = email.requestId ∧ r.authorizationRevision = email.revision ∧
    r.authorizationHash = email.hash ∧ r.recipientIndex = recipientIndex

def insertRow (email : ApprovedEmail) (binding : SenderBinding) (thread : Option ReplyThread)
    (recipientIndex : ℕ) (recipient : Recipient) (address : String) (outbox : Outbox) :
    Outbox × OutboxId :=
  match existingRow outbox.rows email recipientIndex with
  | some row => (outbox,row.id)
  | none =>
    (⟨outbox.rows ++ [newRow email binding thread outbox.nextId recipientIndex recipient address],
      outbox.nextId + 1⟩,outbox.nextId)

/-- Whether the contact of a recipient stopped outreach: `replied` or `suppressed`. -/
def checkStopped (engagements : List EngagementRow) (recipient : Recipient) : Result Unit :=
  match recipient.candidateId with
  | none => .ok ()
  | some candidateId =>
    match engagements.find? (fun e => e.candidateId = candidateId ∧
        (e.stage = "replied" ∨ e.stage = "suppressed")) with
    | none => .ok ()
    | some e =>
      if e.stage = "replied" then .error (.error "approved_email_recipient_replied")
      else .error (.error "approved_email_recipient_suppressed")

/-- One recipient: skipped, refused, or queued under its address. -/
def queueRecipient (mail : MailTables) (engagements : List EngagementRow) (email : ApprovedEmail)
    (binding : SenderBinding) (thread : Option ReplyThread) (recipientIndex : ℕ)
    (recipient : Recipient) (outbox : Outbox) : Result (Outbox × List OutboxId) :=
  match recipient.address with
  | none => .error (.error "approved_email_recipient_missing")
  | some address =>
    if address = "" then .error (.error "approved_email_recipient_missing")
    else if blocksResend outbox.rows email.requestId email.revision recipientIndex then
      .ok (outbox,[])
    else do
      checkStopped engagements recipient
      if normalized address ∈ mail.suppressions then
        .error (.error "approved_email_recipient_suppressed")
      else
        let (next,id) := insertRow email binding thread recipientIndex recipient address outbox
        return (next,[id])

def queueRecipients (mail : MailTables) (engagements : List EngagementRow) (email : ApprovedEmail)
    (binding : SenderBinding) (thread : Option ReplyThread) :
    ℕ → List Recipient → Outbox → Result (Outbox × List OutboxId)
  | _, [], outbox => .ok (outbox,[])
  | i, recipient :: rest, outbox => do
    let (next,ids) ← queueRecipient mail engagements email binding thread i recipient outbox
    let (last,more) ← queueRecipients mail engagements email binding thread (i + 1) rest next
    return (last,ids ++ more)

/-- Persist the exact approved communication before any provider is called. -/
def queueApprovedEmail (mail : MailTables) (engagements : List EngagementRow)
    (email : ApprovedEmail) (outbox : Outbox) : Result (Outbox × Option QueuedEmailOutbox) :=
  if email.details.draftOnly ∨ email.details.channel ≠ .email then .ok (outbox,none)
  else do
    let thread ← replyThread mail email.details
    let binding := senderBinding mail email.details
    let (next,ids) ← queueRecipients mail engagements email binding thread 0
      email.details.recipients outbox
    return (next,some ⟨ids,binding.state,thread.isSome⟩)

end HermesEnterprise.Email
