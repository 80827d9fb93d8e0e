import HermesEnterprise.Email.SendJob

/-! # Mailboxes and contacts

Connecting a mailbox queues the emails that wait for its address and makes sure
each has a live job. Disconnecting sends its queued emails back to waiting. A
contact who replied or unsubscribed gets no further email.
-/
namespace HermesEnterprise.Email
open Approvals Jobs Foundation.Tables

section Connect
variable (db : Db)

/-- Store a connected account under its address; a new one takes the fresh id. -/
def storeSendingAccount (freshId : AccountId) (provider : SendingProvider) (address : String) :
    Result (Db × AccountId) :=
  match db.mail.accounts.find? (fun a => a.address = address) with
  | some account =>
    .ok ({ db with mail := { db.mail with
        accounts := updateWhere (fun a => a.address = address)
          (fun a => { a with provider := provider, status := .connected, lastError := none })
          db.mail.accounts } },account.id)
  | none =>
    if db.mail.accounts.any (fun a => a.id = freshId) then
      .error (.error "outbound_email_accounts_pkey")
    else
      .ok ({ db with mail := { db.mail with
          accounts := db.mail.accounts ++ [⟨freshId,address,provider,.connected,none⟩] } },freshId)

/-- The job of a row is done. -/
def jobDone (t : JobTables) (outboxId : OutboxId) : Bool :=
  t.rows.any fun j => j.key = .outboundEmailSend outboxId ∧ j.doneAt.isSome

/-- Rows that a connected address picks up: waiting, or queued and never tried with a done job. -/
def picksUp (t : JobTables) (address : String) (r : OutboxRow) : Bool :=
  r.senderAddress = address ∧ (r.state = .pendingConnection ∨
    (r.state = .queued ∧ r.attemptCount = 0 ∧ jobDone t r.id))

/-- `INSERT INTO job_ready … ON CONFLICT DO UPDATE SET next_at`. -/
def pointReady (now : ℕ) (ready : List JobReadyRow) (jobId : JobId) : List JobReadyRow :=
  if ready.any (fun r => r.jobId = jobId) then
    updateWhere (fun r => r.jobId = jobId) (fun r => { r with nextAt := now }) ready
  else ready ++ [⟨jobId,now,false⟩]

/-- A done job with this key. -/
def revivable (key : JobKey) (j : JobRow) : Bool := j.key = key ∧ j.doneAt.isSome

/-- Make the done jobs of a key due now, each with its pointer. -/
def reviveJobs (now : ℕ) (key : JobKey) (t : JobTables) : JobTables :=
  { t with
    rows := updateWhere (revivable key) (fun j => { j with
      doneAt := none, lockedUntil := none, lastError := none, nextAt := now }) t.rows
    ready := ((t.rows.filter (revivable key)).map JobRow.id).foldl (pointReady now) t.ready }

/-- Enqueue the job of a row, or revive the one its key already has. -/
def ensureJob (now : ℕ) (t : JobTables) (outboxId : OutboxId) : JobTables :=
  match enqueueJob now (.outboundEmailSend outboxId) (.outbox outboxId) t with
  | (enqueued,some _) => enqueued
  | (_,none) => reviveJobs now (.outboundEmailSend outboxId) t

/-- The second transaction of `completeSendingOAuth`. -/
def connectMailbox (freshId : AccountId) (provider : SendingProvider) (address : String) :
    Result Db := do
  let (stored,accountId) ← storeSendingAccount db freshId provider address
  let picked := (db.outbox.rows.filter (picksUp db.jobs address)).map OutboxRow.id
  let queued := updateOutbox stored (picksUp db.jobs address) fun r =>
    { r with accountId := some accountId, state := .queued, lastError := none }
  return { queued with jobs := picked.foldl (ensureJob db.now) db.jobs }

end Connect

section Disconnect
variable (db : Db)

/-- Forget an account that is still in use; which one that is, the route picks by age. -/
def disconnectMailbox (accountId : AccountId) : Result Db :=
  if db.mail.accounts.any (fun a => a.id = accountId ∧ a.status ≠ .revoked) then
    let released := updateOutbox db (fun r => r.accountId = some accountId ∧ r.state = .queued)
      fun r => { r with state := .pendingConnection, accountId := none, lastError := none }
    .ok { released with mail := { db.mail with
      accounts := updateWhere (fun a => a.id = accountId)
        (fun a => { a with status := .revoked, lastError := some "disconnected_by_admin" })
        db.mail.accounts } }
  else .ok db

end Disconnect

section Contacts
variable (db : Db) (address : String) (candidateId : Option Uuid)

/-- A waiting email to this address or candidate. -/
def isFutureOutreach (r : OutboxRow) : Bool :=
  (r.state = .pendingConnection ∨ r.state = .queued) ∧
    (r.recipientAddress = address ∨ (candidateId.isSome ∧ r.candidateId = candidateId))

def cancelFutureOutreach (reason : String) : Db :=
  updateOutbox db (isFutureOutreach address candidateId) fun r =>
    { r with state := .cancelled, lastError := some reason }

/-- A contact's engagements move to `stage`, from any stage that `p` admits. -/
def stopEngagement (p : EngagementRow → Bool) (stage : String) : Db :=
  { db with
    engagements := updateWhere (fun e => candidateId = some e.candidateId ∧ p e)
      (fun e => { e with stage := stage }) db.engagements }

/-- A contact answered a sent email: with an unsubscribe, or with any other reply. -/
def recordContactReply (unsubscribe : Bool) : Db :=
  if unsubscribe then
    let suppressed := { db with mail := { db.mail with
      suppressions := if address ∈ db.mail.suppressions then db.mail.suppressions
        else db.mail.suppressions ++ [address] } }
    cancelFutureOutreach (stopEngagement suppressed candidateId (fun _ => true) "suppressed") address
      candidateId "recipient_unsubscribed"
  else
    cancelFutureOutreach (stopEngagement db candidateId (fun e => e.stage ≠ "suppressed") "replied")
      address candidateId "recipient_replied"

end Contacts

end HermesEnterprise.Email
