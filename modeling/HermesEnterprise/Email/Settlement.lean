import HermesEnterprise.Approvals.Revise
import HermesEnterprise.Email.SendJob

/-! # Settling an uncertain send

A reviewer or an Admin says what the mailbox shows. `sent` records the row on
that person's word; `not_sent` cancels it and reopens the approval. Settling
never calls a provider.
-/
namespace HermesEnterprise.Email
open Approvals Foundation.Tables

/-- Who is asking, as the settle rule sees them. -/
structure SettleViewer where
  memberId : MemberId
  role : String
  deriving DecidableEq, Repr

def maySettleUncertainSend (viewer : SettleViewer) (reviewers : List MemberId) : Bool :=
  viewer.role = "admin" ∨ viewer.memberId ∈ reviewers

structure EmailSendView where
  id : OutboxId
  authorizationRevision : ℕ
  recipientName : String
  recipientAddress : String
  senderAddress : String
  state : OutboxState
  sentAt : Option ℕ
  /-- The outcome, who settled it and when. -/
  settled : Option (SettledOutcome × Option String × ℕ)
  deriving DecidableEq, Repr

structure EmailSendList where
  sends : List EmailSendView
  canSettle : Bool
  deriving DecidableEq, Repr

section Listing
variable (db : Db) (requestId : RequestId)

def viewerFor (userId : UserId) : Option SettleViewer :=
  (activeMemberOf db userId).map fun m => ⟨m.id,m.role⟩

def sendOrder (a b : OutboxRow) : Prop :=
  a.authorizationRevision < b.authorizationRevision ∨
    (a.authorizationRevision = b.authorizationRevision ∧ a.recipientIndex ≤ b.recipientIndex)

instance : DecidableRel sendOrder := fun _ _ => inferInstanceAs (Decidable (_ ∨ _))

def sendRows : List OutboxRow :=
  ((db.outbox.rows.filter fun r => r.requestId = requestId).insertionSort sendOrder).take 100

def sendView (r : OutboxRow) : EmailSendView :=
  ⟨r.id,r.authorizationRevision,r.recipientName,r.recipientAddress,r.senderAddress,r.state,r.sentAt,
    match r.settledOutcome, r.settledAt with
    | some outcome, some settledAt =>
      some (outcome,
        (db.directory.members.rows.find? fun m => some m.userId = r.settledBy).map MemberRow.name,
        settledAt)
    | _, _ => none⟩

/-- Every delivery of an approved email, and whether this viewer may settle the uncertain ones. -/
def listEmailSends (userId : UserId) : EmailSendList :=
  let rows := sendRows db requestId
  ⟨rows.map (sendView db),
    rows.any (fun r => r.state = .ambiguous) && (viewerFor db userId).any fun viewer =>
      maySettleUncertainSend viewer (approvalReviewerMemberIds db requestId)⟩

end Listing

section Settling
variable (env : Platform) (db : Db) (requestId : RequestId) (outboxId : OutboxId) (userId : UserId)

def settledRow (state : OutboxState) (outcome : SettledOutcome) (r : OutboxRow) : OutboxRow :=
  { r with state := state, settledOutcome := some outcome, settledBy := some userId,
           settledAt := some db.now }

/-- No row of the current revision is anything but `sent`. -/
def allSent : Bool :=
  (db.requests requestId).all fun row => db.outbox.rows.all fun r =>
    !(r.requestId = requestId ∧ r.authorizationRevision = row.authorizationRevision) || r.state = .sent

def confirmedReason : String :=
  "A reviewer checked the mailbox and confirmed the approved email was sent."

/-- The effect is `executed` once nothing of the current revision is open. -/
def closeEffect : Db :=
  if allSent db requestId then
    updateRequest db requestId (effectDone .executed confirmedReason)
  else db

def settledEngagement (candidateId : Option Uuid) : Db :=
  match candidateId with
  | none => db
  | some candidateId =>
    { db with
      engagements := updateWhere (fun e => e.candidateId = candidateId ∧ e.requestId = requestId)
        (fun e => { e with stage := "sent", lastOutreachAt := some (e.lastOutreachAt.getD db.now) })
        db.engagements }

def settleSent (row : OutboxRow) : Db :=
  settledEngagement (closeEffect (setRow db row fun r =>
      { settledRow db userId .sent .sent r with sentAt := some (r.sentAt.getD db.now) }) requestId)
    requestId row.candidateId

def settleNotSent (row : OutboxRow) : Result Db :=
  reopenApprovalForResend env (setRow db row (settledRow db userId .cancelled .notSent)) requestId
    userId

structure SettleResult where
  list : EmailSendList
  duplicate : Bool
  deriving DecidableEq, Repr

/-- Record what a person found; the same answer twice is a no-op. -/
def settleEmailSend (outcome : SettledOutcome) : Result (Db × SettleResult) :=
  match db.outbox.rows.find? (fun r => r.requestId = requestId ∧ r.id = outboxId) with
  | none => refuse "no such email send" "unknown_email_send" 404
  | some row => do
    require ((viewerFor db userId).any fun viewer =>
        maySettleUncertainSend viewer (approvalReviewerMemberIds db requestId))
      "Only a reviewer of this email or an Admin can settle its send."
      "email_send_settle_forbidden" 403
    if row.settledOutcome = some outcome then
      return (db,⟨listEmailSends db requestId userId,true⟩)
    else
      require (row.state = .ambiguous) "Only a send whose outcome is unknown can be settled."
        "email_send_not_uncertain" 409
      match outcome with
      | .sent =>
        let settled := settleSent db requestId userId row
        return (settled,⟨listEmailSends settled requestId userId,false⟩)
      | .notSent =>
        let reopened ← settleNotSent env db requestId userId row
        return (reopened,⟨listEmailSends reopened requestId userId,false⟩)

end Settling

end HermesEnterprise.Email
