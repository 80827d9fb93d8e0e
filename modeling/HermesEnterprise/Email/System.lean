import HermesEnterprise.Approvals.System
import HermesEnterprise.Email.Connection
import HermesEnterprise.Email.Settlement

/-! # The send system

Claims of send jobs run beside the approval operations, settlements and mailbox
changes. Each database transaction is one step; a claim takes its lease, prepares
the row, calls the provider, records the answer and finishes the job in separate
steps, and can stop for good between any two of them.
-/
namespace HermesEnterprise.Email
open Approvals Jobs Foundation.Runs Foundation.Tables

abbrev WorkerId := ℕ
abbrev CallId := ℕ

/-- Where a claim stands in `claimRunFinish`. -/
inductive Phase
  | claimed
  /-- `sending` is committed; the provider was not called yet. -/
  | calling (prepared : PreparedSend)
  | called (prepared : PreparedSend) (call : CallId)
  | answered (prepared : PreparedSend) (answer : ProviderAnswer)
  /-- The body returned; `finishJob` is next. -/
  | finishing
  /-- The body threw; `failJob` is next. -/
  | failing (message : String)
  deriving DecidableEq, Repr

structure Worker where
  jobId : JobId
  attempts : ℕ
  outboxId : OutboxId
  phase : Phase
  deriving DecidableEq, Repr

/-- One call to a provider; a call nobody waits for any more keeps no answer. -/
structure Call where
  id : CallId
  outboxId : OutboxId
  requestId : RequestId
  recipientIndex : ℕ
  answer : Option ProviderAnswer
  deriving DecidableEq, Repr

/-- The database, the claims in progress, and every provider call so far. -/
structure World where
  db : Db
  workers : WorkerId → Option Worker
  calls : List Call

inductive SendEvent
  | approval (e : Event)
  | claim (worker : WorkerId) (jobId : JobId)
  | prepare (worker : WorkerId) (deployment : Deployment) (token : TokenAnswer) (reference : String)
  | startCall (worker : WorkerId)
  | answer (worker : WorkerId) (answer : ProviderAnswer)
  | record (worker : WorkerId)
  /-- The recording transaction itself failed. -/
  | recordFails (worker : WorkerId) (message : String)
  | finish (worker : WorkerId)
  | finishFails (worker : WorkerId) (message : String)
  | fail (worker : WorkerId)
  | crash (worker : WorkerId)
  | settle (requestId : RequestId) (outboxId : OutboxId) (userId : UserId) (outcome : SettledOutcome)
  | disconnect (accountId : AccountId)
  | connect (freshId : AccountId) (provider : SendingProvider) (address : String)
  | contactReply (address : String) (candidateId : Option Uuid) (unsubscribe : Bool)

/-- The event does not fit the state: nothing happens. -/
def noSuchEvent {α : Type} : Result α := .error (.error "no such event")

section Steps
variable (w : World) (id : WorkerId) (worker : Worker)

/-- The claim goes on to another phase, with a new database. -/
def World.advance (db : Db) (phase : Phase) : World :=
  { w with db := db, workers := Function.update w.workers id (some { worker with phase := phase }) }

/-- The claim is over. -/
def World.retire (db : Db) : World :=
  { w with db := db, workers := Function.update w.workers id none }

def World.claim (jobId : JobId) : Result World :=
  match w.workers id, claimJob w.db.now jobId w.db.jobs with
  | none, some (jobs,job) =>
    match job.key, job.payload with
    | .outboundEmailSend _, .outbox outboxId =>
      .ok { w with
        db := { w.db with jobs := jobs }
        workers := Function.update w.workers id (some ⟨job.id,job.attempts,outboxId,.claimed⟩) }
    | _, _ => noSuchEvent
  | _, _ => noSuchEvent

def Failure.text : Failure → String
  | .route error => error.message
  | .error message => message

def afterPrepare : Option PreparedSend → Phase
  | none => .finishing
  | some prepared => .calling prepared

def World.prepare (deployment : Deployment) (token : TokenAnswer) (reference : String) : World :=
  match prepareSend w.db deployment worker.outboxId token reference with
  | .ok (db,prepared) => w.advance id worker db (afterPrepare prepared)
  | .error failure => w.advance id worker w.db (.failing (Failure.text failure))

/-- The request leaves for the provider. -/
def World.startCall (prepared : PreparedSend) : World :=
  let call : Call := ⟨w.calls.length,prepared.row.id,prepared.row.requestId,
    prepared.row.recipientIndex,none⟩
  { w.advance id worker w.db (.called prepared w.calls.length) with calls := w.calls ++ [call] }

def World.answer (prepared : PreparedSend) (call : CallId) (answer : ProviderAnswer) : World :=
  { w.advance id worker w.db (.answered prepared answer) with
    calls := updateWhere (fun c => c.id = call) (fun c => { c with answer := some answer }) w.calls }

/-- Record the answer; a retryable failure is thrown again and fails the job. -/
def World.record (prepared : PreparedSend) : ProviderAnswer → World
  | .accepted messageId => w.advance id worker (recordAccepted w.db prepared messageId) .finishing
  | .failed error => w.advance id worker (recordFailed w.db prepared error)
      (if error.retryable then .failing error.message else .finishing)

/-- Failing to record an accepted call counts as an unknown outcome. -/
def World.recordFails (prepared : PreparedSend) (message : String) : ProviderAnswer → World
  | .accepted _ => w.advance id worker w.db (.answered prepared (.failed (.other (some message))))
  | .failed _ => w.advance id worker w.db (.failing message)

def World.finish : World :=
  w.retire id { w.db with jobs := finishJob w.db.now worker.jobId w.db.jobs }

def World.fail (message : String) : World :=
  w.retire id { w.db with jobs := failJob w.db.now worker.jobId message worker.attempts 0 w.db.jobs }

/-- One event of a claim that is in progress. -/
def World.work : SendEvent → Phase → Result World
  | .prepare _ deployment token reference, .claimed => .ok (w.prepare id worker deployment token reference)
  | .startCall _, .calling prepared => .ok (w.startCall id worker prepared)
  | .answer _ answer, .called prepared call => .ok (w.answer id worker prepared call answer)
  | .record _, .answered prepared answer => .ok (w.record id worker prepared answer)
  | .recordFails _ message, .answered prepared answer =>
    .ok (w.recordFails id worker prepared message answer)
  | .finish _, .finishing => .ok (w.finish id worker)
  | .finishFails _ message, .finishing => .ok (w.advance id worker w.db (.failing message))
  | .fail _, .failing message => .ok (w.fail id worker message)
  | .crash _, _ => .ok (w.retire id w.db)
  | _, _ => noSuchEvent

end Steps

/-- The claim an event is about. -/
def SendEvent.worker : SendEvent → Option WorkerId
  | .prepare id _ _ _ | .startCall id | .answer id _ | .record id | .recordFails id _ | .finish id
  | .finishFails id _ | .fail id | .crash id => some id
  | _ => none

/-- An approval operation; only a settlement reopens an approval. -/
def approvalStep (env : Platform) (db : Db) : Event → Result Db
  | .reopen _ _ => noSuchEvent
  | e => Approvals.apply env db e

/-- The world an event leaves. -/
def World.apply (env : Platform) (w : World) (e : SendEvent) : Result World :=
  match e.worker with
  | some id =>
    match w.workers id with
    | none => noSuchEvent
    | some worker => w.work id worker e worker.phase
  | none =>
    match e with
    | .approval e => (approvalStep env w.db e).map fun db => { w with db := db }
    | .claim id jobId => w.claim id jobId
    | .settle requestId outboxId userId outcome =>
      (settleEmailSend env w.db requestId outboxId userId outcome).map fun r => { w with db := r.1 }
    | .disconnect accountId =>
      (disconnectMailbox w.db accountId).map fun db => { w with db := db }
    | .connect freshId provider address =>
      (connectMailbox w.db freshId provider address).map fun db => { w with db := db }
    | .contactReply address candidateId unsubscribe =>
      .ok { w with db := recordContactReply w.db address candidateId unsubscribe }
    | _ => noSuchEvent

def SendStep (env : Platform) : World → SendEvent → World → Prop := Applied (World.apply env)

/-- Nothing was proposed, no job exists, no claim runs and nothing was called. -/
structure InitialWorld (w : World) : Prop extends Approvals.Initial w.db where
  jobs : w.db.jobs.rows = []
  ready : w.db.jobs.ready = []
  workers : ∀ id, w.workers id = none
  calls : w.calls = []

def ReachableWorld (env : Platform) : World → Prop := Reachable InitialWorld (SendStep env)

end HermesEnterprise.Email
