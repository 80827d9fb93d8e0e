import HermesEnterprise.Foundation.Runs
import HermesEnterprise.Foundation.Tables

/-! # Reading received email

One durable job per attempt starts an intake run for a message, unless its agent has read enough for a day. A
transaction of such a job counts first and starts the run later, so others can commit in between. A failed run is
tried again by the Cron, or when a person asks.
-/
namespace HermesEnterprise.Triage.Reads
open Foundation.Runs Foundation.Tables

section Limits

def defaultAgentDailyReads : ℕ := 50

/-- The limit of a deployment, from the value it sets when that is an integer. -/
def agentDailyReads (value : Option ℤ) : ℕ :=
  match value with
  | some n => if 1 ≤ n ∧ n ≤ 10000 then n.toNat else defaultAgentDailyReads
  | none => defaultAgentDailyReads

def maxAutomaticTriageAttempts : ℕ := 3

def automaticBackoffSeconds : List ℕ := [60,300]

def transientRunReasons : List String := ["hermes_provider_rate_limited","hermes_provider_unavailable"]

/-- Refusals that will not heal on retry. -/
def permanent : List String :=
  ["no_key","key_invalid","key_unverified","provider_not_allowed","unknown_model","engine_paused"]

/-- A day in milliseconds. -/
def day : ℕ := 24 * 60 * 60 * 1000

end Limits

section State

inductive MessageStatus
  | received
  | triaging
  | suggested
  | noAction
  | failed
  deriving DecidableEq

inductive RunStatus
  | working
  | completed
  | stopped
  | error (reason : String)
  deriving DecidableEq

structure Message where
  id : ℕ
  inbox : ℕ
  status : MessageStatus
  triageRun : Option ℕ
  triageError : Option String
  attempt : ℕ
  requests : List ℕ
  deriving DecidableEq

/-- How an intake run began: for which attempt of a message, by the job of which attempt, and whether a person had
asked for that job. -/
structure Start where
  id : ℕ
  inbox : ℕ
  message : ℕ
  attempt : ℕ
  created : ℕ
  jobAttempt : ℕ
  byPerson : Bool
  deriving DecidableEq

structure IntakeRun extends Start where
  status : RunStatus
  endedAt : Option ℕ
  recoveryNotBefore : Option ℕ
  recoveryBlockedReason : Option String
  deriving DecidableEq

/-- A job, under the key of its message and attempt. -/
structure TriageJob where
  message : ℕ
  attempt : ℕ
  byPerson : Bool
  done : Bool
  failed : Bool
  nextAt : ℕ
  deriving DecidableEq

/-- The transaction of a job between its count and its commit. It holds the lock of its message. -/
structure Transaction where
  message : ℕ
  inbox : ℕ
  jobAttempt : ℕ
  byPerson : Bool
  begun : ℕ
  deriving DecidableEq

structure Db where
  clock : ℕ
  paused : List ℕ
  messages : List Message
  runs : List IntakeRun
  jobs : List TriageJob
  transactions : List Transaction
  deriving DecidableEq

def Db.empty : Db := ⟨0,[],[],[],[],[]⟩

inductive Outcome
  | started
  | refused (reason : String)
  deriving DecidableEq

inductive Event
  | pass (duration : ℕ)
  | setInbox (inbox : ℕ) (active : Bool)
  | received (inbox : ℕ)
  | read (message attempt begun : ℕ) (owner : Bool)
  | submit (message : ℕ) (outcome : Outcome)
  | finishJob (message attempt : ℕ)
  | failJob (message attempt nextAt : ℕ)
  | runEnds (run : ℕ) (status : RunStatus) (notBefore : Option ℕ) (blocked : Option String)
  | recordSuggestion (message request : ℕ)
  | retryEmailTriage (message : ℕ)
  | scheduleEmailTriageRetry (message : ℕ)
  deriving DecidableEq

end State

section Tables

def Db.message (db : Db) (id : ℕ) : Option Message := db.messages.find? fun m => m.id = id

def Db.run (db : Db) (id : ℕ) : Option IntakeRun := db.runs.find? fun r => r.id = id

def Db.job (db : Db) (message attempt : ℕ) : Option TriageJob :=
  db.jobs.find? fun j => (j.message,j.attempt) = (message,attempt)

/-- Whether a transaction holds the message. -/
def Db.locked (db : Db) (message : ℕ) : Bool := db.transactions.any fun t => t.message = message

def Db.setMessage (db : Db) (id : ℕ) (f : Message → Message) : Db :=
  { db with messages := updateWhere (fun m => decide (m.id = id)) f db.messages }

def Db.setJob (db : Db) (message attempt : ℕ) (f : TriageJob → TriageJob) : Db :=
  { db with jobs := updateWhere (fun j => decide ((j.message,j.attempt) = (message,attempt))) f db.jobs }

def Db.commit (db : Db) (message : ℕ) : Db :=
  { db with transactions := db.transactions.filter fun t => t.message ≠ message }

/-- A key that is in use keeps its job. -/
def Db.enqueueJob (db : Db) (message attempt : ℕ) (byPerson : Bool) (nextAt : ℕ) : Db :=
  if (db.job message attempt).isSome then db
  else { db with jobs := db.jobs ++ [⟨message,attempt,byPerson,false,false,nextAt⟩] }

end Tables

section Operations

-- the agent that each inbox belongs to
variable (agentOf : ℕ → ℕ)

/-- Reads that an agent has started today: its messages whose current run was created within a day. -/
def readsToday (db : Db) (agent now : ℕ) : ℕ :=
  count (fun m => agentOf m.inbox = agent && (m.triageRun.bind db.run).any fun r => now < r.created + day) db.messages

def fail (db : Db) (message : ℕ) (reason : String) : Db :=
  db.setMessage message fun m =>
    { m with status := if reason = "inbox_paused" then .noAction else .failed, triageError := some reason }

/-- `runEmailTriageJob` up to its count. What does not go on to a run is committed at once. -/
def readMessage (limit : ℕ) (db : Db) (message attempt begun : ℕ) (owner : Bool) : Option Db := do
  let job ← db.job message attempt
  if job.done || db.clock < job.nextAt || db.clock < begun || db.locked message then none
  let some m := db.message message | return db
  if m.status ≠ .received ∨ m.triageRun.isSome then return db
  if m.inbox ∈ db.paused then return fail db message "inbox_paused"
  if !owner then return fail db message "inbox_owner_missing"
  if !job.byPerson && limit ≤ readsToday agentOf db (agentOf m.inbox) begun then return fail db message "daily_limit"
  return { db with transactions := ⟨message,m.inbox,attempt,job.byPerson,begun⟩ :: db.transactions }

/-- What a message looks like once a run reads it. -/
def setRun (db : Db) (message run : ℕ) : Db :=
  db.setMessage message fun m => { m with status := .triaging, triageRun := some run, triageError := none }

/-- The rest of `runEmailTriageJob`. A turn that was submitted before is not submitted again; a refusal that may heal
rolls the transaction back. -/
def submitMessage (db : Db) (message : ℕ) (outcome : Outcome) : Option Db := do
  let t ← db.transactions.find? fun t => t.message = message
  let m ← db.message message
  let closed := db.commit message
  match outcome with
  | .refused reason => return if reason ∈ permanent then fail closed message reason else closed
  | .started =>
    match db.runs.find? fun r => (r.message,r.attempt) = (message,m.attempt) with
    | some run => return setRun closed message run.id
    | none =>
      let run : IntakeRun :=
        ⟨⟨db.runs.length,t.inbox,message,m.attempt,t.begun,t.jobAttempt,t.byPerson⟩,.working,none,none,none⟩
      return setRun { closed with runs := db.runs ++ [run] } message run.id

/-- Starting a message's triage over. Attempts end at a thousand. -/
def restartTriage (db : Db) (m : Message) (byPerson : Bool) (notBefore : ℕ) : Option Db := do
  if 1000 < m.attempt + 1 then none
  let restarted := db.setMessage m.id fun m =>
    { m with status := .received, triageRun := none, triageError := none, attempt := m.attempt + 1 }
  return restarted.enqueueJob m.id (m.attempt + 1) byPerson (max db.clock notBefore)

def runFailed (r : IntakeRun) : Bool :=
  match r.status with
  | .error _ => true
  | .stopped => true
  | .working => false
  | .completed => false

/-- Whether a person may ask to read a message again. -/
def retryable (db : Db) (m : Message) : Bool :=
  m.inbox ∉ db.paused && m.requests.isEmpty &&
    (m.status = .failed ||
      (m.status = .triaging && (m.triageRun.bind db.run).any runFailed) ||
      (m.status = .triaging && (m.triageRun.bind db.run).any fun r => r.status = .completed) ||
      (m.status = .received && !db.jobs.any fun j =>
        (j.message,j.attempt) = (m.id,m.attempt) && !j.done && !j.failed))

def retryEmailTriage (db : Db) (message : ℕ) : Option Db := do
  let m ← db.message message
  if db.locked message || !retryable db m then none
  restartTriage db m true 0

/-- Whether the Cron tries a failed run again. -/
def due (db : Db) (m : Message) (r : IntakeRun) : Bool :=
  m.inbox ∉ db.paused && m.status = .triaging && m.requests.isEmpty && m.attempt < maxAutomaticTriageAttempts &&
    (match r.status with
      | .error reason => transientRunReasons.contains reason
      | .working => false
      | .completed => false
      | .stopped => false) &&
    r.endedAt.any (fun ended => db.clock < ended + day) &&
    r.recoveryBlockedReason ≠ some "provider_retry_after_excessive"

/-- `scheduleEmailTriageRetries` at one message. -/
def scheduleEmailTriageRetry (db : Db) (message : ℕ) : Option Db := do
  let m ← db.message message
  let r ← m.triageRun.bind db.run
  if db.locked message || !due db m r then none
  let wait := automaticBackoffSeconds.getD (min m.attempt automaticBackoffSeconds.length - 1) 0
  restartTriage db m false (max (r.endedAt.getD 0 + wait * 1000) (r.recoveryNotBefore.getD 0))

/-- One event. `none` is an event that cannot happen, or that waits for a lock. -/
def apply (limit : ℕ) (db : Db) : Event → Option Db
  | .pass duration => some { db with clock := db.clock + duration }
  | .setInbox inbox active =>
    some { db with paused := if active then db.paused.filter (· ≠ inbox) else inbox :: db.paused }
  | .received inbox =>
    let id := db.messages.length
    let stored : Db := { db with messages := db.messages ++ [⟨id,inbox,.received,none,none,1,[]⟩] }
    some (stored.enqueueJob id 1 false db.clock)
  | .read message attempt begun owner => readMessage agentOf limit db message attempt begun owner
  | .submit message outcome => submitMessage db message outcome
  | .finishJob message attempt =>
    if db.locked message then none else some (db.setJob message attempt fun j => { j with done := true })
  | .failJob message attempt nextAt =>
    if db.locked message then none
    else some (db.setJob message attempt fun j => { j with failed := true, nextAt := nextAt })
  | .runEnds run status notBefore blocked =>
    let ended := fun r : IntakeRun =>
      { r with
        status := status
        endedAt := some db.clock
        recoveryNotBefore := notBefore
        recoveryBlockedReason := blocked }
    some { db with runs := updateWhere (fun r => decide (r.id = run)) ended db.runs }
  | .recordSuggestion message request =>
    if db.locked message then none
    else
      some (db.setMessage message fun m =>
        { m with
          status := .suggested
          requests := if request ∈ m.requests then m.requests else m.requests ++ [request] })
  | .retryEmailTriage message => retryEmailTriage db message
  | .scheduleEmailTriageRetry message => scheduleEmailTriageRetry db message

/-- One event under a deployment's setting. -/
def Step (value : Option ℤ) (db : Db) (e : Event) (db' : Db) : Prop :=
  apply agentOf (agentDailyReads value) db e = some db'

end Operations
end HermesEnterprise.Triage.Reads
