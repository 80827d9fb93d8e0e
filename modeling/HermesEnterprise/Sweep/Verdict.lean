import HermesEnterprise.Inbound.Text
import HermesEnterprise.RunLog.Validator

/-! # The orphan sweep

A pass reads the live runs of a workspace, asks for each what became of its Workflow
instance, and writes what it concludes in a transaction of its own that changes only a run
that is as the pass read it. Times are microseconds, and `now()` is when a transaction began.
-/
namespace HermesEnterprise.Sweep
open Foundation.Tables RunLog

def second : ℕ := 1000000

/-- `SWEEP_STARTUP_GRACE_SECONDS`. -/
def startupGrace : ℕ := 120 * second

/-- `SWEEP_MISSING_CONFIRM_SECONDS`. -/
def missingConfirm : ℕ := 60 * second

def orphanNoEventMinutes : ℕ := 10

/-- The error of a run as a sweep writes it: transient, retryable, and of no step. -/
structure RunError where
  reason : String
  message : String
  deriving DecidableEq, Repr

structure RunRow where
  id : RunId
  sessionId : String
  status : RunStatus
  attempt : ℕ
  engineVersion : ℕ
  workflowInstanceId : Option String
  stopRequested : Bool
  updatedAt : ℕ
  error : Option RunError
  endedAt : Option ℕ
  deriving DecidableEq, Repr

/-- `run_sweep_observations`. -/
structure Observation where
  runId : RunId
  attempt : ℕ
  workflowInstanceId : Option String
  runStatus : RunStatus
  progressAt : ℕ
  firstMissingAt : ℕ
  deriving DecidableEq, Repr

structure Tables where
  runs : List RunRow
  observations : List Observation
  deriving DecidableEq, Repr

structure LiveRun where
  id : RunId
  sessionId : String
  status : RunStatus
  attempt : ℕ
  engineVersion : ℕ
  workflowInstanceId : Option String
  stopRequested : Bool
  stale : Bool
  inGrace : Bool
  progressAt : ℕ
  deriving DecidableEq, Repr

section Lookup

/-- What an exception of a lookup carries, when it is an object. -/
structure LookupError where
  name : Option String
  code : Option String
  message : Option String
  status : Option ℤ
  deriving DecidableEq, Repr

/-- The answer of a lookup: a status, if the instance has one, or an exception. -/
inductive Lookup
  | status (status : Option String)
  | throws (error : Option LookupError)
  deriving DecidableEq, Repr

/-- The exception of `boundedLookup` itself. -/
def timedOut : LookupError := ⟨some "TimeoutError",none,some "Workflow status lookup timed out",none⟩

inductive LookupCategory
  | timeout | http5xx | http4xx | lookupFailed
  deriving DecidableEq, Repr

/-- `^\(instance\.not_found\)(?:\s|$)` -/
def notFoundMessage (message : String) : Bool :=
  let start := "(instance.not_found)"
  start.toList.isPrefixOf message.toList &&
    ((message.toList.drop start.length).head?.all fun c =>
      decide (c.toNat < 0x10000) && Inbound.isSpace (Inbound.unit c))

def confirmedMissing (error : Option LookupError) : Bool :=
  error.any fun e => e.code = some "instance.not_found" || e.message.any notFoundMessage

def lookupCategory (error : Option LookupError) : LookupCategory :=
  match error with
  | none => .lookupFailed
  | some e =>
    if e.name = some "TimeoutError" ∨ e.name = some "AbortError" ∨ e.code = some "ETIMEDOUT" then .timeout
    else if e.status.any fun s => decide (500 ≤ s) && decide (s < 600) then .http5xx
    else if e.status.any fun s => decide (400 ≤ s) && decide (s < 500) then .http4xx
    else .lookupFailed

end Lookup

section Verdict

inductive Deferral
  | startupGrace | unknownStatus | lookup (category : LookupCategory)
  deriving DecidableEq, Repr

inductive Terminal
  | stopped
  | error (error : RunError)
  deriving DecidableEq, Repr

inductive Verdict
  | ok
  | terminal (verdict : Terminal)
  | missing
  | deferred (reason : Deferral)
  deriving DecidableEq, Repr

def knownStatuses : List String := ["queued","running","paused","complete","waiting","waitingForPause"]

/-- What the sweep concludes about one run. Stop is read first. -/
def verdictFor (run : LiveRun) (currentEngineVersion : ℕ) (instanceStatus : Lookup) : Verdict :=
  if run.stopRequested then .terminal .stopped
  else if run.engineVersion ≠ currentEngineVersion then
    .terminal (.error ⟨"engine_version_changed",s!"this run was started by engine version {run.engineVersion}; the deployed version is {currentEngineVersion}"⟩)
  else if run.inGrace then .deferred .startupGrace
  else
    match instanceStatus with
    | .throws error => if confirmedMissing error then .missing else .deferred (.lookup (lookupCategory error))
    | .status none => .deferred .unknownStatus
    | .status (some status) =>
      if status = "errored" ∨ status = "terminated" then
        .terminal (.error ⟨"instance_dead",s!"the run attempt is {status}"⟩)
      else if status ∉ knownStatuses then .deferred .unknownStatus
      else if run.stale ∧ run.status ≠ .waiting ∧ (status = "running" ∨ status = "complete") then
        .terminal (.error ⟨"no_progress",s!"no progress for {orphanNoEventMinutes} minutes"⟩)
      else .ok

end Verdict

section Transactions
variable (now : ℕ)

def liveRun (r : RunRow) : LiveRun where
  id := r.id
  sessionId := r.sessionId
  status := r.status
  attempt := r.attempt
  engineVersion := r.engineVersion
  workflowInstanceId := r.workflowInstanceId
  stopRequested := r.stopRequested
  stale := r.updatedAt + orphanNoEventMinutes * 60 * second < now
  inGrace := now < r.updatedAt + startupGrace
  progressAt := r.updatedAt

/-- Runs that should stop come first, then those that have been silent longest. -/
def sweptBefore (a b : RunRow) : Bool :=
  (a.stopRequested && !b.stopRequested) || (a.stopRequested == b.stopRequested && decide (a.updatedAt ≤ b.updatedAt))

def liveRuns (runs : List RunRow) : List RunRow :=
  ((runs.filter fun r => !r.status.terminal).mergeSort sweptBefore).take 200

/-- The row is as the pass read it. -/
def unchanged (run : LiveRun) (r : RunRow) : Bool :=
  r.id = run.id ∧ r.attempt = run.attempt ∧ r.workflowInstanceId = run.workflowInstanceId ∧ r.status = run.status ∧
    r.updatedAt = run.progressAt ∧ r.stopRequested = run.stopRequested ∧ r.engineVersion = run.engineVersion

def Observation.sameAs (o : Observation) (run : LiveRun) : Bool :=
  o.attempt = run.attempt ∧ o.workflowInstanceId = run.workflowInstanceId ∧ o.runStatus = run.status ∧
    o.progressAt = run.progressAt

/-- When the instance was first missing, as this observation leaves it on record. -/
def firstMissing (observations : List Observation) (run : LiveRun) : ℕ :=
  match observations.find? fun o => o.runId = run.id with
  | some o => if o.sameAs run then o.firstMissingAt else now
  | none => now

def forget (observations : List Observation) (run : LiveRun) : List Observation :=
  observations.filter fun o => o.runId ≠ run.id

def observeMissing (observations : List Observation) (run : LiveRun) : List Observation :=
  forget observations run ++
    [⟨run.id,run.attempt,run.workflowInstanceId,run.status,run.progressAt,firstMissing now observations run⟩]

def Terminal.status : Terminal → RunStatus
  | .stopped => .stopped
  | .error _ => .error

def Terminal.runError (terminal : Terminal) : Option RunError :=
  match terminal with
  | .stopped => none
  | .error e => some e

/-- A row that is ended. Its trigger sets when it was updated. -/
def ended (terminal : Terminal) (r : RunRow) : RunRow :=
  { r with status := terminal.status, error := terminal.runError, endedAt := some now, stopRequested := true,
           updatedAt := now }

def endRun (db : Tables) (run : LiveRun) (terminal : Terminal) : Tables :=
  ⟨updateWhere (unchanged run) (ended now terminal) db.runs,forget db.observations run⟩

/-- The transaction behind one verdict: the tables after it, and the status it set. -/
def settle (db : Tables) (run : LiveRun) (verdict : Verdict) : Tables × Option RunStatus :=
  if db.runs.any (unchanged run) then
    match verdict with
    | .missing =>
      let observed := { db with observations := observeMissing now db.observations run }
      if firstMissing now db.observations run + missingConfirm ≤ now then
        (endRun now observed run (.error ⟨"instance_missing","the run attempt no longer exists"⟩),some .error)
      else (observed,none)
    | .terminal terminal => (endRun now db run terminal,some terminal.status)
    | _ => ({ db with observations := forget db.observations run },none)
  else (db,none)

end Transactions
end HermesEnterprise.Sweep
