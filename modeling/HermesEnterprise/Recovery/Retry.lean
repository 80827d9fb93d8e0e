import HermesEnterprise.Foundation.Tables
import HermesEnterprise.Recovery.Safety

/-! # Admitting another attempt

One admission path for human retries and scheduled recovery. The agent and the run stay
locked from the first check to the commit, and every insert of a run needs the lock on
its agent, so an admission is one step. Times are milliseconds.
-/
namespace HermesEnterprise.Recovery
open Approvals hiding RunId
open RunLog Foundation.Tables

def maxAutomaticAttempts : ℕ := 3

def transientReasons : List String := ["hermes_provider_unavailable","hermes_provider_rate_limited"]

structure RunError where
  reason : Option String
  retryable : Bool
  deriving DecidableEq, Repr

/-- One entry of `recovery_history`: the attempt that ended, and what started the next. -/
structure HistoryEntry where
  attempt : ℕ
  modelId : String
  effort : Option String
  traceId : String
  status : RunStatus
  reason : Option String
  endedAt : Option ℕ
  nextModelId : String
  automatic : Bool
  deriving DecidableEq, Repr

/-- `authorityAttempt` is the attempt whose runtime request is on file. -/
structure RunRow where
  id : RunId
  sessionId : SessionId
  agentId : AgentId
  status : RunStatus
  attempt : ℕ
  modelId : String
  effort : Option String
  createdAt : ℕ
  clientTurnId : String
  error : Option RunError
  endedAt : Option ℕ
  recoveryNextAt : Option ℕ
  recoveryNotBefore : Option ℕ
  recoveryCancelled : Bool
  recoveryBlockedReason : Option String
  stopRequested : Bool
  engineVersion : ℕ
  traceId : String
  workflowInstanceId : Option String
  runtimeRunId : Option String
  authorityAttempt : Option ℕ
  recoveryInput : Option String
  automaticRecovery : Bool
  recoveryHistory : List HistoryEntry
  deriving DecidableEq, Repr

structure SessionRow where
  id : SessionId
  agentId : AgentId
  ownerId : UserId
  readOnly : Bool
  archived : Bool
  deriving DecidableEq, Repr

structure RunInstanceParams where
  runId : RunId
  sessionId : SessionId
  attempt : ℕ
  engineVersion : ℕ
  traceId : String
  deriving DecidableEq, Repr

/-- The payload of a `run_recovery` job. -/
structure RecoveryPayload where
  runId : RunId
  agentId : AgentId
  ownerId : UserId
  expectedAttempt : ℕ
  deriving DecidableEq, Repr

/-- `launchJobs` and `recoveryJobs` are the jobs ever queued, since a job may be delivered at any later
time. `starting`, `recovering` and `failing` are workers between two of their steps. `instances` are
the Workflow instances ever created. -/
structure Platform where
  now : ℕ
  agents : List AgentId
  activeMembers : List UserId
  owners : List (AgentId × UserId)
  sessions : List SessionRow
  evidence : Evidence
  runs : List RunRow
  launchJobs : List RunInstanceParams
  recoveryJobs : List RecoveryPayload
  starting : List RunInstanceParams
  recovering : List RecoveryPayload
  failing : List (RecoveryPayload × String)
  instances : List RunInstanceParams
  deriving DecidableEq, Repr

structure ModelRow where
  modelId : String
  disabled : Bool
  supportsTools : Bool
  efforts : List String
  deriving DecidableEq, Repr

inductive RuntimeAuthMode
  | legacyHmac | tokenDigest
  deriving DecidableEq, Repr

/-- What the checks that this development does not open answer at one admission: the deployment, the
approval of a continued run, the catalog and its keys, the runtime, and the limits. -/
structure Checks where
  enginePaused : Bool
  hermesRuntime : Bool
  modelScripted : Bool
  approvalBlock : Option String
  model : Option ModelRow
  provider : Result Unit
  keyStatus : Option String
  binding : Result RuntimeAuthMode
  capabilities : Result Unit
  capsReason : Option String
  rate : Result Unit
  capacity : Result Unit
  engineVersion : ℕ
  traceId : String

section Due

/-- When an automatic retry is due, for a run that may have one. -/
def automaticRetryAt (run : RunRow) : Option ℕ :=
  match run.endedAt, run.error with
  | some ended, some error =>
    if run.recoveryCancelled || decide (maxAutomaticAttempts ≤ run.attempt) || !error.retryable ||
        !(error.reason.any (· ∈ transientReasons)) then none
    else
      let seconds := if run.attempt = 1 then 60 else 300
      some (max (ended + seconds * 1000) (run.recoveryNotBefore.getD 0))
  | _, _ => none

/-- Neither the provider's deadline nor the back-off is over. -/
def coolingDown (now : ℕ) (run : RunRow) : Bool :=
  now < max (run.recoveryNotBefore.getD 0)
    ((automaticRetryAt { run with recoveryCancelled := false }).getD 0)

end Due

/-- `^[a-zA-Z0-9_][a-zA-Z0-9\-_]*$`, and at most 100 characters. -/
def validInstanceId (id : String) : Bool :=
  let word := fun c : Char => (c.isAlphanum : Bool) || c = '_'
  id.toList.head?.any word && id.toList.all (fun c => word c || c = '-') && id.length ≤ 100

def runAttemptInstanceId (runId : RunId) (attempt : ℕ) : Result String :=
  let id := runId ++ "-a" ++ toString attempt
  if validInstanceId id then .ok id
  else .error (.error ("run attempt id is not a valid Workflow instance id: " ++ id))

section Reads
variable (p : Platform) (userId : UserId)

/-- An owner of the agent, or the owner of an open session of an agent without owners. -/
def requireRecoveryAgent (agentId : AgentId) : Result Unit :=
  let assigned := p.owners.any fun o => decide (o.1 = agentId) && decide (o.2 = userId)
  let unowned := p.owners.all fun o => o.1 ≠ agentId
  let session := p.sessions.any fun s => decide (s.agentId = agentId) && decide (s.ownerId = userId) &&
    !s.readOnly && !s.archived
  require (decide (agentId ∈ p.agents) && decide (userId ∈ p.activeMembers) &&
      (assigned || (unowned && session)))
    "This agent is not assigned to you." "agent_not_bound" 404

/-- The run is in an open session of this person. -/
def ownedRun (agentId : AgentId) (run : RunRow) : Bool :=
  decide (run.agentId = agentId) && p.sessions.any fun s => decide (s.id = run.sessionId) &&
    decide (s.ownerId = userId) && !s.readOnly && !s.archived

def loadRecoveryRun (agentId : AgentId) (runId : RunId) : Result RunRow :=
  match p.runs.find? fun r => decide (r.id = runId) && ownedRun p userId agentId r with
  | some run => .ok run
  | none => refuse "No such task." "unknown_run" 404

/-- Another run of the session is at least as new. -/
def newerRun (run : RunRow) : Bool :=
  p.runs.any fun r => decide (r.sessionId = run.sessionId) && decide (r.id ≠ run.id) &&
    decide (run.createdAt ≤ r.createdAt)

def busyAgent (run : RunRow) : Bool :=
  p.runs.any fun r => decide (r.agentId = run.agentId) && decide (r.id ≠ run.id) && !r.status.terminal

/-- `runs_one_active_per_session`. -/
def liveInSession (sessionId : SessionId) (runId : RunId) : Bool :=
  p.runs.any fun r => decide (r.sessionId = sessionId) && decide (r.id ≠ runId) && !r.status.terminal

def safetyOf (run : RunRow) : RecoverySafety :=
  inspectRecoverySafety p.evidence run.agentId run.id run.clientTurnId run.runtimeRunId

end Reads

section Admission
variable (c : Checks) (p : Platform) (run : RunRow) (automatic : Bool)

/-- What a retry finds: nothing to do, a newer run, or an attempt to start. -/
inductive RetryStart
  | unchanged | superseded | start
  deriving DecidableEq, Repr

/-- The checks of the run itself. A delayed press is never another authorization. -/
def retryStart (expectedAttempt : Option ℕ) : Result RetryStart :=
  let due := automaticRetryAt run
  if expectedAttempt.any fun e => run.attempt ≠ e then
    if expectedAttempt.any fun e => run.attempt = e + 1 then .ok .unchanged
    else refuse "The task has changed. Refresh its status." "stale_attempt" 409
  else if !run.status.terminal then refuse "This task is already running." "run_active" 409
  else if run.status = .completed then refuse "This task has already finished." "run_completed" 409
  else if automatic && newerRun p run then .ok .superseded
  else if automatic && (run.recoveryCancelled || run.stopRequested || due.isNone) then .ok .unchanged
  else if automatic && due.any fun d => p.now < d then .error (.error "run_recovery_not_due")
  else if !automatic && coolingDown p.now run then
    refuse "The provider recovery cooldown is still active. Hermes will retry automatically after the safe backoff."
      "provider_retry_backoff_active" 429
  else .ok .start

/-- What the stored work of the run allows. -/
def requireSafe : Result Unit := do
  let safety := safetyOf p run
  match safety.blockedReason with
  | some reason =>
    refuse (safety.message.getD "Review the previous task before retrying.") reason 409
  | none => do
    require (!automatic || isResponseOnlyRecoveryInput safety.resumeInput)
      "Automatic recovery is limited to finishing a response from stored read-only results. Retry this task manually."
      "automatic_recovery_requires_response_only" 409
    require (!automatic || (c.hermesRuntime && !c.modelScripted))
      "Automatic recovery requires an attested managed runtime. Retry this task manually."
      "automatic_recovery_legacy_auth" 409
    require (c.modelScripted || !c.hermesRuntime || isResponseOnlyRecoveryInput safety.resumeInput ||
        decide (run.authorityAttempt = some run.attempt))
      "The failed attempt has no verified runtime authority snapshot. Start a new turn instead."
      "recovery_authority_snapshot_missing" 409

/-- The model of the failed attempt, with its effort. -/
def requireModel : Result ModelRow :=
  match c.model with
  | some model =>
    if model.disabled || !model.supportsTools then
      refuse "Choose an available model before retrying." "model_unavailable" 409
    else if run.effort.any fun e => e ≠ "" ∧ e ∉ model.efforts then
      refuse "The failed attempt’s reasoning setting is no longer available. Start a new turn instead."
        "model_effort_unavailable" 409
    else .ok model
  | none => refuse "Choose an available model before retrying." "model_unavailable" 409

def requireRuntime : Result Unit :=
  if c.modelScripted then .ok ()
  else do
    require (c.keyStatus.any fun s => s ∈ ["verified","verified_scoped"])
      "Reconnect the provider before retrying." "key_unverified" 409
    if c.hermesRuntime then do
      let mode ← c.binding
      require (!automatic || decide (mode = .tokenDigest))
        "Automatic recovery requires an attested managed runtime. Retry manually or update the runtime binding."
        "automatic_recovery_legacy_auth" 409
      c.capabilities
    else .ok ()

/-- Everything an attempt needs besides its run's own state. -/
def requireAdmission : Result ModelRow := do
  require (!c.enginePaused) "The engine is paused for a deployment." "engine_paused" 409
  requireSafe c p run automatic
  match c.approvalBlock with
  | some reason =>
    refuse "This approved task needs renewed authorization before retrying." reason 409
  | none => do
    require (!busyAgent p run) "Iris already has another task in progress." "runtime_profile_busy" 409
    let model ← requireModel c run
    c.provider
    requireRuntime c automatic
    match c.capsReason with
    | some reason => refuse "The workspace has reached its run or token limit." reason 429
    | none => do
      c.rate
      c.capacity
      return model

end Admission

section Writes
variable (c : Checks) (p : Platform) (run : RunRow)

/-- `UPDATE runs … WHERE id`, and whatever else the statement asks of the row. -/
def updateRuns (runId : RunId) (also : RunRow → Bool) (f : RunRow → RunRow) : Platform :=
  { p with runs := updateWhere (fun r => decide (r.id = runId) && also r) f p.runs }

def supersede (r : RunRow) : RunRow :=
  { r with recoveryNextAt := none, recoveryCancelled := true,
           recoveryBlockedReason := some "newer_session_run" }

/-- The row of the next attempt. -/
def nextAttempt (model : ModelRow) (instanceId : String) (input : Option String) (automatic : Bool)
    (r : RunRow) : RunRow :=
  { r with
    attempt := run.attempt + 1
    status := .working
    stopRequested := false
    error := none
    endedAt := none
    engineVersion := c.engineVersion
    traceId := c.traceId
    workflowInstanceId := some instanceId
    modelId := model.modelId
    recoveryNextAt := none
    recoveryNotBefore := none
    recoveryCancelled := false
    recoveryBlockedReason := none
    recoveryInput := input
    automaticRecovery := automatic
    recoveryHistory := r.recoveryHistory ++ [⟨run.attempt,run.modelId,run.effort,run.traceId,run.status,
      run.error.bind (·.reason),run.endedAt,model.modelId,automatic⟩] }

/-- A `run_launch` job is unique by run and attempt. -/
def enqueueLaunch (params : RunInstanceParams) : Platform :=
  if p.launchJobs.any fun j => j.runId = params.runId ∧ j.attempt = params.attempt then p
  else { p with launchJobs := p.launchJobs ++ [params] }

/-- The next attempt of a run, with its launch. -/
def startAttempt (model : ModelRow) (input : Option String) (automatic : Bool) :
    Result (Platform × RunRow) := do
  let instanceId ← runAttemptInstanceId run.id (run.attempt + 1)
  if liveInSession p run.sessionId run.id then .error (.error "runs_one_active_per_session")
  else
    let next := nextAttempt c run model instanceId input automatic
    return (enqueueLaunch (updateRuns p run.id (fun _ => true) next)
      ⟨run.id,run.sessionId,run.attempt + 1,c.engineVersion,c.traceId⟩,next run)

/-- The one admission path. -/
def retryTask (userId : UserId) (agentId : AgentId) (runId : RunId) (expectedAttempt : Option ℕ)
    (automatic : Bool) : Result (Platform × RunRow) := do
  requireRecoveryAgent p userId agentId
  let run ← loadRecoveryRun p userId agentId runId
  match ← retryStart p run automatic expectedAttempt with
  | .unchanged => return (p,run)
  | .superseded => return (updateRuns p run.id (fun r => decide (r.attempt = run.attempt) &&
      (decide (r.status = .error) || decide (r.status = .stopped))) supersede,supersede run)
  | .start => do
    let model ← requireAdmission c p run automatic
    startAttempt c p run model (safetyOf p run).resumeInput automatic

end Writes
end HermesEnterprise.Recovery
