import HermesEnterprise.Foundation.Runs
import HermesEnterprise.Recovery.Retry

/-! # Four triggers over one row

Human retries, recovery jobs, the recovery scan and launch jobs, among stops, sweeps, new
turns and what a running attempt writes. A job reads in one transaction and acts in a
later step; a worker may die in between, and a job may be delivered again at any time.
-/
namespace HermesEnterprise.Recovery
open Approvals hiding RunId
open RunLog Foundation.Tables Foundation.Runs

/-- The tables that other parts of the product write. -/
structure Surroundings where
  agents : List AgentId
  activeMembers : List UserId
  owners : List (AgentId × UserId)
  sessions : List SessionRow
  evidence : Evidence

structure NewTurn where
  runId : RunId
  sessionId : SessionId
  modelId : String
  effort : Option String
  createdAt : ℕ
  clientTurnId : String
  engineVersion : ℕ
  traceId : String

section Jobs
variable (c : Checks) (p : Platform)

def paramsOf (run : RunRow) : RunInstanceParams :=
  ⟨run.id,run.sessionId,run.attempt,run.engineVersion,run.traceId⟩

/-- The row a launch may start: not asked to stop, in an open session of an active member. -/
def launchableRun (params : RunInstanceParams) : Option RunRow :=
  p.runs.find? fun r => decide (r.id = params.runId) && !r.stopRequested &&
    p.sessions.any fun s => decide (s.id = r.sessionId) && !s.archived && !s.readOnly &&
      decide (s.ownerId ∈ p.activeMembers)

/-- `runLaunchJob` up to the creation: a run in the attempt of the job goes on. -/
def runLaunchJob (params : RunInstanceParams) (publishDone : Bool) : Result Platform :=
  match launchableRun p params with
  | none => .ok p
  | some run =>
    if !publishDone then .error (.error "run_launch_waiting_for_initial_publish")
    else if run.status = .working ∧ run.attempt = params.attempt then
      .ok { p with starting := p.starting ++ [params] }
    else .ok p

/-- A creation under an id that exists fails, and counts as done. -/
def createRunInstance (params : RunInstanceParams) : Result Platform := do
  let id ← runAttemptInstanceId params.runId params.attempt
  let p := { p with starting := p.starting.erase params }
  if p.instances.any fun i => decide (runAttemptInstanceId i.runId i.attempt = .ok id) then return p
  else return { p with instances := p.instances ++ [params] }

def isPartnerScreeningRun (run : RunRow) : Bool :=
  "partner-screening:".toList.isPrefixOf run.clientTurnId.toList

def isEmailTriageRun (run : RunRow) : Bool :=
  "email-triage:".toList.isPrefixOf run.clientTurnId.toList

/-- `runRecoveryJob` before its admission. `policy` is why proactive work may not start. -/
def recoveryRead (payload : RecoveryPayload) (policy : Option String) : Platform :=
  match loadRecoveryRun p payload.ownerId payload.agentId payload.runId with
  | .error _ => { p with failing := p.failing ++ [(payload,"unknown_run")] }
  | .ok run =>
    if run.attempt ≠ payload.expectedAttempt ∨ run.status ≠ .error ∨ run.recoveryCancelled = true then p
    else if isPartnerScreeningRun run && policy.isSome then
      { p with failing := p.failing ++ [(payload,"automation_disabled")] }
    else { p with recovering := p.recovering ++ [payload] }

/-- The admission of a recovery job. A typed refusal is recorded on the run, and so is the error of
the last delivery; another error leaves the job to be delivered again. -/
def recoveryAdmit (payload : RecoveryPayload) (attempts : ℕ) : Platform :=
  let rest := { p with recovering := p.recovering.erase payload }
  match retryTask c rest payload.ownerId payload.agentId payload.runId (some payload.expectedAttempt)
      true with
  | .ok (p',_) => p'
  | .error (.route e) => { rest with failing := rest.failing ++ [(payload,e.reason)] }
  | .error (.error _) =>
    if attempts < 3 then rest else { rest with failing := rest.failing ++ [(payload,"runtime_unavailable")] }

def recoveryRecord (payload : RecoveryPayload) (reason : String) : Platform :=
  updateRuns { p with failing := p.failing.erase (payload,reason) } payload.runId
    (fun r => decide (r.attempt = payload.expectedAttempt) && decide (r.status = .error))
    fun r => { r with recoveryNextAt := none, recoveryBlockedReason := some reason,
                      recoveryCancelled := true }

end Jobs

section Scan
variable (p : Platform) (includePartnerScreening : Bool)

def dayMilliseconds : ℕ := 86400000

/-- The failed runs that the recovery scan looks at. -/
def scannable (run : RunRow) : Bool :=
  let newest := if isPartnerScreeningRun run then
      includePartnerScreening && !p.runs.any fun r => decide (r.agentId = run.agentId) &&
        isPartnerScreeningRun r && decide (run.createdAt < r.createdAt)
    else !p.runs.any fun r => decide (r.sessionId = run.sessionId) && decide (run.createdAt < r.createdAt)
  decide (run.status = .error) && decide (p.now < run.createdAt + dayMilliseconds) &&
    decide (run.attempt < 3) && !run.stopRequested && !run.recoveryCancelled &&
    run.recoveryNextAt.isNone &&
    (run.recoveryBlockedReason.isNone || decide (run.recoveryBlockedReason = some "payment_result_pending")) &&
    !isEmailTriageRun run && newest &&
    p.sessions.any fun s => decide (s.id = run.sessionId) && !s.archived && !s.readOnly &&
      decide (s.ownerId ∈ p.activeMembers)

def ownerOf (run : RunRow) : UserId :=
  ((p.sessions.find? fun s => s.id = run.sessionId).map (·.ownerId)).getD 0

/-- A `run_recovery` job is unique by run and attempt. -/
def queuedRecovery (run : RunRow) : Bool :=
  p.recoveryJobs.any fun j => decide (j.runId = run.id) && decide (j.expectedAttempt = run.attempt)

/-- What the scan does for one run. -/
def scheduleOne (policy : RunRow → Option String) (p : Platform) (run : RunRow) : Platform :=
  let set := fun f => updateRuns p run.id (fun _ => true) f
  if isPartnerScreeningRun run && (policy run).isSome then p
  else
    match automaticRetryAt run with
    | none => p
    | some due =>
      let safety := safetyOf p run
      if safety.blockedReason.isSome then
        set fun r => { r with recoveryBlockedReason := safety.blockedReason }
      else if !isResponseOnlyRecoveryInput safety.resumeInput then
        set fun r => { r with recoveryNextAt := none, recoveryCancelled := true,
                              recoveryBlockedReason := some "automatic_recovery_requires_response_only" }
      else if queuedRecovery p run then p
      else
        { set fun r => { r with recoveryNextAt := some due, recoveryBlockedReason := none } with
          recoveryJobs := p.recoveryJobs ++ [⟨run.id,run.agentId,ownerOf p run,run.attempt⟩] }

/-- The newest rows first, twenty at most; rows locked elsewhere are skipped. -/
def scheduleRunRecovery (skip : RunId → Bool) (policy : RunRow → Option String) : Platform :=
  let rows := ((p.runs.filter fun r => scannable p includePartnerScreening r && !skip r.id).insertionSort
    fun a b => b.createdAt ≤ a.createdAt).take 20
  rows.foldl (scheduleOne policy) p

end Scan

section Others
variable (p : Platform)

/-- `POST …/runs/:id/retry`: a person repeats the last attempt they saw. `access` is what the session
and its settings answer. -/
def retryRun (c : Checks) (access : Result Unit) (userId : UserId) (sessionId : SessionId)
    (runId : RunId) (expectedAttempt : ℕ) : Result Platform := do
  require (1 ≤ expectedAttempt) "Refresh this task before retrying." "expected_attempt_required" 422
  match p.sessions.find? fun s => s.id = sessionId ∧ s.ownerId = userId with
  | none => refuse "no such session" "unknown_session" 404
  | some session => do
    requireRecoveryAgent p userId session.agentId
    match p.runs.find? fun r => r.id = runId ∧ r.sessionId = sessionId with
    | none => refuse "no such run" "unknown_run" 404
    | some previous =>
      if previous.attempt = expectedAttempt + 1 then return p
      else do
        access
        let (p',run) ← retryTask c p userId session.agentId runId (some expectedAttempt) false
        require (run.sessionId = sessionId) "No such task." "unknown_run" 404
        return p'

/-- The recovery view's cancel. -/
def cancelRetry (userId : UserId) (agentId : AgentId) (runId : RunId) (expectedAttempt : ℕ) :
    Result Platform := do
  requireRecoveryAgent p userId agentId
  let run ← loadRecoveryRun p userId agentId runId
  require (run.attempt = expectedAttempt) "This task has changed. Refresh its status." "stale_attempt" 409
  return updateRuns p run.id (fun _ => true) fun r =>
    { r with recoveryCancelled := true, recoveryNextAt := none }

def requestRunStop (runId : RunId) : Platform :=
  updateRuns p runId (fun r => !r.status.terminal) fun r =>
    { r with stopRequested := true, status := .stopping, recoveryCancelled := true, recoveryNextAt := none }

/-- A revoked key, a removed member or a closed workspace asks a live run to stop. -/
def flagStop (runId : RunId) : Platform :=
  updateRuns p runId (fun r => decide (r.status = .working) || decide (r.status = .waiting)) fun r =>
    { r with stopRequested := true }

/-- The sweep's verdict, on the row as it was read. -/
def sweep (seen : RunRow) (status : RunStatus) (error : Option RunError) : Result Platform := do
  require (decide (seen ∈ p.runs) && !seen.status.terminal &&
    (decide (status = .stopped) || decide (status = .error))) "" "unchanged" 409
  return updateRuns p seen.id (fun r => decide (r = seen)) fun r =>
    { r with status := status, error := error, endedAt := some p.now, stopRequested := true }

/-- The engine's status write. A terminal run stays terminal. -/
def setRunStatus (runId : RunId) (status : RunStatus) (error : Option (Option RunError)) : Platform :=
  updateRuns p runId (fun r => !r.status.terminal) fun r =>
    { r with status := status, error := error.getD r.error,
             endedAt := if status.terminal then some p.now else r.endedAt }

def failAutomaticRecoveryExecution (runId : RunId) (attempt : ℕ) (error : RunError) : Platform :=
  updateRuns p runId (fun r => decide (r.attempt = attempt) && r.automaticRecovery &&
      decide (r.status = .working) && !r.stopRequested) fun r =>
    { r with status := .error, error := some error, endedAt := some p.now, recoveryCancelled := true,
             recoveryNextAt := none, recoveryBlockedReason := error.reason }

/-- The provider asked for a wait. -/
def recordProviderDelay (runId : RunId) (attempt notBefore : ℕ) (blockedReason : Option String) :
    Platform :=
  updateRuns p runId (fun r => decide (r.attempt = attempt)) fun r =>
    { r with recoveryNotBefore := some (max (r.recoveryNotBefore.getD 0) notBefore),
             recoveryBlockedReason := r.recoveryBlockedReason.or blockedReason }

/-- The runtime's names for the attempt, and the request on file for it. -/
def bindRuntime (runId : RunId) (attempt : ℕ) (runtimeRunId : Option String) (authority : Bool) :
    Platform :=
  updateRuns p runId (fun r => decide (r.attempt = attempt) && !r.stopRequested &&
      decide (r.status = .working)) fun r =>
    { r with runtimeRunId := runtimeRunId,
             authorityAttempt := if authority then some attempt else r.authorityAttempt }

/-- A turn is admitted: its run, and its first instance to create. -/
def newTurn (turn : NewTurn) : Result Platform := do
  let instanceId ← runAttemptInstanceId turn.runId 1
  require (p.runs.all fun r => r.id ≠ turn.runId) "" "runs_pkey" 409
  require (p.runs.all fun r => ¬ (r.sessionId = turn.sessionId ∧ r.clientTurnId = turn.clientTurnId))
    "" "runs_client_turn_key" 409
  require (!liveInSession p turn.sessionId turn.runId) "this session already has a run in flight"
    "run_in_flight" 409
  match p.sessions.find? fun s => s.id = turn.sessionId with
  | none => refuse "no such session" "unknown_session" 404
  | some session =>
    let run : RunRow := ⟨turn.runId,turn.sessionId,session.agentId,.working,1,turn.modelId,turn.effort,
      turn.createdAt,turn.clientTurnId,none,none,none,none,false,none,false,turn.engineVersion,turn.traceId,
      some instanceId,none,none,none,false,[]⟩
    return { p with runs := p.runs ++ [run], starting := p.starting ++ [paramsOf run] }

end Others

inductive Event
  | retryRun (c : Checks) (access : Result Unit) (userId : UserId) (sessionId : SessionId)
      (runId : RunId) (expectedAttempt : ℕ)
  /-- The recovery view's retry. -/
  | wakeRetry (c : Checks) (userId : UserId) (agentId : AgentId) (runId : RunId) (expectedAttempt : ℕ)
  | cancelRetry (userId : UserId) (agentId : AgentId) (runId : RunId) (expectedAttempt : ℕ)
  | recoveryRead (payload : RecoveryPayload) (policy : Option String)
  | recoveryAdmit (c : Checks) (payload : RecoveryPayload) (attempts : ℕ)
  | recoveryRecord (payload : RecoveryPayload) (reason : String)
  | scan (includePartnerScreening : Bool) (skip : RunId → Bool) (policy : RunRow → Option String)
  | launch (params : RunInstanceParams) (publishDone : Bool)
  | create (params : RunInstanceParams)
  /-- A submission that finds its run on file starts that run's instance again. -/
  | startAgain (run : RunRow)
  | newTurn (turn : NewTurn)
  | stop (runId : RunId)
  | flagStop (runId : RunId)
  | sweep (seen : RunRow) (status : RunStatus) (error : Option RunError)
  | setRunStatus (runId : RunId) (status : RunStatus) (error : Option (Option RunError))
  | failAutomatic (runId : RunId) (attempt : ℕ) (error : RunError)
  | providerDelay (runId : RunId) (attempt notBefore : ℕ) (blockedReason : Option String)
  | bindRuntime (runId : RunId) (attempt : ℕ) (runtimeRunId : Option String) (authority : Bool)
  | surroundings (next : Surroundings)
  /-- A worker dies between two of its steps. -/
  | dropStart (params : RunInstanceParams)
  | dropRecovery (payload : RecoveryPayload)
  | tick (elapsed : ℕ)

/-- The attempt that a retry repeats, as the person or the job saw it. -/
def Event.expectedAttempt : Event → Option ℕ
  | .retryRun _ _ _ _ _ expectedAttempt => some expectedAttempt
  | .wakeRetry _ _ _ _ expectedAttempt => some expectedAttempt
  | .recoveryAdmit _ payload _ => some payload.expectedAttempt
  | _ => none

def Event.automatic : Event → Bool
  | .recoveryAdmit .. => true
  | _ => false

def requireWorker (there : Bool) : Result Unit := require there "" "no_such_worker" 409

def apply (p : Platform) : Event → Result Platform
  | .retryRun c access userId sessionId runId expectedAttempt =>
    retryRun p c access userId sessionId runId expectedAttempt
  | .wakeRetry c userId agentId runId expectedAttempt =>
    (retryTask c p userId agentId runId (some expectedAttempt) false).map Prod.fst
  | .cancelRetry userId agentId runId expectedAttempt => cancelRetry p userId agentId runId expectedAttempt
  | .recoveryRead payload policy => do
    requireWorker (payload ∈ p.recoveryJobs)
    return recoveryRead p payload policy
  | .recoveryAdmit c payload attempts => do
    requireWorker (payload ∈ p.recovering)
    return recoveryAdmit c p payload attempts
  | .recoveryRecord payload reason => do
    requireWorker ((payload,reason) ∈ p.failing)
    return recoveryRecord p payload reason
  | .scan includePartnerScreening skip policy =>
    .ok (scheduleRunRecovery p includePartnerScreening skip policy)
  | .launch params publishDone => do
    requireWorker (params ∈ p.launchJobs)
    runLaunchJob p params publishDone
  | .create params => do
    requireWorker (params ∈ p.starting)
    createRunInstance p params
  | .startAgain run => do
    requireWorker (run ∈ p.runs)
    return { p with starting := p.starting ++ [paramsOf run] }
  | .newTurn turn => newTurn p turn
  | .stop runId => .ok (requestRunStop p runId)
  | .flagStop runId => .ok (flagStop p runId)
  | .sweep seen status error => sweep p seen status error
  | .setRunStatus runId status error => .ok (setRunStatus p runId status error)
  | .failAutomatic runId attempt error => .ok (failAutomaticRecoveryExecution p runId attempt error)
  | .providerDelay runId attempt notBefore blockedReason =>
    .ok (recordProviderDelay p runId attempt notBefore blockedReason)
  | .bindRuntime runId attempt runtimeRunId authority =>
    .ok (bindRuntime p runId attempt runtimeRunId authority)
  | .surroundings next =>
    .ok { p with agents := next.agents, activeMembers := next.activeMembers, owners := next.owners,
                 sessions := next.sessions, evidence := next.evidence }
  | .dropStart params => .ok { p with starting := p.starting.erase params }
  | .dropRecovery payload => .ok { p with recovering := p.recovering.erase payload }
  | .tick elapsed => .ok { p with now := p.now + elapsed }

def Step : Platform → Event → Platform → Prop := Applied apply

/-- No run was admitted yet. -/
structure Initial (p : Platform) : Prop where
  runs : p.runs = []
  launchJobs : p.launchJobs = []
  recoveryJobs : p.recoveryJobs = []
  starting : p.starting = []
  recovering : p.recovering = []
  failing : p.failing = []
  instances : p.instances = []

def ReachablePlatform : Platform → Prop := Reachable Initial Step

end HermesEnterprise.Recovery
