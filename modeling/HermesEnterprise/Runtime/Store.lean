import HermesEnterprise.Foundation.Runs
import HermesEnterprise.RunLog.Validator

/-! # The runtime columns of a run

What binds a run to the runtime of its agent. A snapshot holds the agent's advisory lock
from its look at the other runs to its commit; a tool call holds that lock and the lock of
its run's row, which makes it one moment. Every other write is one statement.
-/
namespace HermesEnterprise.Runtime
open Foundation.Runs Foundation.Tables RunLog

abbrev AgentId := String

inductive RuntimeKind
  | legacy | hermes
  deriving DecidableEq, Repr

structure RunRow where
  id : RunId
  agentId : Option AgentId
  status : RunStatus
  attempt : ℕ
  stopRequested : Bool
  createdAt : ℕ
  waitingFor : Option String
  waitingLabel : Option String
  runtimeKind : RuntimeKind
  runtimeProfile : Option String
  runtimeRunId : Option String
  runtimeSessionId : Option String
  runtimeAttempt : Option ℕ
  runtimeRequest : Option String
  runtimeRequestAttempt : Option ℕ
  runtimeStartedAt : Option ℕ
  runtimeWaitStartedAt : Option ℕ
  runtimeWaitMs : ℕ
  deriving DecidableEq, Repr

/-- A run of the current attempt that the runtime may be executing. -/
def active (r : RunRow) : Bool :=
  !r.status.terminal && (r.runtimeAttempt = some r.attempt || r.runtimeRequestAttempt = some r.attempt)

def agentProfile (agentId : AgentId) : String := "agent-" ++ agentId

section Statements
variable (runs : List RunRow)

/-- The other run that keeps an agent busy. -/
def busy (agentId : AgentId) (runId : RunId) : Bool :=
  runs.any fun r => r.agentId = some agentId && r.id ≠ runId && r.runtimeKind = .hermes && active r

/-- The condition of every write for one attempt of a working run. -/
def working (runId : RunId) (attempt : ℕ) (r : RunRow) : Bool :=
  r.id = runId ∧ r.attempt = attempt ∧ r.stopRequested = false ∧ r.status = .working

def snapshotRow (attempt : ℕ) (proposed : String) (now : ℕ) (r : RunRow) : RunRow :=
  let again : Bool := r.runtimeRequestAttempt = some attempt
  { r with
    runtimeKind := .hermes
    runtimeProfile := r.agentId.map agentProfile
    runtimeRequest := if again && r.runtimeRequest.isSome then r.runtimeRequest else some proposed
    runtimeRequestAttempt := some attempt
    runtimeStartedAt := if again then r.runtimeStartedAt.or (some now) else some now
    runtimeWaitStartedAt := if again then r.runtimeWaitStartedAt else none
    runtimeWaitMs := if again then r.runtimeWaitMs else 0 }

/-- Whether a bind applies to a row: no other runtime run is bound for the attempt. -/
def bindable (runId : RunId) (attempt : ℕ) (remoteRunId : String) (r : RunRow) : Bool :=
  working runId attempt r &&
    (r.runtimeAttempt ≠ some attempt || r.runtimeRunId.isNone || r.runtimeRunId = some remoteRunId)

def bindRow (attempt : ℕ) (remoteRunId sessionId profile : String) (r : RunRow) : RunRow :=
  { r with runtimeKind := .hermes, runtimeRunId := some remoteRunId, runtimeSessionId := some sessionId,
           runtimeProfile := some profile, runtimeAttempt := some attempt }

/-- `runs_runtime_identity` and `runs_runtime_profile_matches_agent`: what a bind must not break. -/
def bindAllowed (remoteRunId profile : String) (r : RunRow) : Bool :=
  r.agentId.all (fun a => profile = agentProfile a) &&
    runs.all fun other => other.id = r.id || other.agentId ≠ r.agentId || other.runtimeRunId ≠ some remoteRunId

def findRuntimeRun (remoteRunId : String) (agentId : AgentId) : Option RunRow :=
  runs.find? fun r => r.runtimeKind = .hermes && r.runtimeRunId = some remoteRunId && r.agentId = some agentId &&
    r.runtimeAttempt = some r.attempt

/-- The run that an agent's profile is working on, when it is the only one. -/
def activeProfileRun (agentId : AgentId) : Option RunRow :=
  match runs.filter fun r => r.agentId = some agentId && r.runtimeKind = .hermes &&
      r.runtimeProfile = some (agentProfile agentId) && r.status = .working && !r.stopRequested && active r with
  | [r] => some r
  | _ => none

def mappingPending (agentId : AgentId) : Bool :=
  match activeProfileRun runs agentId with
  | some r => r.runtimeRunId.isNone || r.runtimeAttempt ≠ some r.attempt
  | none => false

/-- The rows whose wait may be written for an attempt. -/
def waitable (runId : RunId) (attempt : ℕ) (r : RunRow) : Bool :=
  r.id = runId ∧ r.attempt = attempt ∧ (r.runtimeRequestAttempt = some attempt ∨ r.runtimeAttempt = some attempt)

def startRuntimeWait (now : ℕ) (runId : RunId) (attempt : ℕ) : List RunRow :=
  updateWhere (fun r => waitable runId attempt r && r.runtimeWaitStartedAt.isNone)
    (fun r => { r with runtimeWaitStartedAt := some now }) runs

/-- Times are milliseconds. -/
def endRuntimeWait (now : ℕ) (runId : RunId) (attempt : ℕ) : List RunRow :=
  updateWhere (fun r => waitable runId attempt r && r.runtimeWaitStartedAt.isSome)
    (fun r => { r with runtimeWaitMs := r.runtimeWaitMs + (now - r.runtimeWaitStartedAt.getD now),
                       runtimeWaitStartedAt := none }) runs

/-- A terminal run stays terminal. What it waits for is written when a detail names it. -/
def setRunStatus (runId : RunId) (status : RunStatus) (detail : Option (Option String × Option String)) :
    List RunRow :=
  updateWhere (fun r => r.id = runId && !r.status.terminal)
    (fun r => { r with status := status, waitingFor := (detail.map Prod.fst).getD r.waitingFor,
                       waitingLabel := (detail.map Prod.snd).getD r.waitingLabel }) runs

/-- `requireActive` for a run that was found by its runtime run. -/
def requireActive (r : RunRow) : Bool :=
  !r.stopRequested && (r.status = .working || r.status = .waiting)

def isOperationApproval (r : RunRow) : Bool :=
  r.waitingFor.any fun key => "operation_approval:".toList.isPrefixOf key.toList

/-- A tool call that waits for a person. -/
def park (now : ℕ) (r : RunRow) (key label : String) : List RunRow :=
  let runs := startRuntimeWait runs now r.id r.attempt
  if r.status ≠ .waiting then setRunStatus runs r.id .waiting (some (some key,some label)) else runs

/-- A tool call whose wait is over. Only a question for context ends a wait of any kind. -/
def resume (now : ℕ) (r : RunRow) (answered : Bool) : List RunRow :=
  if answered || (r.status = .waiting && isOperationApproval r) then
    let runs := endRuntimeWait runs now r.id r.attempt
    if r.status = .waiting then setRunStatus runs r.id .working (some (none,none)) else runs
  else runs

/-- `finalizeRuntime` around what ends the run. -/
def finalizeRuntime (runId : RunId) (attempt : ℕ) (status : RunStatus) : List RunRow :=
  match runs.find? fun r => r.id = runId with
  | some r =>
    if r.attempt ≠ attempt || r.status.terminal then runs else setRunStatus runs runId status (some (none,none))
  | none => runs

/-- The next attempt of a run that has ended. -/
def retryTask (runId : RunId) : List RunRow :=
  updateWhere (fun r => r.id = runId && r.status.terminal)
    (fun r => { r with attempt := r.attempt + 1, status := .working, stopRequested := false }) runs

def requestRunStop (runId : RunId) : List RunRow :=
  updateWhere (fun r => r.id = runId && !r.status.terminal)
    (fun r => { r with stopRequested := true, status := .stopping }) runs

def flagStop (runId : RunId) : List RunRow :=
  updateWhere (fun r => r.id = runId) (fun r => { r with stopRequested := true }) runs

end Statements

/-- A snapshot that holds its agent's lock. -/
structure SnapshotCall where
  runId : RunId
  attempt : ℕ
  proposed : String
  deriving DecidableEq, Repr

/-- `returned` are the snapshots that returned. -/
structure World where
  runs : List RunRow
  locks : AgentId → Option SnapshotCall
  returned : List (RunId × ℕ)

inductive Event
  | inserts (id : RunId) (agentId : Option AgentId) (status : RunStatus) (attempt createdAt : ℕ)
  | snapshots (runId : RunId) (attempt : ℕ) (proposed : String)
  | writes (agentId : AgentId) (now : ℕ)
  | abandons (agentId : AgentId)
  | binds (runId : RunId) (attempt : ℕ) (remoteRunId sessionId profile : String)
  | parks (agentId : AgentId) (remoteRunId key label : String) (now : ℕ)
  | resumes (agentId : AgentId) (remoteRunId : String) (answered : Bool) (now : ℕ)
  | finalizes (runId : RunId) (attempt : ℕ) (status : RunStatus)
  | setsStatus (runId : RunId) (status : RunStatus)
  | stops (runId : RunId)
  | flags (runId : RunId)
  | retries (runId : RunId)
  deriving DecidableEq, Repr

section Steps
variable (w : World)

def setLock (agentId : AgentId) (call : Option SnapshotCall) : World :=
  { w with locks := fun a => if a = agentId then call else w.locks a }

/-- The run of a tool call that passes `requireActive` while no snapshot holds the agent's lock. -/
def toolRun (agentId : AgentId) (remoteRunId : String) : Option RunRow :=
  if (w.locks agentId).isNone then (findRuntimeRun w.runs remoteRunId agentId).filter requireActive else none

def apply : Event → Except Unit World
  | .inserts id agentId status attempt createdAt =>
    if w.runs.any fun r => r.id = id then .error ()
    else .ok { w with runs := w.runs ++ [⟨id,agentId,status,attempt,false,createdAt,none,none,.legacy,none,none,none,
      none,none,none,none,none,0⟩] }
  | .snapshots runId attempt proposed =>
    match (w.runs.find? fun r => r.id = runId).bind (·.agentId) with
    | some agentId =>
      if (w.locks agentId).isNone && !busy w.runs agentId runId then
        .ok (setLock w agentId (some ⟨runId,attempt,proposed⟩))
      else .error ()
    | none => .error ()
  | .writes agentId now =>
    match w.locks agentId with
    | some call =>
      if w.runs.any (working call.runId call.attempt) then
        let rows := updateWhere (working call.runId call.attempt) (snapshotRow call.attempt call.proposed now) w.runs
        .ok { setLock w agentId none with runs := rows, returned := (call.runId,call.attempt) :: w.returned }
      else .ok (setLock w agentId none)
    | none => .error ()
  | .abandons agentId => .ok (setLock w agentId none)
  | .binds runId attempt remoteRunId sessionId profile =>
    if (runId,attempt) ∈ w.returned then
      if w.runs.all fun r => !bindable runId attempt remoteRunId r || bindAllowed w.runs remoteRunId profile r then
        let rows := updateWhere (bindable runId attempt remoteRunId) (bindRow attempt remoteRunId sessionId profile) w.runs
        .ok { w with runs := rows }
      else .error ()
    else .error ()
  | .parks agentId remoteRunId key label now =>
    match toolRun w agentId remoteRunId with
    | some r => .ok { w with runs := park w.runs now r key label }
    | none => .error ()
  | .resumes agentId remoteRunId answered now =>
    match toolRun w agentId remoteRunId with
    | some r => .ok { w with runs := resume w.runs now r answered }
    | none => .error ()
  | .finalizes runId attempt status => .ok { w with runs := finalizeRuntime w.runs runId attempt status }
  | .setsStatus runId status => .ok { w with runs := setRunStatus w.runs runId status none }
  | .stops runId => .ok { w with runs := requestRunStop w.runs runId }
  | .flags runId => .ok { w with runs := flagStop w.runs runId }
  | .retries runId => .ok { w with runs := retryTask w.runs runId }

def Step : World → Event → World → Prop := Applied apply

def Initial : Prop := w.runs = [] ∧ (∀ agentId, w.locks agentId = none) ∧ w.returned = []

/-- The run and the attempt that a bind, a snapshot, a wait or a finalization is issued for. -/
def issuedFor : Event → Option (RunId × ℕ)
  | .writes agentId _ => (w.locks agentId).map fun call => (call.runId,call.attempt)
  | .binds runId attempt _ _ _ => some (runId,attempt)
  | .parks agentId remoteRunId _ _ _ => (toolRun w agentId remoteRunId).map fun r => (r.id,r.attempt)
  | .resumes agentId remoteRunId _ _ => (toolRun w agentId remoteRunId).map fun r => (r.id,r.attempt)
  | .finalizes runId attempt _ => some (runId,attempt)
  | _ => none

/-- At most one run of an agent is executed. -/
def OneActive : Prop :=
  ∀ agentId, ∀ r ∈ w.runs, ∀ r' ∈ w.runs, r.agentId = some agentId → r'.agentId = some agentId →
    active r = true → active r' = true → r = r'

/-- What is issued for an attempt leaves the run alone once a later attempt began or the run ended. -/
def Fenced (e : Event) (w' : World) : Prop :=
  ∀ runId attempt, issuedFor w e = some (runId,attempt) → ∀ r ∈ w.runs, r.id = runId →
    attempt < r.attempt ∨ r.status.terminal = true → r ∈ w'.runs

end Steps
end HermesEnterprise.Runtime
