import Mathlib.Data.List.Basic
import HermesEnterprise.Foundation.Runs

/-! # Stop on one run

A Stop is recorded on the row of the run and, by a call of the route after its transaction, in the storage of
the session hub under the id of the run. The native engine reads the copy of the hub with every delta reply,
the Hermes adapter with every checkpoint; both read the row in between. A Retry admits the next attempt on
the same row.
-/
namespace HermesEnterprise.Stops
open Foundation.Runs

inductive RunStatus | working | waiting | stopping | completed | stopped | error
  deriving DecidableEq

/-- `ACTIVE_RUN_STATUSES`. -/
def RunStatus.active : RunStatus → Bool
  | .working | .waiting | .stopping => true
  | .completed | .stopped | .error => false

inductive Engine | native | hermes
  deriving DecidableEq

/-- What the controls read and write of a row of `runs`. -/
structure Row where
  attempt : ℕ
  status : RunStatus := .working
  stopRequested : Bool := false
  deriving DecidableEq

/-- A Workflow instance driving an attempt. `bound` says that its Hermes run was submitted and bound,
`stopped` and `stopFromForward` are the variables of the two engines. -/
structure Instance where
  attempt : ℕ
  engine : Engine
  running : Bool := true
  started : Bool := false
  bound : Bool := false
  stopped : Bool := false
  stopFromForward : Bool := false
  deriving DecidableEq

/-- The calls that `stopRun` makes after its transaction, on the attempt it has read. -/
structure Call where
  attempt : ℕ
  native : Bool
  deriving DecidableEq

/-- One run. `requested` lists the attempts on which a Stop committed while they were active, `ended` the
attempts with the status they ended in and `aborted` the attempts of the provider streams and Hermes runs
that a Stop has aborted. -/
structure System where
  row : Row
  hub : Bool := false
  calls : List Call := []
  instances : List Instance
  requested : List ℕ := []
  ended : List (ℕ × RunStatus) := []
  aborted : List ℕ := []
  deriving DecidableEq

/-- How the stream of the native engine, or the Hermes run, ended. -/
inductive Outcome | completed | cancelled | failed
  deriving DecidableEq

inductive Event
  | stopRun
  | cancelWatch
  | requestStops
  | interrupt (call : ℕ)
  | requestStop (call : ℕ)
  | dropped (call : ℕ)
  | start (i : ℕ)
  | setWorking (i : ℕ)
  | park (i : ℕ)
  | submit (i : ℕ)
  | forward (i : ℕ) (lost : Bool)
  | poll (i : ℕ)
  | finish (i : ℕ) (outcome : Outcome)
  | stopUnsubmitted (i : ℕ)
  | giveUp (i : ℕ)
  | crash (i : ℕ)
  | sweep
  | retryTask (engine : Engine) (expectedAttempt : Option ℕ) (automatic : Bool)
  deriving DecidableEq

/-- The refusals of `retryTask`, and an event that cannot happen in the state. -/
inductive Refusal | staleAttempt | runActive | runCompleted | impossible
  deriving DecidableEq

/-- The run that a turn creates, and the instance launched for it. -/
def admitted (engine : Engine) : System := { row := { attempt := 1 }, instances := [{ attempt := 1, engine := engine }] }

def System.setInstance (s : System) (i : ℕ) (x : Instance) : System :=
  { s with instances := s.instances.set i x }

/-- An aborted provider stream or Hermes run. -/
def System.abort (s : System) (attempt : ℕ) : System := { s with aborted := s.aborted ++ [attempt] }

/-- The instance at work under an index. -/
def System.live (s : System) (i : ℕ) : Option Instance := (s.instances[i]?).filter fun x => x.running && x.started

/-- `setRunStatus`: a terminal run stays terminal, and no attempt is compared. -/
def System.setRunStatus (s : System) (status : RunStatus) : System :=
  if s.row.status.active then
    { s with
      row := { s.row with status := status }
      ended := if status.active then s.ended else s.ended ++ [(s.row.attempt,status)] }
  else s

/-- `finalizeRuntime`: nothing is written for another attempt than the row's. -/
def System.finalizeRuntime (s : System) (attempt : ℕ) (status : RunStatus) : System :=
  if s.row.attempt = attempt then s.setRunStatus status else s

/-- `requestRunStop`, on an active run. -/
def requestRunStop (s : System) : System :=
  { s with
    row := { s.row with status := .stopping, stopRequested := true }
    requested := s.requested ++ [s.row.attempt] }

/-- The Hermes run bound under the attempt of the row. -/
def System.nativeBound (s : System) : Bool := s.instances.any fun x => x.bound && x.attempt == s.row.attempt

/-- The route: the row first, then the calls to the Hermes run and to the hub. -/
def stopRun (s : System) : System :=
  if s.row.status.active then
    { requestRunStop s with calls := s.calls ++ [⟨s.row.attempt,s.nativeBound⟩] }
  else s

/-- A Stop by the removal of a key or a member, a rejected key or a pause of the workspace: the flag alone. -/
def requestStops (s : System) : System :=
  if s.row.status = .working ∨ s.row.status = .waiting then
    { s with
      row := { s.row with stopRequested := true }
      requested := s.requested ++ [s.row.attempt] }
  else s

/-- The first reads of `runAttempt` and `runHermesAttempt`. The adapter stops a Hermes run that is bound
already. -/
def start (s : System) (i : ℕ) (x : Instance) : Except Refusal System :=
  match x.engine with
  | .native =>
    .ok (s.setInstance i { x with
      started := true
      stopped := s.row.stopRequested || s.row.status == .stopping || s.row.status == .stopped })
  | .hermes =>
    if s.row.attempt = x.attempt then
      let t := s.setInstance i { x with started := true, stopped := s.row.stopRequested, stopFromForward := false };
      .ok (if s.row.stopRequested && x.bound then t.abort x.attempt else t)
    else .error .impossible

/-- `bindRun` after the submission: a Hermes run that is not bound is stopped again, and the adapter gives up. -/
def submit (s : System) (i : ℕ) (x : Instance) : System :=
  if s.row.attempt = x.attempt ∧ s.row.stopRequested = false ∧ s.row.status = .working then
    s.setInstance i { x with bound := true }
  else
    let t := (s.finalizeRuntime x.attempt .error).setInstance i { x with running := false };
    if s.row.attempt = x.attempt ∧ s.row.stopRequested = true then t.abort x.attempt else t

/-- `forward` of a delta. The native engine falls back to the row when the hub does not answer, the adapter
fails then. -/
def forward (s : System) (i : ℕ) (x : Instance) (lost : Bool) : System :=
  match x.engine with
  | .native =>
    if (if lost then s.row.stopRequested else s.hub) then
      (s.setInstance i { x with stopped := true }).abort x.attempt
    else s
  | .hermes => if lost || !x.bound then s else s.setInstance i { x with stopFromForward := x.stopFromForward || s.hub }

/-- The reads of the row: before every tool of the native engine, in every round of the control loop of the
adapter. -/
def poll (s : System) (i : ℕ) (x : Instance) : System :=
  match x.engine with
  | .native => if s.row.stopRequested then s.setInstance i { x with stopped := true } else s
  | .hermes =>
    if x.bound && !x.stopped && (x.stopFromForward || s.row.stopRequested) then
      (s.setInstance i { x with stopped := true }).abort x.attempt
    else s

/-- The status that the end of the stream or of the Hermes run leads to. -/
def finalStatus (s : System) (x : Instance) (outcome : Outcome) : RunStatus :=
  match x.engine, outcome with
  | .native, .failed => .error
  | .native, _ => if x.stopped then .stopped else .completed
  | .hermes, .completed => .completed
  | .hermes, .cancelled => .stopped
  | .hermes, .failed => if x.stopped || s.row.stopRequested then .stopped else .error

/-- A Hermes run is cancelled by the stop that it was sent. -/
def finish (s : System) (i : ℕ) (x : Instance) (outcome : Outcome) : Except Refusal System :=
  let status := finalStatus s x outcome;
  let finished := { x with running := false };
  match x.engine with
  | .native => .ok ((s.setRunStatus status).setInstance i finished)
  | .hermes =>
    if x.bound && (outcome != .cancelled || s.aborted.contains x.attempt) then
      .ok ((s.finalizeRuntime x.attempt status).setInstance i finished)
    else .error .impossible

/-- The verdict of the sweep on an active run: Stop is read first, else its instance is taken for dead. -/
def sweep (s : System) : System :=
  let t := s.setRunStatus (if s.row.stopRequested then .stopped else .error);
  { t with row := { t.row with stopRequested := true } }

/-- The next attempt, with the flag of the row taken back. -/
def System.admitNext (s : System) (engine : Engine) : System :=
  { s with
    row := { attempt := s.row.attempt + 1 }
    instances := s.instances ++ [{ attempt := s.row.attempt + 1, engine := engine }] }

def retryTask (s : System) (engine : Engine) (expectedAttempt : Option ℕ) (automatic : Bool) :
    Except Refusal System :=
  if expectedAttempt.any (· != s.row.attempt) then
    if expectedAttempt.any (· + 1 == s.row.attempt) then .ok s else .error .staleAttempt
  else if s.row.status.active then .error .runActive
  else if s.row.status = .completed then .error .runCompleted
  else if automatic && s.row.stopRequested then .ok s
  else .ok (s.admitNext engine)

/-- An event of a live instance. -/
def System.onLive (s : System) (i : ℕ) (f : Instance → Except Refusal System) : Except Refusal System :=
  match s.live i with
  | none => .error .impossible
  | some x => f x

def apply (s : System) : Event → Except Refusal System
  | .stopRun => .ok (stopRun s)
  | .cancelWatch => .ok (if s.row.status.active then requestRunStop s else s)
  | .requestStops => .ok (requestStops s)
  | .interrupt k =>
    match s.calls[k]? with
    | some c =>
      if c.native then .ok ({ s with calls := s.calls.set k ⟨c.attempt,false⟩ }.abort c.attempt) else .error .impossible
    | none => .error .impossible
  | .requestStop k =>
    match s.calls[k]? with
    | some _ => .ok { s with hub := true, calls := s.calls.eraseIdx k }
    | none => .error .impossible
  | .dropped k => .ok { s with calls := s.calls.eraseIdx k }
  | .start i =>
    match (s.instances[i]?).filter (·.running) with
    | none => .error .impossible
    | some x => start s i x
  | .setWorking i => s.onLive i fun x => if x.stopped then .error .impossible else .ok (s.setRunStatus .working)
  | .park i =>
    s.onLive i fun x =>
      if x.stopped || x.engine == .hermes then .error .impossible else .ok (s.setRunStatus .waiting)
  | .submit i =>
    s.onLive i fun x => if x.engine == .hermes && !x.bound && !x.stopped then .ok (submit s i x) else .error .impossible
  | .forward i lost => s.onLive i fun x => .ok (forward s i x lost)
  | .poll i => s.onLive i fun x => .ok (poll s i x)
  | .finish i outcome => s.onLive i fun x => finish s i x outcome
  | .stopUnsubmitted i =>
    s.onLive i fun x =>
      if x.engine == .hermes && x.stopped && !x.bound then
        .ok ((s.setRunStatus .stopped).setInstance i { x with running := false })
      else .error .impossible
  | .giveUp i =>
    s.onLive i fun x =>
      if x.engine == .hermes then
        .ok ((s.finalizeRuntime x.attempt .error).setInstance i { x with running := false })
      else .error .impossible
  | .crash i =>
    match s.instances[i]? with
    | none => .error .impossible
    | some x => .ok (s.setInstance i { x with running := false })
  | .sweep => if s.row.status.active then .ok (sweep s) else .error .impossible
  | .retryTask engine expectedAttempt automatic => retryTask s engine expectedAttempt automatic

end HermesEnterprise.Stops
