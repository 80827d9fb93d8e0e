import HermesEnterprise.Foundation.Runs
import HermesEnterprise.Sweep.Verdict

/-! # Passes of the sweep among other writers

Any number of passes run at once. A pass reads, looks one run up, begins a transaction,
and settles what it concluded; others change runs at any time between. The lock that
`settle` takes on the run's row makes each settlement one moment.
-/
namespace HermesEnterprise.Sweep
open Foundation.Runs RunLog

abbrev PassId := ℕ

inductive Stage
  | looking
  | concluded (verdict : Verdict)
  /-- The transaction began at this time. -/
  | writing (verdict : Verdict) (now : ℕ)
  deriving DecidableEq, Repr

/-- `todo` are the runs still to settle, the one at hand first. -/
structure Pass where
  currentEngineVersion : ℕ
  todo : List LiveRun
  stage : Stage
  checked : ℕ
  errored : ℕ
  stopped : ℕ
  deriving DecidableEq, Repr

inductive Entry
  /-- A pass whose transaction began at `now` read this row. -/
  | read (pass : PassId) (now : ℕ) (row : RunRow)
  /-- A confirmed absence was recorded. -/
  | missing (observation : Observation)
  /-- Another observation of the run was recorded. -/
  | seen (runId : RunId)
  deriving DecidableEq, Repr

/-- `log` is what the passes committed, the oldest first. -/
structure World where
  clock : ℕ
  db : Tables
  passes : PassId → Option Pass
  log : List Entry

inductive Event
  | tick (elapsed : ℕ)
  /-- Another writer leaves a run's row so, or takes it away. -/
  | change (row : RunRow)
  | remove (runId : RunId)
  | reads (pass : PassId) (currentEngineVersion now : ℕ)
  | looks (pass : PassId) (instanceStatus : Lookup)
  | begins (pass : PassId)
  | settles (pass : PassId)
  | fails (pass : PassId)
  deriving DecidableEq, Repr

/-- The steps of passes. -/
def Event.swept : Event → Bool
  | .tick _ | .change _ | .remove _ => false
  | _ => true

section Steps
variable (w : World)

def setPass (pass : PassId) (p : Option Pass) : World :=
  { w with passes := fun k => if k = pass then p else w.passes k }

def setRun (runs : List RunRow) (row : RunRow) : List RunRow :=
  if runs.any fun r => r.id = row.id then runs.map fun r => if r.id = row.id then row else r else runs ++ [row]

def readEntries (pass : PassId) (now : ℕ) (rows : List RunRow) : List Entry := rows.map (.read pass now)

/-- What one settlement records of the run. -/
def recorded (now : ℕ) (db : Tables) (run : LiveRun) (verdict : Verdict) : List Entry :=
  if db.runs.any (unchanged run) then
    match verdict with
    | .missing =>
      [.missing ⟨run.id,run.attempt,run.workflowInstanceId,run.status,run.progressAt,now⟩]
    | _ => [.seen run.id]
  else []

/-- The pass goes on with its next run. -/
def Pass.next (p : Pass) (rest : List LiveRun) (status : Option RunStatus) : Pass :=
  { p with
    todo := rest
    stage := .looking
    errored := if status = some .error then p.errored + 1 else p.errored
    stopped := if status = some .stopped then p.stopped + 1 else p.stopped }

def apply : Event → Except Unit World
  | .tick elapsed => .ok { w with clock := w.clock + elapsed }
  | .change row => .ok { w with db := { w.db with runs := setRun w.db.runs row } }
  | .remove runId =>
    -- the observation goes with its run
    .ok { w with db := ⟨w.db.runs.filter fun r => r.id ≠ runId,
                        w.db.observations.filter fun o => o.runId ≠ runId⟩ }
  | .reads pass currentEngineVersion now =>
    match w.passes pass with
    | none =>
      if now ≤ w.clock then
        let rows := liveRuns w.db.runs
        .ok { setPass w pass (some ⟨currentEngineVersion,rows.map (liveRun now),.looking,0,0,0⟩) with
          log := w.log ++ readEntries pass now rows }
      else .error ()
    | some _ => .error ()
  | .looks pass instanceStatus =>
    match w.passes pass with
    | some p =>
      match p.todo, p.stage with
      | run :: _, .looking =>
        .ok (setPass w pass (some { p with
          stage := .concluded (verdictFor run p.currentEngineVersion instanceStatus), checked := p.checked + 1 }))
      | _, _ => .error ()
    | none => .error ()
  | .begins pass =>
    match w.passes pass with
    | some p =>
      match p.stage with
      | .concluded verdict => .ok (setPass w pass (some { p with stage := .writing verdict w.clock }))
      | _ => .error ()
    | none => .error ()
  | .settles pass =>
    match w.passes pass with
    | some p =>
      match p.todo, p.stage with
      | run :: rest, .writing verdict now =>
        let settled := settle now w.db run verdict
        .ok { setPass w pass (some (p.next rest settled.2)) with
          db := settled.1, log := w.log ++ recorded now w.db run verdict }
      | _, _ => .error ()
    | none => .error ()
  | .fails pass =>
    match w.passes pass with
    | some _ => .ok (setPass w pass (some ⟨0,[],.looking,0,0,0⟩))
    | none => .error ()

def Step : World → Event → World → Prop := Applied apply

/-- Runs with distinct ids, and no pass yet. -/
def Initial : Prop :=
  (w.db.runs.map (·.id)).Nodup ∧ w.db.observations = [] ∧ (∀ pass, w.passes pass = none) ∧ w.log = []

end Steps

section Deserved
variable (w w' : World) (e : Event) (row row' : RunRow)

/-- A pass changed this row for a reason: its own reading of the row still held, and what the pass
concluded from it ended the run. -/
structure Deserved : Prop where
  /-- The row is as the pass read it. -/
  read : ∃ pass now read, e = .settles pass ∧ .read pass now read ∈ w.log ∧ row.id = read.id ∧
    row.attempt = read.attempt ∧ row.workflowInstanceId = read.workflowInstanceId ∧ row.status = read.status ∧
    row.updatedAt = read.updatedAt ∧ row.stopRequested = read.stopRequested ∧ row.engineVersion = read.engineVersion
  live : row.status.terminal = false
  stopped : row'.status = if row.stopRequested then .stopped else .error
  /-- What is not ended stays. -/
  kept : row'.id = row.id ∧ row'.sessionId = row.sessionId ∧ row'.attempt = row.attempt ∧
    row'.engineVersion = row.engineVersion ∧ row'.workflowInstanceId = row.workflowInstanceId
  /-- Outside the start-up grace, unless the run should stop or runs another engine. -/
  grace : row.stopRequested = true ∨
    (∃ pass p, e = .settles pass ∧ w.passes pass = some p ∧ row.engineVersion ≠ p.currentEngineVersion) ∨
    row.updatedAt + startupGrace ≤ w.clock
  /-- An absence is recorded twice, far enough apart, and no other observation between. -/
  confirmed : ∀ reason, row'.error = some reason → reason.reason = "instance_missing" →
    ∃ before between first last, w.log = before ++ .missing first :: between ∧ .seen row.id ∉ between ∧
      w'.log = w.log ++ [.missing last] ∧ first.firstMissingAt + missingConfirm ≤ last.firstMissingAt ∧
      ∀ o ∈ [first,last], o.runId = row.id ∧ o.attempt = row.attempt ∧
        o.workflowInstanceId = row.workflowInstanceId ∧ o.runStatus = row.status ∧ o.progressAt = row.updatedAt

end Deserved
end HermesEnterprise.Sweep
