import HermesEnterprise.Foundation.Tables
import Mathlib.Data.List.Infix

/-! # The run-log validator

It reads a sequence of stream events and reports each row that a client could not
have rendered. Events carry the payload fields that the validator or the producers
read. A row that does not parse as an envelope is kept with its parse error.
-/
namespace HermesEnterprise.RunLog
open Foundation.Tables

abbrev RunId := String
abbrev MessageId := String

inductive RunStatus
  | working | waiting | stopping | stopped | error | completed
  deriving DecidableEq, Repr

def RunStatus.text : RunStatus → String
  | working => "working"
  | waiting => "waiting"
  | stopping => "stopping"
  | stopped => "stopped"
  | error => "error"
  | completed => "completed"

/-- `TERMINAL`. -/
def RunStatus.terminal : RunStatus → Bool
  | stopped | error | completed => true
  | working | waiting | stopping => false

inductive Payload
  | started (runId : RunId) (attempt : ℕ)
  | step (runId : RunId) (attempt : ℕ)
  | status (runId : RunId) (attempt : ℕ) (status : RunStatus)
  | guidanceApplied (runId : RunId) (guidanceId : MessageId) (turn : ℕ)
  | appended (runId : Option RunId) (messageId : MessageId) (kind : Option String)
  | delta (runId : RunId) (turn attempt : ℕ)
  | reset (runId : RunId) (turn attempt : ℕ)
  | final (runId : RunId) (turn attempt : ℕ)
  | other (runId : Option RunId) (kind : String)
  deriving DecidableEq, Repr

def Payload.kind : Payload → String
  | started .. => "run.started"
  | step .. => "run.step"
  | status .. => "run.status"
  | guidanceApplied .. => "run.guidance.applied"
  | appended .. => "message.appended"
  | delta .. => "message.delta"
  | reset .. => "message.reset"
  | final .. => "message.final"
  | other _ kind => kind

/-- `payload->>'run_id'`. -/
def Payload.runId : Payload → Option RunId
  | started r _ | step r _ | status r _ _ | guidanceApplied r _ _ => some r
  | delta r _ _ | reset r _ _ | final r _ _ => some r
  | appended r _ _ | other r _ => r

inductive Content
  | readable (payload : Payload)
  | unreadable (runId : Option RunId) (kind message : String)
  deriving DecidableEq, Repr

structure Entry where
  id : ℕ
  content : Content
  deriving DecidableEq, Repr

inductive Rule
  | schema | monotonicId | stepAfterStopped | duplicateFinal | missingFinal
  | guidanceBeforeRecord | eventBeforeStart | deltaAfterFinal | statusAfterTerminal
  deriving DecidableEq, Repr

/-- `index` is `none` for a finding about the whole log. -/
structure RunLogViolation where
  index : Option ℕ
  id : Option ℕ
  kind : String
  rule : Rule
  message : String
  deriving DecidableEq, Repr

structure RunLogOptions where
  requireFinalPerTurn : Bool
  knownGuidanceIds : List MessageId

structure RunState where
  started : Bool
  status : Option RunStatus
  finals : List ℕ
  deltaTurns : List ℕ
  finalizedTurns : List ℕ
  deriving DecidableEq, Repr

def RunState.blank : RunState := ⟨false,none,[],[],[]⟩

/-- `Set.add`: a present element keeps its place. -/
def addTurn (turn : ℕ) (turns : List ℕ) : List ℕ := if turn ∈ turns then turns else turns ++ [turn]

def deleteTurn (turn : ℕ) (turns : List ℕ) : List ℕ := turns.filter fun t => t ≠ turn

@[simp, grind =] theorem mem_addTurn {t turn : ℕ} {turns : List ℕ} :
    t ∈ addTurn turn turns ↔ t ∈ turns ∨ t = turn := by
  unfold addTurn
  split <;> simp
  rintro rfl
  assumption

@[simp, grind =] theorem mem_deleteTurn {t turn : ℕ} {turns : List ℕ} :
    t ∈ deleteTurn turn turns ↔ t ∈ turns ∧ t ≠ turn := by simp [deleteTurn]

/-- What the validator remembers between events. -/
structure LogState where
  runs : List (RunId × RunState)
  guidance : List MessageId
  lastId : Option ℕ

section Functions
variable (s : LogState) (index : ℕ)

/-- The state of a run, blank for one not seen. -/
def runOf (runId : RunId) : RunState :=
  ((s.runs.find? fun r => r.1 = runId).map (·.2)).getD .blank

def setRun (runId : RunId) (f : RunState → RunState) : LogState :=
  { s with
    runs := if s.runs.any (fun r => r.1 = runId)
      then updateWhere (fun r => r.1 = runId) (fun r => (r.1,f r.2)) s.runs
      else s.runs ++ [(runId,f .blank)] }

def violation (id : ℕ) (p : Payload) (rule : Rule) (message : String) : RunLogViolation :=
  ⟨some index,some id,p.kind,rule,message⟩

/-- Rule 1: ids strictly increase. -/
def idFaults (id : ℕ) (p : Payload) : List RunLogViolation :=
  match s.lastId with
  | some last =>
    if id ≤ last then
      [violation index id p .monotonicId
        ("id " ++ toString id ++ " does not exceed the previous id " ++ toString last)]
    else []
  | none => []

/-- What the rules hold against an event, given what came before. -/
def faults (id : ℕ) (p : Payload) : List RunLogViolation :=
  match p with
  | .step r _ =>
    (if (runOf s r).started then [] else
      [violation index id p .eventBeforeStart ("run.step before run.started for " ++ r)]) ++
    match (runOf s r).status with
    | some status =>
      if status.terminal then
        [violation index id p .stepAfterStopped ("run.step after the run reached " ++ status.text)]
      else []
    | none => []
  | .status r _ new =>
    match (runOf s r).status with
    | some status =>
      if status.terminal && decide (new ≠ status) then
        [violation index id p .statusAfterTerminal
          ("status " ++ new.text ++ " after the terminal status " ++ status.text)]
      else []
    | none => []
  | .guidanceApplied _ g _ =>
    if g ∈ s.guidance then [] else
      [violation index id p .guidanceBeforeRecord
        ("guidance " ++ g ++ " applied before it was recorded")]
  | .delta r turn _ =>
    if turn ∈ (runOf s r).finalizedTurns then
      [violation index id p .deltaAfterFinal
        ("delta for turn " ++ toString turn ++ " after message.final")]
    else []
  | .final r turn _ =>
    if turn ∈ (runOf s r).finals then
      [violation index id p .duplicateFinal
        ("a second message.final for turn " ++ toString turn)]
    else []
  | .started .. | .appended .. | .reset .. | .other .. => []

/-- What the validator keeps of an event. -/
def learn : Payload → LogState
  | .started r _ => setRun s r fun run => { run with started := true }
  | .step r _ => setRun s r id
  | .status r _ new => setRun s r fun run => { run with status := some new }
  | .appended _ m kind =>
    { s with
      guidance := if kind = some "guidance" ∧ m ∉ s.guidance then s.guidance ++ [m]
        else s.guidance }
  | .delta r turn _ => setRun s r fun run => { run with deltaTurns := addTurn turn run.deltaTurns }
  | .reset r turn _ => setRun s r fun run =>
    { run with
      finals := deleteTurn turn run.finals
      finalizedTurns := deleteTurn turn run.finalizedTurns }
  | .final r turn _ => setRun s r fun run =>
    { run with
      finals := addTurn turn run.finals
      finalizedTurns := addTurn turn run.finalizedTurns }
  | .guidanceApplied .. | .other .. => s

def readId (id : ℕ) : LogState :=
  { s with lastId := some (s.lastId.elim id (max id)) }

/-- The findings about one row. -/
def entryFaults (e : Entry) : List RunLogViolation :=
  match e.content with
  | .unreadable _ kind message => [⟨some index,none,kind,.schema,message⟩]
  | .readable p => idFaults s index e.id p ++ faults s index e.id p

def readEntry (e : Entry) : LogState :=
  match e.content with
  | .unreadable .. => s
  | .readable p => learn (readId s e.id) p

end Functions

/-- The loop of the validator, with the findings so far. -/
def visit (acc : LogState × List RunLogViolation) (e : Entry × ℕ) :
    LogState × List RunLogViolation :=
  (readEntry acc.1 e.1,acc.2 ++ entryFaults acc.1 e.2 e.1)

def scan (known : List MessageId) (events : List Entry) : LogState × List RunLogViolation :=
  events.zipIdx.foldl visit (⟨[],known,none⟩,[])

def missingFinals (runs : List (RunId × RunState)) : List RunLogViolation :=
  runs.flatMap fun run => (run.2.deltaTurns.filter (· ∉ run.2.finals)).map fun turn =>
    ⟨none,none,"message.final",.missingFinal,
      "run " ++ run.1 ++ " turn " ++ toString turn ++ " streamed deltas but never finalised"⟩

structure RunLogResult where
  violations : List RunLogViolation
  runs : List (RunId × (List ℕ × Option RunStatus))

def RunLogResult.ok (r : RunLogResult) : Bool := r.violations.isEmpty

def validateRunLog (events : List Entry) (options : RunLogOptions) : RunLogResult :=
  let s := scan options.knownGuidanceIds events
  ⟨s.2 ++ if options.requireFinalPerTurn then missingFinals s.1.runs else [],
    s.1.runs.map fun run => (run.1,run.2.finals,run.2.status)⟩

end HermesEnterprise.RunLog
