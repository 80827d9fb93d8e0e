import HermesEnterprise.Foundation.Runs
import HermesEnterprise.Foundation.Tables
import HermesEnterprise.RunLog.Validator

/-! # What an attempt writes

The writes of the in-house engine for one run, whose instance may go on after the sweep or a stop has ended
the run and a retry has admitted another attempt.
-/
namespace HermesEnterprise.Engine
open Foundation.Runs Foundation.Tables
open RunLog (RunStatus)

structure RunError where
  errorClass : String
  retryable : Bool
  reason : String
  message : String
  stepId : Option String
  deriving DecidableEq

structure RunRow where
  status : RunStatus
  attempt : ℕ
  waitingFor : Option String
  waitingLabel : Option String
  error : Option RunError
  endedAt : Option ℕ
  stopRequested : Bool
  activeMs : ℕ
  deriving DecidableEq

inductive MessageStatus
  | streaming
  | complete
  | incomplete
  deriving DecidableEq

/-- An assistant's row of `messages`, with the attempt that wrote it last. -/
structure MessageRow where
  turn : ℕ
  text : String
  blocks : List String
  status : MessageStatus
  workedMs : Option ℕ
  writtenBy : ℕ
  deriving DecidableEq

inductive Role
  | user
  | assistant
  | tool
  deriving DecidableEq

/-- A row of `run_turns`, with the attempt that wrote it. -/
structure TurnRow where
  turn : ℕ
  seq : ℕ
  role : Role
  providerMessage : String
  toolCallId : Option String
  writtenBy : ℕ
  deriving DecidableEq

inductive StepState
  | todo
  | active
  | done
  | failed
  deriving DecidableEq

structure StepRow where
  turn : ℕ
  stepId : String
  label : String
  state : StepState
  toolCallId : Option String
  stepAttempt : ℕ
  deriving DecidableEq

/-- What the database holds of one run. -/
structure Store where
  run : RunRow
  messages : List MessageRow
  turns : List TurnRow
  steps : List StepRow
  events : List (ℕ × String)
  deriving DecidableEq

/-- What may be given with a status: the question that is waited for, and the error. -/
structure StatusDetail where
  waiting : Option (Option String × Option String)
  error : Option (Option RunError)
  deriving DecidableEq

inductive Write
  | setRunStatus (status : RunStatus) (detail : StatusDetail) (now : ℕ)
  | enterStep (turn : ℕ) (stepId label : String) (state : StepState) (toolCallId : Option String)
  | finishStep (turn : ℕ) (stepId : String) (state : StepState)
  | upsertAssistantMessage (turn : ℕ) (text : String) (blocks : List String) (status : MessageStatus) (workedMs : Option ℕ)
  | appendTurn (turn seq : ℕ) (role : Role) (providerMessage : String) (toolCallId : Option String)
  | addActiveMs (ms : ℕ)
  | emit (kind : String)
  deriving DecidableEq

section Writes

/-- A terminal run stays terminal. -/
def setRunStatus (run : RunRow) (status : RunStatus) (detail : StatusDetail) (now : ℕ) : RunRow :=
  if run.status.terminal then run
  else { run with
    status := status
    waitingFor := (detail.waiting.map Prod.fst).getD run.waitingFor
    waitingLabel := (detail.waiting.map Prod.snd).getD run.waitingLabel
    error := detail.error.getD run.error
    endedAt := if status.terminal then some now else run.endedAt }

def enterStep (steps : List StepRow) (turn : ℕ) (stepId label : String) (state : StepState)
    (toolCallId : Option String) : List StepRow :=
  if steps.any fun r => r.turn = turn && r.stepId = stepId then
    updateWhere (fun r => r.turn = turn && r.stepId = stepId)
      (fun r => { r with state := state, stepAttempt := r.stepAttempt + 1 }) steps
  else steps ++ [⟨turn,stepId,label,state,toolCallId,1⟩]

def finishStep (steps : List StepRow) (turn : ℕ) (stepId : String) (state : StepState) : List StepRow :=
  updateWhere (fun r => r.turn = turn && r.stepId = stepId) (fun r => { r with state := state }) steps

/-- One message for each turn, whoever writes it. -/
def upsertAssistantMessage (messages : List MessageRow) (attempt turn : ℕ) (text : String) (blocks : List String)
    (status : MessageStatus) (workedMs : Option ℕ) : List MessageRow :=
  if messages.any fun m => decide (m.turn = turn) then
    updateWhere (fun m => decide (m.turn = turn)) (fun _ => ⟨turn,text,blocks,status,workedMs,attempt⟩) messages
  else messages ++ [⟨turn,text,blocks,status,workedMs,attempt⟩]

/-- `ON CONFLICT DO NOTHING`, on the place and on the tool call. -/
def appendTurn (turns : List TurnRow) (row : TurnRow) : List TurnRow :=
  if turns.any fun r => (r.turn = row.turn && r.seq = row.seq) || (row.toolCallId.isSome && r.toolCallId = row.toolCallId)
  then turns else turns ++ [row]

def Store.write (s : Store) (attempt : ℕ) : Write → Store
  | .setRunStatus status detail now => { s with run := setRunStatus s.run status detail now }
  | .enterStep turn stepId label state toolCallId => { s with steps := enterStep s.steps turn stepId label state toolCallId }
  | .finishStep turn stepId state => { s with steps := finishStep s.steps turn stepId state }
  | .upsertAssistantMessage turn text blocks status workedMs =>
    { s with messages := upsertAssistantMessage s.messages attempt turn text blocks status workedMs }
  | .appendTurn turn seq role providerMessage toolCallId =>
    { s with turns := appendTurn s.turns ⟨turn,seq,role,providerMessage,toolCallId,attempt⟩ }
  | .addActiveMs ms => { s with run := { s.run with activeMs := s.run.activeMs + ms } }
  | .emit kind => { s with events := s.events ++ [(attempt,kind)] }

/-- How an attempt ends a run, write by write. -/
def finish (status : RunStatus) (error : Option RunError) (now : ℕ) : List Write :=
  [.addActiveMs 0,.setRunStatus status ⟨none,some error⟩ now,.emit "run.status"]

end Writes

/-- A write of an attempt's instance; the sweep's verdict on the attempt it has read; a stop; and the
admission of another attempt. -/
inductive Event
  | write (attempt : ℕ) (write : Write)
  | sweep (attempt : ℕ) (error : Option RunError) (now : ℕ)
  | requestRunStop
  | retryTask
  deriving DecidableEq

/-- The sweep ends the run that it has read, unless it has changed since. -/
def sweepEnd (run : RunRow) (error : Option RunError) (now : ℕ) : RunRow :=
  { run with
    status := if error.isSome then .error else .stopped
    error := error
    endedAt := some now
    stopRequested := true }

def admitAttempt (run : RunRow) : RunRow :=
  { run with
    attempt := run.attempt + 1
    status := .working
    stopRequested := false
    error := none
    endedAt := none }

def apply (s : Store) : Event → Option Store
  | .write attempt write => if attempt ≤ s.run.attempt then some (s.write attempt write) else none
  | .sweep attempt error now =>
    if s.run.attempt = attempt ∧ s.run.status.terminal = false then some { s with run := sweepEnd s.run error now } else none
  | .requestRunStop =>
    if s.run.status.terminal then none
    else some { s with run := { s.run with status := .stopping, stopRequested := true } }
  | .retryTask =>
    if s.run.status = .error ∨ s.run.status = .stopped then some { s with run := admitAttempt s.run } else none

/-- A write of an attempt that is no longer the latest. -/
def old (s : Store) : Event → Option (ℕ × Write)
  | .write attempt write => if attempt < s.run.attempt then some (attempt,write) else none
  | _ => none

/-- A write of an older attempt changes nothing of how the run stands, and no message or turn that a later
attempt has written; and a run that has ended goes on only by being retried. -/
structure Undisturbed (s : Store) (e : Event) (t : Store) : Prop where
  run : ∀ attempt write, old s e = some (attempt,write) →
    t.run.status = s.run.status ∧ t.run.error = s.run.error ∧ t.run.waitingFor = s.run.waitingFor ∧
      t.run.endedAt = s.run.endedAt
  messages : ∀ attempt write, old s e = some (attempt,write) → ∀ m ∈ s.messages, attempt < m.writtenBy → m ∈ t.messages
  turns : ∀ attempt write, old s e = some (attempt,write) → ∀ r ∈ s.turns, attempt < r.writtenBy → r ∈ t.turns
  ended : s.run.status.terminal = true → t.run.status ≠ s.run.status → e = .retryTask

/-- A status given by an older attempt finds the run ended, or as it stands already. -/
def statusFits (run : RunRow) (status : RunStatus) (detail : StatusDetail) : Bool :=
  run.status.terminal || (decide (status = run.status) &&
    decide ((detail.waiting.map Prod.fst).getD run.waitingFor = run.waitingFor) &&
    decide (detail.error.getD run.error = run.error))

/-- What an older attempt may write: a status that changes nothing, and a message of a turn that no later
attempt has written. -/
def writeFits (s : Store) (attempt : ℕ) : Write → Bool
  | .setRunStatus status detail _ => statusFits s.run status detail
  | .upsertAssistantMessage turn _ _ _ _ => s.messages.all fun m => m.turn ≠ turn || m.writtenBy ≤ attempt
  | _ => true

def fits (s : Store) (e : Event) : Bool := (old s e).all fun own => writeFits s own.1 own.2

end HermesEnterprise.Engine
