import HermesEnterprise.Inbound.Text
import Mathlib.Data.List.Sort

/-! # A session in the client's store

What the reducer keeps of one session: the transcript, the turn that is on its way, the run on display, and the text
that streams in, with the fences that authoritative finals leave behind.
-/
namespace HermesEnterprise.Client
open HermesEnterprise.Inbound

abbrev Id := Text

section Rows

inductive RunStatus
  | working | waiting | stopping | stopped | error | completed
  deriving DecidableEq, Repr

def RunStatus.word : RunStatus → Text
  | .working => text "working"
  | .waiting => text "waiting"
  | .stopping => text "stopping"
  | .stopped => text "stopped"
  | .error => text "error"
  | .completed => text "completed"

def terminalRun (status : RunStatus) : Bool := [RunStatus.completed,.stopped,.error].contains status

inductive StepState
  | todo | active | done | failed
  deriving DecidableEq, Repr

structure RunStep where
  id : Id
  label : Text
  state : StepState
  deriving DecidableEq, Repr

structure RunQueueItem where
  id : Id
  text : Text
  deriving DecidableEq, Repr

inductive GuidanceStatus
  | pending | applied
  deriving DecidableEq, Repr

structure Guidance where
  id : Id
  text : Text
  status : GuidanceStatus
  deriving DecidableEq, Repr

structure RunError where
  class' : Text
  reason : Text
  message : Text
  retryable : Bool
  deriving DecidableEq, Repr

/-- Times are instants. Of `guidance` the outer option tells whether the field is there. -/
structure Run where
  id : Id
  status : RunStatus
  attempt : ℕ
  title : Option Text
  steps : List RunStep
  queue : List RunQueueItem
  guidance : Option (Option Guidance)
  waitingFor : Option Text
  waitingLabel : Option Text
  startedAt : Option ℤ
  activeMs : Option ℕ
  error : Option RunError
  deriving DecidableEq, Repr

inductive MessageRole
  | user | iris | human | system
  deriving DecidableEq, Repr

inductive MessageStatus
  | streaming | complete | incomplete
  deriving DecidableEq, Repr

structure Message where
  id : Id
  seq : ℕ
  role : MessageRole
  kind : Option Text
  text : Text
  status : MessageStatus
  runId : Option Id
  incomplete : Bool
  deriving DecidableEq, Repr

end Rows

section State

inductive StreamStatus
  | streaming | complete | incomplete
  deriving DecidableEq, Repr

/-- `durableText` comes from committed deltas. Previews never advance `seq`. -/
structure StreamAccumulator where
  runId : Id
  turn : ℕ
  stepAttempt : ℕ
  text : Text
  durableText : Text
  seq : Option ℤ
  status : StreamStatus
  deriving DecidableEq, Repr

structure PendingTurn where
  clientTurnId : Id
  runId : Option Id
  message : Message
  previousStatus : Text
  previousRun : Option Run
  deriving DecidableEq, Repr

structure Session where
  status : Text
  messages : List Message
  pendingTurn : Option PendingTurn
  run : Option Run
  stream : Option StreamAccumulator
  streamFences : List (Id × ℕ)
  deriving DecidableEq, Repr

def maxStreamFences : ℕ := 64

def fenceOf (fences : List (Id × ℕ)) (runId : Id) : Option ℕ := (fences.find? fun fence => fence.1 = runId).map (·.2)

/-- The entry moves to the end. The oldest ones go when there are too many. -/
def addStreamFence (fences : List (Id × ℕ)) (runId : Id) (turn : ℕ) : List (Id × ℕ) :=
  let next := (fences.filter fun fence => fence.1 ≠ runId) ++ [(runId,max ((fenceOf fences runId).getD 0) turn)]
  next.drop (next.length - maxStreamFences)

/-- `(fences[runId] ?? -1) >= turn`. -/
def fenced (s : Session) (runId : Id) (turn : ℕ) : Bool := (fenceOf s.streamFences runId).any fun value => decide (turn ≤ value)

end State

section Turns

/-- A turn id is proof of the turn. A snapshot has none, and is believed once the run is known. -/
def confirmsPendingTurn (pending : Option PendingTurn) (message : Message) (clientTurnId : Option Id) : Bool :=
  match pending with
  | none => false
  | some pending =>
    if message.role ≠ .user then false
    else match clientTurnId.filter fun id => !id.isEmpty with
      | some clientTurnId => decide (clientTurnId = pending.clientTurnId)
      | none => pending.runId.isSome && decide (message.runId = pending.runId) && message.kind.isNone &&
          decide (message.text = pending.message.text)

def admitPendingTurn (s : Session) (runId : Id) : Option PendingTurn :=
  match s.pendingTurn with
  | none => none
  | some turn =>
    let pending := { turn with runId := some runId, message := { turn.message with runId := some runId } }
    if s.messages.any fun message => confirmsPendingTurn (some pending) message none then none else some pending

/-- The earlier of two times, where both are known. -/
def earliest : Option ℤ → Option ℤ → Option ℤ
  | some a,some b => some (min a b)
  | some a,none => some a
  | none,b => b

def mergeRun (current : Option Run) (incoming : Run) (sameTurn : Bool) : Run :=
  match current with
  | none => incoming
  | some current =>
    if (!sameTurn && decide (current.id ≠ incoming.id)) || decide (current.attempt < incoming.attempt) then incoming
    else if incoming.attempt < current.attempt then current
    else
      let merged := { incoming with startedAt := earliest current.startedAt incoming.startedAt }
      if terminalRun current.status && !terminalRun incoming.status then
        { merged with status := current.status, error := current.error, activeMs := current.activeMs }
      else merged

end Turns
end HermesEnterprise.Client
