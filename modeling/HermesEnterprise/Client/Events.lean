import HermesEnterprise.Client.Reducer

/-! # Events of a run, as actions

An event that was read before is dropped. A frame of a lower attempt only moves the cursor, and one of a higher attempt
starts that attempt first.
-/
namespace HermesEnterprise.Client
open HermesEnterprise.Inbound

inductive EventBody
  | runStarted (runId : Id) (attempt : ℕ) (clientTurnId : Id) (title : Option Text) (steps : List RunStep)
  | runStatus (runId : Id) (attempt : ℕ) (status : RunStatus) (waitingFor waitingLabel : Option Text) (activeMs : Option ℕ)
      (error : Option RunError)
  | messageReset (frame : Frame) (attempt : ℕ)
  | messageDelta (frame : Frame) (attempt seq : ℕ) (delta : Text)
  | messageFinal (messageId runId : Id) (attempt turn : ℕ) (words : Text) (incomplete : Bool)
  deriving DecidableEq, Repr

structure Event where
  id : ℕ
  at' : ℤ
  body : EventBody
  deriving DecidableEq, Repr

def EventBody.runId : EventBody → Id
  | .runStarted runId _ _ _ _ => runId
  | .runStatus runId _ _ _ _ _ _ => runId
  | .messageReset frame _ => frame.runId
  | .messageDelta frame _ _ _ => frame.runId
  | .messageFinal _ runId _ _ _ _ => runId

def EventBody.attempt : EventBody → ℕ
  | .runStarted _ attempt _ _ _ => attempt
  | .runStatus _ attempt _ _ _ _ _ => attempt
  | .messageReset _ attempt => attempt
  | .messageDelta _ attempt _ _ => attempt
  | .messageFinal _ _ attempt _ _ _ => attempt

/-- A start and a status carry their attempt to the run themselves. -/
def EventBody.carriesAttempt : EventBody → Bool
  | .runStarted _ _ _ _ _ => true
  | .runStatus _ _ _ _ _ _ _ => true
  | _ => false

def startedRun (runId : Id) (attempt : ℕ) (title : Option Text) (steps : List RunStep) (at' : ℤ) : Run :=
  ⟨runId,.working,attempt,title,steps,[],some none,none,none,some at',none,none⟩

/-- The attempt that a frame of it is the first to tell of. -/
def restarted (current : Run) (attempt : ℕ) (at' : ℤ) : Run :=
  { current with attempt := attempt, status := .working, steps := [], queue := [], error := none, startedAt := some at' }

def finalMessage (messageId runId : Id) (words : Text) (incomplete : Bool) : Message :=
  ⟨messageId,maxSafeInteger,.iris,none,words,if incomplete then .incomplete else .complete,some runId,incomplete⟩

def bodyActions (v : View) (at' : ℤ) : EventBody → List Action
  | .runStarted runId attempt clientTurnId title steps =>
    if v.agentId.isNone then [] else [.runStart (startedRun runId attempt title steps at') (some clientTurnId)]
  | .runStatus runId attempt status waitingFor waitingLabel activeMs error =>
    [.runStatus runId status ⟨some attempt,if v.session.run.map (·.attempt) = some attempt then none else some at',
      some waitingFor,some waitingLabel,some activeMs,some error⟩]
  | .messageReset frame _ => [.streamReset frame]
  | .messageDelta frame _ seq delta => [.streamDelta frame delta (some seq)]
  | .messageFinal messageId runId _ turn words incomplete => [.streamFinal (finalMessage messageId runId words incomplete) (some turn)]

def actionsFor (v : View) (event : Event) : List Action :=
  if event.id ≤ v.cursor then []
  else
    let advance := Action.cursorAdvance event.id
    match v.session.run.filter fun current => decide (current.id = event.body.runId) with
    | none => bodyActions v event.at' event.body ++ [advance]
    | some current =>
      if event.body.attempt < current.attempt then [advance]
      else if current.attempt < event.body.attempt && !event.body.carriesAttempt then
        .runStart (restarted current event.body.attempt event.at') none :: bodyActions v event.at' event.body ++ [advance]
      else bodyActions v event.at' event.body ++ [advance]

def applyEvent (v : View) (event : Event) : View := (actionsFor v event).foldl reduce v

end HermesEnterprise.Client
