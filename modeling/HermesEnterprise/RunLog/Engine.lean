import HermesEnterprise.Foundation.Runs
import HermesEnterprise.RunLog.Page

/-! # What the engine publishes

Each event is one publication of the engine, of the routes or of the sweep, with the
state it reads and moves. An attempt publishes nothing after its terminal status;
a retry opens the next attempt. Ids are given in publication order.
-/
namespace HermesEnterprise.RunLog
open Foundation.Runs Foundation.Tables

abbrev SessionId := ℕ

/-- `turn` is the turn whose message the current attempt has open. `guidance` holds what the run
reads before a provider step. -/
structure LiveRun where
  id : RunId
  workspaceId : WorkspaceId
  sessionId : SessionId
  createdAt : ℕ
  status : RunStatus
  attempt : ℕ
  started : Bool
  turn : Option ℕ
  guidance : List MessageId
  deriving DecidableEq, Repr

/-- `waiting` holds guidance kept on its session because no run was live to read it. -/
structure Platform where
  runs : List LiveRun
  stream : List StreamRow
  nextId : ℕ
  waiting : List (WorkspaceId × SessionId × MessageId)

inductive Publication
  /-- A turn is accepted: the run row and the user's message. -/
  | createTurn (messageId : MessageId) (workspaceId : WorkspaceId) (sessionId : SessionId) (now : ℕ)
  | guideRun (guidanceId : MessageId)
  | runStarted
  /-- A provider step is entered, or entered again after a failed try. -/
  | enterStep (turn : ℕ)
  /-- A tool step, active or finished, or another step line of the attempt. -/
  | toolStep
  | flushDelta
  | markGuidanceApplied (guidanceId : MessageId)
  /-- The unread guidance goes back to the session. -/
  | carryGuidance
  /-- The provider step finished its message. -/
  | answered
  /-- The provider step was stopped and kept the partial message. -/
  | interrupted
  /-- The provider step ended without a message: malformed tool arguments. -/
  | malformed
  | park
  | resume
  | requestRunStop
  /-- The terminal status, from the engine or from the sweep. -/
  | finish (status : RunStatus)
  | retryTask
  /-- `run.focus`, `run.queue.updated`. -/
  | other (kind : String)
  deriving DecidableEq, Repr

/-- `ACTIVE_RUN_STATUSES`. -/
def LiveRun.live (run : LiveRun) : Bool := !run.status.terminal

/-- The run after a publication, with what is published. -/
def publish (run : LiveRun) : Publication → Option (LiveRun × List Payload)
  | .createTurn .. => none
  | .guideRun g =>
    if run.live then
      some ({ run with guidance := run.guidance ++ [g] },
        [.appended (some run.id) g (some "guidance")])
    else some (run,[.appended none g (some "guidance")])
  | .runStarted =>
    if run.live then some ({ run with started := true },[.started run.id run.attempt]) else none
  | .enterStep turn =>
    if run.live && run.started then
      some ({ run with turn := some turn },
        [.step run.id run.attempt,.reset run.id turn run.attempt])
    else none
  | .toolStep =>
    if run.live && run.started then some (run,[.step run.id run.attempt]) else none
  | .flushDelta =>
    if run.live then run.turn.map fun turn => (run,[.delta run.id turn run.attempt]) else none
  | .markGuidanceApplied g =>
    if run.live && decide (g ∈ run.guidance) then
      run.turn.map fun turn =>
        ({ run with guidance := run.guidance.filter (· ≠ g) },[.guidanceApplied run.id g turn])
    else none
  | .carryGuidance => some ({ run with guidance := [] },[])
  | .answered =>
    if run.live && run.started then
      run.turn.map fun turn =>
        ({ run with turn := none },[.step run.id run.attempt,.final run.id turn run.attempt])
    else none
  | .interrupted =>
    if run.live then
      run.turn.map fun turn => ({ run with turn := none },[.final run.id turn run.attempt])
    else none
  | .malformed =>
    if run.live && run.started then
      run.turn.map fun _ => ({ run with turn := none },[.step run.id run.attempt])
    else none
  | .park =>
    if run.live then
      some ({ run with status := .waiting },[.status run.id run.attempt .waiting])
    else none
  | .resume =>
    if run.live then
      some ({ run with status := .working },[.status run.id run.attempt .working])
    else none
  | .requestRunStop =>
    if run.live then
      some ({ run with status := .stopping },[.status run.id run.attempt .stopping])
    else none
  | .finish status =>
    if run.live && status.terminal then
      some ({ run with status, turn := none },[.status run.id run.attempt status])
    else none
  | .retryTask =>
    if run.status = .error ∨ run.status = .stopped then
      some ({ run with status := .working, attempt := run.attempt + 1, started := false, turn := none },
        [.status run.id (run.attempt + 1) .working])
    else none
  | .other kind => some (run,[.other (some run.id) kind])

/-- Rows of one transaction, under the next ids. -/
def emit (workspaceId : WorkspaceId) (payloads : List Payload) (p : Platform) : Platform :=
  { p with
    stream := p.stream ++ payloads.zipIdx.map fun x =>
      ⟨workspaceId,p.nextId + x.2,.readable x.1⟩
    nextId := p.nextId + payloads.length }

/-- Guidance that the session kept for the next run. -/
def carried (p : Platform) (workspaceId : WorkspaceId) (sessionId : SessionId) : List MessageId :=
  (p.waiting.filter fun w => w.1 = workspaceId ∧ w.2.1 = sessionId).map (·.2.2)

def createRun (p : Platform) (runId : RunId) (messageId : MessageId) (workspaceId : WorkspaceId)
    (sessionId : SessionId) (now : ℕ) : Platform :=
  emit workspaceId [.appended (some runId) messageId none]
    { p with
      runs := p.runs ++ [⟨runId,workspaceId,sessionId,now,.working,1,false,none,
        carried p workspaceId sessionId⟩] }

/-- The guidance that sessions keep, after a publication. -/
def keptGuidance (run : LiveRun) (waiting : List (WorkspaceId × SessionId × MessageId)) :
    Publication → List (WorkspaceId × SessionId × MessageId)
  | .guideRun g => if run.live then waiting else waiting ++ [(run.workspaceId,run.sessionId,g)]
  | .carryGuidance => waiting ++ run.guidance.map fun g => (run.workspaceId,run.sessionId,g)
  | .markGuidanceApplied g => waiting.filter fun w => w.2.2 ≠ g
  | _ => waiting

/-- The publications of a run that exists. -/
def publishRun (p : Platform) (runId : RunId) (q : Publication) : Option Platform := do
  let run ← p.runs.find? fun r => r.id = runId
  let (run',payloads) ← publish run q
  pure (emit run.workspaceId payloads
    { p with
      runs := updateWhere (fun r => r.id = runId) (fun _ => run') p.runs
      waiting := keptGuidance run p.waiting q })

def Platform.apply (p : Platform) (e : RunId × Publication) : Option Platform :=
  match e.2 with
  | .createTurn messageId workspaceId sessionId now =>
    if p.runs.any (fun r => r.id = e.1) then none
    else some (createRun p e.1 messageId workspaceId sessionId now)
  | q => publishRun p e.1 q

def Platform.empty : Platform := ⟨[],[],0,[]⟩

def Published (p : Platform) (e : RunId × Publication) (p' : Platform) : Prop := p.apply e = some p'

def ReachablePlatform : Platform → Prop := Reachable (fun p => p = .empty) Published

/-- The rows the nightly check reads of the run table. -/
def LiveRun.row (run : LiveRun) : RunRow := ⟨run.id,run.workspaceId,run.createdAt,run.status⟩

end HermesEnterprise.RunLog
