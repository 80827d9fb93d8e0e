import HermesEnterprise.Foundation.Runs
import HermesEnterprise.Foundation.Tables
import HermesEnterprise.RunLog.Validator

/-! # The run queue

A message that a person queues behind a run waits in `run_queue` until a pass of the Cron makes
a run of it. The controls lock the run's row, so each is one step here. A pass is one transaction
of many statements under READ COMMITTED: it looks at the queue once, and commits what it started
together.
-/
namespace HermesEnterprise.RunQueue
open Foundation.Runs Foundation.Tables RunLog

abbrev SessionId := String
abbrev ItemId := String
abbrev PassId := ℕ

structure Session where
  id : SessionId
  readOnly : Bool
  deriving DecidableEq, Repr

structure RunRow where
  id : RunId
  sessionId : SessionId
  status : RunStatus
  clientTurnId : String
  stopRequested : Bool
  deriving DecidableEq, Repr

inductive ItemStatus
  | queued | paused | sent | removed
  deriving DecidableEq, Repr

/-- A row of `run_queue`. The position is counted within its run. -/
structure Item where
  id : ItemId
  runId : RunId
  sessionId : SessionId
  text : String
  status : ItemStatus
  position : ℕ
  deriving DecidableEq, Repr

/-- The user message that starts a run. -/
structure Message where
  sessionId : SessionId
  runId : RunId
  text : String
  deriving DecidableEq, Repr

/-- The row of `run_turns` at turn 0 and seq 0. -/
structure FirstTurn where
  runId : RunId
  text : String
  deriving DecidableEq, Repr

/-- The item as it was read, and the run made of it. -/
structure Started where
  item : Item
  runId : RunId
  deriving DecidableEq, Repr

/-- `matched` are all the rows that waited when the pass looked, `page` those it took of them. -/
structure Pass where
  id : PassId
  matched : List Item
  page : List Item
  todo : List Item
  seen : List SessionId
  started : List Started
  deriving DecidableEq, Repr

/-- `stops` are the runs that somebody stopped and nobody resumed since. -/
structure World where
  sessions : List Session
  runs : List RunRow
  items : List Item
  messages : List Message
  turns : List FirstTurn
  passes : List Pass
  stops : List RunId
  deriving DecidableEq, Repr

inductive Event
  /-- The session becomes read-only, which is never undone. -/
  | closes (sessionId : SessionId)
  | createTurn (sessionId : SessionId) (runId : RunId) (clientTurnId text : String)
  | queueMessage (sessionId : SessionId) (runId : RunId) (itemId : ItemId) (text : String)
  | stopRun (sessionId : SessionId) (runId : RunId)
  | editQueueItem (sessionId : SessionId) (runId : RunId) (itemId : ItemId) (text : String)
  | removeQueueItem (sessionId : SessionId) (runId : RunId) (itemId : ItemId)
  /-- A live run goes on, parks, or ends. -/
  | setRunStatus (runId : RunId) (status : RunStatus)
  | retryTask (runId : RunId) (automatic : Bool)
  | scan (passId : PassId) (page : List Item)
  | send (passId : PassId) (runId : RunId)
  | commit (passId : PassId)
  | fail (passId : PassId)
  deriving DecidableEq, Repr

section Reads
variable (w : World)

def live (r : RunRow) : Bool := !r.status.terminal

def writable (sessionId : SessionId) : Bool := w.sessions.any fun s => s.id = sessionId && !s.readOnly

def busy (sessionId : SessionId) : Bool := w.runs.any fun r => r.sessionId = sessionId && live r

/-- The rows of the drain's `WHERE`. -/
def waits (i : Item) : Bool :=
  i.status = .queued && (w.runs.any fun r => r.id = i.runId && r.status.terminal) && !busy w i.sessionId

/-- `ORDER BY position LIMIT 20`. Rows of one position come in any order. -/
def IsPage (rows page : List Item) : Prop :=
  page.Pairwise (fun i j => i.position ≤ j.position) ∧ page.Nodup ∧ (∀ i ∈ page, i ∈ rows) ∧
    page.length = min 20 rows.length ∧ ∀ i ∈ rows, i ∉ page → ∀ j ∈ page, j.position ≤ i.position

instance (rows page : List Item) : Decidable (IsPage rows page) := by
  unfold IsPage
  infer_instance

/-- A pass has started a run in the session, and not committed it. -/
def starting (sessionId : SessionId) : Bool := w.passes.any fun p => p.started.any fun s => s.item.sessionId = sessionId

/-- A pass has marked the item, and not committed it. -/
def marked (itemId : ItemId) : Bool := w.passes.any fun p => p.started.any fun s => s.item.id = itemId

def freshRun (runId : RunId) : Bool :=
  (w.runs.all fun r => r.id ≠ runId) && w.passes.all fun p => p.started.all fun s => s.runId ≠ runId

def queueTurnId (itemId : ItemId) : String := "queue:" ++ itemId

/-- `COALESCE(max(position) + 1, 0)` over the rows of one run. -/
def nextPosition (runId : RunId) : ℕ :=
  (w.items.filter fun i => i.runId = runId).foldr (fun i n => max (i.position + 1) n) 0

/-- A row of this run that may still be edited, removed or paused. -/
def Item.pending (i : Item) : Bool := i.status = .queued || i.status = .paused

end Reads

section Writes
variable (w : World)

def setPass (p : Pass) : World := { w with passes := w.passes.map fun q => if q.id = p.id then p else q }

def endPass (passId : PassId) : World := { w with passes := w.passes.filter fun q => q.id ≠ passId }

def Started.run (s : Started) : RunRow := ⟨s.runId,s.item.sessionId,.working,queueTurnId s.item.id,false⟩

def Started.message (s : Started) : Message := ⟨s.item.sessionId,s.runId,s.item.text⟩

def Started.turn (s : Started) : FirstTurn := ⟨s.runId,s.item.text⟩

/-- One item of the page. A session that is seen or read-only is passed over; a row that breaks a
unique index rolls the whole pass back, and waits first for another pass that may commit such a row. -/
def sendNext (p : Pass) (item : Item) (rest : List Item) (runId : RunId) : Except Unit World :=
  if item.sessionId ∈ p.seen then .ok (setPass w { p with todo := rest })
  else if !writable w item.sessionId then
    .ok (setPass w { p with todo := rest, seen := item.sessionId :: p.seen })
  else if w.passes.any fun q => q.id ≠ p.id && q.started.any fun s => s.item.sessionId = item.sessionId then .error ()
  else if busy w item.sessionId ||
      w.runs.any fun r => r.sessionId = item.sessionId && r.clientTurnId = queueTurnId item.id then
    .ok (endPass w p.id)
  else if !freshRun w runId then .error ()
  else .ok (setPass w { p with
    todo := rest, seen := item.sessionId :: p.seen, started := p.started ++ [⟨item,runId⟩] })

/-- The rows are updated by their ids only. -/
def commitPass (p : Pass) : World :=
  { endPass w p.id with
    runs := w.runs ++ p.started.map Started.run,
    messages := w.messages ++ p.started.map Started.message,
    turns := w.turns ++ p.started.map Started.turn,
    items := updateWhere (fun i => p.started.any fun s => s.item.id = i.id) (fun i => { i with status := .sent }) w.items }

/-- The run of a control, its row locked. -/
def loadRun (sessionId : SessionId) (runId : RunId) : Option RunRow :=
  if writable w sessionId then w.runs.find? fun r => decide (r.id = runId) && decide (r.sessionId = sessionId) else none

def apply : Event → Except Unit World
  | .closes sessionId =>
    .ok { w with sessions := updateWhere (fun s => decide (s.id = sessionId)) (fun s => { s with readOnly := true }) w.sessions }
  | .createTurn sessionId runId clientTurnId text =>
    if !writable w sessionId || busy w sessionId || starting w sessionId || !freshRun w runId ||
        w.runs.any (fun r => r.sessionId = sessionId && r.clientTurnId = clientTurnId) then .error ()
    else .ok { w with
      runs := w.runs ++ [⟨runId,sessionId,.working,clientTurnId,false⟩],
      messages := w.messages ++ [⟨sessionId,runId,text⟩],
      turns := w.turns ++ [⟨runId,text⟩] }
  | .queueMessage sessionId runId itemId text =>
    match loadRun w sessionId runId with
    | some r =>
      if w.items.any fun i => i.id = itemId then .error ()
      else .ok { w with items := w.items ++ [⟨itemId,runId,sessionId,text,
        if r.status = .stopping ∨ r.status = .stopped then .paused else .queued,nextPosition w runId⟩] }
    | none => .error ()
  | .stopRun sessionId runId =>
    match loadRun w sessionId runId with
    | some r =>
      if !live r then .ok { w with stops := runId :: w.stops }
      else if w.passes.any fun p => p.started.any fun s => s.item.runId = runId then .error ()
      else .ok { w with
        runs := updateWhere (fun s => decide (s.id = runId))
          (fun s => { s with status := .stopping, stopRequested := true }) w.runs,
        items := updateWhere (fun i => i.runId = runId && i.status = .queued) (fun i => { i with status := .paused }) w.items,
        stops := runId :: w.stops }
    | none => .error ()
  | .editQueueItem sessionId runId itemId text =>
    if (loadRun w sessionId runId).isNone || marked w itemId || !(w.items.any fun i => i.id = itemId && i.runId = runId && i.pending)
    then .error ()
    else .ok { w with
      items := updateWhere (fun i => i.id = itemId && i.runId = runId && i.pending) (fun i => { i with text := text }) w.items }
  | .removeQueueItem sessionId runId itemId =>
    if (loadRun w sessionId runId).isNone || marked w itemId || !(w.items.any fun i => i.id = itemId && i.runId = runId && i.pending)
    then .error ()
    else .ok { w with
      items := updateWhere (fun i => i.id = itemId && i.runId = runId && i.pending) (fun i => { i with status := .removed }) w.items }
  | .setRunStatus runId status =>
    .ok { w with runs := updateWhere (fun r => r.id = runId && live r) (fun r => { r with status := status }) w.runs }
  | .retryTask runId automatic =>
    match w.runs.find? fun r => decide (r.id = runId) with
    | some r =>
      if (r.status ≠ .error && r.status ≠ .stopped) || (automatic && r.stopRequested) || !writable w r.sessionId ||
          busy w r.sessionId || starting w r.sessionId then .error ()
      else .ok { w with
        runs := updateWhere (fun s => decide (s.id = runId))
          (fun s => { s with status := .working, stopRequested := false }) w.runs,
        stops := if automatic then w.stops else w.stops.filter fun id => id ≠ runId }
    | none => .error ()
  | .scan passId page =>
    if w.passes.any (fun p => p.id = passId) || !decide (IsPage (w.items.filter (waits w)) page) then .error ()
    else .ok { w with passes := w.passes ++ [⟨passId,w.items.filter (waits w),page,page,[],[]⟩] }
  | .send passId runId =>
    match w.passes.find? fun p => decide (p.id = passId) with
    | some p =>
      match p.todo with
      | item :: rest => sendNext w p item rest runId
      | [] => .error ()
    | none => .error ()
  | .commit passId =>
    match w.passes.find? fun p => decide (p.id = passId) with
    | some p => if p.todo.isEmpty then .ok (commitPass w p) else .error ()
    | none => .error ()
  | .fail passId => .ok (endPass w passId)

def Step : World → Event → World → Prop := Applied apply

/-- The sessions are there from the start; an idle one is as one not yet opened. -/
def Initial : Prop := ∃ sessions, w = ⟨sessions,[],[],[],[],[],[]⟩

/-- What the queue relies on: a Stop finds its run live or nothing queued behind it, a message is not
queued behind a stopped run that went on or ended otherwise, and while a pass is open nobody edits or pauses
what it sends, and not every row of its page is of a read-only session while another row waits. -/
def admits : Event → Bool
  | .stopRun _ runId =>
    (w.runs.any fun r => r.id = runId && live r) || w.items.all fun i => i.runId ≠ runId || i.status ≠ .queued
  | .queueMessage _ runId _ _ =>
    runId ∉ w.stops || w.runs.all fun r => r.id ≠ runId || r.status = .stopping || r.status = .stopped
  | .commit passId =>
    w.passes.all fun p => p.id ≠ passId ||
      ((p.started.all fun s => w.items.all fun i => i.id ≠ s.item.id || (i.text = s.item.text && i.status ≠ .paused)) &&
        ((p.page.any fun i => writable w i.sessionId) || p.matched.all fun i => !writable w i.sessionId))
  | _ => true

end Writes

section Promises
variable (w : World)

/-- The run that was made of this item. -/
def madeOf (i : Item) (r : RunRow) : Prop := r.sessionId = i.sessionId ∧ r.clientTurnId = queueTurnId i.id

/-- The item has one run, with one user message and one first turn of its text. -/
def SentOnce (i : Item) : Prop :=
  ∃ r ∈ w.runs, madeOf i r ∧ w.messages.filter (fun m => decide (m.runId = r.id)) = [⟨i.sessionId,r.id,i.text⟩] ∧
    w.turns.filter (fun t => decide (t.runId = r.id)) = [⟨r.id,i.text⟩]

/-- A queued item whose run has ended, in a writable session without a live run. -/
def Waits (itemId : ItemId) (position : ℕ) : Prop :=
  ∃ i ∈ w.items, i.id = itemId ∧ i.position = position ∧ waits w i = true ∧ writable w i.sessionId = true

end Promises
end HermesEnterprise.RunQueue
