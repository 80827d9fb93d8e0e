import HermesEnterprise.Foundation.Cursor

/-! # The client hub

One hub follows one event stream: live frames from a socket, and pages of the replay
endpoint. A reconnect is replay, then buffer. What the hub does between two of its waits
is one function here. Previews, pings and the text of frames are not modelled.
-/
namespace HermesEnterprise.Stream
open Foundation.Cursor

/-- Ids are positive integers that the database assigns. -/
structure StreamEvent (α : Type*) where
  id : ℕ
  payload : α
  deriving DecidableEq, Repr

structure ReplayPage (α : Type*) where
  events : List (StreamEvent α)
  resync : Bool
  /-- The newest id of the stream. -/
  head : Option ℕ
  deriving DecidableEq, Repr

inductive LinkStatus
  | connecting | opened | replaying | reconnecting | signedOut | evicted
  deriving DecidableEq, Repr

abbrev SocketId := ℕ

structure HubOptions (α : Type*) where
  after : ℕ
  accept : StreamEvent α → Bool
  pollAfterFailures : ℕ

/-- A call of the replay endpoint: on its way to the server, or its answer on the way back. -/
inductive ReplayCall (α : Type*)
  | asked (after : ℕ)
  | answered (page : ReplayPage α)
  deriving DecidableEq, Repr

/-- Where a catch-up waits: for a page, or for the consumer's own check. -/
inductive Waiting (α : Type*)
  | replay (call : ReplayCall α)
  | semantics
  deriving DecidableEq, Repr

structure CatchUp (α : Type*) where
  required : Bool
  pageCount : ℕ
  waiting : Waiting α
  deriving DecidableEq, Repr

/-- The variables of one hub. `delivered` is what it has passed to `onEvent`. -/
structure Hub (α : Type*) where
  socket : Option SocketId
  cursor : ℕ
  attempts : ℕ
  closed : Bool
  buffering : Bool
  buffer : List (StreamEvent α)
  silenceArmed : Bool
  reconnectArmed : Bool
  pollArmed : Bool
  polling : Bool
  socketOpen : Bool
  catchUpInFlight : Option (CatchUp α)
  pollInFlight : Option (Waiting α)
  handshakeFailures : ℕ
  everOpened : Bool
  status : LinkStatus
  delivered : List (StreamEvent α)
  resyncs : ℕ
  deriving DecidableEq, Repr

def maxReplayPages : ℕ := 20

section Operations
variable {α : Type*} (o : HubOptions α) (h : Hub α)

/-- The hub before its first `connect`. -/
def newHub : Hub α where
  socket := none
  cursor := o.after
  attempts := 0
  closed := false
  buffering := false
  buffer := []
  silenceArmed := false
  reconnectArmed := false
  pollArmed := false
  polling := false
  socketOpen := false
  catchUpInFlight := none
  pollInFlight := none
  handshakeFailures := 0
  everOpened := false
  status := .connecting
  delivered := []
  resyncs := 0

def byId (events : List (StreamEvent α)) : List (StreamEvent α) :=
  events.insertionSort fun a b => a.id ≤ b.id

/-- One event, wherever it came from. -/
def intake (event : StreamEvent α) : Hub α :=
  if h.buffering then { h with buffer := h.buffer ++ [event] }
  else if event.id ≤ h.cursor then h
  else
    { h with
      cursor := event.id
      delivered := if o.accept event then h.delivered ++ [event] else h.delivered }

def intakeAll (events : List (StreamEvent α)) : Hub α := events.foldl (intake o) h

def applyBuffered : Hub α := intakeAll o { h with buffer := [], buffering := false } (byId h.buffer)

def scheduleReconnect : Hub α :=
  if h.closed then h
  else { h with status := .reconnecting, attempts := h.attempts + 1, reconnectArmed := true }

/-- What `dropAndReconnect` does besides closing its socket. -/
def dropAndReconnect : Hub α :=
  if h.closed then h
  else scheduleReconnect { h with silenceArmed := false, socketOpen := false, socket := none }

/-- A catch-up starts, and asks for its first page. -/
def catchUp (required : Bool) : Hub α :=
  { h with
    status := if required then .replaying else h.status
    buffering := true
    catchUpInFlight := some ⟨required,0,.replay (.asked h.cursor)⟩ }

def reconcile : Hub α :=
  if h.closed || h.polling || !h.socketOpen || h.catchUpInFlight.isSome then h else catchUp h false

def initialCatchUp : Hub α := if h.catchUpInFlight.isSome then h else catchUp h true

def setOpen : Hub α := { h with status := if h.socketOpen then .opened else h.status }

/-- The paging is over: the buffer is applied, and the consumer's check runs. -/
def endReplay (c : CatchUp α) : Hub α :=
  { applyBuffered o h with catchUpInFlight := some { c with waiting := .semantics } }

/-- A page of a catch-up has come back. -/
def replayAnswered (c : CatchUp α) (page : ReplayPage α) : Hub α :=
  if page.resync then
    setOpen { h with buffer := [], buffering := false, resyncs := h.resyncs + 1, catchUpInFlight := none }
  else
    let h := { intakeAll o { h with buffering := false } (byId page.events) with buffering := true }
    if page.events.isEmpty || page.head.all (· ≤ h.cursor) || maxReplayPages ≤ c.pageCount + 1 then
      setOpen (endReplay o h c)
    else
      { h with catchUpInFlight := some { c with
          pageCount := c.pageCount + 1, waiting := .replay (.asked h.cursor) } }

/-- A replay failed. Only a required one gives up the socket. -/
def replayFailed (c : CatchUp α) : Hub α :=
  if c.required then { dropAndReconnect h with catchUpInFlight := none } else endReplay o h c

section Polling

def poll : Hub α :=
  if h.closed || !h.polling then h else { h with pollInFlight := some (.replay (.asked h.cursor)) }

def pollFinally : Hub α := { h with pollInFlight := none, pollArmed := !h.closed && h.polling }

def pollAnswered (page : ReplayPage α) : Hub α :=
  if h.closed then pollFinally h
  else if page.resync then pollFinally { h with resyncs := h.resyncs + 1 }
  else { intakeAll o h page.events with status := .opened, pollInFlight := some .semantics }

def pollFailed : Hub α :=
  pollFinally { h with status := if h.closed then h.status else .reconnecting }

def startPolling : Hub α :=
  if h.polling || h.closed then h
  else poll { h with polling := true, buffering := false, buffer := [], silenceArmed := false,
                     reconnectArmed := false, status := .replaying }

end Polling

section Socket

/-- `connect` up to the socket it makes. -/
def startConnect : Hub α :=
  { h with
    status := if h.attempts = 0 then .connecting else .reconnecting
    buffering := true
    buffer := [] }

def onOpen : Hub α :=
  initialCatchUp { h with attempts := 0, everOpened := true, handshakeFailures := 0, socketOpen := true,
                          silenceArmed := true }

def onMessage (events : List (StreamEvent α)) : Hub α := intakeAll o { h with silenceArmed := true } events

/-- After the close of a socket, unless polling takes over. -/
def reopenAfter (code : ℕ) : Hub α :=
  if code = 4401 ∧ h.everOpened then { h with status := .signedOut }
  else if code = 4403 then { h with status := .evicted }
  else scheduleReconnect h

def onClose (code : ℕ) : Hub α :=
  let h := { h with silenceArmed := false, socketOpen := false, socket := none }
  if h.closed then h
  else if h.everOpened then reopenAfter h code
  else
    let h := { h with handshakeFailures := h.handshakeFailures + 1 }
    if 0 < o.pollAfterFailures ∧ o.pollAfterFailures ≤ h.handshakeFailures then startPolling h
    else reopenAfter h code

/-- What `close` does besides closing its socket. -/
def closeHub : Hub α :=
  { h with closed := true, polling := false, socketOpen := false, silenceArmed := false, pollArmed := false,
           reconnectArmed := false, socket := none }

end Socket
end Operations
end HermesEnterprise.Stream
