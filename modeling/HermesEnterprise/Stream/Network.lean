import HermesEnterprise.Foundation.Runs
import HermesEnterprise.Stream.Hub

/-! # A hub, its sockets and the server

The server appends events to a log and answers a replay with a page of it. An open
socket delivers the log from where it started, in order. Each step is one moment at which
the hub, a socket or the server goes on; nothing orders the steps of different parts.
-/
namespace HermesEnterprise.Stream
open Foundation.Cursor Foundation.Runs

/-- `opened next` delivers the entry at position `next` of the log as its next one. -/
inductive Stage
  | connecting
  | opened (next : ℕ)
  | closing
  deriving DecidableEq, Repr

structure Socket where
  id : SocketId
  stage : Stage
  deriving DecidableEq, Repr

def Socket.isOpen (s : Socket) : Bool :=
  match s.stage with
  | .opened _ => true
  | _ => false

/-- The sockets that the hub has made and that have not reported their close. -/
structure World (α : Type*) where
  hub : Hub α
  sockets : List Socket
  nextSocket : SocketId
  log : List (StreamEvent α)
  deriving DecidableEq, Repr

inductive Event (α : Type*)
  | commit (event : StreamEvent α)
  | opens (socket : SocketId) (start : ℕ)
  | frame (socket : SocketId) (count : ℕ)
  | closes (socket : SocketId) (code : ℕ)
  /-- The silence timer fires. -/
  | silence
  /-- The reconnect timer fires. `made` is whether a socket could be made. -/
  | reconnect (made : Bool)
  | reconcile
  | replayRead | replayAnswer | replayFail
  | reconciled
  | poll | pollRead | pollAnswer | pollFail | polled
  | close
  deriving DecidableEq, Repr

section Server
variable {α : Type*} (limit : ℕ) (log : List (StreamEvent α))

def headOf : ℕ := (log.getLast?.map (·.id)).getD 0

/-- The events after a cursor, as many as a page holds. -/
def replay (after : ℕ) : ReplayPage α :=
  ⟨(log.filter fun e => decide (after < e.id)).take limit,false,some (headOf log)⟩

end Server

section Sockets
variable {α : Type*} (w : World α)

def findSocket (socket : SocketId) : Option Socket := w.sockets.find? fun s => s.id = socket

def setStage (sockets : List Socket) (socket : SocketId) (stage : Stage) : List Socket :=
  sockets.map fun s => if s.id = socket then { s with stage := stage } else s

/-- The hub closes its socket, which reports that later. -/
def closeSocket : List Socket :=
  match w.hub.socket with
  | some socket => setStage w.sockets socket .closing
  | none => w.sockets

def connect (made : Bool) : World α :=
  if w.hub.closed || w.hub.polling then w
  else if made then
    { w with hub := { startConnect w.hub with socket := some w.nextSocket },
             sockets := w.sockets ++ [⟨w.nextSocket,.connecting⟩], nextSocket := w.nextSocket + 1 }
  else { w with hub := scheduleReconnect (startConnect w.hub) }

/-- `dropAndReconnect` with its socket. -/
def drop : World α :=
  if w.hub.closed then w else { w with hub := dropAndReconnect w.hub, sockets := closeSocket w }

end Sockets

section Steps
variable {α : Type*} (o : HubOptions α) (limit : ℕ)

/-- A step that may happen only now and then. -/
def enabled (condition : Bool) (next : World α) : Except Unit (World α) :=
  if condition then .ok next else .error ()

def apply (w : World α) : Event α → Except Unit (World α)
  | .commit event =>
    -- events become visible in id order
    enabled (w.log.all fun e => e.id < event.id)
      { w with log := w.log ++ [event] }
  | .opens socket start =>
    enabled (decide (findSocket w socket = some ⟨socket,.connecting⟩) && decide (start ≤ w.log.length))
      { w with hub := onOpen w.hub, sockets := setStage w.sockets socket (.opened start) }
  | .frame socket count =>
    match findSocket w socket with
    | some ⟨_,.opened next⟩ =>
      enabled (decide (next + count ≤ w.log.length))
        { w with hub := onMessage o w.hub ((w.log.drop next).take count),
                        sockets := setStage w.sockets socket (.opened (next + count)) }
    | _ => .error ()
  | .closes socket code =>
    enabled (findSocket w socket).isSome
      { w with hub := onClose o w.hub code, sockets := w.sockets.filter fun s => s.id ≠ socket }
  | .silence =>
    enabled w.hub.silenceArmed
      (drop { w with hub := { w.hub with silenceArmed := false } })
  | .reconnect made =>
    enabled w.hub.reconnectArmed
      (connect { w with hub := { w.hub with reconnectArmed := false } } made)
  | .reconcile => .ok { w with hub := reconcile w.hub }
  | .replayRead =>
    match w.hub.catchUpInFlight with
    | some ⟨required,pageCount,.replay (.asked after)⟩ =>
      let answer := Waiting.replay (.answered (replay limit w.log after))
      .ok { w with hub := { w.hub with catchUpInFlight := some ⟨required,pageCount,answer⟩ } }
    | _ => .error ()
  | .replayAnswer =>
    match w.hub.catchUpInFlight with
    | some ⟨required,pageCount,.replay (.answered page)⟩ =>
      .ok { w with hub := replayAnswered o w.hub ⟨required,pageCount,.replay (.answered page)⟩ page }
    | _ => .error ()
  | .replayFail =>
    match w.hub.catchUpInFlight with
    | some ⟨required,pageCount,.replay call⟩ =>
      .ok { w with hub := replayFailed o w.hub ⟨required,pageCount,.replay call⟩,
                   sockets := if required then (drop w).sockets else w.sockets }
    | _ => .error ()
  | .reconciled =>
    match w.hub.catchUpInFlight with
    | some ⟨_,_,.semantics⟩ => .ok { w with hub := { w.hub with catchUpInFlight := none } }
    | _ => .error ()
  | .poll =>
    enabled w.hub.pollArmed
      { w with hub := poll { w.hub with pollArmed := false } }
  | .pollRead =>
    match w.hub.pollInFlight with
    | some (.replay (.asked after)) =>
      let answer := Waiting.replay (.answered (replay limit w.log after))
      .ok { w with hub := { w.hub with pollInFlight := some answer } }
    | _ => .error ()
  | .pollAnswer =>
    match w.hub.pollInFlight with
    | some (.replay (.answered page)) => .ok { w with hub := pollAnswered o w.hub page }
    | _ => .error ()
  | .pollFail =>
    match w.hub.pollInFlight with
    | some (.replay _) => .ok { w with hub := pollFailed w.hub }
    | _ => .error ()
  | .polled =>
    match w.hub.pollInFlight with
    | some .semantics => .ok { w with hub := pollFinally w.hub }
    | _ => .error ()
  | .close => .ok { w with hub := closeHub w.hub, sockets := closeSocket w }

def Step : World α → Event α → World α → Prop := Applied (apply o limit)

/-- A hub that has just been made, over any log of events. -/
def Initial (w : World α) : Prop :=
  ∃ log made, Sorted (fun e : StreamEvent α => e.id) log ∧ w = connect ⟨newHub o,[],0,log⟩ made

end Steps
end HermesEnterprise.Stream
