import HermesEnterprise.Hubs.Tickets
import HermesEnterprise.Foundation.Runs

/-! # The sockets of the hubs

A hub holds sockets with what the Worker decided at the upgrade. It sends to a socket until its window ends
and moves the window when a ticket verifies and matches. Verification is asynchronous: the attachment is
read before it and written after it.
-/
namespace HermesEnterprise.Hubs
open Foundation.Runs

structure SocketAttachment where
  userId : ℕ
  workspaceId : ℕ
  sessionId : Option ℕ
  authorizedUntil : ℕ
  deriving DecidableEq

/-- The object that a socket is connected to. -/
inductive HubName
  | session (sessionId : ℕ)
  | workspace (workspaceId : ℕ)
  deriving DecidableEq

/-- A socket of a hub, with the time of its upgrade. -/
structure Socket where
  hub : HubName
  attachment : SocketAttachment
  upgradedAt : ℕ
  closed : Bool := false
  deriving DecidableEq

structure HubEvent where
  id : ℕ
  workspaceId : ℕ
  sessionId : Option ℕ
  audienceUserIds : Option (List ℕ)
  deriving DecidableEq

inductive Frame
  | event (event : HubEvent)
  | preview (sessionId : ℕ)
  deriving DecidableEq

def Frame.sessionId : Frame → Option ℕ
  | .event e => e.sessionId
  | .preview s => some s

def Frame.audience : Frame → Option (List ℕ)
  | .event e => e.audienceUserIds
  | .preview _ => none

/-- `maySee` of the two kinds of hub. -/
def maySee (hub : HubName) (a : SocketAttachment) (frame : Frame) : Bool :=
  match hub with
  | .session _ => a.sessionId.isSome && a.sessionId == frame.sessionId
  | .workspace _ => frame.audience.all (·.contains a.userId)

/-- A ticket whose verification is under way. -/
structure Pending where
  socket : ℕ
  attachment : SocketAttachment
  ticket : Text
  deriving DecidableEq

structure Delivery where
  socket : ℕ
  time : ℕ
  frame : Frame
  deriving DecidableEq

/-- The clock, the sockets of all hubs, the tickets that the Worker minted and when, and what was sent. -/
structure State where
  now : ℕ
  sockets : List Socket
  minted : List (HubTicket × ℕ)
  pending : List Pending
  sent : List Delivery
  deriving DecidableEq

inductive Event
  | tick (ms : ℕ)
  | upgradeWorkspace (userId workspaceId : ℕ)
  | upgradeSession (userId workspaceId sessionId : ℕ)
  | mint (userId workspaceId : ℕ) (sessionId : Option ℕ)
  | present (socket : ℕ) (ticket : Text)
  | settle (pending : ℕ)
  | evict (hub : HubName) (userId : ℕ)
  | publish (hub : HubName) (events : List HubEvent)
  | preview (sessionId : ℕ)
  | disconnect (socket : ℕ)
  deriving DecidableEq

/-- The Worker has decided that a person may listen. -/
def State.upgrade (s : State) (hub : HubName) (userId workspaceId : ℕ) (sessionId : Option ℕ) : State :=
  let attachment : SocketAttachment :=
    { userId, workspaceId, sessionId, authorizedUntil := s.now + ticketTtlSeconds * 1000 };
  { s with sockets := s.sockets ++ [{ hub, attachment, upgradedAt := s.now }] }

/-- The fan-out of `publish` and `publishTransient`. -/
def State.fanOut (s : State) (hub : HubName) (frames : List Frame) : State :=
  let live (k : Socket) : Bool := k.hub == hub && !k.closed;
  let expired (k : Socket) : Bool := k.attachment.authorizedUntil ≤ s.now;
  { s with
    sockets := s.sockets.map fun k => if live k && expired k then { k with closed := true } else k
    sent := s.sent ++ s.sockets.zipIdx.flatMap fun (k,i) =>
      if live k && !expired k then (frames.filter (maySee hub k.attachment)).map fun f => ⟨i,s.now,f⟩ else [] }

/-- The comparison of a ticket with the attachment of the socket that presents it. -/
def matchesSocket (ticket : HubTicket) (a : SocketAttachment) : Bool :=
  ticket.userId == a.userId && ticket.workspaceId == a.workspaceId
    && (a.sessionId.isNone || ticket.sessionId.isNone || ticket.sessionId == a.sessionId)

/-- The verified ticket of a pending message, if it matches. -/
def Pending.accepted (P : Platform) (now : ℕ) (p : Pending) : Option HubTicket :=
  (verifyHubTicket P now p.ticket).filter (matchesSocket · p.attachment)

/-- The rest of `webSocketMessage` after the verification. -/
def State.settle (P : Platform) (s : State) (p : Pending) : State :=
  match s.sockets[p.socket]? with
  | none => s
  | some k =>
    match p.accepted P s.now with
    | none => { s with sockets := s.sockets.set p.socket { k with closed := true } }
    | some ticket =>
      let attachment := { p.attachment with authorizedUntil := ticket.exp * 1000 };
      { s with sockets := s.sockets.set p.socket { k with attachment := attachment } }

def perform (P : Platform) (s : State) : Event → State
  | .tick ms => { s with now := s.now + ms }
  | .upgradeWorkspace u w => s.upgrade (.workspace w) u w none
  | .upgradeSession u w sessionId => s.upgrade (.session sessionId) u w (some sessionId)
  | .mint u w sessionId => { s with minted := s.minted ++ [(ticketPayload s.now u w sessionId,s.now)] }
  | .present k ticket =>
    match s.sockets[k]? with
    | none => s
    | some socket => { s with pending := s.pending ++ [⟨k,socket.attachment,ticket⟩] }
  | .settle n =>
    match s.pending[n]? with
    | none => s
    | some p => { s.settle P p with pending := s.pending.eraseIdx n }
  | .evict hub u =>
    { s with
      sockets := s.sockets.map fun k =>
        if k.hub == hub && k.attachment.userId == u then { k with closed := true } else k }
  | .publish hub events => s.fanOut hub (events.map .event)
  | .preview sessionId => s.fanOut (.session sessionId) [.preview sessionId]
  | .disconnect k =>
    match s.sockets[k]? with
    | none => s
    | some socket => { s with sockets := s.sockets.set k { socket with closed := true } }

/-- A minted ticket reads back as what it was made of. A signature that verifies is one of the Worker's. The
publishers hand a hub the events of its own session or workspace. -/
def Sound (P : Platform) (s : State) : Event → Prop
  | .mint u w sessionId =>
    P.decode (P.encode (ticketPayload s.now u w sessionId)) = some (ticketPayload s.now u w sessionId)
  | .present _ ticket => ∀ body signature, ticketParts ticket = some (body,signature) →
      P.verify body signature = true → ∃ t ∈ s.minted, body = P.encode t.1
  | .publish (.session sessionId) events => ∀ e ∈ events, e.sessionId = some sessionId
  | .publish (.workspace workspaceId) events => ∀ e ∈ events, e.sessionId = none ∧ e.workspaceId = workspaceId
  | _ => True

def Step (P : Platform) : State → Event → State → Prop :=
  Guarded (fun s e t => t = perform P s e) (Sound P)

def initial : State := { now := 0, sockets := [], minted := [], pending := [], sent := [] }

end HermesEnterprise.Hubs
