import HermesEnterprise.Foundation.Runs
import HermesEnterprise.Foundation.Utf16

/-! # The delivery lane of a stream

Appended text waits in the buffer and leaves it in frames, one send at a time.
Every method runs to its end, and so does every callback; timers, promise
callbacks, sends and awaiting drains go on in any order between them.
-/
namespace HermesEnterprise.Runtime.Lane
open Foundation.Runs Foundation.Utf16

abbrev Text := List UInt16

/-- What was thrown, as far as `if (this.failure)` reads it. -/
structure Thrown where
  truthy : Bool
  deriving DecidableEq, Repr

/-- How far the promise chain of one frame is: `then`, the send, `catch`, `finally`. -/
inductive Phase
  | queued
  | sending
  | rejected (error : Thrown)
  | settled
  deriving DecidableEq, Repr

/-- A frame cut from the buffer, with the promise that sends it. -/
structure Flight where
  id : ℕ
  delta : Text
  offset : ℕ
  phase : Phase
  deriving DecidableEq, Repr

/-- A frame handed to `send`. -/
structure Frame where
  delta : Text
  offset : ℕ
  deriving DecidableEq, Repr

/-- One call of `drain`. Its loop may go on at once, which then never ends. -/
inductive Drain
  | awaiting (flight : ℕ)
  | spinning
  | resolved
  | threw (error : Thrown)
  deriving DecidableEq, Repr

/-- The fields of the buffer, the chains and calls that are still going on, and what was appended
and handed to `send` so far. -/
structure StreamBuffer where
  pending : Text
  offset : ℕ
  /-- `none` is minus infinity. -/
  lastFlush : Option ℤ
  timer : Bool
  inFlight : Option ℕ
  draining : Bool
  discarded : Bool
  failure : Option Thrown
  flights : List Flight
  nextFlight : ℕ
  drains : List Drain
  appended : Text
  frames : List Frame
  deriving DecidableEq, Repr

def created : StreamBuffer where
  pending := []
  offset := 0
  lastFlush := none
  timer := false
  inFlight := none
  draining := false
  discarded := false
  failure := none
  flights := []
  nextFlight := 0
  drains := []
  appended := []
  frames := []

/-- Two readings of the clock, in the order they are taken. -/
structure Clock where
  now : ℤ
  later : ℤ
  deriving DecidableEq, Repr

section Methods
variable (windowMs : ℤ) (b : StreamBuffer)

/-- `this.failure` is true. -/
def StreamBuffer.failed : Bool := b.failure.any Thrown.truthy

/-- `remaining > 0`. -/
def StreamBuffer.waits (now : ℤ) : Bool := b.lastFlush.any fun last => 0 < windowMs - (now - last)

/-- Both wire contracts accept this size. -/
def maxFrame : ℕ := 32768

/-- Cut the next frame and queue its send. -/
def StreamBuffer.cut (later : ℤ) : StreamBuffer :=
  let stop := cutAt maxFrame b.pending
  { b with
    timer := false
    pending := b.pending.drop stop
    offset := b.offset + (b.pending.take stop).length
    lastFlush := some later
    inFlight := some b.nextFlight
    flights := b.flights ++ [⟨b.nextFlight,b.pending.take stop,b.offset,.queued⟩]
    nextFlight := b.nextFlight + 1 }

def StreamBuffer.flush (force : Bool) (clock : Clock) : StreamBuffer :=
  if b.discarded || b.failed || b.inFlight.isSome || b.pending.isEmpty then b
  else if !force && !b.draining && b.waits windowMs clock.now then { b with timer := true }
  else b.cut clock.later

def StreamBuffer.append (delta : Text) (clock : Clock) : StreamBuffer :=
  let recorded := { b with appended := b.appended ++ delta }
  if b.discarded then recorded
  else { recorded with pending := b.pending ++ delta }.flush windowMs false clock

def StreamBuffer.discard : StreamBuffer :=
  { b with
    discarded := true
    pending := []
    timer := false }

/-- The loop of `drain` up to its next `await`, its return or its throw. -/
def StreamBuffer.drainLoop (clock : Clock) : StreamBuffer × Drain :=
  let ended : Drain :=
    match b.failure.filter Thrown.truthy with
    | some error => .threw error
    | none => .resolved
  if !b.discarded && (!b.pending.isEmpty || b.inFlight.isSome) then
    if b.failed then (b,ended)
    else
      let flushed := b.flush windowMs true clock
      match flushed.inFlight with
      | some flight => (flushed,.awaiting flight)
      | none => (flushed,.spinning)
  else (b,ended)

def StreamBuffer.drain (clock : Clock) : StreamBuffer :=
  let (b,state) := { b with draining := true, timer := false }.drainLoop windowMs clock
  { b with drains := b.drains ++ [state] }

/-- An awaiting drain goes on once the promise it awaits is fulfilled. -/
def StreamBuffer.resume (i : ℕ) (clock : Clock) : StreamBuffer :=
  let (b,state) := b.drainLoop windowMs clock
  { b with drains := b.drains.set i state }

/-- The timer's callback. -/
def StreamBuffer.expire (clock : Clock) : StreamBuffer :=
  { b with timer := false }.flush windowMs false clock

/-- Change the chain of one frame. -/
def StreamBuffer.setPhase (id : ℕ) (phase : Phase) : StreamBuffer :=
  { b with flights := b.flights.map fun f => if f.id = id then { f with phase := phase } else f }

/-- The `then` callback: hand the frame over, unless the buffer was discarded. -/
def StreamBuffer.start (flight : Flight) : StreamBuffer :=
  if b.discarded then b.setPhase flight.id .settled
  else { b.setPhase flight.id .sending with frames := b.frames ++ [⟨flight.delta,flight.offset⟩] }

/-- The `catch` callback. -/
def StreamBuffer.caught (flight : Flight) (error : Thrown) : StreamBuffer :=
  { b.setPhase flight.id .settled with failure := some error }

/-- The `finally` callback. -/
def StreamBuffer.finished (flight : Flight) (clock : Clock) : StreamBuffer :=
  { b with
    inFlight := none
    flights := b.flights.filter fun f => f.id ≠ flight.id }.flush windowMs false clock

end Methods

inductive Event
  | append (delta : Text) (clock : Clock)
  | flush (force : Bool) (clock : Clock)
  | expire (clock : Clock)
  | start (flight : Flight)
  | sent (flight : Flight)
  | refused (flight : Flight) (error : Thrown)
  | caught (flight : Flight) (error : Thrown)
  | finished (flight : Flight) (clock : Clock)
  | drain (clock : Clock)
  | resume (i : ℕ) (clock : Clock)
  | discard
  deriving DecidableEq, Repr

/-- The buffer after an event; a callback runs only when its time has come. -/
def perform (windowMs : ℤ) (b : StreamBuffer) : Event → Option StreamBuffer
  | .append delta clock => some (b.append windowMs delta clock)
  | .flush force clock => some (b.flush windowMs force clock)
  | .expire clock => if b.timer then some (b.expire windowMs clock) else none
  | .start flight =>
    if flight ∈ b.flights ∧ flight.phase = .queued then some (b.start flight) else none
  | .sent flight =>
    if flight ∈ b.flights ∧ flight.phase = .sending then some (b.setPhase flight.id .settled) else none
  | .refused flight error =>
    if flight ∈ b.flights ∧ flight.phase = .sending then
      some (b.setPhase flight.id (.rejected error)) else none
  | .caught flight error =>
    if flight ∈ b.flights ∧ flight.phase = .rejected error then some (b.caught flight error) else none
  | .finished flight clock =>
    if flight ∈ b.flights ∧ flight.phase = .settled then some (b.finished windowMs flight clock)
    else none
  | .drain clock => some (b.drain windowMs clock)
  | .resume i clock =>
    match b.drains[i]? with
    | some (.awaiting flight) =>
      if b.flights.all fun f => f.id ≠ flight then some (b.resume windowMs i clock) else none
    | _ => none
  | .discard => some b.discard

/-- Every appended delta is well formed. -/
def admits : Event → Bool
  | .append delta _ => wellFormed delta
  | _ => true

def BufferStep (windowMs : ℤ) : StreamBuffer → Event → StreamBuffer → Prop :=
  Guarded (fun b e b' => perform windowMs b e = some b') fun _ e => admits e = true

def ReachableBuffer (windowMs : ℤ) : StreamBuffer → Prop :=
  Reachable (fun b => b = created) (BufferStep windowMs)

end HermesEnterprise.Runtime.Lane
