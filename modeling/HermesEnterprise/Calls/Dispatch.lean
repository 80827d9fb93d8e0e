import HermesEnterprise.Foundation.Runs
import HermesEnterprise.Foundation.Tables
import HermesEnterprise.Foundation.CanonicalJson

/-! # Tool calls from the runtime

`dispatchRuntimeCall` on the rows of one run. Both dispatches hold the agent's lock while they
read and write rows; a proposal lets go of it while its tool runs, so its two halves are steps of
their own. What a tool answers, and how the run's row changes otherwise, are events.
-/
namespace HermesEnterprise.Calls
open Foundation.Runs Foundation.Tables Foundation.CanonicalJson

abbrev CallId := String
abbrev FlightId := ℕ

structure Call where
  runtimeRunId : String
  toolCallId : String
  name : String
  arguments : Json

/-- The message of a row, as far as calls are read from it. A row of another writer may have a tool
call id of its own. -/
inductive Body
  | call (id : CallId) (call : Call)
  | result (id : CallId) (content : String) (ok : Bool)
  | other (toolCallId : Option String)

structure Row where
  turn : ℕ
  seq : ℕ
  body : Body

structure RuntimeCallRecord where
  turn : ℕ
  seq : ℕ
  call : Call
  result : Option (String × Bool)

inductive Watch
  | noWatch | holds | revoked
  deriving DecidableEq, Repr

/-- What dispatch reads of the run and its agent. `active` is a run that is working or waiting and not
stopped; `runtimeRunId` is bound for the current attempt only. -/
structure RunState where
  runtimeRunId : Option String
  mappingPending : Bool
  active : Bool
  waitingFor : Option String
  responseOnly : Bool
  tools : List String
  watch : Watch
  deriving DecidableEq, Repr

inductive Reply
  | content (ok : Bool) (text : String)
  | pending
  deriving DecidableEq, Repr

/-- What a tool answers. It parks for an operation approval, or asks for a context field that may have an
answer by then. -/
inductive Outcome
  | parks (key : String)
  | asks (key : String) (answer : Option String)
  | finishes (ok : Bool) (content : String)
  deriving DecidableEq, Repr

inductive Refusal
  | mappingPending | runInactive | watchRevoked | toolForbidden | callConflict | runWaiting
  deriving DecidableEq, Repr

/-- A proposal between its two halves. -/
structure Flight where
  id : FlightId
  call : Call
  callId : CallId
  turn : ℕ
  seq : ℕ
  outcome : Option Outcome

structure World where
  rows : List Row
  run : RunState
  flights : List Flight
  executed : List CallId
  replies : List (Call × Reply)

inductive Event
  | dispatch (call : Call) (outcome : Outcome)
  | prepare (flight : FlightId) (call : Call)
  | execute (flight : FlightId) (outcome : Outcome)
  | finish (flight : FlightId)
  | crash (flight : FlightId)
  | setRun (run : RunState)
  /-- The final answer of an attempt. -/
  | finalize (maxTurns attempt : ℕ)

section Reads
variable (digest : String → String)

def slotSuffix (slot : ℕ) : String := if slot = 0 then "" else "#" ++ toString slot

def durableCallId (runtimeRunId toolCallId : String) (slot : ℕ) : CallId :=
  "hermes-" ++ digest (runtimeRunId ++ ":" ++ toolCallId ++ slotSuffix slot)

def maxCallIdSlots : ℕ := 64

def Row.callOf (id : CallId) (row : Row) : Option Call :=
  match row.body with
  | .call id' call => if id' = id then some call else none
  | _ => none

def Row.resultOf (id : CallId) (row : Row) : Option (String × Bool) :=
  match row.body with
  | .result id' content ok => if id' = id then some (content,ok) else none
  | _ => none

/-- The call row of this id; there is one at most, so no order is needed. -/
def runtimeCall (rows : List Row) (id : CallId) : Option RuntimeCallRecord :=
  rows.findSome? fun row => (row.callOf id).map fun call => ⟨row.turn,row.seq,call,rows.findSome? (Row.resultOf id)⟩

def Row.isCall (row : Row) : Bool :=
  match row.body with
  | .call .. => true
  | _ => false

/-- A call row keeps the place behind it for its result. -/
def nextRuntimeSequence (rows : List Row) : ℕ :=
  (rows.filter fun row => row.turn = 0).foldr (fun row n => max (row.seq + (if row.isCall then 1 else 0) + 1) n) 0

/-- The name and the canonical arguments agree. -/
def sameCall (record call : Call) : Bool :=
  record.name = call.name && canonical record.arguments = canonical call.arguments

/-- From this slot on: the first that is free or holds this call, unless an unfinished call is met. -/
def resolveFrom (rows : List Row) (call : Call) : List ℕ → Option (CallId × Option RuntimeCallRecord)
  | [] => none
  | slot :: rest =>
    match runtimeCall rows (durableCallId digest call.runtimeRunId call.toolCallId slot) with
    | none => some (durableCallId digest call.runtimeRunId call.toolCallId slot,none)
    | some existing =>
      if sameCall existing.call call then
        some (durableCallId digest call.runtimeRunId call.toolCallId slot,some existing)
      else if existing.result.isNone then none
      else resolveFrom rows call rest

def resolveCallSlot (rows : List Row) (call : Call) : Option (CallId × Option RuntimeCallRecord) :=
  resolveFrom digest rows call (List.range maxCallIdSlots)

def partnerWatchToolNames : List String :=
  ["get_workspace_context","list_partner_candidates","get_partner_candidate","propose_approval"]

def proposalNames : List String := ["propose_approval","suggest_reply","suggest_handoff"]

end Reads

section Writes
variable (digest : String → String) (w : World)

def Row.toolCallId (row : Row) : Option String :=
  match row.body with
  | .call .. => none
  | .result id .. => some id
  | .other toolCallId => toolCallId

/-- `UNIQUE (run_id, turn, seq)` and `UNIQUE (run_id, tool_call_id)`. -/
def conflicts (a b : Row) : Bool :=
  (a.turn = b.turn && a.seq = b.seq) || (a.toolCallId.isSome && a.toolCallId = b.toolCallId)

/-- `ON CONFLICT DO NOTHING`. -/
def appendTurn (rows : List Row) (row : Row) : List Row := if rows.any (conflicts row) then rows else rows ++ [row]

/-- How a dispatch begins: the stored answer, or the call's place, its row written. -/
inductive Begun
  | answered (ok : Bool) (content : String)
  | goes (callId : CallId) (turn seq : ℕ) (rows : List Row)

def begin (call : Call) : Except Refusal Begun :=
  if w.run.runtimeRunId ≠ some call.runtimeRunId then
    .error (if w.run.mappingPending then .mappingPending else .runInactive)
  else if !w.run.active then .error .runInactive
  else if w.run.watch = .revoked then .error .watchRevoked
  else if w.run.watch = .holds && call.name ∉ partnerWatchToolNames then .error .toolForbidden
  else
    match resolveCallSlot digest w.rows call with
    | none => .error .callConflict
    | some (callId,existing) =>
      match existing.bind (·.result) with
      | some (content,ok) =>
        if !w.run.responseOnly && call.name ∉ w.run.tools then .error .toolForbidden else .ok (.answered ok content)
      | none =>
        if w.run.responseOnly || call.name ∉ w.run.tools then .error .toolForbidden
        else
          match existing with
          | some record => .ok (.goes callId record.turn record.seq w.rows)
          | none =>
            if w.run.waitingFor.isSome then .error .runWaiting
            else .ok (.goes callId 0 (nextRuntimeSequence w.rows)
              (appendTurn w.rows ⟨0,nextRuntimeSequence w.rows,.call callId call⟩))

/-- The call is answered, and its result written behind it. -/
def answer (call : Call) (callId : CallId) (turn seq : ℕ) (ok : Bool) (content : String) : World :=
  { w with
    rows := appendTurn w.rows ⟨turn,seq + 1,.result callId content ok⟩,
    replies := w.replies ++ [(call,.content ok content)] }

def park (call : Call) (key : String) : World :=
  { w with
    run := { w.run with waitingFor := some (w.run.waitingFor.getD key) },
    replies := w.replies ++ [(call,.pending)] }

/-- An approval's wait is over. -/
def resume : World :=
  if w.run.waitingFor.any fun key => "operation_approval:".isPrefixOf key then { w with run := { w.run with waitingFor := none } }
  else w

def dispatch (call : Call) (outcome : Outcome) : Except Refusal World := do
  match ← begin digest w call with
  | .answered ok content => .ok { w with replies := w.replies ++ [(call,.content ok content)] }
  | .goes callId turn seq rows =>
    let w := { w with rows := rows, executed := w.executed ++ [callId] }
    match outcome with
    | .parks key => .ok (park w call key)
    | .asks key none => .ok (park w call key)
    | .asks _ (some content) => .ok (answer { w with run := { w.run with waitingFor := none } } call callId turn seq true content)
    | .finishes ok content => .ok (answer (resume w) call callId turn seq ok content)

def prepare (flight : FlightId) (call : Call) : Except Refusal World := do
  match ← begin digest w call with
  | .answered ok content => .ok { w with replies := w.replies ++ [(call,.content ok content)] }
  | .goes callId turn seq rows => .ok { w with rows := rows, flights := w.flights ++ [⟨flight,call,callId,turn,seq,none⟩] }

def endFlight (flight : FlightId) : World := { w with flights := w.flights.filter fun f => f.id ≠ flight }

/-- The second half, with what the tool answered. -/
def finish (f : Flight) (outcome : Outcome) : Except Refusal World :=
  if w.run.runtimeRunId ≠ some f.call.runtimeRunId || !w.run.active then .error .runInactive
  else
    match (runtimeCall w.rows f.callId).bind (·.result) with
    | some (content,ok) => .ok { endFlight w f.id with replies := w.replies ++ [(f.call,.content ok content)] }
    | none =>
      match outcome with
      | .parks key => .ok (park (endFlight w f.id) f.call key)
      | .asks _ answered => .ok (answer (resume (endFlight w f.id)) f.call f.callId f.turn f.seq true (answered.getD ""))
      | .finishes ok content => .ok (answer (resume (endFlight w f.id)) f.call f.callId f.turn f.seq ok content)

/-- The identifiers as the parser and the client let them through. -/
def Call.wellFormed (call : Call) : Bool := !call.toolCallId.toList.contains '#'

def RunState.wellFormed (run : RunState) : Bool := run.runtimeRunId.all fun id => !id.toList.contains ':'

def apply : Event → Except Refusal World
  | .dispatch call outcome =>
    if !call.wellFormed || call.name ∈ proposalNames then .error .toolForbidden else dispatch digest w call outcome
  | .prepare flight call =>
    if !call.wellFormed || call.name ∉ proposalNames || w.flights.any (fun f => f.id = flight) then .error .toolForbidden
    else prepare digest w flight call
  | .execute flight outcome =>
    match w.flights.find? fun f => decide (f.id = flight) with
    | some f =>
      if f.outcome.isSome then .error .callConflict
      else .ok { w with
        flights := updateWhere (fun g => decide (g.id = flight)) (fun g => { g with outcome := some outcome }) w.flights,
        executed := w.executed ++ [f.callId] }
    | none => .error .callConflict
  | .finish flight =>
    match w.flights.find? fun f => decide (f.id = flight) with
    | some f =>
      match f.outcome with
      | some outcome => finish w f outcome
      | none => .error .callConflict
    | none => .error .callConflict
  | .crash flight => .ok (endFlight w flight)
  | .setRun run => if run.wellFormed then .ok { w with run := run } else .error .runInactive
  | .finalize maxTurns attempt =>
    if attempt = 0 then .error .runInactive
    else .ok { w with rows := appendTurn w.rows ⟨maxTurns + attempt,0,.other (some ("hermes-final-" ++ toString attempt))⟩ }

def Step : World → Event → World → Prop := Applied (apply digest)

/-- A run starts with the rows of others, under ids of their own. -/
def Initial : Prop :=
  (w.rows.map fun row => (row.turn,row.seq)).Nodup ∧
    (∀ row ∈ w.rows, ∃ toolCallId, row.body = .other toolCallId ∧
      ∀ runtimeRunId callId slot, toolCallId ≠ some (durableCallId digest runtimeRunId callId slot)) ∧
    w.run.wellFormed = true ∧ w.flights = [] ∧ w.executed = [] ∧ w.replies = []

end Writes

section Promises
variable (w : World)

/-- The same call: its native ids, its tool and its arguments. -/
def Same (a b : Call) : Prop :=
  a.runtimeRunId = b.runtimeRunId ∧ a.toolCallId = b.toolCallId ∧ sameCall a b = true

/-- The call has a row, and this answer in the row behind it. -/
def Answered (call : Call) (ok : Bool) (content : String) : Prop :=
  ∃ a ∈ w.rows, ∃ b ∈ w.rows, ∃ id own, a.body = .call id own ∧ Same own call ∧
    b.body = .result id content ok ∧ b.turn = a.turn ∧ b.seq = a.seq + 1

/-- What was replied is the answer of this call, and a pending call has its row. -/
def Replied : Call × Reply → Prop
  | (call,.content ok content) => Answered w call ok content
  | (call,.pending) => ∃ a ∈ w.rows, ∃ id own, a.body = .call id own ∧ Same own call

structure CallsKept : Prop where
  /-- One call row for each call. -/
  calls : ∀ a ∈ w.rows, ∀ b ∈ w.rows, ∀ id own id' own', a.body = .call id own → b.body = .call id' own' → Same own own' → a = b
  /-- One result row for each call row, directly behind it. -/
  results : ∀ b ∈ w.rows, ∀ id content ok, b.body = .result id content ok →
    (∃ a ∈ w.rows, ∃ own, a.body = .call id own ∧ b.turn = a.turn ∧ b.seq = a.seq + 1) ∧
      ∀ b' ∈ w.rows, ∀ content' ok', b'.body = .result id content' ok' → b' = b
  positions : (w.rows.map fun row => (row.turn,row.seq)).Nodup
  replies : ∀ reply ∈ w.replies, Replied w reply

/-- A delivery of this call. -/
def Delivers (e : Event) (call : Call) : Prop := (∃ outcome, e = .dispatch call outcome) ∨ ∃ flight, e = .prepare flight call

end Promises
end HermesEnterprise.Calls
