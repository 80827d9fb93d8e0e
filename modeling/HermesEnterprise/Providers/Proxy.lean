import HermesEnterprise.Foundation.Runs
import HermesEnterprise.Providers.Budget
import HermesEnterprise.Providers.Usage

/-! # A reserved call

From the reservation on, the provider may fail, refuse or answer. An answer is passed on chunk by chunk,
and the call is settled when the answer ends, breaks off or is cancelled.
-/
namespace HermesEnterprise.Providers
open Inbound Foundation Foundation.Runs

inductive CallStatus
  | ok
  | error
  deriving DecidableEq

inductive Resolution
  | completed
  | rejected
  | unresolved
  deriving DecidableEq

/-- What is settled: the usage that was read, the usage that counts, and how the reservation is resolved. -/
structure Settlement where
  usage : Option ParsedProviderUsage
  counted : ParsedProviderUsage
  status : CallStatus
  resolution : Resolution
  deriving DecidableEq

/-- An unresolved call counts as its whole reservation. -/
def settle (prepared : PreparedRuntimeBudget) (usage : Option ParsedProviderUsage) (status : CallStatus)
    (resolution : Resolution) : Settlement :=
  ⟨usage,usage.getD (if resolution = .unresolved then ⟨prepared.inputTokenBound,prepared.outputTokenBound,0⟩ else ⟨0,0,0⟩),
    status,resolution⟩

def settleMetered (prepared : PreparedRuntimeBudget) (usage : Option ParsedProviderUsage) : Settlement :=
  if usage.isSome then settle prepared usage .ok .completed else settle prepared usage .error .unresolved

/-- How a call came to its settlement. -/
inductive Exit
  | threw
  | refused
  | bodyless
  | finished
  | broken
  | cancelled
  deriving DecidableEq

inductive Stage
  | calling
  | metering
  | over
  deriving DecidableEq

/-- The stream that the caller reads. -/
inductive StreamState
  | readable
  | closed
  | errored
  | cancelled
  deriving DecidableEq

structure Proxied where
  stage : Stage
  stream : StreamState
  /-- A `pull` waits for the reader. -/
  reading : Bool
  /-- A `cancel` waits for the reader. -/
  cancelling : Bool
  parser : ProviderUsageParser
  received : List (List UInt8)
  delivered : List (List UInt8)
  exit : Option Exit
  settlements : List Settlement

def Proxied.start : Proxied := ⟨.calling,.readable,false,false,.fresh,[],[],none,[]⟩

inductive Event
  | throws
  | refuses
  | answers (body : Bool)
  | pull
  | chunk (bytes : List UInt8)
  | done
  | fails
  | cancel
  | cancelled
  deriving DecidableEq

variable (P : Platform) (prepared : PreparedRuntimeBudget)

def Proxied.settleOnce (s : Proxied) (exit : Exit) (usage : Option ParsedProviderUsage) : Proxied :=
  if s.exit.isSome then s
  else { s with exit := some exit, settlements := s.settlements ++ [settleMetered prepared usage] }

/-- A settlement before any byte is metered. -/
def Proxied.settleNow (s : Proxied) (exit : Exit) (settlement : Settlement) : Proxied :=
  { s with stage := .over, exit := some exit, settlements := s.settlements ++ [settlement] }

def refusal : Settlement :=
  settle prepared none .error (if prepared.context.partnerWatch then .unresolved else .rejected)

/-- The reader has brought a chunk, and the parser reads it. -/
def Proxied.read (s : Proxied) (bytes : List UInt8) : Proxied :=
  { s with parser := s.parser.push P bytes, received := s.received ++ [bytes], reading := false }

/-- A chunk is passed on. Nothing can be passed on to a caller who has cancelled. -/
def Proxied.take (s : Proxied) (bytes : List UInt8) : Proxied :=
  let s := s.read P bytes
  if s.stream = .readable then { s with delivered := s.delivered ++ [bytes] }
  else s.settleOnce prepared .broken none

/-- The reader has reported its end. A stream that the caller has cancelled stays cancelled. -/
def Proxied.stop (s : Proxied) (last : StreamState) : Proxied :=
  { s with reading := false, stream := if s.stream = .readable then last else s.stream }

def apply (s : Proxied) : Event → Option Proxied
  | .throws =>
    if s.stage = .calling then some (s.settleNow .threw (settle prepared none .error .unresolved)) else none
  | .refuses => if s.stage = .calling then some (s.settleNow .refused (refusal prepared)) else none
  | .answers body =>
    if s.stage ≠ .calling then none
    else if body then some { s with stage := .metering }
    else some (s.settleNow .bodyless (settleMetered prepared none))
  | .pull =>
    if s.stage = .metering ∧ s.stream = .readable ∧ s.reading = false then some { s with reading := true } else none
  | .chunk bytes => if s.reading then some (s.take P prepared bytes) else none
  | .done =>
    if s.reading then some ((s.settleOnce prepared .finished (s.parser.finish P)).stop .closed) else none
  | .fails => if s.reading then some ((s.settleOnce prepared .broken none).stop .errored) else none
  | .cancel =>
    if s.stage = .metering ∧ s.stream = .readable then some { s with stream := .cancelled, cancelling := true }
    else none
  | .cancelled =>
    if s.cancelling then some { s.settleOnce prepared .cancelled none with cancelling := false } else none

/-- Nothing more comes to the caller. -/
def Proxied.ended (s : Proxied) : Prop := s.stage = .over ∨ s.stream ≠ .readable ∧ s.cancelling = false

/-! ## Accounting -/

/-- What is settled, from how the call ended and the bytes of the reply. -/
def settlementOf (exit : Exit) (bytes : List UInt8) : Settlement :=
  match exit with
  | .refused => refusal prepared
  | .finished => settleMetered prepared (usageOf P bytes)
  | _ => settle prepared none .error .unresolved

/-- The caller gets the bytes that are received, and the call is settled once, by its end and its bytes. -/
structure Accounted (s : Proxied) : Prop where
  delivered : s.stream ≠ .cancelled → s.delivered = s.received
  before : s.delivered <+: s.received
  settled : s.settlements = (s.exit.map fun exit => settlementOf P prepared exit s.received.flatten).toList
  ended : s.ended → s.exit.isSome

end HermesEnterprise.Providers
