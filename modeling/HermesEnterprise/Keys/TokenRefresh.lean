import HermesEnterprise.Foundation.Runs
import HermesEnterprise.Foundation.Tables
import Mathlib.Data.Nat.Notation

/-! # Refreshing a rotating token

A refresh runs in a transaction of its own that holds the credential row's lock while the
provider is asked. When it fails behind the answer, the answer is written again in a fresh
transaction. The server ends a transaction on its own: an abandoned one may abort at any
time, or commit once it was told to, whether or not anybody hears of it.
-/
namespace HermesEnterprise.Keys
open Foundation.Runs

abbrev CallId := ℕ

/-- `issue` is the place of the credential in the order in which the provider issued them. -/
structure Credential (C : Type) where
  issue : ℕ
  token : C
  deriving DecidableEq, Repr

inductive Stage (C : Type)
  | waiting
  | locked (current : Credential C)
  | asking (current : Credential C)
  | storing
  | stored
  | committing
  | returned
  | failed
  deriving DecidableEq, Repr

/-- A call of `refreshRotatingToken`. Attempt 0 is the first transaction; `answered` is what the
provider answered. -/
structure Call (C : Type) where
  attempt : ℕ
  answered : Option (Credential C)
  stage : Stage C
  deriving DecidableEq, Repr

/-- The transaction that holds the row lock. -/
structure Holder (C : Type) where
  call : CallId
  attempt : ℕ
  written : Option (Credential C)
  committing : Bool
  deriving DecidableEq, Repr

inductive Entry (C : Type)
  | spent (call : CallId) (credential : Credential C)
  | exchanged (call : CallId) (credential successor : Credential C)
  /-- By a call, or by a reconnection. -/
  | wrote (call : Option CallId) (credential : Credential C)
  deriving DecidableEq, Repr

/-- `log` is what happened, the oldest first. -/
structure World (C : Type) where
  row : Credential C
  lock : Option (Holder C)
  calls : CallId → Option (Call C)
  committed : List (CallId × ℕ)
  nextIssue : ℕ
  log : List (Entry C)

inductive Event (C : Type)
  | begins (call : CallId)
  | locks (call : CallId)
  | reuses (call : CallId)
  | asks (call : CallId)
  | answers (call : CallId) (token : C)
  | stores (call : CallId)
  | sendsCommit (call : CallId)
  | acknowledged (call : CallId)
  /-- The lock, the provider, the store or the commit throws. -/
  | throws (call : CallId)
  | crashes (call : CallId)
  | commits
  | aborts
  | reconnects (token : C)
  deriving DecidableEq, Repr

section Steps
variable {C : Type}

/-- `STORE_ATTEMPTS`. -/
def storeAttempts : ℕ := 3

/-- Without an answer the stored token is still the valid one, and the call fails. -/
def Call.caught (c : Call C) : Call C :=
  match c.answered with
  | none => { c with stage := .failed }
  | some _ =>
    if c.attempt + 1 < storeAttempts then { c with attempt := c.attempt + 1, stage := .waiting }
    else { c with stage := .failed }

variable (w : World C)

def setCall (call : CallId) (c : Call C) : World C :=
  { w with calls := fun k => if k = call then some c else w.calls k }

/-- The row lock, when a call's own transaction holds it. -/
def held (call : CallId) (c : Call C) : Option (Holder C) :=
  w.lock.filter fun h => h.call = call ∧ h.attempt = c.attempt

def apply : Event C → Except Unit (World C)
  | .begins call =>
    match w.calls call with
    | none => .ok (setCall w call ⟨0,none,.waiting⟩)
    | some _ => .error ()
  | .locks call =>
    match w.calls call, w.lock with
    | some c, none =>
      match c.stage with
      | .waiting =>
        -- what the row holds is looked at in the first transaction only
        let stage := if c.answered.isNone then .locked w.row else .storing
        .ok { setCall w call { c with stage := stage } with lock := some ⟨call,c.attempt,none,false⟩ }
      | _ => .error ()
    | _, _ => .error ()
  | .reuses call =>
    match w.calls call with
    | some c =>
      match c.stage, held w call c with
      | .locked _, some h =>
        .ok { setCall w call { c with stage := .committing } with lock := some { h with committing := true } }
      | _, _ => .error ()
    | none => .error ()
  | .asks call =>
    match w.calls call with
    | some c =>
      match c.stage with
      | .locked current =>
        .ok { setCall w call { c with stage := .asking current } with log := w.log ++ [.spent call current] }
      | _ => .error ()
    | none => .error ()
  | .answers call token =>
    match w.calls call with
    | some c =>
      match c.stage with
      | .asking current =>
        let next : Credential C := ⟨w.nextIssue,token⟩
        .ok { setCall w call { c with answered := some next, stage := .storing } with
          nextIssue := w.nextIssue + 1, log := w.log ++ [.exchanged call current next] }
      | _ => .error ()
    | none => .error ()
  | .stores call =>
    match w.calls call with
    | some c =>
      match c.stage, c.answered, held w call c with
      | .storing, some value, some h =>
        .ok { setCall w call { c with stage := .stored } with lock := some { h with written := some value } }
      | _, _, _ => .error ()
    | none => .error ()
  | .sendsCommit call =>
    match w.calls call with
    | some c =>
      match c.stage, held w call c with
      | .stored, some h =>
        .ok { setCall w call { c with stage := .committing } with lock := some { h with committing := true } }
      | _, _ => .error ()
    | none => .error ()
  | .acknowledged call =>
    match w.calls call with
    | some c =>
      match c.stage with
      | .committing =>
        if (call,c.attempt) ∈ w.committed then .ok (setCall w call { c with stage := .returned }) else .error ()
      | _ => .error ()
    | none => .error ()
  | .throws call =>
    match w.calls call with
    | some c =>
      match c.stage with
      | .returned => .error ()
      | .failed => .error ()
      | _ => .ok (setCall w call c.caught)
    | none => .error ()
  | .crashes call =>
    match w.calls call with
    | some c => .ok (setCall w call { c with stage := .failed })
    | none => .error ()
  | .commits =>
    match w.lock with
    | some h =>
      if h.committing then
        match h.written with
        | some value =>
          .ok { w with lock := none, row := value, committed := (h.call,h.attempt) :: w.committed,
                       log := w.log ++ [.wrote (some h.call) value] }
        | none => .ok { w with lock := none, committed := (h.call,h.attempt) :: w.committed }
      else .error ()
    | none => .error ()
  | .aborts =>
    match w.lock with
    | some _ => .ok { w with lock := none }
    | none => .error ()
  | .reconnects token =>
    match w.lock with
    | none =>
      let next : Credential C := ⟨w.nextIssue,token⟩
      .ok { w with row := next, nextIssue := w.nextIssue + 1, log := w.log ++ [.wrote none next] }
    | some _ => .error ()

def Step : World C → Event C → World C → Prop := Applied apply

/-- A stored credential, and no call yet. -/
def Initial : Prop :=
  w.lock = none ∧ (∀ call, w.calls call = none) ∧ w.committed = [] ∧ w.log = [.wrote none w.row] ∧
    w.row.issue < w.nextIssue

/-- The provider is asked under the row lock, and a row that is locked to write an answer again holds
no credential that was issued after it. -/
def admits : Event C → Bool
  | .asks call => (w.calls call).all fun c => (held w call c).isSome
  | .locks call => (w.calls call).all fun c => c.answered.all fun value => w.row.issue ≤ value.issue
  | _ => true

end Steps

section Properties
variable {C : Type} (w : World C)

/-- No credential is replaced by one that was issued earlier. -/
def NeverRolledBack : Prop :=
  ∀ before call credential later, w.log = before ++ .wrote call credential :: later →
    ∀ other earlier, .wrote other earlier ∈ before → earlier.issue ≤ credential.issue

/-- No refresh token is spent once a successor of it was committed. -/
def NeverRespent : Prop :=
  ∀ before call credential later, w.log = before ++ .spent call credential :: later →
    ∀ other successor, .exchanged other credential successor ∈ before →
      ∀ writer, .wrote writer successor ∉ before

end Properties
end HermesEnterprise.Keys
