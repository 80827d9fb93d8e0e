import HermesEnterprise.Members.Sync
import HermesEnterprise.Foundation.Exclusion

/-! # What was revoked

Access comes back only through what was decided after the revocation, every revocation is told to the
provider and the cursor moves forward, as long as no late event undoes a revocation that stands, the same
member is revoked in the same way once, and one poll runs at a time.
-/
namespace HermesEnterprise.Members
open Foundation.Runs Foundation.Exclusion

variable {s s' : Mirror} {e : MirrorEvent} {v : Revocation} {u : ℕ}

def Mirror.rowOf (s : Mirror) (userId : ℕ) : Option Member := s.members.find? (·.userId == userId)

/-- What a revocation took from its member, the member has. -/
def RevokeAction.undone (action : RevokeAction) (m : Member) : Bool :=
  match action with
  | .remove => m.status == .active
  | .demote => m.role == .admin

def Mirror.undone (s : Mirror) (v : Revocation) : Bool := (s.rowOf v.member.userId).any v.action.undone

/-- The event that a poll writes: its place in the stream, and an upsert for this user. -/
def Mirror.writes (s : Mirror) (e : MirrorEvent) (i userId : ℕ) : Prop :=
  ∃ p f q rest role membershipId, e = .write p f ∧ s.polls[p]? = some q ∧ q.pending = i :: rest ∧
    s.stream[i]? = some (.membership userId false role membershipId)

/-- Access that a revocation took comes back through a promotion or a later event of the provider. -/
def Stays (s : Mirror) (e : MirrorEvent) (s' : Mirror) : Prop :=
  ∀ v ∈ s.revocations, s.undone v = false → s'.undone v = true →
    (∃ i, v.since ≤ i ∧ s.writes e i v.member.userId) ∨
      (v.action = .demote ∧ ∃ m ∈ s.members, m.userId = v.member.userId ∧ ∃ nonce, e = .promote m.id nonce)

/-- Every new revocation has a job of its own that tells the provider. -/
def Told (s s' : Mirror) : Prop :=
  ∀ v, s'.revocations = s.revocations ++ [v] → ∃ job ∈ s'.jobs, job ∉ s.jobs ∧ job.done = false ∧ job.payload = v.payload

/-- The cursor does not move back, and no event is applied after a later one. -/
def Forward (s : Mirror) (e : MirrorEvent) (s' : Mirror) : Prop :=
  s.cursor ≤ s'.cursor ∧ ∀ p f q i rest, e = .write p f → s.polls[p]? = some q → q.pending = i :: rest →
    ∀ j ∈ s.applied, j ≤ i

/-- What the writes of a transaction leave as it is. -/
structure Framed (s s' : Mirror) : Prop where
  stream : s'.stream = s.stream
  cursor : s'.cursor = s.cursor
  polls : s'.polls = s.polls
  applied : s'.applied = s.applied

section CarryOut
variable {i freshId : ℕ} {phase : Phase}

end CarryOut

/-- A poll that lists one event is overtaken by one that lists two. -/
def overtaken : List MirrorEvent :=
  [.change (.membership 12 false .member (some 22)),.poll 50,.change (.membership 12 false .member (some 22)),
    .poll 50,.read 1,.write 1 9,.read 1,.write 1 9,.finish 1,.read 0,.write 0 9]

end HermesEnterprise.Members
