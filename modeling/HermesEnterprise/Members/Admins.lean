import HermesEnterprise.Foundation.Runs
import HermesEnterprise.Members.Rows

/-! # Transactions on the member rows of a workspace

Removals and demotions by the routes, deletions of a user and membership events of the identity provider
write the member rows of one workspace at the same time. Every statement reads the rows committed when it
runs. A statement waits for a row lock that another open transaction holds, and the trigger looks at every
update.
-/
namespace HermesEnterprise.Members
open Foundation.Runs

/-- The key of the job that pushes the role of an Admin back to the provider. -/
structure Repromotion where
  memberId : ℕ
  eventId : ℕ
  deriving DecidableEq

/-- What a transaction is for. -/
inductive Request
  | route (memberId : ℕ) (action : RevokeAction)
  | userDeleted (userId : ℕ)
  | membership (eventId userId : ℕ) (inactive : Bool) (role : MemberRole) (membershipId : Option ℕ)
  deriving DecidableEq

/-- Where a transaction stands: the statement that it runs next. -/
inductive Phase
  | begun
  | revoking (member : Member) (action : RevokeAction)
  | counting (eventId : ℕ) (member : Member) (membershipId : Option ℕ)
  | lastAdmin (eventId : ℕ) (member : Member) (membershipId : Option ℕ)
  | mirroring (userId : ℕ) (role : MemberRole) (membershipId : Option ℕ)
  | ready
  | ended
  deriving DecidableEq

/-- A transaction with what it holds until it ends: the lock on the workspace row, the new version of a
member row and a queued job. -/
structure Tx where
  request : Request
  phase : Phase := .begun
  workspaceLock : Bool := false
  row : Option Member := none
  job : Option Repromotion := none
  deriving DecidableEq

structure State where
  members : List Member
  jobs : List Repromotion
  txs : List Tx
  deriving DecidableEq

inductive Event
  | begin (request : Request)
  | read (tx : ℕ)
  | count (tx : ℕ)
  | queue (tx : ℕ)
  | lock (tx : ℕ)
  | write (tx freshId : ℕ)
  | commit (tx : ℕ)
  | rollback (tx : ℕ)
  deriving DecidableEq

/-- A statement waits for a lock, or is not the next one. -/
inductive Halt | waits | notNext
  deriving DecidableEq

def State.setTx (s : State) (t : ℕ) (x : Tx) : State := { s with txs := s.txs.set t x }

/-- The first statement: the member row, and what follows from it. -/
def Request.afterRead (members : List Member) : Request → Phase
  | .route memberId action =>
    match members.find? (·.id == memberId) with
    | none => .ended
    | some m =>
      match action with
      | .remove => if m.status == .active then .revoking m .remove else .ready
      | .demote => if m.role == .admin then .revoking m .demote else .ready
  | .userDeleted userId =>
    match members.find? fun m => m.userId == userId && m.status == .active with
    | none => .ready
    | some m => .revoking m .remove
  | .membership eventId userId inactive role i =>
    let existing := members.find? (·.userId == userId);
    if inactive then
      match existing with
      | none => .ready
      | some m => if m.status == .active then .revoking m .remove else .ready
    else
      match existing with
      | none => .mirroring userId role i
      | some m => if m.isAdmin && role == .member then .counting eventId m i else .mirroring userId role i

/-- The count of the other Admins by `applyEvent`. -/
def afterCount (members : List Member) (eventId : ℕ) (member : Member) (membershipId : Option ℕ) : Phase :=
  if otherAdmins members member.id == 0 then .lastAdmin eventId member membershipId
  else .mirroring member.userId .member membershipId

/-- The stored row that the write of a transaction meets, and the row that it leaves. -/
def Tx.update (x : Tx) (members : List Member) (freshId : ℕ) : Option (Option Member × Member) :=
  match x.phase with
  | .revoking m action => (members.find? (·.id == m.id)).map fun old => (some old,action.on old)
  | .mirroring userId role i => some (mirrorMembership members userId role i freshId)
  | _ => none

/-- Another open transaction has written the row of the same user. -/
def rowLocked (txs : List Tx) (userId : ℕ) : Bool := txs.any fun y => y.row.any (·.userId == userId)

/-- A transaction that is over, committed or rolled back, holds nothing. -/
def Tx.over (x : Tx) : Tx := { request := x.request, phase := .ended }

def usedId (s : State) (id : ℕ) : Bool :=
  s.members.any (·.id == id) || s.txs.any fun y => y.row.any (·.id == id)

/-- The write of a member row by `revokeAccess` or `mirrorMembership`, under the trigger. -/
def writeRow (s : State) (t : ℕ) (x : Tx) (freshId : ℕ) : Except Halt State :=
  match x.update s.members freshId with
  | none => .ok (s.setTx t { x with phase := .ready })
  | some (old,new) =>
    if rowLocked s.txs new.userId then .error .waits
    else match old with
      | none => if usedId s freshId then .error .notNext else .ok (s.setTx t { x with phase := .ready, row := some new })
      | some old =>
        if keepsOneAdmin s.members old new then .ok (s.setTx t { x with phase := .ready, row := some new })
        else .ok (s.setTx t x.over)

def commitTx (s : State) (t : ℕ) (x : Tx) : State :=
  let members := match x.row with
    | none => s.members
    | some row => place s.members row;
  let jobs := match x.job with
    | none => s.jobs
    | some job => enqueueJob id s.jobs job;
  { members := members, jobs := jobs, txs := s.txs.set t x.over }

/-- The next statement of a transaction. -/
def statement (s : State) (t : ℕ) (x : Tx) : Event → Except Halt State
  | .read _ =>
    match x.phase with
    | .begun => .ok (s.setTx t { x with phase := x.request.afterRead s.members })
    | _ => .error .notNext
  | .count _ =>
    match x.phase with
    | .counting eventId m i => .ok (s.setTx t { x with phase := afterCount s.members eventId m i })
    | _ => .error .notNext
  | .queue _ =>
    match x.phase with
    | .lastAdmin eventId m _ => .ok (s.setTx t { x with phase := .ready, job := some ⟨m.id,eventId⟩ })
    | _ => .error .notNext
  | .lock _ =>
    match x.phase with
    | .revoking _ _ =>
      if s.txs.any Tx.workspaceLock then .error .waits else .ok (s.setTx t { x with workspaceLock := true })
    | _ => .error .notNext
  | .write _ freshId =>
    match x.phase with
    | .revoking _ _ => if x.workspaceLock then writeRow s t x freshId else .error .notNext
    | .mirroring _ _ _ => writeRow s t x freshId
    | _ => .error .notNext
  | .commit _ => if x.phase = .ready then .ok (commitTx s t x) else .error .notNext
  | .rollback _ => if x.phase = .ended then .error .notNext else .ok (s.setTx t x.over)
  | .begin _ => .error .notNext

/-- The transaction whose statement an event is. -/
def Event.tx : Event → Option ℕ
  | .begin _ => none
  | .read t | .count t | .queue t | .lock t | .write t _ | .commit t | .rollback t => some t

def apply (s : State) (e : Event) : Except Halt State :=
  match e with
  | .begin request => .ok { s with txs := s.txs ++ [{ request := request }] }
  | .read t | .count t | .queue t | .lock t | .write t _ | .commit t | .rollback t =>
    match s.txs[t]? with
    | none => .error .notNext
    | some x => statement s t x e

/-- The rows of a workspace before any of the transactions: a user has one, and one is an active Admin. -/
structure Initial (s : State) : Prop where
  users : (s.members.map Member.userId).Nodup
  ids : (s.members.map Member.id).Nodup
  admin : ∃ a ∈ s.members, a.isAdmin = true
  txs : s.txs = []

end HermesEnterprise.Members
