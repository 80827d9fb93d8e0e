import HermesEnterprise.Foundation.Runs
import HermesEnterprise.Jobs.Queue
import Mathlib.Data.List.MinMax

/-! # The job queue of all workspaces

Row-level security shows a transaction the jobs of its own workspace only. The
pointer table `job_ready` is a platform table: it is seen whole. Drainers claim a
job, work outside any transaction, and report by the job's id.
-/
namespace HermesEnterprise.Drain
open Approvals Foundation.Runs Foundation.Tables

abbrev WorkspaceId := ℕ
abbrev ClaimId := ℕ

/-- `payload` is the JSON text. -/
structure JobRow where
  id : JobId
  workspaceId : WorkspaceId
  kind : String
  key : String
  payload : String
  attempts : ℕ
  nextAt : ℕ
  lockedUntil : Option ℕ
  doneAt : Option ℕ
  lastError : Option String
  deriving DecidableEq, Repr

structure ReadyRow where
  jobId : JobId
  workspaceId : WorkspaceId
  nextAt : ℕ
  pauseReason : Option String
  deriving DecidableEq, Repr

structure Queue where
  rows : List JobRow
  ready : List ReadyRow
  nextId : JobId
  deriving DecidableEq, Repr

section Functions
variable (workspaceId : WorkspaceId) (now : ℕ) (q : Queue)

def paused (jobId : JobId) : Bool := q.ready.any fun p => p.jobId = jobId ∧ p.pauseReason.isSome

/-- Undone, not paused, and unlocked or expired. -/
def claimable (j : JobRow) : Bool :=
  j.workspaceId = workspaceId ∧ j.doneAt.isNone ∧ !paused q j.id ∧
    j.lockedUntil.all (fun l => l < now)

variable {workspaceId now q} in
theorem claimable_iff {j : JobRow} : claimable workspaceId now q j = true ↔
    j.workspaceId = workspaceId ∧ j.doneAt = none ∧ paused q j.id = false ∧ ∀ l, j.lockedUntil = some l → l < now := by
  have hall : j.lockedUntil.all (fun l => decide (l < now)) = true ↔ ∀ l, j.lockedUntil = some l → l < now := by
    cases j.lockedUntil <;> simp
  simp only [claimable, decide_eq_true_eq, Option.isNone_iff_eq_none, Bool.not_eq_true', hall]

def disabledError : String := "member_provisioning_disabled"

def claimed (j : JobRow) : JobRow :=
  { j with
    lockedUntil := some (now + Jobs.claimMs)
    attempts := j.attempts + 1
    lastError := if j.lastError = some disabledError then none else j.lastError }

theorem not_claimable_claimed (j : JobRow) : claimable workspaceId now q (claimed now j) = false := by
  by_contra h
  have hfree := (claimable_iff.mp (Bool.eq_true_of_not_eq_false h)).2.2.2 _ rfl
  exact absurd hfree (Nat.not_lt_of_le (Nat.le_add_right _ _))

def takeJob (j : JobRow) : Queue × JobRow :=
  ({ q with rows := updateWhere (fun r => r.id = j.id) (claimed now) q.rows },claimed now j)

def claimJob (jobId : JobId) : Option (Queue × JobRow) :=
  (q.rows.find? fun j => j.id = jobId ∧ claimable workspaceId now q j).map (takeJob now q)

/-- The due jobs that may be claimed now. -/
def candidates : List JobRow := q.rows.filter fun j => claimable workspaceId now q j ∧ j.nextAt ≤ now

/-- The claimable due job that is due first. -/
def claimNextJob : Option (Queue × JobRow) :=
  ((candidates workspaceId now q).argmin JobRow.nextAt).map (takeJob now q)

/-- The row of this id, as far as the workspace sees it. -/
def isJob (jobId : JobId) (j : JobRow) : Bool := j.workspaceId = workspaceId ∧ j.id = jobId

def retireJob (jobId : JobId) (f : JobRow → JobRow) : Queue :=
  { q with
    rows := updateWhere (isJob workspaceId jobId)
      (fun j => { f j with doneAt := some now, lockedUntil := none }) q.rows
    ready := q.ready.filter fun p => p.jobId ≠ jobId }

def finishJob (jobId : JobId) : Queue := retireJob workspaceId now q jobId id

def errorText (error : String) : String := String.ofList (error.toList.take 1000)

def finishFailedJob (jobId : JobId) (error : String) : Queue :=
  retireJob workspaceId now q jobId fun j => { j with lastError := some (errorText error) }

/-- Move a job and its pointer to another time. -/
def reschedule (jobId : JobId) (due : ℕ) (f : JobRow → JobRow) : Queue :=
  { q with
    rows := updateWhere (isJob workspaceId jobId) (fun j => { f j with nextAt := due }) q.rows
    ready := updateWhere (fun p => p.jobId = jobId) (fun p => { p with nextAt := due }) q.ready }

def failJob (jobId : JobId) (error : String) (attempts retryAfterSeconds : ℕ) : Queue :=
  reschedule workspaceId q jobId (now + Jobs.backoffMs attempts retryAfterSeconds) fun j =>
    { j with lockedUntil := none, lastError := some (errorText error) }

def hasKey (kind key : String) (j : JobRow) : Bool := j.kind = kind ∧ j.key = key

/-- A new job, due at `due`, with its pointer. -/
def insertJob (kind key payload : String) (due : ℕ) : Queue :=
  ⟨q.rows ++ [⟨q.nextId,workspaceId,kind,key,payload,0,due,none,none,none⟩],
    q.ready ++ [⟨q.nextId,workspaceId,due,none⟩],q.nextId + 1⟩

/-- `ON CONFLICT DO NOTHING`, whatever workspace holds the key. -/
def enqueueJob (kind key payload : String) : Queue :=
  if q.rows.any (hasKey kind key) then q else insertJob workspaceId q kind key payload now

/-- Enqueue and, if the job is new, put it and its pointer off until `due`. -/
def enqueueLater (kind key payload : String) (due : ℕ) : Queue :=
  if q.rows.any (hasKey kind key) then q
  else reschedule workspaceId (insertJob workspaceId q kind key payload now) q.nextId due id

/-- `INSERT INTO job_ready … ON CONFLICT DO UPDATE SET next_at`. -/
def pointReady (due : ℕ) (ready : List ReadyRow) (jobId : JobId) : List ReadyRow :=
  if ready.any (fun p => p.jobId = jobId) then
    updateWhere (fun p => p.jobId = jobId) (fun p => { p with nextAt := due }) ready
  else ready ++ [⟨jobId,workspaceId,due,none⟩]

def isDoneWith (kind key : String) (j : JobRow) : Bool :=
  j.workspaceId = workspaceId ∧ hasKey kind key j ∧ j.doneAt.isSome

/-- Rewrite the done jobs of a key as due now, and point at each. -/
def reviveJobs (kind key : String) (f : JobRow → JobRow) : Queue :=
  { q with
    rows := updateWhere (isDoneWith workspaceId kind key)
      (fun j => { f j with doneAt := none, lockedUntil := none, lastError := none, nextAt := now }) q.rows
    ready := ((q.rows.filter (isDoneWith workspaceId kind key)).map JobRow.id).foldl
      (pointReady workspaceId now) q.ready }

/-- `completeSendingOAuth`: enqueue the job of a waiting email, or revive the one it has. -/
def reviveSend (key payload : String) : Queue :=
  if q.rows.any (hasKey "outbound_email_send" key) then
    reviveJobs workspaceId now q "outbound_email_send" key id
  else insertJob workspaceId q "outbound_email_send" key payload now

/-- The key belongs to a job the workspace may not see: its upsert is refused. -/
def foreignKey (kind key : String) : Bool :=
  q.rows.any fun j => hasKey kind key j ∧ j.workspaceId ≠ workspaceId

/-- Enqueue an assessment, or run a finished one again with the new payload. -/
def requeueTriage (key payload : String) : Option Queue :=
  if foreignKey workspaceId q "request_triage" key then none
  else if q.rows.any (hasKey "request_triage" key) then
    some (reviveJobs workspaceId now q "request_triage" key fun j => { j with payload := payload })
  else some (insertJob workspaceId q "request_triage" key payload now)

/-- What the upsert of a re-verification writes: an undone job keeps its lease and the earlier time. -/
def reverified (payload : String) (due : ℕ) (j : JobRow) : JobRow :=
  if j.doneAt.isNone then { j with payload := payload, nextAt := min j.nextAt due }
  else { j with payload := payload, nextAt := due, doneAt := none, lockedUntil := none, attempts := 0,
                lastError := none }

def requeueReverify (key payload : String) (due : ℕ) : Option Queue :=
  if foreignKey workspaceId q "reverify" key then none
  else match q.rows.find? (hasKey "reverify" key) with
  | some j =>
    some { q with
      rows := updateWhere (fun r => r.id = j.id) (reverified payload due) q.rows
      ready := pointReady workspaceId (reverified payload due j).nextAt q.ready j.id }
  | none => some (insertJob workspaceId q "reverify" key payload due)

/-- An invitation was delivered: its undone expiry job, and the pointer, move to the new expiry. -/
def postponeKey (kind key : String) (due : ℕ) : Queue :=
  let mine := fun j : JobRow => decide (j.workspaceId = workspaceId) && hasKey kind key j
  { q with
    rows := updateWhere (fun j => mine j && j.doneAt.isNone) (fun j => { j with nextAt := due }) q.rows
    ready := updateWhere (fun p => q.rows.any fun j => j.id = p.jobId && mine j)
      (fun p => { p with nextAt := due }) q.ready }

/-- The pointers a drain reads before it claims. -/
def dueReady : List ReadyRow := q.ready.filter fun p => p.pauseReason.isNone ∧ p.nextAt ≤ now

end Functions

/-- A job some drainer claimed and has not reported yet. -/
structure Claim where
  jobId : JobId
  workspaceId : WorkspaceId
  attempts : ℕ
  claimedAt : ℕ
  deriving DecidableEq, Repr

def Claim.lease (c : Claim) : ℕ := c.claimedAt + Jobs.claimMs

/-- The clock, the tables, and every claim a drainer still holds; a stopped drainer keeps its claim. -/
structure State where
  now : ℕ
  queue : Queue
  claims : ClaimId → Option Claim

inductive Event
  | enqueue (workspaceId : WorkspaceId) (kind key payload : String)
  | reviveSend (workspaceId : WorkspaceId) (key payload : String)
  | requeueTriage (workspaceId : WorkspaceId) (key payload : String)
  | requeueReverify (workspaceId : WorkspaceId) (key payload : String) (due : ℕ)
  | enqueueLater (workspaceId : WorkspaceId) (kind key payload : String) (due : ℕ)
  | postponeKey (workspaceId : WorkspaceId) (kind key : String) (due : ℕ)
  | claim (id : ClaimId) (workspaceId : WorkspaceId) (jobId : JobId)
  | claimNext (id : ClaimId) (workspaceId : WorkspaceId)
  | finish (id : ClaimId)
  | finishFailed (id : ClaimId) (error : String)
  | fail (id : ClaimId) (error : String) (retryAfterSeconds : ℕ)
  | tick (elapsed : ℕ)

section Steps
variable (s : State)

def holdClaim (id : ClaimId) (workspaceId : WorkspaceId) : Option (Queue × JobRow) → Option State
  | none => none
  | some (queue,job) => some { s with
      queue := queue
      claims := Function.update s.claims id (some ⟨job.id,workspaceId,job.attempts,s.now⟩) }

/-- A new claim, under an id no drainer uses. -/
def admitClaim (id : ClaimId) (workspaceId : WorkspaceId) (claimed : Option (Queue × JobRow)) :
    Except String State :=
  match s.claims id, holdClaim s id workspaceId claimed with
  | none, some t => .ok t
  | _, _ => .error "nothing to claim"

/-- A drainer reports the job it claimed, and forgets it. -/
def report (id : ClaimId) (f : Claim → Queue) : Except String State :=
  match s.claims id with
  | none => .error "no claim"
  | some c => .ok { s with queue := f c, claims := Function.update s.claims id none }

def withQueue (queue : Option Queue) : Except String State :=
  match queue with
  | none => .error "row-level security"
  | some queue => .ok { s with queue := queue }

def apply : Event → Except String State
  | .enqueue w kind key payload => .ok { s with queue := enqueueJob w s.now s.queue kind key payload }
  | .reviveSend w key payload => .ok { s with queue := reviveSend w s.now s.queue key payload }
  | .requeueTriage w key payload => withQueue s (requeueTriage w s.now s.queue key payload)
  | .requeueReverify w key payload due => withQueue s (requeueReverify w s.queue key payload due)
  | .enqueueLater w kind key payload due =>
    .ok { s with queue := enqueueLater w s.now s.queue kind key payload due }
  | .postponeKey w kind key due => .ok { s with queue := postponeKey w s.queue kind key due }
  | .claim id w jobId => admitClaim s id w (claimJob w s.now s.queue jobId)
  | .claimNext id w => admitClaim s id w (claimNextJob w s.now s.queue)
  | .finish id => report s id fun c => finishJob c.workspaceId s.now s.queue c.jobId
  | .finishFailed id error =>
    report s id fun c => finishFailedJob c.workspaceId s.now s.queue c.jobId error
  | .fail id error retryAfterSeconds => report s id fun c =>
      failJob c.workspaceId s.now s.queue c.jobId error c.attempts retryAfterSeconds
  | .tick elapsed => .ok { s with now := s.now + elapsed }

end Steps

def Step : State → Event → State → Prop := Applied apply

structure Initial (s : State) : Prop where
  rows : s.queue.rows = []
  ready : s.queue.ready = []
  claims : ∀ id, s.claims id = none

def ReachableState : State → Prop := Reachable Initial Step

end HermesEnterprise.Drain
