import HermesEnterprise.RunLog.History
import Mathlib.Data.List.Sort

/-! # One page of the nightly check

The rows of `stream_events` that carry a run's id, in id order, are given to the
validator, for each run of a page of runs.
-/
namespace HermesEnterprise.RunLog
open Foundation.Tables

abbrev WorkspaceId := ℕ

structure RunRow where
  id : RunId
  workspaceId : WorkspaceId
  createdAt : ℕ
  status : RunStatus
  deriving DecidableEq, Repr

structure StreamRow where
  workspaceId : WorkspaceId
  entry : Entry
  deriving DecidableEq, Repr

/-- `payload->>'run_id'` of a row. -/
def Entry.runId (e : Entry) : Option RunId :=
  match e.content with
  | .readable p => p.runId
  | .unreadable r _ _ => r

structure RunLogPage where
  runsChecked : ℕ
  violations : List (RunId × RunLogViolation)
  cursor : Option RunId

section Functions
variable (stream : List StreamRow) (workspaceId : WorkspaceId)

def slice (runId : RunId) : List Entry :=
  ((stream.filter fun r => r.workspaceId = workspaceId ∧ r.entry.runId = some runId).map
    (·.entry)).insertionSort fun a b => a.id ≤ b.id

/-- `(created_at, id) <= (created_at, id)`. -/
def createdBefore (a b : RunRow) : Bool :=
  a.createdAt < b.createdAt ∨ (a.createdAt = b.createdAt ∧ a.id ≤ b.id)

/-- `(created_at, id) > (SELECT created_at, id …)`, which no row passes when the cursor names no
run. -/
def afterCursor (runs : List RunRow) (cursor : Option RunId) (r : RunRow) : Bool :=
  match cursor with
  | none => true
  | some c => (runs.find? fun x => x.id = c).any fun x => !createdBefore r x

def pageRuns (runs : List RunRow) (cursor : Option RunId) (limit : ℕ) : List RunRow :=
  ((runs.filter fun r =>
    decide (r.workspaceId = workspaceId) && afterCursor runs cursor r).insertionSort
      fun a b => createdBefore a b = true).take limit

def runViolations (run : RunRow) : List RunLogViolation :=
  (validateRunLog (slice stream workspaceId run.id) ⟨run.status.terminal,[]⟩).violations

def validateRunLogPage (runs : List RunRow) (cursor : Option RunId) (limit : ℕ) : RunLogPage :=
  let page := pageRuns workspaceId runs cursor limit
  ⟨page.length,
    page.flatMap fun run => (runViolations stream workspaceId run).map fun v => (run.id,v),
    if page.length < limit then none else page.getLast?.map (·.id)⟩

end Functions

section Page
variable {stream : List StreamRow} {workspaceId : WorkspaceId} {runs : List RunRow}
variable {cursor : Option RunId} {limit : ℕ} {run : RunRow}

/-- What the page says of a run it reads. -/
theorem page_violations (hn : (runs.map (·.id)).Nodup) (h : run ∈ pageRuns workspaceId runs cursor limit)
    {v : RunLogViolation} : (run.id,v) ∈ (validateRunLogPage stream workspaceId runs cursor limit).violations ↔
      v ∈ runViolations stream workspaceId run := by
  have hmem : ∀ r ∈ pageRuns workspaceId runs cursor limit, r ∈ runs := by
    intro r hr
    have := List.mem_of_mem_take hr
    rw [List.mem_insertionSort] at this
    exact (List.mem_filter.mp this).1
  simp only [validateRunLogPage, List.mem_flatMap, List.mem_map, Prod.mk.injEq]
  constructor
  · rintro ⟨r,hr,w,hw,hid,rfl⟩
    have : r = run := List.inj_on_of_nodup_map hn (hmem r hr) (hmem run h) hid
    exact this ▸ hw
  · intro hv
    exact ⟨run,h,v,hv,rfl,rfl⟩

theorem sliceRun {runId : RunId} {e : Entry} (h : e ∈ slice stream workspaceId runId) :
    e.runId = some runId := by
  unfold slice at h
  rw [List.mem_insertionSort, List.mem_map] at h
  obtain ⟨r,hr,rfl⟩ := h
  exact (of_decide_eq_true (List.mem_filter.mp hr).2).2

/-- A slice of a stream kept in id order keeps the stream's order. -/
theorem slice_of_sorted {runId : RunId} (h : (stream.map (·.entry.id)).Pairwise (· < ·)) :
    slice stream workspaceId runId =
      (stream.filter fun r => r.workspaceId = workspaceId ∧ r.entry.runId = some runId).map
        (·.entry) := by
  unfold slice
  apply List.Pairwise.insertionSort_eq
  rw [List.pairwise_map] at h ⊢
  refine (h.filter _).imp ?_
  intro a b hab
  exact hab.le

end Page
end HermesEnterprise.RunLog
