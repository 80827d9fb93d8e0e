import HermesEnterprise.Approvals.Drift
import HermesEnterprise.Approvals.System
import HermesEnterprise.Budgets.ApprovalBudget

/-! # Runs that continue an approval

An agent that asks for an approval may ask for a run to follow it. The intent is
bound to the revision it asked for. Admission starts at most one run for it, and
the run draws on the budget the reviewers saw.
-/
namespace HermesEnterprise.Continuations
open Approvals Budgets Foundation.Tables Jobs

/-- The text key of a turn; only admission makes the first form. -/
inductive ClientTurn
  | continuation (continuationId : Uuid) (revision : ℕ)
  | other (text : String)
  deriving DecidableEq, Repr

/-- A row of `runs`. -/
structure Run where
  id : RunId
  clientTurn : ClientTurn
  maxTurns : ℕ
  row : RuntimeRun
  deriving DecidableEq, Repr

/-- A row of `approval_continuations`. -/
structure Intent where
  row : ContinuationRow
  sourceRunId : Option RunId
  sourceToolCallId : Option String
  dependencyRequestIds : List RequestId
  deriving DecidableEq, Repr

/-- The reviewed parts of an approval that seed the new run, before they are printed. -/
structure ReviewedMessage where
  requestId : RequestId
  authorization : AuthorizationBinding
  proposal : ApprovalProposal
  resourceBindings : List ApprovalResourceBinding

/-- The `approval_continuation` message of a run. -/
structure ContinuationMessage where
  runId : RunId
  sessionId : SessionId
  reviewed : ReviewedMessage

/-- An admission that was committed. `created` tells whether it inserted the run. -/
structure Admission where
  continuationId : Uuid
  requestId : RequestId
  revision : ℕ
  hash : String
  runId : RunId
  retryCap : ℕ
  created : Bool
  deriving DecidableEq, Repr

/-- What the approval code reads of runs is in the directory of `db`. `admissions` is a ghost. -/
structure World where
  db : Db
  nextId : ℕ
  runs : List Run
  intents : List Intent
  budgets : List BudgetRow
  reservations : List ReservationRow
  messages : List ContinuationMessage
  admissions : List Admission

/-- The two fields of a reviewed budget that proposals keep unopened. -/
structure BudgetRest where
  retriesIncluded : ℕ
  illustrative : Bool
  deriving DecidableEq, Repr

/-- The platform of the approvals, and how the rest of a reviewed budget reads. -/
structure Runtime where
  platform : Platform
  budgetRest : ApprovalPayload → BudgetRest

section Rows
variable (w : World)

def World.run (runId : RunId) : Option Run := w.runs.find? fun r => decide (r.id = runId)

/-- The database of the budget procedures. -/
def World.budgetDb : BudgetDb where
  now := w.db.now
  nextId := w.nextId
  runs := fun id => (w.run id).map Run.row
  continuations := w.intents.map Intent.row
  requests := w.db.requests
  budgets := w.budgets
  reservations := w.reservations

/-- The row of a continuation after a budget procedure. -/
def Intent.reread (rows : List ContinuationRow) (i : Intent) : Intent :=
  { i with row := (rows.find? fun c => decide (c.id = i.row.id)).getD i.row }

/-- What a budget procedure wrote. -/
def World.withBudgets (b : BudgetDb) : World :=
  { w with
    db := { w.db with requests := b.requests }
    nextId := b.nextId
    intents := w.intents.map (Intent.reread b.continuations)
    budgets := b.budgets
    reservations := b.reservations }

def live : RunStatus → Bool
  | .working | .waiting | .stopping => true
  | .stopped | .error | .completed => false

/-- `runs_one_active_per_session`, for a row that becomes live. -/
def World.liveInSession (sessionId : SessionId) (but : RunId) : Bool :=
  w.runs.any fun r => decide (r.row.sessionId = sessionId) && decide (r.id ≠ but) && live r.row.status

def World.busy (agentId : AgentId) : Bool :=
  w.runs.any fun r => decide (r.row.agentId = agentId) && live r.row.status

def World.busyBut (agentId : AgentId) (but : RunId) : Bool :=
  w.runs.any fun r => decide (r.row.agentId = agentId) && decide (r.id ≠ but) && live r.row.status

/-- `UPDATE approval_requests` of one approval. -/
def World.setApproval (requestId : RequestId) (f : ApprovalRow → ApprovalRow) : World :=
  { w with db := { w.db with
      requests := fun id => if id = requestId then (w.db.requests id).map f else w.db.requests id } }

def World.setIntent (p : Intent → Bool) (f : ContinuationRow → ContinuationRow) : World :=
  { w with intents := updateWhere p (fun i => { i with row := f i.row }) w.intents }

def World.setRun (runId : RunId) (f : RuntimeRun → RuntimeRun) : World :=
  { w with runs := updateWhere (fun r => decide (r.id = runId)) (fun r => { r with row := f r.row }) w.runs }

end Rows

/-- The work columns of an approval. -/
def ApprovalRow.rework (row : ApprovalRow) (status : WorkStatus) (reason : Option String)
    (continuationId : Option Uuid) : ApprovalRow :=
  { row with workStatus := status, workReason := reason, continuationId := continuationId }

end HermesEnterprise.Continuations
