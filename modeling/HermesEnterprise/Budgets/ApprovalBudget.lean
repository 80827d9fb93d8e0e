import HermesEnterprise.Approvals.Store
import HermesEnterprise.Foundation.Decimal
import HermesEnterprise.Foundation.Runs
import HermesEnterprise.Foundation.Tables

/-! # The reviewed budget of an approved run

A run that continues an approval draws on the budget a person reviewed. Before a
model call its upper bound is reserved; afterwards the reservation is reconciled
with what was consumed. The outcome of the run is projected onto the budget when
the run ends. Each of the three procedures commits its writes or changes nothing.
-/
namespace HermesEnterprise.Budgets
open Foundation.Decimal Foundation.Tables Approvals

abbrev ModelId := String
abbrev BudgetId := ℕ
abbrev ReservationId := ℕ

inductive RunStatus
  | working
  | waiting
  | stopping
  | stopped
  | error
  | completed
  deriving DecidableEq, Repr

inductive RuntimeKind
  | legacy
  | hermes
  deriving DecidableEq, Repr

/-- The part of a row of `runs` the budget procedures read. -/
structure RuntimeRun where
  status : RunStatus
  stopRequested : Bool
  runtimeKind : RuntimeKind
  agentId : AgentId
  sessionId : SessionId
  runtimeProfile : Option String
  modelId : ModelId
  attempt : ℕ
  deriving DecidableEq, Repr

inductive ContinuationState
  | pendingAuthorization
  | blockedProfile
  | blockedDependencies
  | ready
  | admitted
  | completed
  | declined
  | changesRequested
  | expired
  | superseded
  | cancelled
  | failed
  deriving DecidableEq, Repr

structure ContinuationRow where
  id : Uuid
  requestId : RequestId
  authorizationRevision : ℕ
  authorizationHash : String
  agentId : AgentId
  sessionId : SessionId
  runtimeProfile : String
  state : ContinuationState
  expiresAt : ℕ
  admittedRunId : Option RunId
  blockedReason : Option String
  deriving DecidableEq, Repr

inductive BudgetState
  | active
  | exhausted
  | closed
  | cancelled
  deriving DecidableEq, Repr

/-- The reviewed limits, with the checks of their columns. Costs count hundred-millionths. -/
structure BudgetCaps where
  costCap : ℤ
  totalTokenCap : ℤ
  callCap : ℕ
  maxOutputTokensPerCall : ℤ
  maxParallelCalls : ℕ
  retryCap : ℕ
  costCap_nonneg : 0 ≤ costCap
  totalTokenCap_pos : 0 < totalTokenCap
  callCap_pos : 0 < callCap
  maxOutputTokensPerCall_pos : 0 < maxOutputTokensPerCall
  maxParallelCalls_pos : 0 < maxParallelCalls
  deriving DecidableEq, Repr

structure BudgetRow where
  id : BudgetId
  continuationId : Uuid
  requestId : RequestId
  authorizationRevision : ℕ
  authorizationHash : String
  modelId : ModelId
  caps : BudgetCaps
  reservedCost : ℤ
  actualCost : Amount
  reservedTokens : ℤ
  actualTokens : ℤ
  callsReserved : ℕ
  callsReconciled : ℕ
  state : BudgetState

inductive ReservationStatus
  | reserved
  | completed
  | rejected
  | unresolved
  | cancelled
  deriving DecidableEq, Repr

structure ReservationRow where
  id : ReservationId
  budgetId : BudgetId
  runId : RunId
  modelId : ModelId
  inputTokenBound : ℤ
  outputTokenBound : ℤ
  reservedCost : ℤ
  actualInputTokens : Option ℤ
  actualOutputTokens : Option ℤ
  actualCachedInputTokens : Option ℤ
  actualCost : Option Amount
  status : ReservationStatus
  reconciledAt : Option ℕ

structure BudgetDb where
  now : ℕ
  nextId : ℕ
  runs : RunId → Option RuntimeRun
  continuations : List ContinuationRow
  requests : RequestId → Option ApprovalRow
  budgets : List BudgetRow
  reservations : List ReservationRow

/-- `IF … THEN RAISE EXCEPTION`. -/
def raiseIf (condition : Bool) (message : String) : Result Unit :=
  if condition then .error (.error message) else .ok ()

theorem raiseIf_eq_ok {condition : Bool} {message : String} {u : Unit} :
    raiseIf condition message = .ok u ↔ condition = false := by
  cases condition <;> simp [raiseIf]

/-- The row `SELECT … INTO` found, or the exception of `IF NOT FOUND`. -/
def found {α : Type} (row : Option α) (message : String) : Result α :=
  match row with
  | some a => .ok a
  | none => .error (.error message)

theorem found_eq_ok {α : Type} {row : Option α} {message : String} {a : α} :
    found row message = .ok a ↔ row = some a := by
  cases row <;> simp [found]

theorem map_fst_eq_ok {α β : Type} {r : Result (α × β)} {a : α} (h : r.map Prod.fst = .ok a) :
    ∃ b, r = .ok (a,b) := by
  cases r with
  | error e => cases h
  | ok p =>
    cases h
    exact ⟨p.2,rfl⟩

/-- The result of `bigint` arithmetic, which fails outside its range. -/
def bigint (n : ℤ) : Result ℤ :=
  if -2 ^ 63 ≤ n ∧ n < 2 ^ 63 then .ok n else .error (.error "bigint out of range")

theorem bigint_eq_ok {n m : ℤ} : bigint n = .ok m ↔ n = m ∧ -2 ^ 63 ≤ n ∧ n < 2 ^ 63 := by
  unfold bigint
  by_cases hn : -2 ^ 63 ≤ n ∧ n < 2 ^ 63
  · rw [if_pos hn, Except.ok.injEq]
    exact ⟨fun h => ⟨h,hn⟩,fun h => h.1⟩
  · rw [if_neg hn]
    simp only [reduceCtorEq, false_iff]
    exact fun h => hn h.2

section Reserve

structure ReserveArgs where
  runId : Option RunId
  modelId : Option ModelId
  inputTokenBound : Option ℤ
  outputTokenBound : Option ℤ
  reservedCost : Option Numeric
  deriving DecidableEq

/-- A working, unstopped run of the official runtime. -/
def activeRun (db : BudgetDb) (runId : Option RunId) : Result RuntimeRun := do
  let r ← found (runId.bind db.runs) "approval_budget_run_inactive"
  raiseIf (r.status ≠ .working || r.stopRequested || r.runtimeKind ≠ .hermes)
    "approval_budget_run_inactive"
  return r

/-- The approval still authorizes the continuation it was admitted for. -/
def authorizes (db : BudgetDb) (c : ContinuationRow) : Bool :=
  (db.requests c.requestId).any fun ar =>
    ar.status = .approved && ar.authorizationRevision = c.authorizationRevision &&
    ar.authorizationHash = c.authorizationHash && ar.workStatus = .admitted &&
    ar.continuationId = some c.id

def admittedContinuation (db : BudgetDb) (runId : Option RunId) : Option ContinuationRow :=
  runId.bind fun id => db.continuations.find? (·.admittedRunId = some id)

def liveContinuation (db : BudgetDb) (runId : Option RunId) (r : RuntimeRun) :
    Result ContinuationRow := do
  let c ← found (admittedContinuation db runId) "approval_budget_authorization_stale"
  raiseIf (c.state ≠ .admitted || c.expiresAt ≤ db.now || c.agentId ≠ r.agentId ||
    c.sessionId ≠ r.sessionId || some c.runtimeProfile ≠ r.runtimeProfile)
    "approval_budget_authorization_stale"
  raiseIf (!authorizes db c) "approval_budget_authorization_stale"
  return c

def activeReservations (db : BudgetDb) (b : BudgetRow) : ℕ :=
  (db.reservations.filter fun x => x.budgetId = b.id && x.status = .reserved).length

def budgetOf (db : BudgetDb) (continuationId : Uuid) : Option BudgetRow :=
  db.budgets.find? (·.continuationId = continuationId)

/-- The sum of two `bigint` values, NULL when one is. -/
def addNullable (a b : Option ℤ) : Result (Option ℤ) :=
  match a, b with
  | some a, some b => (bigint (a + b)).map some
  | _, _ => .ok none

def holdOn (b : BudgetRow) (reservedCost tokens : ℤ) : BudgetRow :=
  { b with
    reservedCost
    reservedTokens := b.reservedTokens + tokens
    callsReserved := b.callsReserved + 1
    state := if b.caps.callCap ≤ b.callsReserved + 1 then .exhausted else b.state }

def fitsCaps (b : BudgetRow) (tokens : Option ℤ) (cost : Option Numeric) : Result Unit := do
  let used ← bigint (b.actualTokens + b.reservedTokens)
  let wanted ← addNullable (some used) tokens
  raiseIf (wanted.any (b.caps.totalTokenCap < ·)) "approval_budget_token_limit"
  raiseIf (cost.any fun q =>
      (Amount.value b.caps.costCap).lt ((b.actualCost.value.add (Amount.value b.reservedCost)).add q))
    "approval_budget_cost_limit"

/-- Reserve before a cost-incurring model call. -/
def reserveApprovalModelBudget (db : BudgetDb) (args : ReserveArgs) :
    Result (BudgetDb × ReservationId × BudgetId) := do
  raiseIf (args.inputTokenBound.any (· < 0) || args.outputTokenBound.any (· ≤ 0) ||
    args.reservedCost.any (·.lt (.finite 0))) "approval_budget_invalid_bound"
  let r ← activeRun db args.runId
  let c ← liveContinuation db args.runId r
  let b ← found (budgetOf db c.id) "approval_budget_missing"
  raiseIf (b.authorizationRevision ≠ c.authorizationRevision ||
    b.authorizationHash ≠ c.authorizationHash) "approval_budget_authorization_stale"
  raiseIf (b.state ≠ .active) "approval_budget_exhausted"
  raiseIf (args.modelId.any (b.modelId ≠ ·) || args.modelId.any (r.modelId ≠ ·))
    "approval_budget_model_mismatch"
  raiseIf (args.outputTokenBound.any (b.caps.maxOutputTokensPerCall < ·))
    "approval_budget_output_bound_exceeded"
  raiseIf (b.caps.maxParallelCalls ≤ activeReservations db b) "approval_budget_parallel_limit"
  raiseIf (b.caps.callCap ≤ b.callsReserved) "approval_budget_call_limit"
  let tokenBound ← addNullable args.inputTokenBound args.outputTokenBound
  fitsCaps b tokenBound args.reservedCost
  -- every argument is NOT NULL in the inserted row, whose cost the cap has found finite
  match args.runId, args.modelId, args.inputTokenBound, args.outputTokenBound, args.reservedCost with
  | some runId, some modelId, some input, some output, some cost =>
    let reservedCost ← found (units cost) "numeric field overflow"
    let reservedTotal ← found (units ((Amount.value b.reservedCost).add cost)) "numeric field overflow"
    return ({ db with
      nextId := db.nextId + 1
      reservations := db.reservations ++ [{
        id := db.nextId
        budgetId := b.id
        runId
        modelId
        inputTokenBound := input
        outputTokenBound := output
        reservedCost
        actualInputTokens := none
        actualOutputTokens := none
        actualCachedInputTokens := none
        actualCost := none
        status := .reserved
        reconciledAt := none }]
      budgets := updateWhere (·.id = b.id) (holdOn · reservedTotal (input + output)) db.budgets },
      db.nextId, b.id)
  | _, _, _, _, _ => .error (.error "null value violates not-null constraint")

end Reserve

section Reconcile

inductive Resolution
  | completed
  | rejected
  | unresolved
  | cancelled
  deriving DecidableEq, Repr

def Resolution.ofText (text : String) : Option Resolution :=
  if text = "completed" then some .completed
  else if text = "rejected" then some .rejected
  else if text = "unresolved" then some .unresolved
  else if text = "cancelled" then some .cancelled
  else none

def Resolution.status : Resolution → ReservationStatus
  | .completed => .completed
  | .rejected => .rejected
  | .unresolved => .unresolved
  | .cancelled => .cancelled

structure ReconcileArgs where
  reservationId : Option ReservationId
  resolution : Option String
  inputTokens : Option ℤ
  outputTokens : Option ℤ
  cachedInputTokens : Option ℤ
  actualCost : Option Numeric
  deriving DecidableEq

/-- What a resolution consumes: the reported usage, nothing, or the whole reservation. -/
def consumedBy (x : ReservationRow) (resolution : Resolution) (args : ReconcileArgs) :
    Result (Numeric × ℤ) :=
  match resolution with
  | .completed =>
    match args.inputTokens, args.outputTokens, args.cachedInputTokens, args.actualCost with
    | some input, some output, some cached, some cost => do
      raiseIf (input < 0 || output < 0 || cached < 0 || cost.lt (.finite 0))
        "approval_budget_invalid_actual_usage"
      let tokens ← bigint (input + output)
      return (cost,tokens)
    | _, _, _, _ => .error (.error "approval_budget_invalid_actual_usage")
  | .rejected | .cancelled => .ok (.finite 0,0)
  | .unresolved => do
    let tokens ← bigint (x.inputTokenBound + x.outputTokenBound)
    return (Amount.value x.reservedCost,tokens)

/-- The state after a settlement: final states stay, and a spent budget is exhausted. -/
def settledState (b : BudgetRow) (cost : Numeric) (tokens : ℤ) : BudgetState :=
  if b.state = .closed ∨ b.state = .cancelled then b.state
  else if (b.actualCost.value.add cost).lt (Amount.value b.caps.costCap) = false ∨
      b.caps.totalTokenCap ≤ b.actualTokens + tokens ∨ b.caps.callCap ≤ b.callsReserved then .exhausted
  else .active

def settleOn (x : ReservationRow) (actualCost : Amount) (cost : Numeric) (tokens : ℤ)
    (b : BudgetRow) : BudgetRow :=
  { b with
    reservedCost := max 0 (b.reservedCost - x.reservedCost)
    reservedTokens := max 0 (b.reservedTokens - (x.inputTokenBound + x.outputTokenBound))
    actualCost
    actualTokens := b.actualTokens + tokens
    callsReconciled := b.callsReconciled + 1
    state := settledState b cost tokens }

def settleRow (now : ℕ) (resolution : Resolution) (args : ReconcileArgs) (actualCost : Amount)
    (x : ReservationRow) : ReservationRow :=
  { x with
    status := resolution.status
    actualInputTokens := args.inputTokens
    actualOutputTokens := args.outputTokens
    actualCachedInputTokens := args.cachedInputTokens
    actualCost := some actualCost
    reconciledAt := some now }

def settle (db : BudgetDb) (x : ReservationRow) (resolution : Resolution) (args : ReconcileArgs) :
    Result BudgetDb := do
  let b ← found (db.budgets.find? (·.id = x.budgetId)) "approval_budget_missing"
  let (cost,tokens) ← consumedBy x resolution args
  let rowCost ← found (store cost) "numeric field overflow"
  let actualCost ← found (store (b.actualCost.value.add cost)) "numeric field overflow"
  let _ ← bigint (b.actualTokens + tokens)
  return { db with
    reservations := updateWhere (·.id = x.id) (settleRow db.now resolution args rowCost)
      db.reservations
    budgets := updateWhere (·.id = b.id) (settleOn x actualCost cost tokens) db.budgets }

/-- Reconcile exactly once. A call without trustworthy usage is `unresolved` and consumes its
whole reservation. -/
def reconcileApprovalModelBudget (db : BudgetDb) (args : ReconcileArgs) :
    Result (BudgetDb × Bool) := do
  raiseIf (args.resolution.any fun text => (Resolution.ofText text).isNone)
    "approval_budget_invalid_resolution"
  match args.reservationId.bind fun id => db.reservations.find? (·.id = id) with
  | none => return (db,false)
  | some x =>
    if x.status ≠ .reserved then return (db,true)
    else
      -- a NULL resolution passes the test above and is refused by the column
      let resolution ← found (args.resolution.bind Resolution.ofText)
        "null value violates not-null constraint"
      let next ← settle db x resolution args
      return (next,true)

end Reconcile

section Outcome

def RunStatus.text : RunStatus → String
  | .working => "working"
  | .waiting => "waiting"
  | .stopping => "stopping"
  | .stopped => "stopped"
  | .error => "error"
  | .completed => "completed"

def ContinuationState.text : ContinuationState → String
  | .pendingAuthorization => "pending_authorization"
  | .blockedProfile => "blocked_profile"
  | .blockedDependencies => "blocked_dependencies"
  | .ready => "ready"
  | .admitted => "admitted"
  | .completed => "completed"
  | .declined => "declined"
  | .changesRequested => "changes_requested"
  | .expired => "expired"
  | .superseded => "superseded"
  | .cancelled => "cancelled"
  | .failed => "failed"

/-- `UPDATE approval_requests` for the authorization a continuation was admitted under. -/
def setWork (db : BudgetDb) (c : ContinuationRow) (status : WorkStatus) (reason : Option String) :
    RequestId → Option ApprovalRow := fun id =>
  (db.requests id).map fun ar =>
    if id = c.requestId ∧ ar.authorizationRevision = c.authorizationRevision ∧
        ar.authorizationHash = c.authorizationHash then
      { ar with workStatus := status, workReason := reason }
    else ar

/-- End the continuation and its budget, and project both onto the approval. -/
def endContinuation (db : BudgetDb) (c : ContinuationRow) (b : BudgetRow) (state : ContinuationState)
    (budgetState : BudgetState) (work : WorkStatus) (blocked workReason : Option String) : BudgetDb :=
  { db with
    requests := setWork db c work workReason
    continuations := updateWhere (·.id = c.id) (fun k => { k with state, blockedReason := blocked })
      db.continuations
    budgets := updateWhere (·.id = b.id) (fun k => { k with state := budgetState }) db.budgets }

def canRetry (db : BudgetDb) (r : RuntimeRun) (c : ContinuationRow) (b : BudgetRow) : Bool :=
  db.now < c.expiresAt && b.state = .active && r.attempt < b.caps.retryCap + 1

def retryReason (db : BudgetDb) (r : RuntimeRun) (c : ContinuationRow) (b : BudgetRow) : String :=
  if canRetry db r c b then "run_error_retry_available"
  else if c.expiresAt ≤ db.now then "approval_retry_authorization_expired"
  else if b.state ≠ .active then "approval_retry_budget_exhausted"
  else "approval_retry_limit"

/-- Project a terminal run onto its continuation, its approval and its budget. -/
def projectApprovalContinuationOutcome (db : BudgetDb) (runId : Option RunId) :
    Result (BudgetDb × String) :=
  match runId.bind db.runs, admittedContinuation db runId with
  | some r, some c =>
    if c.state ≠ .admitted then return (db,c.state.text)
    else if r.status ≠ .completed ∧ r.status ≠ .stopped ∧ r.status ≠ .error then
      return (db,"run_not_terminal")
    else do
      let b ← found (budgetOf db c.id) "approval_budget_missing"
      if r.status = .error then
        let reason := retryReason db r c b
        if canRetry db r c b then
          return ({ db with requests := setWork db c .admitted (some reason) },reason)
        else
          return (endContinuation db c b .failed .cancelled .cancelled (some reason) (some reason),
            reason)
      else if r.status = .completed then
        return (endContinuation db c b .completed .closed .completed none none,r.status.text)
      else
        let reason := some "continuation_run_stopped"
        return (endContinuation db c b .cancelled .cancelled .cancelled reason reason,r.status.text)
  | _, _ => return (db,"not_linked")

end Outcome

section System

/-- The columns of a new budget that its insert provides. -/
structure NewBudget where
  continuationId : Uuid
  requestId : RequestId
  authorizationRevision : ℕ
  authorizationHash : String
  modelId : ModelId
  caps : BudgetCaps

def NewBudget.row (new : NewBudget) (id : BudgetId) : BudgetRow where
  id
  continuationId := new.continuationId
  requestId := new.requestId
  authorizationRevision := new.authorizationRevision
  authorizationHash := new.authorizationHash
  modelId := new.modelId
  caps := new.caps
  reservedCost := 0
  actualCost := (0 : ℤ)
  reservedTokens := 0
  actualTokens := 0
  callsReserved := 0
  callsReconciled := 0
  state := .active

/-- The insert at admission, which keeps the budget a continuation already has. -/
def openBudget (db : BudgetDb) (new : NewBudget) : Result BudgetDb := do
  if (budgetOf db new.continuationId).isSome then return db
  else
    raiseIf (db.budgets.any fun b => b.requestId = new.requestId &&
      b.authorizationRevision = new.authorizationRevision) "approval_runtime_budgets_revision"
    return { db with nextId := db.nextId + 1, budgets := db.budgets ++ [new.row db.nextId] }

/-- What other code may change between the budget procedures. -/
structure Surroundings where
  now : ℕ
  runs : RunId → Option RuntimeRun
  continuations : List ContinuationRow
  requests : RequestId → Option ApprovalRow

inductive BudgetEvent
  | surroundings (next : Surroundings)
  | openBudget (new : NewBudget)
  | reserve (args : ReserveArgs)
  | reconcile (args : ReconcileArgs)
  | project (runId : Option RunId)

/-- The database an event leaves; a refused one has none. -/
def applyBudget (db : BudgetDb) : BudgetEvent → Result BudgetDb
  | .surroundings next => .ok { db with
      now := next.now, runs := next.runs, continuations := next.continuations,
      requests := next.requests }
  | .openBudget new => openBudget db new
  | .reserve args => (reserveApprovalModelBudget db args).map Prod.fst
  | .reconcile args => (reconcileApprovalModelBudget db args).map Prod.fst
  | .project runId => (projectApprovalContinuationOutcome db runId).map Prod.fst

def BudgetStep : BudgetDb → BudgetEvent → BudgetDb → Prop := Foundation.Runs.Applied applyBudget

def NoBudgets (db : BudgetDb) : Prop := db.budgets = [] ∧ db.reservations = []

def ReachableBudgets : BudgetDb → Prop := Foundation.Runs.Reachable NoBudgets BudgetStep

end System

end HermesEnterprise.Budgets
