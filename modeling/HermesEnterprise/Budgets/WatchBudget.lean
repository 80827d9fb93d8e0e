import HermesEnterprise.Budgets.ApprovalBudget

/-! # The model budget of a watch check

A watch check may call a model a few times, under a cost cap of its own and a daily
cap it shares with the other checks of its agent. A reservation pins the verified
prices and the rounded-up cost of the worst case; its settlement is recomputed from
the pinned prices, and usage that cannot be right keeps the whole reservation.
-/
namespace HermesEnterprise.Budgets
open Foundation.Decimal Foundation.Tables Foundation.Runs Approvals

abbrev CheckId := ℕ

/-- The columns of a check that its guard makes immutable, with the checks of the table. Costs
count hundred-millionths. -/
structure WatchTerms where
  agentId : AgentId
  maxModelCalls : ℕ
  maxCostPerRun : ℤ
  maxCostPerDay : ℤ
  calls_range : 1 ≤ maxModelCalls ∧ maxModelCalls ≤ 8
  run_range : 1000000 ≤ maxCostPerRun ∧ maxCostPerRun ≤ 25000000
  day_range : maxCostPerRun ≤ maxCostPerDay ∧ maxCostPerDay ≤ 100000000
  deriving DecidableEq, Repr

structure WatchCheck extends WatchTerms where
  id : CheckId
  deriving DecidableEq, Repr

inductive WatchCheckStatus
  | checking
  | baseline
  | unchanged
  | changed
  | failed
  | cancelled
  deriving DecidableEq, Repr

/-- The columns of a check that change, and whether its assignment still authorizes it. -/
structure WatchCheckLive where
  runId : Option RunId
  status : WatchCheckStatus
  authorized : Bool
  deriving DecidableEq, Repr

structure WatchRun where
  status : RunStatus
  stopRequested : Bool
  runtimeKind : RuntimeKind
  attempt : ℕ
  runtimeAttempt : Option ℕ
  agentId : AgentId
  modelId : ModelId
  deriving DecidableEq, Repr

/-- A catalog row; prices per million tokens are texts in its JSON column. -/
structure CatalogRow where
  disabledReason : Option String
  supportsTools : Bool
  pricingVerifiedOn : Option ℕ
  contextLength : Option ℤ
  inputPrice : Option String
  outputPrice : Option String
  cachedInputPrice : Option String
  deriving DecidableEq, Repr

structure WatchReservation where
  id : ReservationId
  agentId : AgentId
  checkId : CheckId
  runId : RunId
  runAttempt : ℕ
  modelId : ModelId
  budgetDay : ℕ
  inputTokenBound : ℤ
  outputTokenBound : ℤ
  inputPrice : ℚ
  outputPrice : ℚ
  cachedInputPrice : ℚ
  pricingVerifiedOn : ℕ
  reservedCost : ℤ
  consumedCost : Option ℤ
  status : ReservationStatus
  inputTokens : Option ℤ
  outputTokens : Option ℤ
  cachedInputTokens : Option ℤ
  settledAt : Option ℕ
  deriving DecidableEq, Repr

structure WatchDb where
  now : ℕ
  utcDay : ℕ
  currentDate : ℕ
  nextId : ℕ
  checks : List WatchCheck
  live : CheckId → WatchCheckLive
  runs : RunId → Option WatchRun
  catalog : ModelId → Option CatalogRow
  reservations : List WatchReservation

section Prices

def digitsValue (digits : List Char) : ℕ :=
  digits.foldl (fun n c => 10 * n + (c.toNat - '0'.toNat)) 0

/-- The value of a text that matches `^[0-9]+([.][0-9]+)?$`. -/
def priceValue (text : String) : Option ℚ :=
  let whole := text.toList.takeWhile Char.isDigit
  let rest := text.toList.dropWhile Char.isDigit
  if whole = [] then none
  else match rest with
  | [] => some (digitsValue whole)
  | c :: fraction =>
    if c = '.' ∧ fraction ≠ [] ∧ fraction.all Char.isDigit then
      some (digitsValue whole + digitsValue fraction / 10 ^ fraction.length)
    else none

/-- The prices of a catalog row, the cached one being the input price when there is none. -/
def CatalogRow.prices (m : CatalogRow) : Option (ℚ × ℚ × ℚ) := do
  let input ← m.inputPrice.bind priceValue
  let output ← m.outputPrice.bind priceValue
  let cached ← match m.cachedInputPrice with
    | none => some input
    | some text => priceValue text
  return (input,output,cached)

/-- `ceil(… / 1000000 * 100000000) / 100000000`, in hundred-millionths. -/
def roundedCost (perMillion : ℚ) : ℤ := ⌈perMillion / 1000000 * 100000000⌉

def worstCost (inputBound outputBound : ℤ) (input output cached : ℚ) : ℤ :=
  roundedCost (inputBound * max input cached + outputBound * output)

def usageCost (input output cached : ℤ) (inputPrice outputPrice cachedPrice : ℚ) : ℤ :=
  roundedCost ((input - cached) * inputPrice + cached * cachedPrice + output * outputPrice)

end Prices

section Reserve

structure WatchReserveArgs where
  runId : Option RunId
  modelId : Option ModelId
  inputTokenBound : Option ℤ
  outputTokenBound : Option ℤ
  reservedCost : Option Numeric
  runAttempt : Option ℕ
  deriving DecidableEq

/-- What a reservation counts against its caps. -/
def WatchReservation.charge (x : WatchReservation) : ℤ := x.consumedCost.getD x.reservedCost

def ofCheck (id : CheckId) (x : WatchReservation) : Bool := x.checkId = id

def ofDay (agentId : AgentId) (day : ℕ) (x : WatchReservation) : Bool :=
  x.agentId = agentId && x.budgetDay = day

def watchRun (db : WatchDb) (c : WatchCheck) (runId : RunId) (attempt : ℕ) : Result WatchRun := do
  let r ← found (db.runs runId) "partner_watch_budget_run_inactive"
  raiseIf (r.status ≠ .working || r.stopRequested || r.runtimeKind ≠ .hermes || r.attempt ≠ attempt ||
    r.runtimeAttempt ≠ some r.attempt || r.agentId ≠ c.agentId) "partner_watch_budget_run_inactive"
  return r

/-- The catalog row with its verified date, context length and prices. -/
def verifiedModel (db : WatchDb) (modelId : ModelId) (input output : ℤ) :
    Result (ℕ × ℚ × ℚ × ℚ) := do
  let m ← found (db.catalog modelId) "partner_watch_budget_price_unknown"
  raiseIf (m.disabledReason.isSome || !m.supportsTools) "partner_watch_budget_price_unknown"
  let verifiedOn ← found m.pricingVerifiedOn "partner_watch_budget_price_unknown"
  raiseIf (db.currentDate < verifiedOn) "partner_watch_budget_price_unknown"
  let context ← found m.contextLength "partner_watch_budget_price_unknown"
  raiseIf (context - output < input) "partner_watch_budget_price_unknown"
  let prices ← found m.prices "partner_watch_budget_price_unknown"
  raiseIf (input ≠ context - output) "partner_watch_budget_context_bound_unknown"
  return (verifiedOn,prices)

def fitsWatchCaps (db : WatchDb) (c : WatchCheck) (cost : ℤ) : Result Unit := do
  raiseIf (c.maxModelCalls ≤ count (ofCheck c.id) db.reservations) "partner_watch_budget_call_limit"
  raiseIf (c.maxCostPerRun < total (·.charge) (ofCheck c.id) db.reservations + cost)
    "partner_watch_budget_cost_limit"
  raiseIf (c.maxCostPerDay < total (·.charge) (ofDay c.agentId db.utcDay) db.reservations + cost)
    "partner_watch_budget_daily_cost_limit"

/-- Reserve the worst case of one call; the caller's amount must cover it and is not stored. -/
def reservePartnerWatchModelBudget (db : WatchDb) (args : WatchReserveArgs) :
    Result (WatchDb × ReservationId × CheckId) :=
  match args.inputTokenBound, args.outputTokenBound, args.reservedCost, args.runAttempt with
  | some input, some output, some target, some attempt => do
    raiseIf (input < 0 || !(1 ≤ output && output ≤ 2048) || target.lt (.finite 0) ||
      !target.lt .infinity) "partner_watch_budget_invalid_bound"
    let runId ← found args.runId "partner_watch_budget_missing"
    let c ← found (db.checks.find? fun c => (db.live c.id).runId = some runId)
      "partner_watch_budget_missing"
    let r ← watchRun db c runId attempt
    raiseIf ((db.live c.id).status ≠ .changed || !(db.live c.id).authorized)
      "partner_watch_budget_authorization_stale"
    raiseIf (some r.modelId ≠ args.modelId) "partner_watch_budget_model_mismatch"
    let (verifiedOn,inputPrice,outputPrice,cachedPrice) ← verifiedModel db r.modelId input output
    let cost := worstCost input output inputPrice outputPrice cachedPrice
    raiseIf (target.lt (Amount.value cost)) "partner_watch_budget_price_changed"
    fitsWatchCaps db c cost
    return ({ db with
      nextId := db.nextId + 1
      reservations := db.reservations ++ [{
        id := db.nextId
        agentId := c.agentId
        checkId := c.id
        runId
        runAttempt := r.attempt
        modelId := r.modelId
        budgetDay := db.utcDay
        inputTokenBound := input
        outputTokenBound := output
        inputPrice
        outputPrice
        cachedInputPrice := cachedPrice
        pricingVerifiedOn := verifiedOn
        reservedCost := cost
        consumedCost := none
        status := .reserved
        inputTokens := none
        outputTokens := none
        cachedInputTokens := none
        settledAt := none }] },
      db.nextId, c.id)
  | _, _, _, _ => .error (.error "partner_watch_budget_invalid_bound")

end Reserve

section Reconcile

/-- The reported usage; the reported dollars are not read. -/
structure WatchReconcileArgs where
  reservationId : Option ReservationId
  resolution : Option String
  inputTokens : Option ℤ
  outputTokens : Option ℤ
  cachedInputTokens : Option ℤ
  deriving DecidableEq

/-- Complete usage within the bounds of a reservation. -/
def usageWithin (x : WatchReservation) (args : WatchReconcileArgs) : Option (ℤ × ℤ × ℤ) :=
  match args.inputTokens, args.outputTokens, args.cachedInputTokens with
  | some input, some output, some cached =>
    if input < 0 ∨ x.inputTokenBound < input ∨ output < 0 ∨ x.outputTokenBound < output ∨
        cached < 0 ∨ input < cached then none
    else some (input,output,cached)
  | _, _, _ => none

/-- `UPDATE … SET status, consumed_cost_usd, …` of a settlement. -/
def closeWatchRow (now : ℕ) (x : WatchReservation) (status : ReservationStatus) (cost : ℤ)
    (usage : Option (ℤ × ℤ × ℤ)) : WatchReservation :=
  { x with
    status
    consumedCost := some cost
    inputTokens := usage.map fun u => u.1
    outputTokens := usage.map fun u => u.2.1
    cachedInputTokens := usage.map fun u => u.2.2
    settledAt := some now }

/-- The settled row; a completed call without usage within the bounds is unresolved. -/
def settleWatchRow (now : ℕ) (resolution : Resolution) (args : WatchReconcileArgs)
    (x : WatchReservation) : WatchReservation :=
  match resolution, usageWithin x args with
  | .completed, some (input,output,cached) =>
    closeWatchRow now x .completed
      (usageCost input output cached x.inputPrice x.outputPrice x.cachedInputPrice)
      (some (input,output,cached))
  | .rejected, _ => closeWatchRow now x .rejected 0 none
  | .cancelled, _ => closeWatchRow now x .cancelled 0 none
  | .completed, none | .unresolved, _ => closeWatchRow now x .unresolved x.reservedCost none

/-- The check of the table on a consumed cost. -/
def consumedInRange (x : WatchReservation) : Bool :=
  x.consumedCost.all fun c => 0 ≤ c && c ≤ x.reservedCost

def reconcilePartnerWatchModelBudget (db : WatchDb) (args : WatchReconcileArgs) :
    Result (WatchDb × Bool) := do
  let x ← found (args.reservationId.bind fun id => db.reservations.find? (·.id = id))
    "partner_watch_budget_reservation_missing"
  if x.status ≠ .reserved then return (db,true)
  else
    let resolution ← found (args.resolution.bind Resolution.ofText)
      "partner_watch_budget_invalid_resolution"
    raiseIf (!consumedInRange (settleWatchRow db.now resolution args x)) "check constraint violated"
    return ({ db with
      reservations := updateWhere (·.id = x.id) (settleWatchRow db.now resolution args)
        db.reservations },
      true)

end Reconcile

section System

/-- What other code may change between the watch budget procedures. -/
structure WatchSurroundings where
  now : ℕ
  utcDay : ℕ
  currentDate : ℕ
  live : CheckId → WatchCheckLive
  runs : RunId → Option WatchRun
  catalog : ModelId → Option CatalogRow

inductive WatchEvent
  | surroundings (next : WatchSurroundings)
  | beginCheck (terms : WatchTerms)
  | reserve (args : WatchReserveArgs)
  | reconcile (args : WatchReconcileArgs)

/-- Insert a check. -/
def beginCheck (db : WatchDb) (terms : WatchTerms) : WatchDb :=
  { db with
    nextId := db.nextId + 1
    checks := db.checks ++ [{ terms with id := db.nextId }] }

/-- The database an event leaves; a refused one has none. -/
def applyWatch (db : WatchDb) : WatchEvent → Result WatchDb
  | .surroundings next => .ok { db with
      now := next.now, utcDay := next.utcDay, currentDate := next.currentDate, live := next.live,
      runs := next.runs, catalog := next.catalog }
  | .beginCheck terms => .ok (beginCheck db terms)
  | .reserve args => (reservePartnerWatchModelBudget db args).map Prod.fst
  | .reconcile args => (reconcilePartnerWatchModelBudget db args).map Prod.fst

def WatchStep : WatchDb → WatchEvent → WatchDb → Prop := Applied applyWatch

def NoChecks (db : WatchDb) : Prop := db.checks = [] ∧ db.reservations = []

def ReachableWatch : WatchDb → Prop := Reachable NoChecks WatchStep

end System

end HermesEnterprise.Budgets
