import HermesEnterprise.Approvals.Soundness
import HermesEnterprise.Budgets.ApprovalBudget

/-! # The reviewed budget is a hard cap

Every procedure either leaves the budgets alone, opens one, places a hold, settles
one hold, or ends a budget. Each change keeps the counters of every budget equal to
the sums over its reservations, so nothing a clamp would hide is ever lost.
-/
namespace HermesEnterprise.Budgets
open Foundation.Decimal Foundation.Tables Foundation.Runs Approvals

section Changes
variable {db db' : BudgetDb} {b : BudgetRow} {x : ReservationRow} {c : ContinuationRow}

/-- A reservation of `x` on `b` that passed every guard. -/
structure Hold (db : BudgetDb) (b : BudgetRow) (x : ReservationRow) (cost : Numeric)
    (reservedTotal : ℤ) : Prop where
  budget : b ∈ db.budgets
  active : b.state = .active
  id : x.id = db.nextId
  belongs : x.budgetId = b.id
  status : x.status = .reserved
  unsettled : x.actualCost = none
  input : 0 ≤ x.inputTokenBound
  output : 0 < x.outputTokenBound
  nonneg : cost.lt (.finite 0) = false
  units : units cost = some x.reservedCost
  total : Foundation.Decimal.units ((Amount.value b.reservedCost).add cost) = some reservedTotal
  parallel : activeReservations db b < b.caps.maxParallelCalls
  calls : b.callsReserved < b.caps.callCap
  tokens : b.actualTokens + b.reservedTokens + (x.inputTokenBound + x.outputTokenBound) ≤
    b.caps.totalTokenCap
  cost : (Amount.value b.caps.costCap).lt
    ((b.actualCost.value.add (Amount.value b.reservedCost)).add cost) = false

/-- A settlement of the reserved row `x` on its budget `b`. -/
structure Settlement (db : BudgetDb) (b : BudgetRow) (x : ReservationRow) (resolution : Resolution)
    (args : ReconcileArgs) (cost : Numeric) (tokens : ℤ) (rowCost actualCost : Amount) : Prop where
  budget : b ∈ db.budgets
  belongs : x.budgetId = b.id
  row : x ∈ db.reservations
  status : x.status = .reserved
  consumed : consumedBy x resolution args = .ok (cost,tokens)
  rowCost : store cost = some rowCost
  actualCost : store (b.actualCost.value.add cost) = some actualCost

/-- What a step does to budgets and reservations. -/
inductive BudgetChange (db db' : BudgetDb) : Prop
  | elsewhere (budgets : db'.budgets = db.budgets) (reservations : db'.reservations = db.reservations)
      (nextId : db'.nextId = db.nextId)
  | opened (new : NewBudget) (budgets : db'.budgets = db.budgets ++ [new.row db.nextId])
      (reservations : db'.reservations = db.reservations) (nextId : db'.nextId = db.nextId + 1)
  | held (b : BudgetRow) (x : ReservationRow) (cost : Numeric) (reservedTotal : ℤ)
      (hold : Hold db b x cost reservedTotal)
      (budgets : db'.budgets = updateWhere (·.id = b.id)
        (holdOn · reservedTotal (x.inputTokenBound + x.outputTokenBound)) db.budgets)
      (reservations : db'.reservations = db.reservations ++ [x]) (nextId : db'.nextId = db.nextId + 1)
  | settled (b : BudgetRow) (x : ReservationRow) (resolution : Resolution) (args : ReconcileArgs)
      (cost : Numeric) (tokens : ℤ) (rowCost actualCost : Amount)
      (settlement : Settlement db b x resolution args cost tokens rowCost actualCost)
      (budgets : db'.budgets =
        updateWhere (·.id = b.id) (settleOn x actualCost cost tokens) db.budgets)
      (reservations : db'.reservations =
        updateWhere (·.id = x.id) (settleRow db.now resolution args rowCost) db.reservations)
      (nextId : db'.nextId = db.nextId)
  | ended (b : BudgetRow) (state : BudgetState) (budget : b ∈ db.budgets) (final : state ≠ .active)
      (spent : state ≠ .exhausted)
      (budgets : db'.budgets = updateWhere (·.id = b.id) (fun k => { k with state }) db.budgets)
      (reservations : db'.reservations = db.reservations) (nextId : db'.nextId = db.nextId)

theorem budgetOf_mem {id : Uuid} (h : budgetOf db id = some b) : b ∈ db.budgets :=
  List.mem_of_find?_eq_some h

theorem addNullable_some {a b : ℤ} {r : Option ℤ} (h : addNullable (some a) (some b) = .ok r) :
    r = some (a + b) := by
  simp only [addNullable] at h
  cases hb : bigint (a + b) with
  | error e => rw [hb] at h; cases h
  | ok n =>
    rw [hb] at h
    cases h
    rw [(bigint_eq_ok.mp hb).1]

theorem fitsCaps_ok {tokens : ℤ} {cost : Numeric} {u : Unit}
    (h : fitsCaps b (some tokens) (some cost) = .ok u) :
    b.actualTokens + b.reservedTokens + tokens ≤ b.caps.totalTokenCap ∧
      (Amount.value b.caps.costCap).lt
        ((b.actualCost.value.add (Amount.value b.reservedCost)).add cost) = false := by
  simp only [fitsCaps, Result.bind_eq_ok, raiseIf_eq_ok] at h
  obtain ⟨used,hused,wanted,hwanted,_,htokens,hcost⟩ := h
  obtain ⟨rfl,-⟩ := bigint_eq_ok.mp hused
  rw [addNullable_some hwanted] at htokens
  simp only [Option.any_some, decide_eq_false_iff_not, not_lt] at htokens
  exact ⟨htokens,hcost⟩

theorem reserve_change {args : ReserveArgs} {result : BudgetDb × ReservationId × BudgetId}
    (h : reserveApprovalModelBudget db args = .ok result) : BudgetChange db result.1 := by
  obtain ⟨runId,modelId,input,output,cost⟩ := args
  simp only [reserveApprovalModelBudget, Result.bind_eq_ok, raiseIf_eq_ok, found_eq_ok] at h
  obtain ⟨_,hbound,r,-,c,-,b,hb,_,-,_,hactive,_,-,_,-,_,hparallel,_,hcalls,bound,htokens,_,hfits,h⟩ := h
  split at h
  next runId modelId input output cost =>
    simp only [Result.bind_eq_ok, found_eq_ok, Result.pure_eq_ok] at h
    obtain ⟨reservedCost,hunits,reservedTotal,htotal,rfl⟩ := h
    rw [addNullable_some htokens] at hfits
    obtain ⟨hcap,hcost⟩ := fitsCaps_ok hfits
    simp only [Option.any_some, Bool.or_eq_false_iff, decide_eq_false_iff_not, not_lt, not_le]
      at hbound hactive hparallel hcalls
    exact .held b _ cost reservedTotal
      { budget := budgetOf_mem hb, active := by simpa using hactive, id := rfl, belongs := rfl,
        status := rfl, unsettled := rfl, input := hbound.1.1, output := hbound.1.2,
        nonneg := hbound.2, units := hunits, total := htotal, parallel := hparallel,
        calls := hcalls, tokens := hcap, cost := hcost } rfl rfl rfl
  next => cases h

theorem settle_change {resolution : Resolution} {args : ReconcileArgs} (hx : x ∈ db.reservations)
    (hstatus : x.status = .reserved) (h : settle db x resolution args = .ok db') :
    BudgetChange db db' := by
  simp only [settle, Result.bind_eq_ok, found_eq_ok, Result.pure_eq_ok] at h
  obtain ⟨b,hb,⟨cost,tokens⟩,hconsumed,rowCost,hrow,actualCost,hactual,_,-,rfl⟩ := h
  exact .settled b x resolution args cost tokens rowCost actualCost
    { budget := List.mem_of_find?_eq_some hb
      belongs := (show b.id = x.budgetId by simpa using List.find?_some hb).symm
      row := hx, status := hstatus, consumed := hconsumed, rowCost := hrow, actualCost := hactual }
    rfl rfl rfl

theorem reconcile_change {args : ReconcileArgs} {result : BudgetDb × Bool}
    (h : reconcileApprovalModelBudget db args = .ok result) : BudgetChange db result.1 := by
  simp only [reconcileApprovalModelBudget, Result.bind_eq_ok, raiseIf_eq_ok] at h
  obtain ⟨_,-,h⟩ := h
  split at h
  next =>
    cases h
    exact .elsewhere rfl rfl rfl
  next x hx =>
    obtain ⟨id,-,hfind⟩ := Option.bind_eq_some_iff.mp hx
    split at h
    next =>
      cases h
      exact .elsewhere rfl rfl rfl
    next hstatus =>
      simp only [Result.bind_eq_ok, found_eq_ok, Result.pure_eq_ok] at h
      obtain ⟨resolution,-,next,hsettle,rfl⟩ := h
      exact settle_change (List.mem_of_find?_eq_some hfind) (by simpa using hstatus) hsettle

theorem project_change {runId : Option RunId} {result : BudgetDb × String}
    (h : projectApprovalContinuationOutcome db runId = .ok result) : BudgetChange db result.1 := by
  unfold projectApprovalContinuationOutcome at h
  split at h
  next r c _ _ =>
    split at h
    · cases h
      exact .elsewhere rfl rfl rfl
    split at h
    · cases h
      exact .elsewhere rfl rfl rfl
    simp only [Result.bind_eq_ok, found_eq_ok] at h
    obtain ⟨b,hb,h⟩ := h
    have hmem := budgetOf_mem hb
    split at h
    · split at h
      · cases h
        exact .elsewhere rfl rfl rfl
      · cases h
        exact .ended b .cancelled hmem (by decide) (by decide) rfl rfl rfl
    · split at h
      · cases h
        exact .ended b .closed hmem (by decide) (by decide) rfl rfl rfl
      · cases h
        exact .ended b .cancelled hmem (by decide) (by decide) rfl rfl rfl
  next =>
    cases h
    exact .elsewhere rfl rfl rfl

theorem openBudget_change {new : NewBudget} (h : openBudget db new = .ok db') : BudgetChange db db' := by
  unfold openBudget at h
  split at h
  · cases h
    exact .elsewhere rfl rfl rfl
  · simp only [Result.bind_eq_ok, Result.pure_eq_ok] at h
    obtain ⟨_,-,rfl⟩ := h
    exact .opened new rfl rfl rfl

theorem BudgetStep.change {e : BudgetEvent} (h : BudgetStep db e db') : BudgetChange db db' := by
  cases e with
  | surroundings next =>
    cases h
    exact .elsewhere rfl rfl rfl
  | openBudget new => exact openBudget_change h
  | reserve args =>
    obtain ⟨_,hr⟩ := map_fst_eq_ok h
    exact reserve_change hr
  | reconcile args =>
    obtain ⟨_,hr⟩ := map_fst_eq_ok h
    exact reconcile_change hr
  | project runId =>
    obtain ⟨_,hr⟩ := map_fst_eq_ok h
    exact project_change hr

end Changes

/-- The most tokens a call may use. -/
def ReservationRow.tokenBound (x : ReservationRow) : ℤ := x.inputTokenBound + x.outputTokenBound

/-- The tokens a settled row consumed. -/
def ReservationRow.consumedTokens (x : ReservationRow) : ℤ :=
  match x.status with
  | .completed => x.actualInputTokens.getD 0 + x.actualOutputTokens.getD 0
  | .unresolved => x.tokenBound
  | .reserved | .rejected | .cancelled => 0

def ReservationRow.consumedCost (x : ReservationRow) : Amount := x.actualCost.getD 0

def ofBudget (id : BudgetId) (x : ReservationRow) : Bool := x.budgetId = id

def heldOn (id : BudgetId) (x : ReservationRow) : Bool := x.budgetId = id && x.status = .reserved

def settledOn (id : BudgetId) (x : ReservationRow) : Bool := x.budgetId = id && x.status ≠ .reserved

section Rows

structure RowSound (x : ReservationRow) : Prop where
  input : 0 ≤ x.inputTokenBound
  output : 0 < x.outputTokenBound
  reservedCost : 0 ≤ x.reservedCost
  consumedTokens : 0 ≤ x.consumedTokens
  consumedCost : 0 ≤ x.consumedCost

variable {db : BudgetDb} {b : BudgetRow} {x : ReservationRow} {resolution : Resolution}
variable {args : ReconcileArgs} {cost : Numeric} {tokens reservedTotal : ℤ}
variable {rowCost actualCost : Amount}

theorem RowSound.tokenBound_nonneg (h : RowSound x) : 0 ≤ x.tokenBound := by
  have hin := h.input
  have hout := h.output
  unfold ReservationRow.tokenBound
  omega

/-- What a settled row consumed, once it is stored. -/
theorem consumedBy_ok (now : ℕ) (rowCost : Amount) (hx : RowSound x)
    (h : consumedBy x resolution args = .ok (cost,tokens)) :
    cost.lt (.finite 0) = false ∧ 0 ≤ tokens ∧
      (settleRow now resolution args rowCost x).consumedTokens = tokens := by
  cases resolution with
  | completed =>
    simp only [consumedBy] at h
    split at h
    next input output cached reported hi ho _ _ =>
      simp only [Result.bind_eq_ok, raiseIf_eq_ok, Result.pure_eq_ok, Bool.or_eq_false_iff,
        decide_eq_false_iff_not, not_lt] at h
      obtain ⟨_,⟨⟨⟨hinput,houtput⟩,-⟩,hcost⟩,n,hn,heq⟩ := h
      obtain ⟨rfl,-⟩ := bigint_eq_ok.mp hn
      cases heq
      refine ⟨hcost,by omega,?_⟩
      simp [settleRow, Resolution.status, ReservationRow.consumedTokens, hi, ho]
    next => cases h
  | rejected | cancelled =>
    cases h
    exact ⟨by simp [Numeric.lt],le_rfl,rfl⟩
  | unresolved =>
    simp only [consumedBy, Result.bind_eq_ok, Result.pure_eq_ok] at h
    obtain ⟨n,hn,heq⟩ := h
    obtain ⟨rfl,-⟩ := bigint_eq_ok.mp hn
    cases heq
    refine ⟨?_,hx.tokenBound_nonneg,rfl⟩
    have hs : (0 : ℚ) < scale := by norm_num [scale]
    have hc : (0 : ℚ) ≤ x.reservedCost / scale :=
      div_nonneg (by exact_mod_cast hx.reservedCost) hs.le
    simpa [Numeric.lt] using hc

theorem consumedBy_unresolved (hx : RowSound x)
    (h : consumedBy x .unresolved args = .ok (cost,tokens)) (hstore : store cost = some rowCost) :
    rowCost = x.reservedCost := by
  simp only [consumedBy, Result.bind_eq_ok, Result.pure_eq_ok] at h
  obtain ⟨n,-,heq⟩ := h
  cases heq
  exact store_value_coe hx.reservedCost hstore

theorem consumedBy_released (hr : resolution = .rejected ∨ resolution = .cancelled)
    (h : consumedBy x resolution args = .ok (cost,tokens)) (hstore : store cost = some rowCost) :
    rowCost = 0 := by
  have hcost : cost = .finite 0 := by
    rcases hr with rfl | rfl <;> cases h <;> rfl
  have hzero : Amount.value ((0 : ℤ) : Amount) = .finite 0 := by
    rw [value_coe, Int.cast_zero, zero_div]
  rw [hcost, ← hzero] at hstore
  exact store_value_coe le_rfl hstore

theorem Hold.rowSound (h : Hold db b x cost reservedTotal) : RowSound x where
  input := h.input
  output := h.output
  reservedCost := units_nonneg h.nonneg h.units
  consumedTokens := by simp [ReservationRow.consumedTokens, h.status]
  consumedCost := by simp [ReservationRow.consumedCost, h.unsettled]

theorem Settlement.rowSound (h : Settlement db b x resolution args cost tokens rowCost actualCost)
    (hx : RowSound x) {now : ℕ} : RowSound (settleRow now resolution args rowCost x) := by
  obtain ⟨hcost,htokens,hrow⟩ := consumedBy_ok now rowCost hx h.consumed
  exact
    { input := hx.input, output := hx.output, reservedCost := hx.reservedCost
      consumedTokens := hrow ▸ htokens
      consumedCost := store_nonneg hcost h.rowCost }

end Rows

section Totals
variable {M : Type} [AddCommMonoid M] {rows : List ReservationRow} {x : ReservationRow}
variable {f : ReservationRow → M} {id : BudgetId} {resolution : Resolution} {args : ReconcileArgs}
variable {rowCost : Amount} {now : ℕ}

theorem heldOn_settleRow : heldOn id (settleRow now resolution args rowCost x) = false := by
  cases resolution <;> simp [heldOn, settleRow, Resolution.status]

theorem settledOn_settleRow : settledOn id (settleRow now resolution args rowCost x) =
    ofBudget id x := by
  cases resolution <;> exact Bool.and_true _

/-- A settled hold leaves the total of the holds. -/
theorem total_held_settle (f : ReservationRow → M) (id : BudgetId)
    (hn : (rows.map (·.id)).Nodup) (hx : x ∈ rows) (hs : x.status = .reserved) :
    total f (heldOn id) (updateWhere (·.id = x.id) (settleRow now resolution args rowCost) rows) +
      (if x.budgetId = id then f x else 0) = total f (heldOn id) rows := by
  have h := total_updateWhere (f := f) (p := heldOn id) (·.id)
    (settleRow now resolution args rowCost) hn hx
  rw [heldOn_settleRow] at h
  simpa [heldOn, hs] using h

/-- A settled hold joins the total of the settled rows. -/
theorem total_settled_settle (f : ReservationRow → M) (id : BudgetId)
    (hn : (rows.map (·.id)).Nodup) (hx : x ∈ rows) (hs : x.status = .reserved) :
    total f (settledOn id) (updateWhere (·.id = x.id) (settleRow now resolution args rowCost) rows) =
      total f (settledOn id) rows +
        (if x.budgetId = id then f (settleRow now resolution args rowCost x) else 0) := by
  have h := total_updateWhere (f := f) (p := settledOn id) (·.id)
    (settleRow now resolution args rowCost) hn hx
  rw [settledOn_settleRow] at h
  simpa [settledOn, ofBudget, hs] using h

theorem count_ofBudget_settle (hn : (rows.map (·.id)).Nodup) (hx : x ∈ rows) :
    count (ofBudget id) (updateWhere (·.id = x.id) (settleRow now resolution args rowCost) rows) =
      count (ofBudget id) rows := by
  have h := total_updateWhere (f := fun _ => (1 : ℕ)) (p := ofBudget id) (·.id)
    (settleRow now resolution args rowCost) hn hx
  have hkeep : ofBudget id (settleRow now resolution args rowCost x) = ofBudget id x := rfl
  rw [hkeep] at h
  rw [count_eq_total, count_eq_total]
  exact Nat.add_right_cancel h

end Totals

/-- The counters of a budget are the sums over its reservations. -/
structure Balanced (rows : List ReservationRow) (b : BudgetRow) : Prop where
  calls : b.callsReserved = count (ofBudget b.id) rows
  callCap : b.callsReserved ≤ b.caps.callCap
  parallel : count (heldOn b.id) rows ≤ b.caps.maxParallelCalls
  reservedCost : b.reservedCost = total (·.reservedCost) (heldOn b.id) rows
  reservedTokens : b.reservedTokens = total (·.tokenBound) (heldOn b.id) rows
  actualCost : b.actualCost = total (·.consumedCost) (settledOn b.id) rows
  actualTokens : b.actualTokens = total (·.consumedTokens) (settledOn b.id) rows
  reconciled : b.callsReconciled = count (settledOn b.id) rows

/-- What makes a budget `exhausted`, and never stops holding. -/
def Spent (b : BudgetRow) : Prop :=
  b.caps.callCap ≤ b.callsReserved ∨ (b.caps.costCap : Amount) ≤ b.actualCost ∨
    b.caps.totalTokenCap ≤ b.actualTokens

section Balance
variable {db : BudgetDb} {rows : List ReservationRow} {b k : BudgetRow} {x y : ReservationRow}
variable {resolution : Resolution} {args : ReconcileArgs} {cost : Numeric}
variable {tokens reservedTotal : ℤ} {rowCost actualCost : Amount}

@[simp] theorem holdOn_id : (holdOn b reservedTotal tokens).id = b.id := rfl

@[simp] theorem settleOn_id : (settleOn x actualCost cost tokens b).id = b.id := rfl

theorem Balanced.reservedCost_nonneg (h : Balanced rows b) (hrows : ∀ y ∈ rows, RowSound y) :
    0 ≤ b.reservedCost :=
  h.reservedCost ▸ total_nonneg fun y hy _ => (hrows y hy).reservedCost

theorem Balanced.actualCost_nonneg (h : Balanced rows b) (hrows : ∀ y ∈ rows, RowSound y) :
    0 ≤ b.actualCost :=
  h.actualCost ▸ total_nonneg fun y hy _ => (hrows y hy).consumedCost

theorem Balanced.reservedCost_le (h : Balanced rows b) (hrows : ∀ y ∈ rows, RowSound y)
    (hy : y ∈ rows) (hheld : heldOn b.id y = true) : y.reservedCost ≤ b.reservedCost := by
  rw [h.reservedCost]
  exact le_total (fun z hz _ => (hrows z hz).reservedCost) hy hheld

theorem Balanced.tokenBound_le (h : Balanced rows b) (hrows : ∀ y ∈ rows, RowSound y)
    (hy : y ∈ rows) (hheld : heldOn b.id y = true) : y.tokenBound ≤ b.reservedTokens := by
  rw [h.reservedTokens]
  exact le_total (fun z hz _ => (hrows z hz).tokenBound_nonneg) hy hheld

theorem Balanced.append_other (h : Balanced rows k) (hne : x.budgetId ≠ k.id) :
    Balanced (rows ++ [x]) k := by
  have hof : ofBudget k.id x = false := by simp [ofBudget, hne]
  have hheld : heldOn k.id x = false := by simp [heldOn, hne]
  have hsettled : settledOn k.id x = false := by simp [settledOn, hne]
  obtain ⟨hcalls,hcap,hpar,hrc,hrt,hac,hat,hrec⟩ := h
  simp only [count_eq_total] at hcalls hpar hrec
  constructor <;>
    simpa [count_eq_total, total_append_singleton, hof, hheld, hsettled] using by assumption

theorem Balanced.held (h : Balanced db.reservations b) (hrows : ∀ y ∈ db.reservations, RowSound y)
    (hold : Hold db b x cost reservedTotal) :
    Balanced (db.reservations ++ [x]) (holdOn b reservedTotal x.tokenBound) := by
  have hof : ofBudget b.id x = true := by simp [ofBudget, hold.belongs]
  have hheld : heldOn b.id x = true := by simp [heldOn, hold.belongs, hold.status]
  have hsettled : settledOn b.id x = false := by simp [settledOn, hold.status]
  have htotal : reservedTotal = b.reservedCost + x.reservedCost :=
    units_value_add (h.reservedCost_nonneg hrows) hold.nonneg hold.units hold.total
  have hpar : count (heldOn b.id) db.reservations < b.caps.maxParallelCalls := hold.parallel
  have hcalls := hold.calls
  constructor
  · simp [holdOn, count_eq_total, total_append_singleton, hof, h.calls]
  · simpa [holdOn] using hcalls
  · simp only [count_eq_total] at hpar
    simpa [holdOn, count_eq_total, total_append_singleton, hheld] using hpar
  · simp [holdOn, total_append_singleton, hheld, htotal, h.reservedCost]
  · simp [holdOn, total_append_singleton, hheld, h.reservedTokens]
  · simp [holdOn, total_append_singleton, hsettled, h.actualCost]
  · simp [holdOn, total_append_singleton, hsettled, h.actualTokens]
  · simp [holdOn, count_eq_total, total_append_singleton, hsettled, h.reconciled]

theorem Balanced.settle_other (h : Balanced rows k) (hn : (rows.map (·.id)).Nodup) (hx : x ∈ rows)
    (hs : x.status = .reserved) (hne : x.budgetId ≠ k.id) (now : ℕ) :
    Balanced (updateWhere (·.id = x.id) (settleRow now resolution args rowCost) rows) k := by
  have hheld {M : Type} [AddCommMonoid M] (f : ReservationRow → M) :
      total f (heldOn k.id) (updateWhere (·.id = x.id) (settleRow now resolution args rowCost) rows) =
        total f (heldOn k.id) rows := by
    simpa [hne] using total_held_settle f k.id hn hx hs
  have hsettled {M : Type} [AddCommMonoid M] (f : ReservationRow → M) :
      total f (settledOn k.id)
        (updateWhere (·.id = x.id) (settleRow now resolution args rowCost) rows) =
        total f (settledOn k.id) rows := by
    simpa [hne] using total_settled_settle f k.id hn hx hs
  constructor
  · rw [count_ofBudget_settle hn hx]; exact h.calls
  · exact h.callCap
  · rw [count_eq_total, hheld, ← count_eq_total]; exact h.parallel
  · rw [hheld]; exact h.reservedCost
  · rw [hheld]; exact h.reservedTokens
  · rw [hsettled]; exact h.actualCost
  · rw [hsettled]; exact h.actualTokens
  · rw [count_eq_total, hsettled, ← count_eq_total]; exact h.reconciled

theorem Balanced.settled (h : Balanced db.reservations b)
    (hn : (db.reservations.map (·.id)).Nodup) (hrows : ∀ y ∈ db.reservations, RowSound y)
    (hset : Settlement db b x resolution args cost tokens rowCost actualCost) :
    Balanced (updateWhere (·.id = x.id) (settleRow db.now resolution args rowCost) db.reservations)
      (settleOn x actualCost cost tokens b) := by
  obtain ⟨hcost,htokens,hconsumed⟩ :=
    consumedBy_ok db.now rowCost (hrows x hset.row) hset.consumed
  have hactual : actualCost = b.actualCost + rowCost :=
    store_value_add (h.actualCost_nonneg hrows) hcost hset.rowCost hset.actualCost
  have hheldx : heldOn b.id x = true := by simp [heldOn, hset.belongs, hset.status]
  have hheld {M : Type} [AddCommMonoid M] (f : ReservationRow → M) :
      total f (heldOn b.id) (updateWhere (·.id = x.id)
        (settleRow db.now resolution args rowCost) db.reservations) + f x =
        total f (heldOn b.id) db.reservations := by
    simpa [hset.belongs] using total_held_settle f b.id hn hset.row hset.status
  have hsettled {M : Type} [AddCommMonoid M] (f : ReservationRow → M) :
      total f (settledOn b.id) (updateWhere (·.id = x.id)
        (settleRow db.now resolution args rowCost) db.reservations) =
        total f (settledOn b.id) db.reservations +
          f (settleRow db.now resolution args rowCost x) := by
    simpa [hset.belongs] using total_settled_settle f b.id hn hset.row hset.status
  have hcostle := h.reservedCost_le hrows hset.row hheldx
  have htokenle := h.tokenBound_le hrows hset.row hheldx
  have hrc := hheld (·.reservedCost)
  have hrt := hheld (·.tokenBound)
  constructor
  · rw [count_ofBudget_settle hn hset.row]; exact h.calls
  · exact h.callCap
  · have hone := hheld fun _ => (1 : ℕ)
    have hpar := h.parallel
    simp only [count_eq_total] at hpar ⊢
    simp only [settleOn]
    omega
  · simp only [settleOn]
    rw [h.reservedCost] at hcostle ⊢
    omega
  · simp only [settleOn]
    rw [h.reservedTokens] at htokenle ⊢
    simp only [ReservationRow.tokenBound] at hrt htokenle ⊢
    omega
  · rw [settleOn_id, hsettled]
    exact hactual.trans (congrArg (· + rowCost) h.actualCost)
  · rw [settleOn_id, hsettled, hconsumed]
    exact congrArg (· + tokens) h.actualTokens
  · rw [settleOn_id, count_eq_total, hsettled, ← count_eq_total]
    exact congrArg (· + 1) h.reconciled

/-- A budget whose counters were zero when it got an id no reservation has. -/
theorem NewBudget.balanced (new : NewBudget) {id : BudgetId} (hfresh : ∀ y ∈ rows, y.budgetId ≠ id) :
    Balanced rows (new.row id) := by
  have hof : ∀ y ∈ rows, ofBudget id y = false := by
    intro y hy
    simp [ofBudget, hfresh y hy]
  have hheld : ∀ y ∈ rows, heldOn id y = false := by
    intro y hy
    simp [heldOn, hfresh y hy]
  have hsettled : ∀ y ∈ rows, settledOn id y = false := by
    intro y hy
    simp [settledOn, hfresh y hy]
  constructor <;> simp [NewBudget.row, count_eq_total, total_eq_zero hof, total_eq_zero hheld,
    total_eq_zero hsettled]

end Balance

/-- The invariant of every reachable database. -/
structure BudgetsSound (db : BudgetDb) : Prop where
  budgetIds : (db.budgets.map (·.id)).Nodup
  reservationIds : (db.reservations.map (·.id)).Nodup
  budgetFresh : ∀ b ∈ db.budgets, b.id < db.nextId
  reservationFresh : ∀ x ∈ db.reservations, x.id < db.nextId ∧ x.budgetId < db.nextId
  rows : ∀ x ∈ db.reservations, RowSound x
  balanced : ∀ b ∈ db.budgets, Balanced db.reservations b
  spent : ∀ b ∈ db.budgets, b.state = .exhausted → Spent b

section Invariant
variable {db db' : BudgetDb} {b k : BudgetRow} {x y : ReservationRow} {resolution : Resolution}
variable {args : ReconcileArgs} {cost : Numeric} {tokens reservedTotal : ℤ}
variable {rowCost actualCost : Amount} {state : BudgetState}

theorem Balanced.setState (h : Balanced db.reservations b) (state : BudgetState) :
    Balanced db.reservations { b with state } := by
  obtain ⟨hcalls,hcap,hpar,hrc,hrt,hac,hat,hrec⟩ := h
  exact ⟨hcalls,hcap,hpar,hrc,hrt,hac,hat,hrec⟩

theorem Hold.spent (h : Hold db b x cost reservedTotal)
    (hs : (holdOn b reservedTotal tokens).state = .exhausted) :
    Spent (holdOn b reservedTotal tokens) := by
  by_cases hcap : b.caps.callCap ≤ b.callsReserved + 1
  · exact Or.inl hcap
  · simp [holdOn, hcap, h.active] at hs

theorem Settlement.spent (h : Settlement db b x resolution args cost tokens rowCost actualCost)
    (hdb : BudgetsSound db) (hs : (settleOn x actualCost cost tokens b).state = .exhausted) :
    Spent (settleOn x actualCost cost tokens b) := by
  have hbal := hdb.balanced b h.budget
  have hnonneg := hbal.actualCost_nonneg hdb.rows
  obtain ⟨hcost,-,-⟩ := consumedBy_ok db.now rowCost (hdb.rows x h.row) h.consumed
  have hactual : actualCost = b.actualCost + rowCost :=
    store_value_add hnonneg hcost h.rowCost h.actualCost
  simp only [settleOn, settledState] at hs
  split at hs
  next hfinal => simp [hs] at hfinal
  next =>
    split at hs
    next hreached =>
      rcases hreached with hreached | hreached | hreached
      · right; left
        have hle := le_add_of_not_lt hnonneg b.caps.costCap_nonneg hcost h.rowCost hreached
        exact hle.trans_eq hactual.symm
      · exact Or.inr (Or.inr hreached)
      · exact Or.inl hreached
    next => cases hs

theorem BudgetsSound.initial (h : NoBudgets db) : BudgetsSound db := by
  obtain ⟨hb,hr⟩ := h
  constructor <;> simp [hb, hr]

theorem BudgetsSound.opened (h : BudgetsSound db) {new : NewBudget}
    (hbudgets : db'.budgets = db.budgets ++ [new.row db.nextId])
    (hrows : db'.reservations = db.reservations) (hnext : db'.nextId = db.nextId + 1) :
    BudgetsSound db' := by
  have hmem : ∀ k ∈ db'.budgets, k ∈ db.budgets ∨ k = new.row db.nextId := by
    intro k hk
    simpa [hbudgets] using hk
  constructor
  · rw [hbudgets]; exact nodup_append_fresh h.budgetIds h.budgetFresh rfl
  · rw [hrows]; exact h.reservationIds
  · intro k hk
    rw [hnext]
    rcases hmem k hk with hk | rfl
    · exact Nat.lt_succ_of_lt (h.budgetFresh k hk)
    · exact Nat.lt_succ_self _
  · intro y hy
    rw [hrows] at hy
    rw [hnext]
    exact (h.reservationFresh y hy).imp Nat.lt_succ_of_lt Nat.lt_succ_of_lt
  · rw [hrows]; exact h.rows
  · intro k hk
    rw [hrows]
    rcases hmem k hk with hk | rfl
    · exact h.balanced k hk
    · exact new.balanced fun y hy => (h.reservationFresh y hy).2.ne
  · intro k hk hs
    rcases hmem k hk with hk | rfl
    · exact h.spent k hk hs
    · cases hs

theorem BudgetsSound.held (h : BudgetsSound db) (hold : Hold db b x cost reservedTotal)
    (hbudgets : db'.budgets =
      updateWhere (·.id = b.id) (holdOn · reservedTotal (x.inputTokenBound + x.outputTokenBound))
        db.budgets)
    (hrows : db'.reservations = db.reservations ++ [x]) (hnext : db'.nextId = db.nextId + 1) :
    BudgetsSound db' := by
  have hmem : ∀ k ∈ db'.budgets, k = holdOn b reservedTotal x.tokenBound ∨
      (k ∈ db.budgets ∧ k.id ≠ b.id) := by
    intro k hk
    rw [hbudgets] at hk
    exact mem_updateWhere_key h.budgetIds hold.budget hk
  have hfresh := h.budgetFresh b hold.budget
  constructor
  · rw [hbudgets, map_updateWhere _ (by exact fun _ _ _ => rfl)]; exact h.budgetIds
  · rw [hrows]
    exact nodup_append_fresh h.reservationIds (fun y hy => (h.reservationFresh y hy).1) hold.id
  · intro k hk
    rw [hnext]
    rcases hmem k hk with rfl | ⟨hk,-⟩
    · exact Nat.lt_succ_of_lt hfresh
    · exact Nat.lt_succ_of_lt (h.budgetFresh k hk)
  · intro y hy
    rw [hrows, List.mem_append, List.mem_singleton] at hy
    rw [hnext]
    rcases hy with hy | rfl
    · exact (h.reservationFresh y hy).imp Nat.lt_succ_of_lt Nat.lt_succ_of_lt
    · rw [hold.id, hold.belongs]
      exact ⟨Nat.lt_succ_self _,Nat.lt_succ_of_lt hfresh⟩
  · intro y hy
    rw [hrows, List.mem_append, List.mem_singleton] at hy
    rcases hy with hy | rfl
    · exact h.rows y hy
    · exact hold.rowSound
  · intro k hk
    rw [hrows]
    rcases hmem k hk with rfl | ⟨hk,hne⟩
    · exact (h.balanced b hold.budget).held h.rows hold
    · exact (h.balanced k hk).append_other (hold.belongs ▸ Ne.symm hne)
  · intro k hk hs
    rcases hmem k hk with rfl | ⟨hk,-⟩
    · exact hold.spent hs
    · exact h.spent k hk hs

theorem BudgetsSound.settled (h : BudgetsSound db)
    (hset : Settlement db b x resolution args cost tokens rowCost actualCost)
    (hbudgets : db'.budgets =
      updateWhere (·.id = b.id) (settleOn x actualCost cost tokens) db.budgets)
    (hrows : db'.reservations =
      updateWhere (·.id = x.id) (settleRow db.now resolution args rowCost) db.reservations)
    (hnext : db'.nextId = db.nextId) : BudgetsSound db' := by
  have hmem : ∀ k ∈ db'.budgets, k = settleOn x actualCost cost tokens b ∨
      (k ∈ db.budgets ∧ k.id ≠ b.id) := by
    intro k hk
    rw [hbudgets] at hk
    exact mem_updateWhere_key h.budgetIds hset.budget hk
  have hrow : ∀ y ∈ db'.reservations, y = settleRow db.now resolution args rowCost x ∨
      (y ∈ db.reservations ∧ y.id ≠ x.id) := by
    intro y hy
    rw [hrows] at hy
    exact mem_updateWhere_key h.reservationIds hset.row hy
  constructor
  · rw [hbudgets, map_updateWhere _ (by exact fun _ _ _ => rfl)]; exact h.budgetIds
  · rw [hrows, map_updateWhere _ (by exact fun _ _ _ => rfl)]; exact h.reservationIds
  · intro k hk
    rw [hnext]
    rcases hmem k hk with rfl | ⟨hk,-⟩
    · exact h.budgetFresh b hset.budget
    · exact h.budgetFresh k hk
  · intro y hy
    rw [hnext]
    rcases hrow y hy with rfl | ⟨hy,-⟩
    · exact h.reservationFresh x hset.row
    · exact h.reservationFresh y hy
  · intro y hy
    rcases hrow y hy with rfl | ⟨hy,-⟩
    · exact hset.rowSound (h.rows x hset.row)
    · exact h.rows y hy
  · intro k hk
    rw [hrows]
    rcases hmem k hk with rfl | ⟨hk,hne⟩
    · exact (h.balanced b hset.budget).settled h.reservationIds h.rows hset
    · exact (h.balanced k hk).settle_other h.reservationIds hset.row hset.status
        (hset.belongs ▸ Ne.symm hne) _
  · intro k hk hs
    rcases hmem k hk with rfl | ⟨hk,-⟩
    · exact hset.spent h hs
    · exact h.spent k hk hs

theorem BudgetsSound.ended (h : BudgetsSound db) (hb : b ∈ db.budgets) (hstate : state ≠ .exhausted)
    (hbudgets : db'.budgets = updateWhere (·.id = b.id) (fun k => { k with state }) db.budgets)
    (hrows : db'.reservations = db.reservations) (hnext : db'.nextId = db.nextId) :
    BudgetsSound db' := by
  have hmem : ∀ k ∈ db'.budgets, k = { b with state } ∨ (k ∈ db.budgets ∧ k.id ≠ b.id) := by
    intro k hk
    rw [hbudgets] at hk
    exact mem_updateWhere_key h.budgetIds hb hk
  constructor
  · rw [hbudgets, map_updateWhere _ (by exact fun _ _ _ => rfl)]; exact h.budgetIds
  · rw [hrows]; exact h.reservationIds
  · intro k hk
    rw [hnext]
    rcases hmem k hk with rfl | ⟨hk,-⟩
    · exact h.budgetFresh b hb
    · exact h.budgetFresh k hk
  · rw [hrows, hnext]; exact h.reservationFresh
  · rw [hrows]; exact h.rows
  · intro k hk
    rw [hrows]
    rcases hmem k hk with rfl | ⟨hk,-⟩
    · exact (h.balanced b hb).setState state
    · exact h.balanced k hk
  · intro k hk hs
    rcases hmem k hk with rfl | ⟨hk,-⟩
    · exact absurd hs hstate
    · exact h.spent k hk hs

theorem BudgetsSound.step (h : BudgetsSound db) (hc : BudgetChange db db') : BudgetsSound db' := by
  cases hc with
  | elsewhere hb hr hn =>
    obtain ⟨h1,h2,h3,h4,h5,h6,h7⟩ := h
    constructor <;> simpa only [hb, hr, hn]
  | opened new hb hr hn => exact h.opened hb hr hn
  | held b x cost total hold hb hr hn => exact h.held hold hb hr hn
  | settled b x resolution args cost tokens rowCost actualCost hset hb hr hn =>
    exact h.settled hset hb hr hn
  | ended b state hbudget _ hspent hb hr hn => exact h.ended hbudget hspent hb hr hn

theorem ReachableBudgets.sound (h : ReachableBudgets db) : BudgetsSound db :=
  h.invariant (fun _ hinit => .initial hinit) fun _ _ _ hs hst => hs.step hst.change

end Invariant

/-- No completed call reported more tokens than its row reserved. -/
def TokensWithin (rows : List ReservationRow) (id : BudgetId) : Prop :=
  ∀ x ∈ rows, x.budgetId = id → x.status = .completed → x.consumedTokens ≤ x.tokenBound

/-- No completed call reported a higher cost than its row reserved. -/
def CostWithin (rows : List ReservationRow) (id : BudgetId) : Prop :=
  ∀ x ∈ rows, x.budgetId = id → x.status = .completed → x.consumedCost ≤ x.reservedCost

/-- While reports stay within reservations, spending stays within the caps. -/
structure WithinCaps (db : BudgetDb) : Prop where
  tokens : ∀ b ∈ db.budgets, TokensWithin db.reservations b.id →
    b.actualTokens + b.reservedTokens ≤ b.caps.totalTokenCap
  cost : ∀ b ∈ db.budgets, CostWithin db.reservations b.id →
    b.actualCost + b.reservedCost ≤ (b.caps.costCap : Amount)

section Caps
variable {db db' : BudgetDb} {b k : BudgetRow} {x y : ReservationRow} {resolution : Resolution}
variable {args : ReconcileArgs} {cost : Numeric} {tokens reservedTotal : ℤ}
variable {rowCost actualCost : Amount}

theorem Hold.withinCost (h : Hold db b x cost reservedTotal) (hdb : BudgetsSound db) :
    b.actualCost + (reservedTotal : Amount) ≤ (b.caps.costCap : Amount) := by
  have hbal := hdb.balanced b h.budget
  have hreserved := hbal.reservedCost_nonneg hdb.rows
  rw [units_value_add hreserved h.nonneg h.units h.total]
  exact add_le_of_not_lt (hbal.actualCost_nonneg hdb.rows) hreserved b.caps.costCap_nonneg h.nonneg
    h.units h.cost

/-- A settlement that consumes at most its hold gives back what it does not consume. -/
theorem Settlement.withinCost (h : Settlement db b x resolution args cost tokens rowCost actualCost)
    (hdb : BudgetsSound db) (hle : rowCost ≤ (x.reservedCost : Amount)) :
    (settleOn x actualCost cost tokens b).actualCost +
        ((settleOn x actualCost cost tokens b).reservedCost : Amount) ≤
      b.actualCost + (b.reservedCost : Amount) := by
  have hbal := hdb.balanced b h.budget
  have hheld : heldOn b.id x = true := by simp [heldOn, h.belongs, h.status]
  have hrow := hbal.reservedCost_le hdb.rows h.row hheld
  obtain ⟨hcost,-,-⟩ := consumedBy_ok db.now rowCost (hdb.rows x h.row) h.consumed
  have hactual : actualCost = b.actualCost + rowCost :=
    store_value_add (hbal.actualCost_nonneg hdb.rows) hcost h.rowCost h.actualCost
  have hmax : max 0 (b.reservedCost - x.reservedCost) = b.reservedCost - x.reservedCost := by omega
  calc actualCost + ((max 0 (b.reservedCost - x.reservedCost) : ℤ) : Amount)
      = b.actualCost + (rowCost + ((b.reservedCost - x.reservedCost : ℤ) : Amount)) := by
        rw [hmax, hactual, add_assoc]
    _ ≤ b.actualCost + ((x.reservedCost : Amount) + ((b.reservedCost - x.reservedCost : ℤ) : Amount)) :=
        add_le_add_right (add_le_add_left hle _) _
    _ = b.actualCost + (b.reservedCost : Amount) := by
        rw [← WithTop.coe_add, add_sub_cancel]

theorem Settlement.withinTokens (h : Settlement db b x resolution args cost tokens rowCost actualCost)
    (hdb : BudgetsSound db) (hle : tokens ≤ x.tokenBound) :
    (settleOn x actualCost cost tokens b).actualTokens +
        (settleOn x actualCost cost tokens b).reservedTokens ≤ b.actualTokens + b.reservedTokens := by
  have hheld : heldOn b.id x = true := by simp [heldOn, h.belongs, h.status]
  have hrow := (hdb.balanced b h.budget).tokenBound_le hdb.rows h.row hheld
  simp only [settleOn]
  simp only [ReservationRow.tokenBound] at hle hrow
  omega

/-- A settled reservation never changes again. -/
theorem BudgetChange.settled_kept (hc : BudgetChange db db') (hdb : BudgetsSound db)
    (hx : x ∈ db.reservations) (hs : x.status ≠ .reserved) : x ∈ db'.reservations := by
  cases hc with
  | elsewhere _ hr _ | opened _ _ hr _ | ended _ _ _ _ _ _ hr _ => rwa [hr]
  | held _ _ _ _ _ _ hr _ =>
    rw [hr]
    exact List.mem_append_left _ hx
  | settled b y resolution args cost tokens rowCost actualCost hset _ hr _ =>
    rw [hr]
    refine mem_updateWhere.mpr (Or.inr ⟨hx,?_⟩)
    have hne : x.id ≠ y.id := by
      intro heq
      have hxy : x = y := List.inj_on_of_nodup_map hdb.reservationIds hx hset.row heq
      exact hs (hxy ▸ hset.status)
    simpa using hne

theorem BudgetChange.budget_kept (hc : BudgetChange db db') (hb : b ∈ db.budgets) :
    ∃ k ∈ db'.budgets, k.id = b.id := by
  have hids : b.id ∈ db'.budgets.map (·.id) := by
    have hmem : b.id ∈ db.budgets.map (·.id) := List.mem_map_of_mem hb
    cases hc with
    | elsewhere hbs _ _ => rwa [hbs]
    | opened _ hbs _ _ =>
      rw [hbs, List.map_append]
      exact List.mem_append_left _ hmem
    | held _ _ _ _ _ hbs _ _ | settled _ _ _ _ _ _ _ _ _ hbs _ _ | ended _ _ _ _ _ hbs _ _ =>
      rw [hbs, map_updateWhere _ (by exact fun _ _ _ => rfl)]
      exact hmem
  simpa using hids

/-- A budget that is not active stays so. -/
theorem BudgetChange.inactive_kept (hc : BudgetChange db db') (hdb : BudgetsSound db)
    (hb : b ∈ db.budgets) (hs : b.state ≠ .active) (hk : k ∈ db'.budgets) (hid : k.id = b.id) :
    k.state ≠ .active := by
  have huniq : ∀ a ∈ db.budgets, a.id = b.id → a = b :=
    fun a ha h => List.inj_on_of_nodup_map hdb.budgetIds ha hb h
  cases hc with
  | elsewhere hbs _ _ =>
    rw [hbs] at hk
    exact huniq k hk hid ▸ hs
  | opened new hbs _ _ =>
    rw [hbs, List.mem_append, List.mem_singleton] at hk
    rcases hk with hk | rfl
    · exact huniq k hk hid ▸ hs
    · exact absurd hid.symm (hdb.budgetFresh b hb).ne
  | held a x cost total hold hbs _ _ =>
    rw [hbs] at hk
    rcases mem_updateWhere_key hdb.budgetIds hold.budget hk with rfl | ⟨hk,-⟩
    · exact absurd hold.active (huniq a hold.budget hid ▸ hs)
    · exact huniq k hk hid ▸ hs
  | settled a x resolution args cost tokens rowCost actualCost hset hbs _ _ =>
    rw [hbs] at hk
    rcases mem_updateWhere_key hdb.budgetIds hset.budget hk with rfl | ⟨hk,-⟩
    · obtain rfl := huniq a hset.budget hid
      obtain ⟨hcost,htokens,-⟩ := consumedBy_ok db.now rowCost
        (hdb.rows x hset.row) hset.consumed
      simp only [settleOn, settledState]
      split
      next => exact hs
      next hfinal =>
        rw [if_pos]
        · exact nofun
        have hex : a.state = .exhausted := by
          cases hstate : a.state <;> simp [hstate] at hs hfinal ⊢
        rcases hdb.spent a hb hex with hspent | hspent | hspent
        · exact Or.inr (Or.inr hspent)
        · exact Or.inl (value_add_not_lt hcost hspent)
        · exact Or.inr (Or.inl (by omega))
    · exact huniq k hk hid ▸ hs
  | ended a state hbudget hfinal _ hbs _ _ =>
    rw [hbs] at hk
    rcases mem_updateWhere_key hdb.budgetIds hbudget hk with rfl | ⟨hk,-⟩
    · exact hfinal
    · exact huniq k hk hid ▸ hs

theorem Settlement.tokens_le (h : Settlement db b x resolution args cost tokens rowCost actualCost)
    (hdb : BudgetsSound db) (hwithin : TokensWithin
      (updateWhere (·.id = x.id) (settleRow db.now resolution args rowCost) db.reservations) b.id) :
    tokens ≤ x.tokenBound := by
  obtain ⟨-,-,hrow⟩ := consumedBy_ok db.now rowCost (hdb.rows x h.row) h.consumed
  have hbound := (hdb.rows x h.row).tokenBound_nonneg
  rw [← hrow]
  cases resolution with
  | completed =>
    exact hwithin _ (mem_updateWhere.mpr (Or.inl ⟨x,h.row,by simp,rfl⟩)) h.belongs rfl
  | rejected | cancelled => exact hbound
  | unresolved => exact le_rfl

theorem Settlement.cost_le (h : Settlement db b x resolution args cost tokens rowCost actualCost)
    (hdb : BudgetsSound db) (hwithin : CostWithin
      (updateWhere (·.id = x.id) (settleRow db.now resolution args rowCost) db.reservations) b.id) :
    rowCost ≤ (x.reservedCost : Amount) := by
  have hreserved := (hdb.rows x h.row).reservedCost
  cases resolution with
  | completed =>
    exact hwithin _ (mem_updateWhere.mpr (Or.inl ⟨x,h.row,by simp,rfl⟩)) h.belongs rfl
  | rejected =>
    rw [consumedBy_released (Or.inl rfl) h.consumed h.rowCost]
    exact_mod_cast hreserved
  | cancelled =>
    rw [consumedBy_released (Or.inr rfl) h.consumed h.rowCost]
    exact_mod_cast hreserved
  | unresolved => exact (consumedBy_unresolved (hdb.rows x h.row) h.consumed h.rowCost).le

theorem WithinCaps.step (h : WithinCaps db) (hdb : BudgetsSound db) (hc : BudgetChange db db') :
    WithinCaps db' := by
  -- reports within their reservations after the step were so before it
  have htokens : ∀ id, TokensWithin db'.reservations id → TokensWithin db.reservations id :=
    fun id hw y hy hid hs => hw y (hc.settled_kept hdb hy (by simp [hs])) hid hs
  have hcosts : ∀ id, CostWithin db'.reservations id → CostWithin db.reservations id :=
    fun id hw y hy hid hs => hw y (hc.settled_kept hdb hy (by simp [hs])) hid hs
  cases hc with
  | elsewhere hbs _ _ =>
    constructor <;> intro k hk hw <;> rw [hbs] at hk
    · exact h.tokens k hk (htokens _ hw)
    · exact h.cost k hk (hcosts _ hw)
  | opened new hbs _ _ =>
    constructor <;> intro k hk hw <;> rw [hbs, List.mem_append, List.mem_singleton] at hk <;>
      rcases hk with hk | rfl
    · exact h.tokens k hk (htokens _ hw)
    · exact new.caps.totalTokenCap_pos.le
    · exact h.cost k hk (hcosts _ hw)
    · simp only [NewBudget.row]
      exact_mod_cast new.caps.costCap_nonneg
  | held b x cost total hold hbs _ _ =>
    constructor <;> intro k hk hw <;> rw [hbs] at hk <;>
      rcases mem_updateWhere_key hdb.budgetIds hold.budget hk with rfl | ⟨hk,-⟩
    · have hfit := hold.tokens
      simp only [holdOn]
      omega
    · exact h.tokens k hk (htokens _ hw)
    · exact hold.withinCost hdb
    · exact h.cost k hk (hcosts _ hw)
  | settled b x resolution args cost tokens rowCost actualCost hset hbs hrs _ =>
    constructor <;> intro k hk hw <;> rw [hbs] at hk <;>
      rcases mem_updateWhere_key hdb.budgetIds hset.budget hk with rfl | ⟨hk,-⟩
    · have hle := hset.withinTokens hdb (hset.tokens_le hdb (hrs ▸ hw))
      exact hle.trans (h.tokens b hset.budget (htokens _ hw))
    · exact h.tokens k hk (htokens _ hw)
    · have hle := hset.withinCost hdb (hset.cost_le hdb (hrs ▸ hw))
      exact hle.trans (h.cost b hset.budget (hcosts _ hw))
    · exact h.cost k hk (hcosts _ hw)
  | ended b state hbudget _ _ hbs _ _ =>
    constructor <;> intro k hk hw <;> rw [hbs] at hk <;>
      rcases mem_updateWhere_key hdb.budgetIds hbudget hk with rfl | ⟨hk,-⟩
    · exact h.tokens b hbudget (htokens _ hw)
    · exact h.tokens k hk (htokens _ hw)
    · exact h.cost b hbudget (hcosts _ hw)
    · exact h.cost k hk (hcosts _ hw)

theorem ReachableBudgets.withinCaps (h : ReachableBudgets db) : WithinCaps db := by
  refine h.invariant_of (fun _ ht => ReachableBudgets.sound ht) ?_ fun _ _ _ hs hw hst =>
    hw.step hs hst.change
  rintro db ⟨hb,-⟩
  constructor <;> simp [hb]

theorem BudgetsSound.run {es : List BudgetEvent} (h : BudgetsSound db)
    (hrun : Run BudgetStep db es db') : BudgetsSound db' :=
  hrun.invariant h fun _ _ _ hs hst => hs.step hst.change

end Caps

/-- The reviewed budget as a hard cap: its counters are exact, no clamp hides a deficit, calls and
holds stay under their limits, and so does spending while reports stay within reservations. -/
structure HardCap (db : BudgetDb) (b : BudgetRow) : Prop where
  calls : b.callsReserved = count (ofBudget b.id) db.reservations
  callCap : b.callsReserved ≤ b.caps.callCap
  parallel : count (heldOn b.id) db.reservations ≤ b.caps.maxParallelCalls
  reservedCost : b.reservedCost = total (·.reservedCost) (heldOn b.id) db.reservations
  reservedTokens : b.reservedTokens = total (·.tokenBound) (heldOn b.id) db.reservations
  actualCost : b.actualCost = total (·.consumedCost) (settledOn b.id) db.reservations
  actualTokens : b.actualTokens = total (·.consumedTokens) (settledOn b.id) db.reservations
  reconciled : b.callsReconciled = count (settledOn b.id) db.reservations
  noDeficit : ∀ x ∈ db.reservations, heldOn b.id x = true →
    x.reservedCost ≤ b.reservedCost ∧ x.tokenBound ≤ b.reservedTokens
  tokens : TokensWithin db.reservations b.id →
    b.actualTokens + b.reservedTokens ≤ b.caps.totalTokenCap
  cost : CostWithin db.reservations b.id →
    b.actualCost + b.reservedCost ≤ (b.caps.costCap : Amount)

/-- What no later run undoes: settled reservations and budgets that are no longer active. -/
structure Irrevocable (db db' : BudgetDb) : Prop where
  reservationIds : (db'.reservations.map (·.id)).Nodup
  budgetIds : (db'.budgets.map (·.id)).Nodup
  settled : ∀ x ∈ db.reservations, x.status ≠ .reserved → x ∈ db'.reservations
  inactive : ∀ b ∈ db.budgets, b.state ≠ .active → ∃ k ∈ db'.budgets, k.id = b.id ∧ k.state ≠ .active

section Claims
variable {db db' : BudgetDb} {b : BudgetRow} {es : List BudgetEvent}

theorem HardCap.of_reachable (h : ReachableBudgets db) (hb : b ∈ db.budgets) : HardCap db b := by
  have hdb := h.sound
  have hcaps := h.withinCaps
  obtain ⟨hcalls,hcap,hpar,hrc,hrt,hac,hat,hrec⟩ := hdb.balanced b hb
  have hbal := hdb.balanced b hb
  exact ⟨hcalls,hcap,hpar,hrc,hrt,hac,hat,hrec,
    fun x hx hheld => ⟨hbal.reservedCost_le hdb.rows hx hheld,hbal.tokenBound_le hdb.rows hx hheld⟩,
    hcaps.tokens b hb,hcaps.cost b hb⟩

theorem Irrevocable.of_run (hdb : BudgetsSound db) (hrun : Run BudgetStep db es db') :
    Irrevocable db db' := by
  induction hrun with
  | nil db =>
    exact ⟨hdb.reservationIds,hdb.budgetIds,fun _ hx _ => hx,fun b hb hs => ⟨b,hb,rfl,hs⟩⟩
  | @cons db mid db' _ _ hst _ ih =>
    have hc := hst.change
    obtain ⟨hri,hbi,hsettled,hinactive⟩ := ih (hdb.step hc)
    refine ⟨hri,hbi,fun x hx hs => hsettled x (hc.settled_kept hdb hx hs) hs,?_⟩
    intro b hb hs
    obtain ⟨k,hk,hid⟩ := hc.budget_kept hb
    obtain ⟨k',hk',hid',hs'⟩ := hinactive k hk (hc.inactive_kept hdb hb hs hk hid)
    exact ⟨k',hk',hid'.trans hid,hs'⟩

/-- The reviewed run budget is a hard cap in every reachable state and along every later run. -/
theorem run_budget_hard_cap (h : ReachableBudgets db) :
    (∀ b ∈ db.budgets, HardCap db b) ∧
      ∀ es db', Run BudgetStep db es db' → Irrevocable db db' :=
  ⟨fun _ hb => .of_reachable h hb,fun _ _ hrun => .of_run h.sound hrun⟩

end Claims

section Sample

/-- The approved plan, admitted for continuation 1. -/
def admittedRequests : RequestId → Option ApprovalRow := fun id =>
  ((Approvals.after samplePlatform proposedPlanDb (sampleVote 1 "vote-1")).requests id).map fun ar =>
    { ar with workStatus := .admitted, continuationId := some 1 }

def admittedPlan : Surroundings where
  now := 0
  runs := fun id => if id = 1 then some ⟨.working,false,.hermes,1,1,some "agent-1","model",1⟩ else none
  continuations := [⟨1,0,1,"sha256:3600000",1,1,"agent-1",.admitted,3600000,some 1,none⟩]
  requests := admittedRequests

def planBudget : NewBudget where
  continuationId := 1
  requestId := 0
  authorizationRevision := 1
  authorizationHash := "sha256:3600000"
  modelId := "model"
  caps := ⟨500000000,1000,4,500,1,0,by decide,by decide,by decide,by decide,by decide⟩

def planReserve : ReserveArgs := ⟨some 1,some "model",some 100,some 200,some (.finite (1 / 2))⟩

def planReconcile : ReconcileArgs := ⟨some 1,some "completed",some 90,some 150,some 0,some (.finite (1 / 3))⟩

def emptyBudgets : BudgetDb := ⟨0,0,fun _ => none,[],fun _ => none,[],[]⟩

def planEvents : List BudgetEvent := [.surroundings admittedPlan,.openBudget planBudget,.reserve planReserve]

def heldPlan : BudgetDb := afterAll applyBudget emptyBudgets planEvents

theorem reachable_heldPlan : ReachableBudgets heldPlan :=
  ⟨emptyBudgets,planEvents,⟨rfl,rfl⟩,run_afterAll (by decide +kernel)⟩

/-- A reserved call of the approved plan and its settlement. -/
theorem run_budget_hard_cap_plan : (∀ b ∈ heldPlan.budgets, HardCap heldPlan b) ∧
    Irrevocable heldPlan (afterAll applyBudget heldPlan [.reconcile planReconcile]) := by
  obtain ⟨hcap,hrun⟩ := run_budget_hard_cap reachable_heldPlan
  exact ⟨hcap,hrun [.reconcile planReconcile] _ (run_afterAll (by decide +kernel))⟩

end Sample

end HermesEnterprise.Budgets
