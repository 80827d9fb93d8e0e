import HermesEnterprise.Budgets.WatchBudget

/-! # Watch checks stay inside their caps

The rounded-up cost grows with tokens and prices, so usage within the bounds of a
reservation never costs more than the reservation. A settlement therefore always
passes the check of its table and lowers every sum it takes part in.
-/
namespace HermesEnterprise.Budgets
open Foundation.Decimal Foundation.Tables Foundation.Runs Approvals

section Costs
variable {input output cached inputBound outputBound : ℤ} {p q r : ℚ}

theorem roundedCost_mono (h : p ≤ q) : roundedCost p ≤ roundedCost q := by
  unfold roundedCost
  gcongr

theorem roundedCost_nonneg (h : 0 ≤ p) : 0 ≤ roundedCost p := by
  unfold roundedCost
  positivity

/-- Usage within the bounds costs at most the worst case, however its input was split. -/
theorem usageCost_le (hp : 0 ≤ p) (hq : 0 ≤ q) (hcached : 0 ≤ cached) (hsplit : cached ≤ input)
    (hinput : input ≤ inputBound) (houtput : output ≤ outputBound) :
    usageCost input output cached p q r ≤ worstCost inputBound outputBound p q r := by
  apply roundedCost_mono
  have hfresh : ((input : ℚ) - cached) * p ≤ (input - cached) * max p r :=
    mul_le_mul_of_nonneg_left (le_max_left p r) (by exact_mod_cast sub_nonneg.mpr hsplit)
  have hhit : (cached : ℚ) * r ≤ cached * max p r :=
    mul_le_mul_of_nonneg_left (le_max_right p r) (by exact_mod_cast hcached)
  have hin : (input : ℚ) * max p r ≤ inputBound * max p r :=
    mul_le_mul_of_nonneg_right (by exact_mod_cast hinput) (hp.trans (le_max_left p r))
  have hout : (output : ℚ) * q ≤ outputBound * q :=
    mul_le_mul_of_nonneg_right (by exact_mod_cast houtput) hq
  calc ((input : ℚ) - cached) * p + cached * r + output * q
      ≤ (input - cached) * max p r + cached * max p r + output * q := by gcongr
    _ = input * max p r + output * q := by ring
    _ ≤ inputBound * max p r + outputBound * q := by gcongr

theorem usageCost_nonneg (hp : 0 ≤ p) (hq : 0 ≤ q) (hr : 0 ≤ r) (hcached : 0 ≤ cached)
    (hsplit : cached ≤ input) (houtput : 0 ≤ output) : 0 ≤ usageCost input output cached p q r := by
  apply roundedCost_nonneg
  have hfresh : (0 : ℚ) ≤ input - cached := by exact_mod_cast sub_nonneg.mpr hsplit
  have hc : (0 : ℚ) ≤ cached := by exact_mod_cast hcached
  have ho : (0 : ℚ) ≤ output := by exact_mod_cast houtput
  positivity

theorem worstCost_nonneg (hp : 0 ≤ p) (hq : 0 ≤ q) (hinput : 0 ≤ inputBound)
    (houtput : 0 ≤ outputBound) : 0 ≤ worstCost inputBound outputBound p q r := by
  apply roundedCost_nonneg
  have hm : 0 ≤ max p r := hp.trans (le_max_left p r)
  have hi : (0 : ℚ) ≤ inputBound := by exact_mod_cast hinput
  have ho : (0 : ℚ) ≤ outputBound := by exact_mod_cast houtput
  positivity

theorem priceValue_nonneg {text : String} (h : priceValue text = some p) : 0 ≤ p := by
  simp only [priceValue] at h
  split at h
  next => cases h
  next =>
    split at h
    next => cases h; positivity
    next =>
      split at h
      next => cases h; positivity
      next => cases h

theorem CatalogRow.prices_nonneg {m : CatalogRow} (h : m.prices = some (p,q,r)) :
    0 ≤ p ∧ 0 ≤ q ∧ 0 ≤ r := by
  simp only [CatalogRow.prices, bind, Option.bind_eq_some_iff] at h
  obtain ⟨input,⟨_,-,hin⟩,output,⟨_,-,hout⟩,h⟩ := h
  split at h
  next =>
    cases h
    exact ⟨priceValue_nonneg hin,priceValue_nonneg hout,priceValue_nonneg hin⟩
  next =>
    obtain ⟨cached,hcached,heq⟩ := Option.bind_eq_some_iff.mp h
    cases heq
    exact ⟨priceValue_nonneg hin,priceValue_nonneg hout,priceValue_nonneg hcached⟩

end Costs

/-- A reservation carries the worst cost of its pinned prices, and was settled within it. -/
structure WatchRowSound (x : WatchReservation) : Prop where
  input : 0 ≤ x.inputTokenBound
  output : 0 ≤ x.outputTokenBound
  inputPrice : 0 ≤ x.inputPrice
  outputPrice : 0 ≤ x.outputPrice
  cachedInputPrice : 0 ≤ x.cachedInputPrice
  reserved : x.reservedCost =
    worstCost x.inputTokenBound x.outputTokenBound x.inputPrice x.outputPrice x.cachedInputPrice
  consumed : ∀ c, x.consumedCost = some c → 0 ≤ c ∧ c ≤ x.reservedCost
  unsettled : x.status = .reserved → x.consumedCost = none

section Rows
variable {x : WatchReservation} {args : WatchReconcileArgs} {resolution : Resolution} {now : ℕ}
variable {input output cached : ℤ}

theorem WatchRowSound.reserved_nonneg (h : WatchRowSound x) : 0 ≤ x.reservedCost :=
  h.reserved ▸ worstCost_nonneg h.inputPrice h.outputPrice h.input h.output

theorem WatchRowSound.charge_nonneg (h : WatchRowSound x) : 0 ≤ x.charge := by
  unfold WatchReservation.charge
  cases hc : x.consumedCost with
  | none => exact h.reserved_nonneg
  | some c => exact (h.consumed c hc).1

theorem usageWithin_eq_some (h : usageWithin x args = some (input,output,cached)) :
    0 ≤ input ∧ input ≤ x.inputTokenBound ∧ 0 ≤ output ∧ output ≤ x.outputTokenBound ∧
      0 ≤ cached ∧ cached ≤ input := by
  unfold usageWithin at h
  split at h
  next =>
    split at h
    next => cases h
    next hrange =>
      cases h
      simp only [not_or, not_lt] at hrange
      exact hrange
  next => cases h

/-- Every settlement consumes between nothing and the whole reservation. -/
theorem settleWatchRow_consumed (now : ℕ) (resolution : Resolution) (args : WatchReconcileArgs)
    (h : WatchRowSound x) : ∃ c,
    (settleWatchRow now resolution args x).consumedCost = some c ∧ 0 ≤ c ∧ c ≤ x.reservedCost := by
  have hnonneg := h.reserved_nonneg
  unfold settleWatchRow
  split
  next input output cached huse =>
    obtain ⟨-,hin,hout,hout',hcached,hsplit⟩ := usageWithin_eq_some huse
    refine ⟨_,rfl,usageCost_nonneg h.inputPrice h.outputPrice h.cachedInputPrice hcached hsplit hout,?_⟩
    rw [h.reserved]
    exact usageCost_le h.inputPrice h.outputPrice hcached hsplit hin hout'
  next => exact ⟨0,rfl,le_rfl,hnonneg⟩
  next => exact ⟨0,rfl,le_rfl,hnonneg⟩
  next => exact ⟨_,rfl,hnonneg,le_rfl⟩
  next => exact ⟨_,rfl,hnonneg,le_rfl⟩

/-- What a settlement keeps of a row: everything but its usage and its status. -/
structure SamePins (x y : WatchReservation) : Prop where
  id : y.id = x.id
  agentId : y.agentId = x.agentId
  checkId : y.checkId = x.checkId
  budgetDay : y.budgetDay = x.budgetDay
  input : y.inputTokenBound = x.inputTokenBound
  output : y.outputTokenBound = x.outputTokenBound
  inputPrice : y.inputPrice = x.inputPrice
  outputPrice : y.outputPrice = x.outputPrice
  cachedInputPrice : y.cachedInputPrice = x.cachedInputPrice
  reserved : y.reservedCost = x.reservedCost

theorem settleWatchRow_pins : SamePins x (settleWatchRow now resolution args x) := by
  unfold settleWatchRow
  split <;> exact ⟨rfl,rfl,rfl,rfl,rfl,rfl,rfl,rfl,rfl,rfl⟩

theorem settleWatchRow_status : (settleWatchRow now resolution args x).status ≠ .reserved := by
  unfold settleWatchRow
  split <;> exact nofun

theorem WatchRowSound.settle (h : WatchRowSound x) :
    WatchRowSound (settleWatchRow now resolution args x) := by
  have hp : SamePins x (settleWatchRow now resolution args x) := settleWatchRow_pins
  obtain ⟨c,hc,hc0,hcle⟩ := settleWatchRow_consumed now resolution args h
  constructor
  · rw [hp.input]; exact h.input
  · rw [hp.output]; exact h.output
  · rw [hp.inputPrice]; exact h.inputPrice
  · rw [hp.outputPrice]; exact h.outputPrice
  · rw [hp.cachedInputPrice]; exact h.cachedInputPrice
  · rw [hp.reserved, hp.input, hp.output, hp.inputPrice, hp.outputPrice, hp.cachedInputPrice]
    exact h.reserved
  · intro d hd
    obtain rfl := Option.some.inj (hc.symm.trans hd)
    rw [hp.reserved]
    exact ⟨hc0,hcle⟩
  · exact fun hs => absurd hs settleWatchRow_status

/-- A settlement never raises what a reserved row counts against its caps. -/
theorem settleWatchRow_charge_le (h : WatchRowSound x) (hs : x.status = .reserved) :
    (settleWatchRow now resolution args x).charge ≤ x.charge := by
  obtain ⟨c,hc,-,hcle⟩ := settleWatchRow_consumed now resolution args h
  simp only [WatchReservation.charge, hc, h.unsettled hs, Option.getD_some, Option.getD_none]
  exact hcle

end Rows

section Changes
variable {db db' : WatchDb} {c : WatchCheck} {x : WatchReservation}

/-- A reservation of `x` for the check `c` that passed every guard. -/
structure WatchHold (db : WatchDb) (c : WatchCheck) (x : WatchReservation) : Prop where
  check : c ∈ db.checks
  id : x.id = db.nextId
  ofCheck : x.checkId = c.id
  ofAgent : x.agentId = c.agentId
  day : x.budgetDay = db.utcDay
  status : x.status = .reserved
  sound : WatchRowSound x
  calls : count (Budgets.ofCheck c.id) db.reservations < c.maxModelCalls
  run : total (·.charge) (Budgets.ofCheck c.id) db.reservations + x.charge ≤ c.maxCostPerRun
  daily : total (·.charge) (ofDay c.agentId db.utcDay) db.reservations + x.charge ≤ c.maxCostPerDay

/-- What a step does to checks and reservations. -/
inductive WatchChange (db db' : WatchDb) : Prop
  | elsewhere (checks : db'.checks = db.checks) (reservations : db'.reservations = db.reservations)
      (nextId : db'.nextId = db.nextId)
  | begun (c : WatchCheck) (id : c.id = db.nextId) (checks : db'.checks = db.checks ++ [c])
      (reservations : db'.reservations = db.reservations) (nextId : db'.nextId = db.nextId + 1)
  | held (c : WatchCheck) (x : WatchReservation) (hold : WatchHold db c x)
      (checks : db'.checks = db.checks) (reservations : db'.reservations = db.reservations ++ [x])
      (nextId : db'.nextId = db.nextId + 1)
  | settled (x : WatchReservation) (resolution : Resolution) (args : WatchReconcileArgs)
      (row : x ∈ db.reservations) (status : x.status = .reserved) (checks : db'.checks = db.checks)
      (reservations : db'.reservations =
        updateWhere (·.id = x.id) (settleWatchRow db.now resolution args) db.reservations)
      (nextId : db'.nextId = db.nextId)

theorem verifiedModel_nonneg {modelId : ModelId} {input output : ℤ} {on : ℕ} {p q r : ℚ}
    (h : verifiedModel db modelId input output = .ok (on,p,q,r)) : 0 ≤ p ∧ 0 ≤ q ∧ 0 ≤ r := by
  simp only [verifiedModel, Result.bind_eq_ok, found_eq_ok, raiseIf_eq_ok, Result.pure_eq_ok] at h
  obtain ⟨m,-,_,-,verifiedOn,-,_,-,_,-,_,-,prices,hprices,_,-,heq⟩ := h
  cases heq
  exact CatalogRow.prices_nonneg hprices

theorem reservePartnerWatch_change {args : WatchReserveArgs} {result : WatchDb × ReservationId × CheckId}
    (h : reservePartnerWatchModelBudget db args = .ok result) : WatchChange db result.1 := by
  unfold reservePartnerWatchModelBudget at h
  split at h
  next input output target attempt _ _ _ _ =>
    simp only [Result.bind_eq_ok, found_eq_ok, raiseIf_eq_ok, Result.pure_eq_ok, fitsWatchCaps] at h
    obtain ⟨_,hbound,runId,-,c,hc,r,-,_,-,_,-,⟨verifiedOn,p,q,cached⟩,hmodel,_,-,_,
      ⟨_,hcalls,_,hrun,hday⟩,rfl⟩ := h
    obtain ⟨hp,hq,hcached⟩ := verifiedModel_nonneg hmodel
    simp only [Bool.or_eq_false_iff, decide_eq_false_iff_not, not_lt, not_le, Bool.not_eq_false',
      Bool.and_eq_true, decide_eq_true_eq] at hbound hcalls hrun hday
    have hmem : c ∈ db.checks := List.mem_of_find?_eq_some hc
    refine .held c _ ?_ rfl rfl rfl
    refine ⟨hmem,rfl,rfl,rfl,rfl,rfl,?_,hcalls,hrun,hday⟩
    exact
      { input := hbound.1.1.1, output := zero_le_one.trans hbound.1.1.2.1
        inputPrice := hp, outputPrice := hq, cachedInputPrice := hcached, reserved := rfl
        consumed := nofun, unsettled := fun _ => rfl }
  next => cases h

theorem reconcilePartnerWatch_change {args : WatchReconcileArgs} {result : WatchDb × Bool}
    (h : reconcilePartnerWatchModelBudget db args = .ok result) : WatchChange db result.1 := by
  simp only [reconcilePartnerWatchModelBudget, Result.bind_eq_ok, found_eq_ok] at h
  obtain ⟨x,hx,h⟩ := h
  obtain ⟨id,-,hfind⟩ := Option.bind_eq_some_iff.mp hx
  split at h
  next =>
    cases h
    exact .elsewhere rfl rfl rfl
  next hstatus =>
    simp only [Result.bind_eq_ok, found_eq_ok, Result.pure_eq_ok] at h
    obtain ⟨resolution,-,_,-,rfl⟩ := h
    exact .settled x resolution args (List.mem_of_find?_eq_some hfind) (by simpa using hstatus)
      rfl rfl rfl

theorem WatchStep.change {e : WatchEvent} (h : WatchStep db e db') : WatchChange db db' := by
  cases e with
  | surroundings next =>
    cases h
    exact .elsewhere rfl rfl rfl
  | beginCheck terms =>
    cases h
    exact .begun _ rfl rfl rfl rfl
  | reserve args =>
    obtain ⟨_,hr⟩ := map_fst_eq_ok h
    exact reservePartnerWatch_change hr
  | reconcile args =>
    obtain ⟨_,hr⟩ := map_fst_eq_ok h
    exact reconcilePartnerWatch_change hr

end Changes

/-- Every check that drew on the day has at most this daily cap. -/
def DayCapped (db : WatchDb) (agentId : AgentId) (day : ℕ) (cap : ℤ) : Prop :=
  ∀ x ∈ db.reservations, ofDay agentId day x = true →
    ∀ c ∈ db.checks, c.id = x.checkId → c.maxCostPerDay ≤ cap

/-- The invariant of every reachable database. -/
structure WatchSound (db : WatchDb) : Prop where
  checkIds : (db.checks.map (·.id)).Nodup
  reservationIds : (db.reservations.map (·.id)).Nodup
  checkFresh : ∀ c ∈ db.checks, c.id < db.nextId
  reservationFresh : ∀ x ∈ db.reservations, x.id < db.nextId ∧ x.checkId < db.nextId
  owner : ∀ x ∈ db.reservations, ∃ c ∈ db.checks, c.id = x.checkId ∧ c.agentId = x.agentId
  rows : ∀ x ∈ db.reservations, WatchRowSound x
  calls : ∀ c ∈ db.checks, count (ofCheck c.id) db.reservations ≤ c.maxModelCalls
  run : ∀ c ∈ db.checks, total (·.charge) (ofCheck c.id) db.reservations ≤ c.maxCostPerRun
  daily : ∀ agentId day cap, 0 ≤ cap → DayCapped db agentId day cap →
    total (·.charge) (ofDay agentId day) db.reservations ≤ cap

section Invariant
variable {db db' : WatchDb} {c : WatchCheck} {x : WatchReservation} {resolution : Resolution}
variable {args : WatchReconcileArgs}

theorem WatchSound.initial (h : NoChecks db) : WatchSound db := by
  obtain ⟨hc,hr⟩ := h
  constructor <;> simp +contextual [hc, hr, total]

theorem WatchSound.begun (h : WatchSound db) (hid : c.id = db.nextId)
    (hchecks : db'.checks = db.checks ++ [c]) (hrows : db'.reservations = db.reservations)
    (hnext : db'.nextId = db.nextId + 1) : WatchSound db' := by
  have hmem : ∀ k ∈ db'.checks, k ∈ db.checks ∨ k = c := by
    intro k hk
    simpa [hchecks] using hk
  have hsub : ∀ k ∈ db.checks, k ∈ db'.checks := by
    intro k hk
    rw [hchecks]
    exact List.mem_append_left _ hk
  have hnone : ∀ x ∈ db.reservations, ofCheck c.id x = false := by
    intro x hx
    have hlt := (h.reservationFresh x hx).2
    simp only [ofCheck, decide_eq_false_iff_not, hid]
    exact hlt.ne
  constructor
  · rw [hchecks]; exact nodup_append_fresh h.checkIds h.checkFresh hid
  · rw [hrows]; exact h.reservationIds
  · intro k hk
    rw [hnext]
    rcases hmem k hk with hk | rfl
    · exact Nat.lt_succ_of_lt (h.checkFresh k hk)
    · exact hid ▸ Nat.lt_succ_self _
  · intro x hx
    rw [hrows] at hx
    rw [hnext]
    exact (h.reservationFresh x hx).imp Nat.lt_succ_of_lt Nat.lt_succ_of_lt
  · intro x hx
    rw [hrows] at hx
    obtain ⟨k,hk,howner⟩ := h.owner x hx
    exact ⟨k,hsub k hk,howner⟩
  · rw [hrows]; exact h.rows
  · intro k hk
    rw [hrows]
    rcases hmem k hk with hk | rfl
    · exact h.calls k hk
    · rw [count_eq_total, total_eq_zero hnone]
      exact Nat.zero_le _
  · intro k hk
    rw [hrows]
    rcases hmem k hk with hk | rfl
    · exact h.run k hk
    · rw [total_eq_zero hnone]
      exact le_trans (by norm_num) k.run_range.1
  · intro agentId day cap hcap hday
    rw [hrows]
    refine h.daily agentId day cap hcap fun x hx hof k hk hkx => ?_
    exact hday x (by rwa [hrows]) hof k (hsub k hk) hkx

theorem WatchSound.held (h : WatchSound db) (hold : WatchHold db c x)
    (hchecks : db'.checks = db.checks) (hrows : db'.reservations = db.reservations ++ [x])
    (hnext : db'.nextId = db.nextId + 1) : WatchSound db' := by
  have hmem : ∀ y ∈ db'.reservations, y ∈ db.reservations ∨ y = x := by
    intro y hy
    simpa [hrows] using hy
  have hsame : ∀ k ∈ db.checks, ofCheck k.id x = true → k = c := by
    intro k hk hof
    have hid : x.checkId = k.id := by simpa [ofCheck] using hof
    exact List.inj_on_of_nodup_map h.checkIds hk hold.check (hid.symm.trans hold.ofCheck)
  have hcfresh := h.checkFresh c hold.check
  constructor
  · rw [hchecks]; exact h.checkIds
  · rw [hrows]
    exact nodup_append_fresh h.reservationIds (fun y hy => (h.reservationFresh y hy).1) hold.id
  · intro k hk
    rw [hchecks] at hk
    rw [hnext]
    exact Nat.lt_succ_of_lt (h.checkFresh k hk)
  · intro y hy
    rw [hnext]
    rcases hmem y hy with hy | rfl
    · exact (h.reservationFresh y hy).imp Nat.lt_succ_of_lt Nat.lt_succ_of_lt
    · rw [hold.id, hold.ofCheck]
      exact ⟨Nat.lt_succ_self _,Nat.lt_succ_of_lt hcfresh⟩
  · intro y hy
    rw [hchecks]
    rcases hmem y hy with hy | rfl
    · exact h.owner y hy
    · exact ⟨c,hold.check,hold.ofCheck.symm,hold.ofAgent.symm⟩
  · intro y hy
    rcases hmem y hy with hy | rfl
    · exact h.rows y hy
    · exact hold.sound
  · intro k hk
    rw [hchecks] at hk
    rw [hrows, count_eq_total, total_append_singleton, ← count_eq_total]
    by_cases hof : ofCheck k.id x = true
    · obtain rfl := hsame k hk hof
      rw [if_pos hof]
      exact hold.calls
    · rw [if_neg hof]
      exact h.calls k hk
  · intro k hk
    rw [hchecks] at hk
    rw [hrows, total_append_singleton]
    by_cases hof : ofCheck k.id x = true
    · obtain rfl := hsame k hk hof
      rw [if_pos hof]
      exact hold.run
    · rw [if_neg hof, add_zero]
      exact h.run k hk
  · intro agentId day cap hcap hday
    have hx : x ∈ db'.reservations := by simp [hrows]
    rw [hrows, total_append_singleton]
    by_cases hof : ofDay agentId day x = true
    · have hle := hday x hx hof c (hchecks ▸ hold.check) hold.ofCheck.symm
      have hkey : x.agentId = agentId ∧ x.budgetDay = day := by simpa [ofDay] using hof
      rw [if_pos hof, ← hkey.1, ← hkey.2, hold.ofAgent, hold.day]
      exact hold.daily.trans hle
    · rw [if_neg hof, add_zero]
      refine h.daily agentId day cap hcap fun y hy hofy k hk hky => ?_
      exact hday y (by simp [hrows, hy]) hofy k (hchecks ▸ hk) hky

theorem WatchSound.settled (h : WatchSound db) (hx : x ∈ db.reservations)
    (hs : x.status = .reserved) (hchecks : db'.checks = db.checks)
    (hrows : db'.reservations =
      updateWhere (·.id = x.id) (settleWatchRow db.now resolution args) db.reservations)
    (hnext : db'.nextId = db.nextId) : WatchSound db' := by
  have hmem : ∀ y ∈ db'.reservations, ∃ z ∈ db.reservations, SamePins z y ∧ WatchRowSound y := by
    intro y hy
    rw [hrows] at hy
    rcases mem_updateWhere_key h.reservationIds hx hy with rfl | ⟨hy,-⟩
    · exact ⟨x,hx,settleWatchRow_pins,(h.rows x hx).settle⟩
    · exact ⟨y,hy,⟨rfl,rfl,rfl,rfl,rfl,rfl,rfl,rfl,rfl,rfl⟩,h.rows y hy⟩
  have hcharge : ∀ y ∈ db.reservations, decide (y.id = x.id) = true →
      (settleWatchRow db.now resolution args y).charge ≤ y.charge := by
    intro y hy hid
    have hyx : y = x := List.inj_on_of_nodup_map h.reservationIds hy hx (by simpa using hid)
    exact settleWatchRow_charge_le (h.rows y hy) (hyx ▸ hs)
  have hcheck : ∀ id, ∀ y ∈ db.reservations, decide (y.id = x.id) = true →
      ofCheck id (settleWatchRow db.now resolution args y) = ofCheck id y := by
    intro id y _ _
    simp only [ofCheck, settleWatchRow_pins.checkId]
  have hday : ∀ agentId day, ∀ y ∈ db.reservations, decide (y.id = x.id) = true →
      ofDay agentId day (settleWatchRow db.now resolution args y) = ofDay agentId day y := by
    intro agentId day y _ _
    simp only [ofDay, settleWatchRow_pins.agentId, settleWatchRow_pins.budgetDay]
  constructor
  · rw [hchecks]; exact h.checkIds
  · rw [hrows, map_updateWhere _ (by exact fun _ _ _ => settleWatchRow_pins.id)]
    exact h.reservationIds
  · rw [hchecks, hnext]; exact h.checkFresh
  · intro y hy
    obtain ⟨z,hz,hpins,-⟩ := hmem y hy
    rw [hpins.id, hpins.checkId, hnext]
    exact h.reservationFresh z hz
  · intro y hy
    obtain ⟨z,hz,hpins,-⟩ := hmem y hy
    rw [hpins.checkId, hpins.agentId, hchecks]
    exact h.owner z hz
  · intro y hy
    obtain ⟨_,_,_,hsound⟩ := hmem y hy
    exact hsound
  · intro k hk
    rw [hrows, count_updateWhere (hcheck k.id)]
    exact h.calls k (hchecks ▸ hk)
  · intro k hk
    rw [hrows]
    exact (total_updateWhere_le (hcheck k.id) hcharge).trans (h.run k (hchecks ▸ hk))
  · intro agentId day cap hcap hcapped
    rw [hrows]
    refine (total_updateWhere_le (hday agentId day) hcharge).trans ?_
    refine h.daily agentId day cap hcap fun y hy hof k hk hky => ?_
    -- the row after the settlement names the same check on the same day
    by_cases hid : y.id = x.id
    · have hmem' : settleWatchRow db.now resolution args y ∈ db'.reservations := by
        rw [hrows]
        exact mem_updateWhere.mpr (Or.inl ⟨y,hy,by simpa using hid,rfl⟩)
      refine hcapped _ hmem' ?_ k (hchecks ▸ hk) (hky.trans settleWatchRow_pins.checkId.symm)
      rw [hday agentId day y hy (by simpa using hid)]
      exact hof
    · have hmem' : y ∈ db'.reservations := by
        rw [hrows]
        exact mem_updateWhere.mpr (Or.inr ⟨hy,by simpa using hid⟩)
      exact hcapped y hmem' hof k (hchecks ▸ hk) hky

theorem WatchSound.step (h : WatchSound db) (hc : WatchChange db db') : WatchSound db' := by
  cases hc with
  | elsewhere hc hr hn =>
    obtain ⟨h1,h2,h3,h4,h5,h6,h7,h8,h9⟩ := h
    constructor <;> simpa only [hc, hr, hn, DayCapped]
  | begun c hid hc hr hn => exact h.begun hid hc hr hn
  | held c x hold hc hr hn => exact h.held hold hc hr hn
  | settled x resolution args hx hs hc hr hn => exact h.settled hx hs hc hr hn

theorem ReachableWatch.sound (h : ReachableWatch db) : WatchSound db :=
  h.invariant (fun _ hinit => .initial hinit) fun _ _ _ hs hst => hs.step hst.change

end Invariant

/-- Spending inside every cap, and settlements that cannot fail. -/
structure WatchAccounts (db : WatchDb) : Prop where
  calls : ∀ c ∈ db.checks, count (ofCheck c.id) db.reservations ≤ c.maxModelCalls
  run : ∀ c ∈ db.checks, total (·.charge) (ofCheck c.id) db.reservations ≤ c.maxCostPerRun
  daily : ∀ c ∈ db.checks, ∀ day,
    (∀ k ∈ db.checks, k.agentId = c.agentId →
      (∃ x ∈ db.reservations, x.checkId = k.id ∧ x.budgetDay = day) →
      k.maxCostPerDay = c.maxCostPerDay) →
    total (·.charge) (ofDay c.agentId day) db.reservations ≤ c.maxCostPerDay
  consumed : ∀ x ∈ db.reservations, ∀ n, x.consumedCost = some n → 0 ≤ n ∧ n ≤ x.reservedCost
  settles : ∀ args resolution, ∀ x ∈ db.reservations, args.reservationId = some x.id →
    args.resolution.bind Resolution.ofText = some resolution →
    ∃ db', reconcilePartnerWatchModelBudget db args = .ok (db',true)

section Claims
variable {db db' : WatchDb} {x : WatchReservation} {es : List WatchEvent}

theorem WatchSound.daily_le (h : WatchSound db) {c : WatchCheck} {day : ℕ}
    (hcap : ∀ k ∈ db.checks, k.agentId = c.agentId →
      (∃ x ∈ db.reservations, x.checkId = k.id ∧ x.budgetDay = day) →
      k.maxCostPerDay = c.maxCostPerDay) :
    total (·.charge) (ofDay c.agentId day) db.reservations ≤ c.maxCostPerDay := by
  have hpos : 0 ≤ c.maxCostPerDay := by
    have hrun := c.run_range.1
    have hday := c.day_range.1
    omega
  refine h.daily c.agentId day c.maxCostPerDay hpos fun x hx hof k hk hkx => ?_
  obtain ⟨hagent,hday⟩ : x.agentId = c.agentId ∧ x.budgetDay = day := by simpa [ofDay] using hof
  -- the check a reservation names is the one whose agent it carries
  obtain ⟨o,ho,hox,hoagent⟩ := h.owner x hx
  have hko : k = o := List.inj_on_of_nodup_map h.checkIds hk ho (hkx.trans hox.symm)
  exact (hcap k hk (hko ▸ hoagent.trans hagent) ⟨x,hx,hkx.symm,hday⟩).le

theorem WatchSound.settles (h : WatchSound db) {args : WatchReconcileArgs} {resolution : Resolution}
    (hx : x ∈ db.reservations) (hid : args.reservationId = some x.id)
    (hres : args.resolution.bind Resolution.ofText = some resolution) :
    ∃ db', reconcilePartnerWatchModelBudget db args = .ok (db',true) := by
  have hfind := find?_key h.reservationIds hx
  obtain ⟨c,hc,hc0,hcle⟩ := settleWatchRow_consumed db.now resolution args (h.rows x hx)
  have hpins : SamePins x (settleWatchRow db.now resolution args x) := settleWatchRow_pins
  have hrange : consumedInRange (settleWatchRow db.now resolution args x) = true := by
    simp [consumedInRange, hc, hpins.reserved, hc0, hcle]
  simp only [reconcilePartnerWatchModelBudget, hid, Option.bind_some, hfind, Result.bind_eq_ok,
    found_eq_ok]
  by_cases hs : x.status = .reserved
  · refine ⟨{ db with
      reservations := updateWhere (·.id = x.id) (settleWatchRow db.now resolution args)
        db.reservations },x,rfl,?_⟩
    rw [if_neg (by simpa using hs)]
    simp only [Result.bind_eq_ok, found_eq_ok, Result.pure_eq_ok, raiseIf_eq_ok]
    exact ⟨resolution,hres,(),by simp [hrange],rfl⟩
  · exact ⟨db,x,rfl,by rw [if_pos hs]; rfl⟩

theorem WatchChange.settled_kept (hc : WatchChange db db') (hdb : WatchSound db)
    (hx : x ∈ db.reservations) (hs : x.status ≠ .reserved) : x ∈ db'.reservations := by
  cases hc with
  | elsewhere _ hr _ | begun _ _ _ hr _ => rwa [hr]
  | held _ _ _ _ hr _ =>
    rw [hr]
    exact List.mem_append_left _ hx
  | settled y resolution args hy hys _ hr _ =>
    rw [hr]
    refine mem_updateWhere.mpr (Or.inr ⟨hx,?_⟩)
    have hne : x.id ≠ y.id := by
      intro heq
      have hxy : x = y := List.inj_on_of_nodup_map hdb.reservationIds hx hy heq
      exact hs (hxy ▸ hys)
    simpa using hne

theorem settled_kept_of_run (hdb : WatchSound db) (hrun : Run WatchStep db es db')
    (hx : x ∈ db.reservations) (hs : x.status ≠ .reserved) : x ∈ db'.reservations := by
  induction hrun with
  | nil => exact hx
  | cons hst _ ih => exact ih (hdb.step hst.change) (hst.change.settled_kept hdb hx hs)

/-- Watch spending stays inside its caps, its settlements never fail, and a settled reservation
never changes again. -/
theorem watch_spending_inside_caps (h : ReachableWatch db) : WatchAccounts db ∧
    ∀ es db', Run WatchStep db es db' →
      ∀ x ∈ db.reservations, x.status ≠ .reserved → x ∈ db'.reservations := by
  have hdb := h.sound
  refine ⟨⟨hdb.calls,hdb.run,fun _ _ _ hcap => hdb.daily_le hcap,?_,?_⟩,?_⟩
  · exact fun x hx n hn => (hdb.rows x hx).consumed n hn
  · exact fun _ _ _ hx hid hres => hdb.settles hx hid hres
  · exact fun _ _ hrun _ hx hs => settled_kept_of_run hdb hrun hx hs

end Claims

section Sample

def watchTerms : WatchTerms := ⟨1,2,1000000,1000000,by decide,by decide,by decide⟩

def watchSurroundings : WatchSurroundings where
  now := 0
  utcDay := 3
  currentDate := 3
  live := fun _ => ⟨some 1,.changed,true⟩
  runs := fun id => if id = 1 then some ⟨.working,false,.hermes,1,some 1,1,"model"⟩ else none
  catalog := fun _ => some ⟨none,true,some 2,some 2000,some "1.5",some "2",some "0.15"⟩

def watchReserve : WatchReserveArgs := ⟨some 1,some "model",some 1000,some 1000,some (.finite (1 / 100)),some 1⟩

def emptyWatch : WatchDb := ⟨0,0,0,0,[],fun _ => ⟨none,.checking,false⟩,fun _ => none,fun _ => none,[]⟩

def watchEvents : List WatchEvent :=
  [.surroundings watchSurroundings,.beginCheck watchTerms,.reserve watchReserve,
    .reconcile ⟨some 1,some "completed",some 900,some 500,some 400⟩,.reserve watchReserve]

def heldWatch : WatchDb := afterAll applyWatch emptyWatch watchEvents

theorem reachable_heldWatch : ReachableWatch heldWatch :=
  ⟨emptyWatch,watchEvents,⟨rfl,rfl⟩,run_afterAll (by decide +kernel)⟩

/-- One completed and one reserved call of a check, and the settlement of the second with usage
over its bound. -/
theorem watch_spending_inside_caps_check : WatchAccounts heldWatch ∧
    ∀ x ∈ heldWatch.reservations, x.status ≠ .reserved → x ∈ (afterAll applyWatch heldWatch
      [.reconcile ⟨some 2,some "completed",some 9000,some 1,some 0⟩]).reservations := by
  obtain ⟨haccounts,hrun⟩ := watch_spending_inside_caps reachable_heldWatch
  exact ⟨haccounts,hrun [.reconcile ⟨some 2,some "completed",some 9000,some 1,some 0⟩] _
    (run_afterAll (by decide +kernel))⟩

end Sample

end HermesEnterprise.Budgets
