import Mathlib.Algebra.BigOperators.Group.List.Basic
import Mathlib.Algebra.Order.BigOperators.Group.List
import Mathlib.Data.List.Nodup
import Mathlib.Tactic.Abel

/-! # Tables as lists of rows

`UPDATE … WHERE` and `sum(…) … WHERE` over a list of rows, and how an update of
one keyed row moves a total.
-/
namespace HermesEnterprise.Foundation.Tables
variable {α κ M : Type*}

/-- Rows of two keys. -/
instance instLawfulBEqKeys : LawfulBEq (ℕ × ℕ) := inferInstance

/-- `UPDATE … WHERE`: change the rows that match and keep the others. -/
def updateWhere (p : α → Bool) (f : α → α) (rows : List α) : List α :=
  rows.map fun r => if p r then f r else r

/-- `count(*) … WHERE p`. -/
def count (p : α → Bool) (rows : List α) : ℕ := (rows.filter p).length

/-- `sum(f) … WHERE p`. -/
def total [AddCommMonoid M] (f : α → M) (p : α → Bool) (rows : List α) : M :=
  ((rows.filter p).map f).sum

section Updates
variable {p : α → Bool} {f : α → α} {rows : List α} {r : α}

theorem mem_updateWhere : r ∈ updateWhere p f rows ↔
    (∃ s ∈ rows, p s = true ∧ r = f s) ∨ (r ∈ rows ∧ p r = false) := by
  simp only [updateWhere, List.mem_map]
  constructor
  · rintro ⟨s,hs,rfl⟩
    by_cases hp : p s = true
    · exact Or.inl ⟨s,hs,hp,by rw [if_pos hp]⟩
    · exact Or.inr ⟨by rw [if_neg hp]; exact hs,by rw [if_neg hp]; simpa using hp⟩
  · rintro (⟨s,hs,hp,rfl⟩ | ⟨hr,hp⟩)
    · exact ⟨s,hs,if_pos hp⟩
    · exact ⟨r,hr,by simp [hp]⟩

/-- A field the update keeps has the same column of values. -/
theorem map_updateWhere {β : Type*} (g : α → β) (h : ∀ s ∈ rows, p s = true → g (f s) = g s) :
    (updateWhere p f rows).map g = rows.map g := by
  simp only [updateWhere, List.map_map, List.map_inj_left, Function.comp]
  intro s hs
  by_cases hp : p s = true
  · rw [if_pos hp]; exact h s hs hp
  · rw [if_neg hp]

/-- After an update by key, a row is the updated one or an old row with another key. -/
theorem mem_updateWhere_key [DecidableEq κ] {key : α → κ} (hn : (rows.map key).Nodup)
    (hr : r ∈ rows) {s : α} (hs : s ∈ updateWhere (fun t => decide (key t = key r)) f rows) :
    s = f r ∨ (s ∈ rows ∧ key s ≠ key r) := by
  rcases mem_updateWhere.mp hs with ⟨t,ht,hkey,rfl⟩ | ⟨hs,hkey⟩
  · have htr : t = r := List.inj_on_of_nodup_map hn ht hr (by simpa using hkey)
    exact Or.inl (htr ▸ rfl)
  · exact Or.inr ⟨hs,by simpa using hkey⟩

/-- Rows chosen by a column the update keeps are the updated rows chosen before it. -/
theorem filter_updateWhere {q : α → Bool} (h : ∀ s ∈ rows, p s = true → q (f s) = q s) :
    (updateWhere p f rows).filter q = updateWhere p f (rows.filter q) := by
  unfold updateWhere
  rw [List.filter_map]
  congr 1
  apply List.filter_congr
  intro s hs
  simp only [Function.comp]
  split
  next hp => exact h s hs hp
  next => rfl

theorem updateWhere_eq_self (h : ∀ s ∈ rows, p s = false) : updateWhere p f rows = rows := by
  unfold updateWhere
  conv_rhs => rw [← List.map_id rows]
  apply List.map_congr_left
  intro s hs
  simp [h s hs]

/-- `SELECT … WHERE` the key of a row finds the row. -/
theorem find?_key [DecidableEq κ] {g : α → κ} (hn : (rows.map g).Nodup) (hr : r ∈ rows) :
    rows.find? (fun s => decide (g s = g r)) = some r := by
  cases hfind : rows.find? (fun s => decide (g s = g r)) with
  | none => simpa using List.find?_eq_none.mp hfind r hr
  | some s =>
    have hkey : g s = g r := by simpa using List.find?_some hfind
    rw [List.inj_on_of_nodup_map hn (List.mem_of_find?_eq_some hfind) hr hkey]

/-- The row that `SELECT … WHERE` a key finds. -/
theorem of_find?_key [DecidableEq κ] {g : α → κ} {k : κ}
    (h : rows.find? (fun s => decide (g s = k)) = some r) : r ∈ rows ∧ g r = k :=
  ⟨List.mem_of_find?_eq_some h,of_decide_eq_true (List.find?_some (p := fun s => decide (g s = k)) h)⟩

/-- A row looked up by key, after an update of the rows of one key. -/
theorem find?_updateWhere_key [DecidableEq κ] (key : α → κ) (f : α → α) (hf : ∀ s, key (f s) = key s)
    (k k' : κ) :
    (updateWhere (fun s => decide (key s = k)) f rows).find? (fun s => decide (key s = k')) =
      (rows.find? fun s => decide (key s = k')).map fun s => if k' = k then f s else s := by
  unfold updateWhere
  have hp : (fun s => decide (key s = k')) ∘ (fun s => if decide (key s = k) = true then f s else s) =
      fun s => decide (key s = k') := by
    funext s
    by_cases hs : key s = k <;> simp [hs, hf]
  rw [List.find?_map, hp]
  cases hfind : rows.find? fun s => decide (key s = k') with
  | none => rfl
  | some s =>
    have hs : key s = k' := by simpa using List.find?_some hfind
    simp [hs]

/-- Inserting a row under an id above all those in use keeps the ids distinct. -/
theorem nodup_append_fresh {key : α → ℕ} {n : ℕ} (h : (rows.map key).Nodup)
    (hlt : ∀ s ∈ rows, key s < n) (hr : key r = n) : ((rows ++ [r]).map key).Nodup := by
  rw [List.map_append, List.map_singleton]
  refine h.append (List.nodup_singleton _) ?_
  intro i hi hi'
  obtain ⟨s,hs,rfl⟩ := List.mem_map.mp hi
  have heq := List.mem_singleton.mp hi'
  have hsn := hlt s hs
  omega

end Updates

section Unique
variable {p : α → Bool} {f : α → α} {rows : List α} {val : α → Option κ}

/-- `UNIQUE` on a column that may be null. -/
def UniqueColumn (val : α → Option κ) (rows : List α) : Prop :=
  ∀ r ∈ rows, ∀ s ∈ rows, (val r).isSome = true → val r = val s → r = s

instance [DecidableEq α] [DecidableEq κ] (val : α → Option κ) (rows : List α) : Decidable (UniqueColumn val rows) :=
  inferInstanceAs (Decidable (∀ r ∈ rows, ∀ s ∈ rows, (val r).isSome = true → val r = val s → r = s))

/-- An update that keeps the column or clears it. -/
theorem UniqueColumn.clear (h : UniqueColumn val rows)
    (hf : ∀ r ∈ rows, p r = true → val (f r) = none ∨ val (f r) = val r) :
    UniqueColumn val (updateWhere p f rows) := by
  have hkeep : ∀ r ∈ rows, val (if p r = true then f r else r) = none ∨
      val (if p r = true then f r else r) = val r := by
    intro r hr
    by_cases hp : p r = true
    · simpa [hp] using hf r hr hp
    · simp [hp]
  intro r' hr' s' hs' hsome heq
  obtain ⟨r,hr,rfl⟩ := List.mem_map.mp hr'
  obtain ⟨s,hs,rfl⟩ := List.mem_map.mp hs'
  obtain hnone | hrow := hkeep r hr
  · rw [hnone] at hsome
    cases hsome
  · rw [hrow] at hsome heq
    obtain hnone | hrow' := hkeep s hs
    · rw [heq, hnone] at hsome
      cases hsome
    · rw [h r hr s hs hsome (heq.trans hrow')]

/-- An update that gives the one row it meets a value that no other row has. -/
theorem UniqueColumn.set {v : κ} (h : UniqueColumn val rows)
    (hone : ∀ r ∈ rows, ∀ s ∈ rows, p r = true → p s = true → r = s)
    (hv : ∀ r ∈ rows, p r = true → val (f r) = some v)
    (hfree : ∀ s ∈ rows, val s = some v → p s = true) : UniqueColumn val (updateWhere p f rows) := by
  intro r' hr' s' hs' hsome heq
  obtain ⟨r,hr,rfl⟩ := List.mem_map.mp hr'
  obtain ⟨s,hs,rfl⟩ := List.mem_map.mp hs'
  by_cases hpr : p r = true <;> by_cases hps : p s = true
  · rw [hone r hr s hs hpr hps]
  · rw [if_pos hpr, if_neg hps, hv r hr hpr] at heq
    exact absurd (hfree s hs heq.symm) hps
  · rw [if_neg hpr, if_pos hps, hv s hs hps] at heq
    exact absurd (hfree r hr heq) hpr
  · rw [if_neg hpr, if_neg hps] at heq
    rw [if_neg hpr] at hsome
    rw [h r hr s hs hsome heq]

end Unique

section Totals
variable [AddCommMonoid M] {f : α → M} {p : α → Bool} {rows : List α} {r : α}

theorem total_cons : total f p (r :: rows) = (if p r then f r else 0) + total f p rows := by
  unfold total
  by_cases hp : p r = true <;> simp [hp]

theorem total_append_singleton :
    total f p (rows ++ [r]) = total f p rows + (if p r then f r else 0) := by
  unfold total
  by_cases hp : p r = true <;> simp [hp]

theorem total_congr {g : α → M} {q : α → Bool} (h : ∀ s ∈ rows, p s = q s)
    (hf : ∀ s ∈ rows, p s = true → f s = g s) : total f p rows = total g q rows := by
  unfold total
  rw [← List.filter_congr h]
  congr 1
  apply List.map_congr_left
  intro s hs
  exact hf s (List.mem_filter.mp hs).1 (List.mem_filter.mp hs).2

theorem total_eq_zero (h : ∀ s ∈ rows, p s = false) : total f p rows = 0 := by
  unfold total
  rw [List.filter_eq_nil_iff.mpr fun s hs => by simp [h s hs]]
  rfl

theorem count_eq_total : count p rows = total (fun _ => (1 : ℕ)) p rows := by
  simp [count, total]

/-- Updating the one row with a key trades its old contribution for the new one. -/
theorem total_updateWhere [DecidableEq κ] (key : α → κ) (g : α → α) (hn : (rows.map key).Nodup)
    (hr : r ∈ rows) :
    total f p (updateWhere (fun s => decide (key s = key r)) g rows) + (if p r then f r else 0) =
      total f p rows + (if p (g r) then f (g r) else 0) := by
  induction rows with
  | nil => cases hr
  | cons s rest ih =>
    simp only [List.map_cons, List.nodup_cons] at hn
    obtain ⟨hs,hn⟩ := hn
    have hcons : updateWhere (fun s => decide (key s = key r)) g (s :: rest) =
        (if key s = key r then g s else s) ::
          updateWhere (fun s => decide (key s = key r)) g rest := by
      simp [updateWhere]
    rw [hcons, total_cons, total_cons]
    by_cases he : key s = key r
    · have hsr : s = r := by
        rcases List.mem_cons.mp hr with h | h
        · exact h.symm
        · exact absurd (List.mem_map_of_mem h) (he ▸ hs)
      subst hsr
      have hrest : updateWhere (fun t => decide (key t = key s)) g rest = rest := by
        apply updateWhere_eq_self
        intro t ht
        have hne : key t ≠ key s := fun h => hs (h ▸ List.mem_map_of_mem ht)
        simp [hne]
      rw [if_pos rfl, hrest]
      abel
    · have hr' : r ∈ rest := by
        rcases List.mem_cons.mp hr with h | h
        · exact absurd (h ▸ rfl) he
        · exact h
      rw [if_neg he, add_assoc, ih hn hr', add_assoc]

theorem total_map {g : α → α} (h : ∀ s ∈ rows, p (g s) = p s) :
    total f p (rows.map g) = total (f ∘ g) p rows := by
  have hp : List.filter (p ∘ g) rows = List.filter p rows := List.filter_congr h
  rw [total, List.filter_map, List.map_map, hp, total]

/-- An update that keeps which rows count keeps their number. -/
theorem count_updateWhere {q : α → Bool} {g : α → α}
    (h : ∀ s ∈ rows, q s = true → p (g s) = p s) : count p (updateWhere q g rows) = count p rows := by
  unfold updateWhere
  rw [count_eq_total, count_eq_total, total_map]
  · rfl
  · intro s hs
    by_cases hq : q s = true
    · rw [if_pos hq]; exact h s hs hq
    · rw [if_neg hq]

end Totals

section Order
variable [AddCommMonoid M] [PartialOrder M] [IsOrderedAddMonoid M] {f : α → M} {p : α → Bool}
variable {rows : List α} {r : α}

theorem total_nonneg (h : ∀ s ∈ rows, p s = true → 0 ≤ f s) : 0 ≤ total f p rows := by
  apply List.sum_nonneg
  intro x hx
  obtain ⟨s,hs,rfl⟩ := List.mem_map.mp hx
  exact h s (List.mem_filter.mp hs).1 (List.mem_filter.mp hs).2

theorem total_mono {g : α → M} (h : ∀ s ∈ rows, p s = true → f s ≤ g s) :
    total f p rows ≤ total g p rows := by
  apply List.sum_le_sum
  intro s hs
  exact h s (List.mem_filter.mp hs).1 (List.mem_filter.mp hs).2

/-- An update that raises no row's amount and keeps which rows count raises no total. -/
theorem total_updateWhere_le {q : α → Bool} {g : α → α}
    (hp : ∀ s ∈ rows, q s = true → p (g s) = p s)
    (hf : ∀ s ∈ rows, q s = true → f (g s) ≤ f s) : total f p (updateWhere q g rows) ≤ total f p rows := by
  unfold updateWhere
  rw [total_map]
  · apply total_mono
    intro s hs _
    by_cases hq : q s = true
    · simpa [hq] using hf s hs hq
    · simp [hq]
  · intro s hs
    by_cases hq : q s = true
    · rw [if_pos hq]; exact hp s hs hq
    · rw [if_neg hq]

/-- One row contributes at most the total of the nonnegative rows. -/
theorem le_total (h : ∀ s ∈ rows, p s = true → 0 ≤ f s) (hr : r ∈ rows) (hp : p r = true) :
    f r ≤ total f p rows := by
  apply List.single_le_sum
  · intro x hx
    obtain ⟨s,hs,rfl⟩ := List.mem_map.mp hx
    exact h s (List.mem_filter.mp hs).1 (List.mem_filter.mp hs).2
  · exact List.mem_map_of_mem (List.mem_filter.mpr ⟨hr,hp⟩)

end Order

end HermesEnterprise.Foundation.Tables
