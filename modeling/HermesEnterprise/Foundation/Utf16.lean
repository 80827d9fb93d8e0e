import Mathlib.Data.List.Basic
import Mathlib.Tactic

/-! # Well-formed UTF-16

A text of code units is well formed when every surrogate belongs to a pair. Well
formed texts join to well-formed ones, and a text is cut between pairs wherever
the unit before the cut is not a high surrogate.
-/
namespace HermesEnterprise.Foundation.Utf16

def isHigh (u : UInt16) : Bool := 0xD800 ≤ u && u ≤ 0xDBFF

def isLow (u : UInt16) : Bool := 0xDC00 ≤ u && u ≤ 0xDFFF

/-- Whether the units go on well formed, after a high surrogate that is still open or not. -/
def goesOn : Bool → List UInt16 → Bool
  | unpaired, [] => !unpaired
  | true, u :: rest => isLow u && goesOn false rest
  | false, u :: rest => !isLow u && goesOn (isHigh u) rest

def wellFormed (t : List UInt16) : Bool := goesOn false t

variable {a b t : List UInt16} {u v : UInt16} {unpaired : Bool}

theorem not_low_of_high (h : isHigh u = true) : isLow u = false := by
  simp only [isHigh, Bool.and_eq_true, decide_eq_true_eq] at h
  simp only [isLow, Bool.and_eq_false_iff, decide_eq_false_iff_not]
  refine Or.inl fun hl => ?_
  have := UInt16.le_trans hl h.2
  exact absurd this (by decide)

theorem goesOn_append (h : goesOn unpaired a = true) : goesOn unpaired (a ++ b) = wellFormed b := by
  induction a generalizing unpaired with
  | nil =>
    cases unpaired with
    | false => rfl
    | true => cases h
  | cons u rest ih =>
    cases unpaired with
    | false =>
      simp only [goesOn, Bool.and_eq_true] at h
      simp only [List.cons_append, goesOn, h.1, Bool.true_and, ih h.2]
    | true =>
      simp only [goesOn, Bool.and_eq_true] at h
      simp only [List.cons_append, goesOn, h.1, Bool.true_and, ih h.2]

theorem wellFormed_append (ha : wellFormed a = true) (hb : wellFormed b = true) :
    wellFormed (a ++ b) = true :=
  (goesOn_append ha).trans hb

/-- A cut after a unit that is no high surrogate leaves two well-formed texts. -/
theorem goesOn_cut (h : goesOn unpaired (a ++ b) = true) (hopen : a = [] → unpaired = false)
    (hlast : ∀ u, a.getLast? = some u → isHigh u = false) :
    goesOn unpaired a = true ∧ wellFormed b = true := by
  induction a generalizing unpaired with
  | nil => exact ⟨by simp [goesOn, hopen rfl],by rw [hopen rfl] at h; exact h⟩
  | cons u rest ih =>
    have hrest : ∀ w, rest.getLast? = some w → isHigh w = false := by
      intro w hw
      exact hlast w (by rw [List.getLast?_cons, hw]; rfl)
    cases unpaired with
    | true =>
      simp only [List.cons_append, goesOn, Bool.and_eq_true] at h ⊢
      have ht := ih h.2 (fun _ => rfl) hrest
      exact ⟨⟨h.1,ht.1⟩,ht.2⟩
    | false =>
      simp only [List.cons_append, goesOn, Bool.and_eq_true] at h ⊢
      have ht := ih h.2 (fun hr => hlast u (by rw [hr]; rfl)) hrest
      exact ⟨⟨h.1,ht.1⟩,ht.2⟩

/-- After a high surrogate comes a low one. -/
theorem low_after_high (h : goesOn unpaired t = true) {i : ℕ} (hu : t[i]? = some u)
    (hv : t[i + 1]? = some v) (hhigh : isHigh u = true) : isLow v = true := by
  induction t generalizing unpaired i with
  | nil => simp at hu
  | cons w rest ih =>
    have hrest : ∃ p, goesOn p rest = true ∧ (i = 0 → p = isHigh u ∨ isLow u = true) := by
      cases unpaired with
      | true =>
        simp only [goesOn, Bool.and_eq_true] at h
        refine ⟨false,h.2,fun hi => Or.inr ?_⟩
        subst hi
        simp only [List.getElem?_cons_zero, Option.some.injEq] at hu
        exact hu ▸ h.1
      | false =>
        simp only [goesOn, Bool.and_eq_true] at h
        refine ⟨_,h.2,fun hi => Or.inl ?_⟩
        subst hi
        simp only [List.getElem?_cons_zero, Option.some.injEq] at hu
        rw [hu]
    obtain ⟨p,hp,hzero⟩ := hrest
    cases i with
    | succ i => exact ih hp hu hv
    | zero =>
      rcases hzero rfl with rfl | hlow
      · rw [hhigh] at hp
        cases rest with
        | nil => simp at hv
        | cons x rest =>
          simp only [goesOn, Bool.and_eq_true] at hp
          simp only [Nat.zero_add, List.getElem?_cons_succ, List.getElem?_cons_zero,
            Option.some.injEq] at hv
          exact hv ▸ hp.1
      · rw [not_low_of_high hhigh] at hlow
        cases hlow

section Cut
variable {limit : ℕ}

/-- Where a text is cut: at the limit, or one unit before it where the limit would split a pair. -/
def cutAt (limit : ℕ) (t : List UInt16) : ℕ :=
  let stop := min t.length limit
  if stop < t.length ∧ (t[stop - 1]?).any isHigh then stop - 1 else stop

theorem cutAt_le : cutAt limit t ≤ limit := by
  unfold cutAt
  dsimp only
  split <;> omega

theorem cutAt_pos (ht : t ≠ []) (hl : 2 ≤ limit) : 0 < cutAt limit t := by
  have hpos := List.length_pos_iff.mpr ht
  unfold cutAt
  dsimp only
  split <;> omega

theorem last_take {n : ℕ} (h : n < t.length) (hn : 0 < n) : (t.take n).getLast? = t[n - 1]? := by
  rw [List.getLast?_eq_getElem?, List.length_take, Nat.min_eq_left h.le,
    List.getElem?_take_of_lt (by omega)]

/-- Both sides of the cut are well formed. -/
theorem wellFormed_cut (h : wellFormed t = true) (ht : t ≠ []) (hl : 2 ≤ limit) :
    wellFormed (t.take (cutAt limit t)) = true ∧ wellFormed (t.drop (cutAt limit t)) = true := by
  have hpos := cutAt_pos ht hl
  by_cases hall : t.length ≤ cutAt limit t
  · rw [List.take_of_length_le hall, List.drop_eq_nil_of_le hall]
    exact ⟨h,rfl⟩
  have hlt : cutAt limit t < t.length := Nat.lt_of_not_le hall
  refine goesOn_cut (by rw [List.take_append_drop]; exact h) (fun _ => rfl) ?_
  intro u hu
  rw [last_take hlt hpos] at hu
  unfold cutAt at hu hlt hpos
  dsimp only at hu hlt hpos
  split at hu
  next hc =>
    -- the unit before the limit is high, so the one before it is not
    obtain ⟨hstop,hhigh⟩ := hc
    rw [Option.any_eq_true] at hhigh
    obtain ⟨v,hv,hhigh⟩ := hhigh
    by_contra hu'
    rw [if_pos ⟨hstop,by rw [hv]; exact hhigh⟩] at hpos
    have hlow : isLow v = true := by
      refine low_after_high h hu ?_ (by simpa using hu')
      rw [show min t.length limit - 1 - 1 + 1 = min t.length limit - 1 by omega, hv]
    rw [not_low_of_high hhigh] at hlow
    cases hlow
  next hc =>
    by_contra hu'
    rw [if_neg hc] at hlt
    exact hc ⟨hlt,by rw [hu]; simpa using hu'⟩

end Cut

end HermesEnterprise.Foundation.Utf16
