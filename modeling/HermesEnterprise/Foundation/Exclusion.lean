import Mathlib.Data.List.Basic

/-! # Entries that exclude each other

No two entries of a list stand in a symmetric relation, as the holders of a lock. An entry may take the place
of another, or be added, when it stands in the relation to none of the others.
-/
namespace HermesEnterprise.Foundation.Exclusion
variable {α : Type*} {P : α → α → Prop} {rows : List α} {x : α} {t : ℕ}

/-- No two entries at different places are so related. -/
def Exclusive (P : α → α → Prop) (rows : List α) : Prop :=
  ∀ (i j : ℕ) (x y : α), rows[i]? = some x → rows[j]? = some y → P x y → i = j

theorem of_getElem?_set {i : ℕ} {y : α} (h : (rows.set t x)[i]? = some y) :
    (i = t ∧ y = x) ∨ (i ≠ t ∧ rows[i]? = some y) := by
  rw [List.getElem?_set] at h
  split at h
  next hi =>
    split at h
    · exact .inl ⟨hi.symm,(Option.some.inj h).symm⟩
    · cases h
  next hi => exact .inr ⟨Ne.symm hi,h⟩

theorem of_getElem?_append_singleton {i : ℕ} {y : α} (h : (rows ++ [x])[i]? = some y) :
    rows[i]? = some y ∨ y = x := by
  rcases Nat.lt_or_ge i rows.length with hi | hi
  · rw [List.getElem?_append_left hi] at h
    exact .inl h
  · rw [List.getElem?_append_right hi] at h
    exact .inr (List.mem_singleton.1 (List.mem_of_getElem? h))

theorem exclusive_nil : Exclusive P [] := by
  intro i j x y hx
  cases hx

theorem Exclusive.set (h : Exclusive P rows) (hP : ∀ x y, P x y → P y x)
    (hx : ∀ j y, rows[j]? = some y → j ≠ t → ¬ P x y) : Exclusive P (rows.set t x) := by
  intro i j y z hy hz hyz
  rcases of_getElem?_set hy with ⟨hi,rfl⟩ | ⟨hi,hy'⟩
  · rcases of_getElem?_set hz with ⟨hj,-⟩ | ⟨hj,hz'⟩
    · rw [hi,hj]
    · exact absurd hyz (hx j z hz' hj)
  · rcases of_getElem?_set hz with ⟨-,rfl⟩ | ⟨-,hz'⟩
    · exact absurd (hP _ _ hyz) (hx i y hy' hi)
    · exact h i j y z hy' hz' hyz

/-- An entry is added that is related to none, itself included. -/
theorem Exclusive.append (h : Exclusive P rows) (hP : ∀ x y, P x y → P y x) (hx : ∀ y ∈ rows, ¬ P x y)
    (hxx : ¬ P x x) : Exclusive P (rows ++ [x]) := by
  intro i j y z hy hz hyz
  rcases of_getElem?_append_singleton hy with hy' | rfl
  · rcases of_getElem?_append_singleton hz with hz' | rfl
    · exact h i j y z hy' hz' hyz
    · exact absurd (hP _ _ hyz) (hx y (List.mem_of_getElem? hy'))
  · rcases of_getElem?_append_singleton hz with hz' | rfl
    · exact absurd hyz (hx z (List.mem_of_getElem? hz'))
    · exact absurd hyz hxx

end HermesEnterprise.Foundation.Exclusion
