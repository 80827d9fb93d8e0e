import Mathlib.Data.Nat.Digits.Lemmas

/-! # Numerals

A number is written with its most significant digit first, and padded with zeros where it has a fixed width.
-/
namespace HermesEnterprise.Foundation.Numerals
variable {b n k : ℕ} {ds : List ℕ}

/-- Zero has one digit. -/
def digits (b n : ℕ) : List ℕ := if n = 0 then [0] else (Nat.digits b n).reverse

def value (b : ℕ) (ds : List ℕ) : ℕ := ds.foldl (fun n d => n * b + d) 0

theorem foldl_reverse (ds : List ℕ) : value b ds.reverse = Nat.ofDigits b ds := by
  unfold value
  rw [List.foldl_reverse]
  induction ds with
  | nil => rfl
  | cons d ds ih => rw [List.foldr_cons, ih, Nat.ofDigits_cons, Nat.mul_comm, Nat.add_comm]

theorem value_digits (b n : ℕ) : value b (digits b n) = n := by
  unfold digits
  split
  · rename_i h
    rw [h]
    simp [value]
  · rw [foldl_reverse, Nat.ofDigits_digits]

theorem value_zeros (b k : ℕ) (ds : List ℕ) : value b (List.replicate k 0 ++ ds) = value b ds := by
  unfold value
  rw [List.foldl_append]
  congr 1
  induction k with
  | zero => rfl
  | succ k ih =>
    rw [List.replicate_succ, List.foldl_cons, Nat.zero_mul]
    exact ih

theorem digits_lt (hb : 1 < b) : ∀ d ∈ digits b n, d < b := by
  intro d hd
  unfold digits at hd
  split at hd
  · rw [List.mem_singleton.mp hd]
    omega
  · exact Nat.digits_lt_base hb (List.mem_reverse.mp hd)

theorem length_digits (hb : 1 < b) (hk : 0 < k) (h : n < b ^ k) : (digits b n).length ≤ k := by
  unfold digits
  split
  · exact hk
  · rw [List.length_reverse]
    exact (Nat.digits_length_le_iff hb n).mpr h

/-- No number but zero is written with a zero in front. -/
theorem digits_head (hn : n ≠ 0) : ∃ d ds, digits b n = d :: ds ∧ d ≠ 0 := by
  unfold digits
  rw [if_neg hn]
  have hne : Nat.digits b n ≠ [] := Nat.digits_ne_nil_iff_ne_zero.mpr hn
  refine ⟨(Nat.digits b n).getLast hne,((Nat.digits b n).dropLast).reverse,?_,Nat.getLast_digit_ne_zero b hn⟩
  conv_lhs => rw [← List.dropLast_append_getLast hne]
  rw [List.reverse_append, List.reverse_singleton, List.singleton_append]

end HermesEnterprise.Foundation.Numerals
