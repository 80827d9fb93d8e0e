import Mathlib.Algebra.Order.Floor.Ring
import Mathlib.Algebra.Order.Monoid.WithTop
import Mathlib.Data.Rat.Floor
import Mathlib.Tactic

/-! # SQL decimals

Values of type `numeric`, and the columns of type `numeric(14,8)` that store
them: a count of hundred-millionths, rounded half away from zero, or NaN.
-/
namespace HermesEnterprise.Foundation.Decimal

inductive Numeric
  | negInfinity
  | finite (value : ℚ)
  | infinity
  | nan
  deriving DecidableEq

/-- The order of `numeric`: NaN is above everything and equal to itself. -/
def Numeric.lt : Numeric → Numeric → Bool
  | .nan, _ => false
  | _, .nan => true
  | .negInfinity, .negInfinity => false
  | .negInfinity, _ => true
  | _, .negInfinity => false
  | .infinity, _ => false
  | .finite _, .infinity => true
  | .finite a, .finite b => a < b

def Numeric.add : Numeric → Numeric → Numeric
  | .nan, _ | _, .nan => .nan
  | .infinity, .negInfinity | .negInfinity, .infinity => .nan
  | .infinity, _ | _, .infinity => .infinity
  | .negInfinity, _ | _, .negInfinity => .negInfinity
  | .finite a, .finite b => .finite (a + b)

/-- A stored `numeric(14,8)` in hundred-millionths; the top element is NaN. -/
abbrev Amount := WithTop ℤ

def scale : ℚ := 100000000

def Amount.value (a : Amount) : Numeric := a.recTopCoe .nan fun n => .finite (n / scale)

def roundUnits (q : ℚ) : ℤ :=
  if 0 ≤ q then ⌊q * scale + 1 / 2⌋ else -⌊-q * scale + 1 / 2⌋

/-- Assignment of a finite value to a `numeric(14,8)` column: rounded, or refused when it does not
fit. -/
def units : Numeric → Option ℤ
  | .finite q => if |roundUnits q| < 10 ^ 14 then some (roundUnits q) else none
  | .nan | .infinity | .negInfinity => none

/-- Assignment to a `numeric(14,8)` column, which also stores NaN. -/
def store (x : Numeric) : Option Amount :=
  if x = .nan then some ⊤ else (units x).map fun n : ℤ => (n : Amount)

variable {q : ℚ} {n m k cap : ℤ} {a b c : Amount} {x : Numeric}

@[simp] theorem value_coe : Amount.value (n : ℤ) = .finite (n / scale) := rfl

@[simp] theorem value_top : Amount.value ⊤ = .nan := rfl

theorem roundUnits_of_nonneg (hq : 0 ≤ q) : roundUnits q = ⌊q * scale + 1 / 2⌋ := if_pos hq

theorem roundUnits_nonneg (hq : 0 ≤ q) : 0 ≤ roundUnits q := by
  rw [roundUnits_of_nonneg hq]
  apply Int.floor_nonneg.mpr
  have : 0 ≤ q * scale := mul_nonneg hq (by norm_num [scale])
  linarith

/-- Rounding a sum with a stored part rounds the other part. -/
theorem roundUnits_add (hn : 0 ≤ n) (hq : 0 ≤ q) : roundUnits (n / scale + q) = n + roundUnits q := by
  have hs : (0 : ℚ) < scale := by norm_num [scale]
  have hsum : 0 ≤ (n : ℚ) / scale + q :=
    add_nonneg (div_nonneg (by exact_mod_cast hn) hs.le) hq
  rw [roundUnits_of_nonneg hsum, roundUnits_of_nonneg hq, add_mul, div_mul_cancel₀ _ hs.ne',
    add_assoc, Int.floor_intCast_add]

@[simp] theorem roundUnits_coe (hn : 0 ≤ n) : roundUnits (n / scale) = n := by
  have h := roundUnits_add (q := 0) hn le_rfl
  rw [add_zero] at h
  rw [h]
  norm_num [roundUnits]

theorem roundUnits_mono {p : ℚ} (hp : 0 ≤ p) (h : p ≤ q) : roundUnits p ≤ roundUnits q := by
  rw [roundUnits_of_nonneg hp, roundUnits_of_nonneg (hp.trans h)]
  apply Int.floor_mono
  have : p * scale ≤ q * scale := mul_le_mul_of_nonneg_right h (by norm_num [scale])
  linarith

/-- What fits under a stored bound still fits after rounding. -/
theorem roundUnits_le (hq : 0 ≤ q) (hn : 0 ≤ n) (h : q ≤ n / scale) : roundUnits q ≤ n :=
  roundUnits_coe hn ▸ roundUnits_mono hq h

theorem le_roundUnits (hn : 0 ≤ n) (h : (n : ℚ) / scale ≤ q) : n ≤ roundUnits q := by
  have h0 : (0 : ℚ) ≤ n / scale := div_nonneg (by exact_mod_cast hn) (by norm_num [scale])
  exact roundUnits_coe hn ▸ roundUnits_mono h0 h

theorem units_eq_some : units x = some n ↔
    ∃ q, x = .finite q ∧ n = roundUnits q ∧ |roundUnits q| < 10 ^ 14 := by
  cases x with
  | finite q =>
    simp only [units, Option.ite_none_right_eq_some, Option.some.injEq, Numeric.finite.injEq,
      exists_eq_left']
    exact ⟨fun h => ⟨h.2.symm,h.1⟩,fun h => ⟨h.2,h.1.symm⟩⟩
  | negInfinity | infinity | nan => simp [units]

theorem store_eq_some : store x = some a ↔ (x = .nan ∧ a = ⊤) ∨ ∃ n, units x = some n ∧ a = n := by
  by_cases hx : x = .nan
  · subst hx
    simp [store, units, eq_comm]
  · rw [store, if_neg hx, Option.map_eq_some_iff]
    constructor
    · rintro ⟨n,hn,rfl⟩
      exact Or.inr ⟨n,hn,rfl⟩
    · rintro (⟨hnan,-⟩ | ⟨n,hn,rfl⟩)
      · exact absurd hnan hx
      · exact ⟨n,hn,rfl⟩

theorem units_nonneg (hx : x.lt (.finite 0) = false) (h : units x = some n) : 0 ≤ n := by
  obtain ⟨q,rfl,rfl,-⟩ := units_eq_some.mp h
  apply roundUnits_nonneg
  simpa [Numeric.lt] using hx

theorem store_nonneg (hx : x.lt (.finite 0) = false) (h : store x = some a) : 0 ≤ a := by
  rcases store_eq_some.mp h with ⟨-,rfl⟩ | ⟨n,hn,rfl⟩
  · exact le_top
  · exact_mod_cast units_nonneg hx hn

/-- Storing a sum with a stored part adds the stored amounts. -/
theorem units_value_add (hn : 0 ≤ n) (hx : x.lt (.finite 0) = false) (h : units x = some m)
    (hadd : units ((Amount.value n).add x) = some k) : k = n + m := by
  obtain ⟨q,rfl,rfl,-⟩ := units_eq_some.mp h
  have hq : 0 ≤ q := by simpa [Numeric.lt] using hx
  simp only [value_coe, Numeric.add] at hadd
  obtain ⟨_,hfin,rfl,-⟩ := units_eq_some.mp hadd
  cases hfin
  exact roundUnits_add hn hq

theorem store_value_add (ha : 0 ≤ a) (hx : x.lt (.finite 0) = false) (h : store x = some b)
    (hadd : store (a.value.add x) = some c) : c = a + b := by
  induction a using WithTop.recTopCoe with
  | top => simpa [Numeric.add, store, eq_comm] using hadd
  | coe n =>
    rcases store_eq_some.mp h with ⟨rfl,rfl⟩ | ⟨m,hm,rfl⟩
    · simpa [Numeric.add, store, eq_comm] using hadd
    · rcases store_eq_some.mp hadd with ⟨hnan,-⟩ | ⟨k,hk,rfl⟩
      · obtain ⟨q,rfl,-⟩ := units_eq_some.mp hm
        simp [Numeric.add] at hnan
      · exact_mod_cast units_value_add (by exact_mod_cast ha) hx hm hk

theorem store_value_coe (hn : 0 ≤ n) (h : store (Amount.value n) = some a) : a = n := by
  rcases store_eq_some.mp h with ⟨hnan,-⟩ | ⟨m,hm,rfl⟩
  · simp at hnan
  · obtain ⟨q,hq,rfl,-⟩ := units_eq_some.mp hm
    cases hq
    rw [roundUnits_coe hn]

/-- What stays under a stored cap before rounding stays under it after rounding. -/
theorem add_le_of_not_lt (ha : 0 ≤ a) (hn : 0 ≤ n) (hcap : 0 ≤ cap)
    (hx : x.lt (.finite 0) = false) (h : units x = some m)
    (hle : (Amount.value cap).lt ((a.value.add (Amount.value n)).add x) = false) :
    a + ((n + m : ℤ) : Amount) ≤ cap := by
  obtain ⟨q,rfl,rfl,-⟩ := units_eq_some.mp h
  have hq : 0 ≤ q := by simpa [Numeric.lt] using hx
  induction a using WithTop.recTopCoe with
  | top => simp [Numeric.add, Numeric.lt] at hle
  | coe k =>
    have hk : 0 ≤ k := by exact_mod_cast ha
    have hs : (0 : ℚ) < scale := by norm_num [scale]
    simp only [value_coe, Numeric.add, Numeric.lt, decide_eq_false_iff_not, not_lt] at hle
    have hsum : ((k + n : ℤ) : ℚ) / scale + q ≤ cap / scale := by
      rw [Int.cast_add, add_div]
      exact hle
    have hround := roundUnits_le (add_nonneg (div_nonneg (by exact_mod_cast add_nonneg hk hn) hs.le)
      hq) hcap hsum
    rw [roundUnits_add (add_nonneg hk hn) hq] at hround
    have : k + (n + roundUnits q) ≤ cap := by omega
    exact_mod_cast this

/-- A sum that reached a stored cap before rounding reached it after rounding. -/
theorem le_add_of_not_lt (ha : 0 ≤ a) (hcap : 0 ≤ cap) (hx : x.lt (.finite 0) = false)
    (h : store x = some b) (hle : (a.value.add x).lt (Amount.value cap) = false) :
    (cap : Amount) ≤ a + b := by
  induction a using WithTop.recTopCoe with
  | top => simp
  | coe n =>
    rcases store_eq_some.mp h with ⟨rfl,rfl⟩ | ⟨m,hm,rfl⟩
    · simp
    · obtain ⟨q,rfl,rfl,-⟩ := units_eq_some.mp hm
      have hq : 0 ≤ q := by simpa [Numeric.lt] using hx
      have hn : 0 ≤ n := by exact_mod_cast ha
      simp only [value_coe, Numeric.add, Numeric.lt, decide_eq_false_iff_not, not_lt] at hle
      have hround := le_roundUnits hcap hle
      rw [roundUnits_add hn hq] at hround
      exact_mod_cast hround

/-- A cap that was reached stays reached when more is added. -/
theorem value_add_not_lt (hx : x.lt (.finite 0) = false) (hle : (cap : Amount) ≤ a) :
    (a.value.add x).lt (Amount.value cap) = false := by
  induction a using WithTop.recTopCoe with
  | top => simp [Numeric.add, Numeric.lt]
  | coe n =>
    have hs : (0 : ℚ) < scale := by norm_num [scale]
    have hn : (cap : ℚ) / scale ≤ n / scale :=
      div_le_div_of_nonneg_right (by exact_mod_cast hle) hs.le
    cases x with
    | finite q =>
      have hq : 0 ≤ q := by simpa [Numeric.lt] using hx
      simp only [value_coe, Numeric.add, Numeric.lt, decide_eq_false_iff_not, not_lt]
      linarith
    | negInfinity => simp [Numeric.lt] at hx
    | infinity | nan => simp [Numeric.add, Numeric.lt]

end HermesEnterprise.Foundation.Decimal
