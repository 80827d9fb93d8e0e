import HermesEnterprise.Foundation.Utf16
import HermesEnterprise.Foundation.Utf8

/-! # The bytes of a UTF-16 text

An encoder reads a text of code units as characters and writes these in UTF-8. It replaces every surrogate
outside a pair, so texts that are not well formed can meet; well-formed ones do not.
-/
namespace HermesEnterprise.Foundation.Utf16

/-- The character of a unit outside pairs. -/
def single (u : UInt16) : Char := if isHigh u || isLow u then Utf8.replacement else Char.ofNat u.toNat

def pair (u v : UInt16) : Char := Char.ofNat (0x10000 + (u.toNat - 0xD800) * 0x400 + (v.toNat - 0xDC00))

def characters : List UInt16 → List Char
  | [] => []
  | [u] => [single u]
  | u :: v :: rest =>
    if isHigh u && isLow v then pair u v :: characters rest else single u :: characters (v :: rest)

/-- `TextEncoder.encode`. -/
def encode (t : List UInt16) : List UInt8 := Utf8.encode (characters t)

def unitsOf (c : Char) : List UInt16 :=
  if c.toNat < 0x10000 then [UInt16.ofNat c.toNat]
  else [UInt16.ofNat (0xD800 + (c.toNat - 0x10000) / 0x400),UInt16.ofNat (0xDC00 + (c.toNat - 0x10000) % 0x400)]

variable {s t : List UInt16} {u v : UInt16}

theorem isHigh_iff : isHigh u = true ↔ 0xD800 ≤ u.toNat ∧ u.toNat ≤ 0xDBFF := by
  simp only [isHigh, Bool.and_eq_true, decide_eq_true_eq, UInt16.le_iff_toNat_le]
  exact Iff.rfl

theorem isLow_iff : isLow u = true ↔ 0xDC00 ≤ u.toNat ∧ u.toNat ≤ 0xDFFF := by
  simp only [isLow, Bool.and_eq_true, decide_eq_true_eq, UInt16.le_iff_toNat_le]
  exact Iff.rfl

theorem toNat_ofNat {n : ℕ} (h : n.isValidChar) : (Char.ofNat n).toNat = n := by
  unfold Char.ofNat
  rw [dif_pos h]
  rfl

theorem unitsOf_single (hhigh : isHigh u = false) (hlow : isLow u = false) : unitsOf (single u) = [u] := by
  have hlt := u.toNat_lt
  have hvalid : u.toNat.isValidChar := by
    by_contra hnot
    have hsurrogate : isHigh u = true ∨ isLow u = true := by
      rw [isHigh_iff, isLow_iff]
      unfold Nat.isValidChar at hnot
      omega
    rcases hsurrogate with h | h
    · rw [hhigh] at h
      cases h
    · rw [hlow] at h
      cases h
  unfold unitsOf single
  rw [hhigh, hlow, Bool.or_false, if_neg Bool.false_ne_true, toNat_ofNat hvalid, if_pos hlt, UInt16.ofNat_toNat]

theorem unitsOf_pair (hhigh : isHigh u = true) (hlow : isLow v = true) : unitsOf (pair u v) = [u,v] := by
  obtain ⟨hu,hu'⟩ := isHigh_iff.mp hhigh
  obtain ⟨hv,hv'⟩ := isLow_iff.mp hlow
  have hvalid : (0x10000 + (u.toNat - 0xD800) * 0x400 + (v.toNat - 0xDC00)).isValidChar := by
    unfold Nat.isValidChar
    omega
  have hfirst : 0xD800 + (0x10000 + (u.toNat - 0xD800) * 0x400 + (v.toNat - 0xDC00) - 0x10000) / 0x400 = u.toNat := by
    omega
  have hsecond : 0xDC00 + (0x10000 + (u.toNat - 0xD800) * 0x400 + (v.toNat - 0xDC00) - 0x10000) % 0x400 = v.toNat := by
    omega
  unfold unitsOf pair
  rw [toNat_ofNat hvalid, if_neg (by omega), hfirst, hsecond, UInt16.ofNat_toNat, UInt16.ofNat_toNat]

/-- The units of the characters of a well-formed text are its own. -/
theorem flatMap_unitsOf (h : wellFormed t = true) : (characters t).flatMap unitsOf = t := by
  induction t using characters.induct with
  | case1 => rfl
  | case2 u =>
    simp only [wellFormed, goesOn, Bool.and_eq_true, Bool.not_eq_true'] at h
    unfold characters
    rw [List.flatMap_cons, unitsOf_single h.2 h.1]
    rfl
  | case3 u v rest hpair ih =>
    rw [Bool.and_eq_true] at hpair
    have hrest : wellFormed rest = true := by
      simp only [wellFormed, goesOn, hpair.1, Bool.and_eq_true] at h
      exact h.2.2
    unfold characters
    rw [if_pos (by rw [hpair.1, hpair.2]; rfl), List.flatMap_cons, unitsOf_pair hpair.1 hpair.2, ih hrest]
    rfl
  | case4 u v rest hpair ih =>
    have hhigh : isHigh u = false := by
      by_contra hhigh
      rw [Bool.not_eq_false] at hhigh
      simp only [wellFormed, goesOn, hhigh, Bool.and_eq_true] at h
      exact hpair (by rw [hhigh, h.2.1]; rfl)
    have hlow : isLow u = false := by
      simp only [wellFormed, goesOn, Bool.and_eq_true, Bool.not_eq_true'] at h
      exact h.1
    have hrest : wellFormed (v :: rest) = true := by
      simp only [wellFormed, goesOn, hhigh, hlow, Bool.not_false, Bool.true_and] at h
      exact h
    unfold characters
    rw [if_neg hpair, List.flatMap_cons, unitsOf_single hhigh hlow, ih hrest]
    rfl

theorem encode_injOn (hs : wellFormed s = true) (ht : wellFormed t = true) (h : encode s = encode t) : s = t := by
  have hcharacters : characters s = characters t := Utf8.encode_injective h
  rw [← flatMap_unitsOf hs, ← flatMap_unitsOf ht, hcharacters]

end HermesEnterprise.Foundation.Utf16
