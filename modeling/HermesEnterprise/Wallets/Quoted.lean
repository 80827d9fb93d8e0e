import HermesEnterprise.Foundation.Characters
import HermesEnterprise.Providers.Json

/-! # String literals

A literal that `JSON.stringify` writes ends in one way, and the string can be read back from it. It is well
formed whatever the string holds, since half a pair is escaped.
-/
namespace HermesEnterprise.Wallets
open Inbound Providers Foundation
variable {s t rest rest' : Text} {c : CodeUnit}

/-- What an escape with one unit stands for. -/
def unescapeUnit (c : CodeUnit) : CodeUnit :=
  if c = unit 'b' then 8 else if c = unit 't' then 9 else if c = unit 'n' then 10 else if c = unit 'f' then 12
  else if c = unit 'r' then 13 else c

def unescapeDigits (a b c d : CodeUnit) : CodeUnit :=
  UInt16.ofNat (((digitValue a * 16 + digitValue b) * 16 + digitValue c) * 16 + digitValue d)

/-- The string of a literal behind its opening quote, and what follows the literal. -/
def readLiteral : Text → Option (Text × Text)
  | [] => none
  | c :: rest =>
    if c = unit '"' then some ([],rest)
    else if c = unit '\\' then
      match rest with
      | [] => none
      | e :: rest =>
        if e = unit 'u' then
          match rest with
          | h₁ :: h₂ :: h₃ :: h₄ :: rest =>
            (readLiteral rest).map fun p => (unescapeDigits h₁ h₂ h₃ h₄ :: p.1,p.2)
          | _ => none
        else (readLiteral rest).map fun p => (unescapeUnit e :: p.1,p.2)
    else (readLiteral rest).map fun p => (c :: p.1,p.2)

theorem readLiteral_plain (hquote : c ≠ unit '"') (hescape : c ≠ unit '\\') :
    readLiteral (c :: rest) = (readLiteral rest).map fun p => (c :: p.1,p.2) := by
  rw [readLiteral.eq_def]
  dsimp only
  rw [if_neg hquote, if_neg hescape]

theorem readLiteral_escaped (h : c ≠ unit 'u') :
    readLiteral (unit '\\' :: c :: rest) = (readLiteral rest).map fun p => (unescapeUnit c :: p.1,p.2) := by
  rw [readLiteral.eq_def]
  dsimp only
  rw [if_neg (by decide), if_pos rfl, if_neg h]

theorem readLiteral_end (rest : Text) : readLiteral (unit '"' :: rest) = some ([],rest) := by
  rw [readLiteral.eq_def]
  dsimp only
  rw [if_pos rfl]

theorem digitValue_hexDigit {n : ℕ} (h : n < 16) : digitValue (hexDigit n) = n := by
  have hall : ∀ m < 16, digitValue (hexDigit m) = m := by decide
  exact hall n h

theorem unescapeDigits_unicodeEscape (c : CodeUnit) :
    unescapeDigits (hexDigit (c.toNat / 0x1000)) (hexDigit (c.toNat / 0x100 % 16)) (hexDigit (c.toNat / 16 % 16))
      (hexDigit (c.toNat % 16)) = c := by
  have hlt := c.toNat_lt
  unfold unescapeDigits
  rw [digitValue_hexDigit (by omega), digitValue_hexDigit (by omega), digitValue_hexDigit (by omega),
    digitValue_hexDigit (by omega)]
  have hvalue : ((c.toNat / 0x1000 * 16 + c.toNat / 0x100 % 16) * 16 + c.toNat / 16 % 16) * 16 + c.toNat % 16 =
      c.toNat := by omega
  rw [hvalue, UInt16.ofNat_toNat]

theorem readLiteral_escapeUnit (c : CodeUnit) (rest : Text) :
    readLiteral (Providers.escapeUnit c ++ rest) = (readLiteral rest).map fun p => (c :: p.1,p.2) := by
  unfold Providers.escapeUnit
  split
  · rename_i h
    rcases h with rfl | rfl
    · exact readLiteral_escaped (by decide)
    · exact readLiteral_escaped (by decide)
  rename_i hplain
  rw [not_or] at hplain
  split
  · rename_i h
    subst h
    exact readLiteral_escaped (by decide)
  split
  · rename_i h
    subst h
    exact readLiteral_escaped (by decide)
  split
  · rename_i h
    subst h
    exact readLiteral_escaped (by decide)
  split
  · rename_i h
    subst h
    exact readLiteral_escaped (by decide)
  split
  · rename_i h
    subst h
    exact readLiteral_escaped (by decide)
  split
  · unfold unicodeEscape
    simp only [List.cons_append, List.nil_append]
    rw [readLiteral.eq_def]
    dsimp only
    rw [if_neg (by decide), if_pos rfl, if_pos rfl, unescapeDigits_unicodeEscape]
  · exact readLiteral_plain hplain.1 hplain.2

theorem surrogate_plain (h : isHighSurrogate c = true ∨ isLowSurrogate c = true) :
    c ≠ unit '"' ∧ c ≠ unit '\\' := by
  constructor
  · rintro rfl
    revert h
    decide
  · rintro rfl
    revert h
    decide

theorem readLiteral_escape (s rest : Text) : readLiteral (escape s ++ unit '"' :: rest) = some (s,rest) := by
  induction s using escape.induct with
  | case1 => rw [escape, List.nil_append, readLiteral_end]
  | case2 c =>
    rw [escape, readLiteral_escapeUnit, readLiteral_end]
    rfl
  | case3 c d tail hpair ih =>
    rw [Bool.and_eq_true] at hpair
    obtain ⟨hc,hc'⟩ := surrogate_plain (Or.inl hpair.1)
    obtain ⟨hd,hd'⟩ := surrogate_plain (Or.inr hpair.2)
    rw [escape, if_pos (by rw [hpair.1, hpair.2]; rfl), List.cons_append, List.cons_append,
      readLiteral_plain hc hc', readLiteral_plain hd hd', ih]
    rfl
  | case4 c d tail hpair ih =>
    rw [escape, if_neg hpair, List.append_assoc, readLiteral_escapeUnit, ih]
    rfl

/-- Two literals that start one text are of one string. -/
theorem quote_append_inj (h : quote s ++ rest = quote t ++ rest') : s = t ∧ rest = rest' := by
  unfold quote at h
  simp only [List.cons_append, List.append_assoc, List.nil_append, List.cons.injEq, true_and] at h
  have hread := congrArg readLiteral h
  rw [readLiteral_escape, readLiteral_escape] at hread
  exact Prod.mk.inj (Option.some.inj hread)

section WellFormed

theorem goesOn_plain (hhigh : isHighSurrogate c = false) (hlow : isLowSurrogate c = false) :
    Utf16.goesOn false (c :: rest) = Utf16.wellFormed rest := by
  have hhigh' : Utf16.isHigh c = false := hhigh
  have hlow' : Utf16.isLow c = false := hlow
  simp [Utf16.goesOn, hhigh', hlow', Utf16.wellFormed]

theorem wellFormed_of_plain (h : ∀ c ∈ s, isHighSurrogate c = false ∧ isLowSurrogate c = false) :
    Utf16.wellFormed s = true := by
  induction s with
  | nil => rfl
  | cons c s ih =>
    obtain ⟨hhigh,hlow⟩ := h c List.mem_cons_self
    exact (goesOn_plain hhigh hlow).trans (ih fun d hd => h d (List.mem_cons_of_mem _ hd))

theorem hexDigit_plain (n : ℕ) : isHighSurrogate (hexDigit n) = false ∧ isLowSurrogate (hexDigit n) = false := by
  have hall : ∀ m < 16, isHighSurrogate (hexDigit m) = false ∧ isLowSurrogate (hexDigit m) = false := by decide
  by_cases h : n < 16
  · exact hall n h
  · unfold hexDigit
    rw [List.getD_eq_getElem?_getD, List.getElem?_eq_none (Nat.le_of_not_lt h)]
    decide

theorem wellFormed_escapeUnit (c : CodeUnit) : Utf16.wellFormed (Providers.escapeUnit c) = true := by
  unfold Providers.escapeUnit
  split
  · rename_i h
    rcases h with rfl | rfl
    · decide
    · decide
  iterate 5
    split
    · decide
  split
  · refine wellFormed_of_plain fun d hd => ?_
    unfold unicodeEscape at hd
    simp only [List.mem_cons, List.not_mem_nil, or_false] at hd
    rcases hd with rfl | rfl | rfl | rfl | rfl | rfl
    · decide
    · decide
    · exact hexDigit_plain _
    · exact hexDigit_plain _
    · exact hexDigit_plain _
    · exact hexDigit_plain _
  · rename_i hsurrogate
    simp only [not_or, Bool.not_eq_true] at hsurrogate
    exact goesOn_plain hsurrogate.2.1 hsurrogate.2.2

theorem wellFormed_escape (s : Text) : Utf16.wellFormed (escape s) = true := by
  induction s using escape.induct with
  | case1 => rfl
  | case2 c => exact wellFormed_escapeUnit c
  | case3 c d tail hpair ih =>
    rw [Bool.and_eq_true] at hpair
    have hhigh : Utf16.isHigh c = true := hpair.1
    have hlow : Utf16.isLow d = true := hpair.2
    rw [escape, if_pos (by rw [hpair.1, hpair.2]; rfl)]
    simp only [Utf16.wellFormed, Utf16.goesOn, Utf16.not_low_of_high hhigh, hhigh, hlow, Bool.not_false, Bool.true_and]
    exact ih
  | case4 c d tail hpair ih =>
    rw [escape, if_neg hpair]
    exact Utf16.wellFormed_append (wellFormed_escapeUnit c) ih

theorem wellFormed_quote (s : Text) : Utf16.wellFormed (quote s) = true := by
  have hquote : Utf16.wellFormed [unit '"'] = true := by decide
  unfold quote
  rw [← List.singleton_append, List.append_assoc]
  exact Utf16.wellFormed_append hquote (Utf16.wellFormed_append (wellFormed_escape s) hquote)

end WellFormed
end HermesEnterprise.Wallets
