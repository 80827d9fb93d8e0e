import Mathlib.Data.List.GetD
import HermesEnterprise.Foundation.Utf16
import HermesEnterprise.Providers.Json

/-! # The text of a JSON value

What `JSON.stringify` writes stands on one line, whatever the strings in the value hold, and is well-formed
UTF-16: half a pair is escaped.
-/
namespace HermesEnterprise.Providers
open Inbound Foundation

/-- A text on one line, of whole characters. -/
structure Inline (t : Text) : Prop where
  units : ∀ c ∈ t, 0x20 ≤ c
  form : Utf16.wellFormed t = true

theorem Inline.nil : Inline [] := ⟨fun _ hc => absurd hc List.not_mem_nil,rfl⟩

theorem Inline.append {s t : Text} (h : Inline s) (h' : Inline t) : Inline (s ++ t) := by
  refine ⟨fun c hc => ?_,Utf16.wellFormed_append h.form h'.form⟩
  rcases List.mem_append.mp hc with hc | hc
  · exact h.units c hc
  · exact h'.units c hc

/-- A unit that is no control character and no half of a pair. -/
def plainUnit (c : CodeUnit) : Bool := 0x20 ≤ c && !isHighSurrogate c && !isLowSurrogate c

theorem Inline.of_plain {t : Text} (h : ∀ c ∈ t, plainUnit c = true) : Inline t := by
  induction t with
  | nil => exact .nil
  | cons c rest ih =>
    have hc := h c List.mem_cons_self
    have hone : Inline [c] := by
      simp only [plainUnit, Bool.and_eq_true, Bool.not_eq_true', decide_eq_true_eq] at hc
      refine ⟨fun d hd => List.mem_singleton.mp hd ▸ hc.1.1,?_⟩
      have hhigh : Utf16.isHigh c = false := hc.1.2
      have hlow : Utf16.isLow c = false := hc.2
      simp [Utf16.wellFormed, Utf16.goesOn, hhigh, hlow]
    exact hone.append (ih fun d hd => h d (List.mem_cons_of_mem _ hd))

/-- A literal. -/
theorem Inline.word {t : Text} (h : t.all plainUnit = true) : Inline t := .of_plain (List.all_eq_true.mp h)

theorem Inline.join {sep : Text} (hsep : Inline sep) {items : List Text} (h : ∀ t ∈ items, Inline t) :
    Inline (join sep items) := by
  induction items with
  | nil => exact .nil
  | cons t rest ih =>
    cases rest with
    | nil => simpa [Inbound.join] using h t List.mem_cons_self
    | cons next rest =>
      have hrest := ih fun t ht => h t (List.mem_cons_of_mem _ ht)
      rw [Inbound.join, List.intercalate_cons_cons]
      exact ((h t List.mem_cons_self).append hsep).append hrest

section Strings

theorem plain_hexDigit (n : ℕ) : plainUnit (hexDigit n) = true := by
  have hdigits : (text "0123456789abcdef").all plainUnit = true := by decide
  unfold hexDigit
  by_cases hn : n < (text "0123456789abcdef").length
  · rw [List.getD_eq_getElem _ _ hn]
    exact List.all_eq_true.mp hdigits _ (List.getElem_mem hn)
  · rw [List.getD_eq_default _ _ (Nat.not_lt.mp hn)]
    decide

theorem inline_unicodeEscape (c : CodeUnit) : Inline (unicodeEscape c) := by
  have hmark : Inline [unit '\\',unit 'u'] := .word (by decide)
  refine hmark.append (.of_plain fun d hd => ?_)
  simp only [List.mem_cons, List.not_mem_nil, or_false] at hd
  rcases hd with rfl | rfl | rfl | rfl <;> exact plain_hexDigit _

theorem inline_escapeUnit (c : CodeUnit) : Inline (escapeUnit c) := by
  unfold escapeUnit
  split
  next hquote =>
    rcases hquote with rfl | rfl <;> exact .word (by decide)
  split
  next => exact .word (by decide)
  split
  next => exact .word (by decide)
  split
  next => exact .word (by decide)
  split
  next => exact .word (by decide)
  split
  next => exact .word (by decide)
  split
  next => exact inline_unicodeEscape c
  next hplain =>
    rw [not_or, not_or, Bool.not_eq_true, Bool.not_eq_true] at hplain
    refine .of_plain fun d hd => ?_
    rw [List.mem_singleton.mp hd, plainUnit, hplain.2.1, hplain.2.2]
    simpa using hplain.1

/-- A pair stays as it is. -/
theorem inline_pair {c d : CodeUnit} (h : (isHighSurrogate c && isLowSurrogate d) = true) : Inline [c,d] := by
  rw [Bool.and_eq_true] at h
  have hhigh : Utf16.isHigh c = true := h.1
  have hlow : Utf16.isLow d = true := h.2
  refine ⟨fun e he => ?_,?_⟩
  · have hc : 0xD800 ≤ c := by
      simp only [Utf16.isHigh, Bool.and_eq_true, decide_eq_true_eq] at hhigh
      exact hhigh.1
    have hd : 0xDC00 ≤ d := by
      simp only [Utf16.isLow, Bool.and_eq_true, decide_eq_true_eq] at hlow
      exact hlow.1
    rcases List.mem_cons.mp he with rfl | he
    · exact UInt16.le_trans (by decide) hc
    · rw [List.mem_singleton.mp he]
      exact UInt16.le_trans (by decide) hd
  · simp [Utf16.wellFormed, Utf16.goesOn, hhigh, hlow, Utf16.not_low_of_high hhigh]

theorem inline_escape (s : Text) : Inline (escape s) := by
  induction s using escape.induct with
  | case1 => exact .nil
  | case2 c => exact inline_escapeUnit c
  | case3 c d rest hpair ih =>
    rw [escape, if_pos hpair]
    exact (inline_pair hpair).append ih
  | case4 c d rest hpair ih =>
    rw [escape, if_neg hpair]
    exact (inline_escapeUnit c).append ih

theorem inline_quote (s : Text) : Inline (quote s) := by
  have hmark : Inline [unit '"'] := .word (by decide)
  exact (hmark.append (inline_escape s)).append hmark

end Strings

section Values
variable {P : Platform}

mutual

theorem inline_stringify (hnumber : ∀ q, Inline (P.numberText q)) : ∀ value : Json, Inline (stringify P value)
  | .null => .word (t := text "null") (by decide)
  | .bool true => .word (t := text "true") (by decide)
  | .bool false => .word (t := text "false") (by decide)
  | .number (.finite q) => hnumber q
  | .number (.infinite _) => .word (t := text "null") (by decide)
  | .string s => inline_quote s
  | .array items => by
    have hitems := Inline.join (.word (t := text ",") (by decide)) (inline_stringifyItems hnumber items)
    exact ((Inline.word (t := [unit '[']) (by decide)).append hitems).append (.word (by decide))
  | .object fields => by
    have hfields := Inline.join (.word (t := text ",") (by decide)) (inline_stringifyFields hnumber fields)
    exact ((Inline.word (t := [unit '\x7b']) (by decide)).append hfields).append (.word (by decide))

theorem inline_stringifyItems (hnumber : ∀ q, Inline (P.numberText q)) :
    ∀ items : List Json, ∀ t ∈ stringifyItems P items, Inline t
  | [], _, ht => absurd ht List.not_mem_nil
  | item :: rest, t, ht => by
    rcases List.mem_cons.mp ht with rfl | ht
    · exact inline_stringify hnumber item
    · exact inline_stringifyItems hnumber rest t ht

theorem inline_stringifyFields (hnumber : ∀ q, Inline (P.numberText q)) :
    ∀ fields : List (Text × Json), ∀ t ∈ stringifyFields P fields, Inline t
  | [], _, ht => absurd ht List.not_mem_nil
  | (key,value) :: rest, t, ht => by
    rcases List.mem_cons.mp ht with rfl | ht
    · have hcolon : Inline [unit ':'] := .word (by decide)
      exact (inline_quote key).append (hcolon.append (inline_stringify hnumber value))
    · exact inline_stringifyFields hnumber rest t ht

end

end Values

section Reading

/-- The text of a number below ten. -/
def digitText (q : ℚ) : Text := [hexDigit q.num.natAbs]

/-- A platform that reads the given values. -/
def Platform.reading (values : List Json) : Platform where
  parse t := values.find? fun value => stringify ⟨fun _ => none,digitText⟩ value = t
  numberText := digitText

end Reading

end HermesEnterprise.Providers
