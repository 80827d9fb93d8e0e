import HermesEnterprise.Inbound.Text
import Mathlib.Algebra.Order.Field.Rat

/-! # JSON values

Values as `JSON.parse` gives them, and their text as `JSON.stringify` writes it. A literal too large for a
double is read as infinite, and an infinite number is written as null.
-/
namespace HermesEnterprise.Providers
open Inbound

inductive Number
  | finite (value : ℚ)
  | infinite (negative : Bool)
  deriving DecidableEq

inductive Json
  | null
  | bool (b : Bool)
  | number (n : Number)
  | string (s : Text)
  | array (items : List Json)
  | object (fields : List (Text × Json))

abbrev Fields := List (Text × Json)

/-- What the platform computes: the value of a JSON text, and the text of a finite number. -/
structure Platform where
  parse : Text → Option Json
  numberText : ℚ → Text

section Values

def Json.fields? : Json → Option Fields
  | .object fields => some fields
  | _ => none

def Json.text? : Json → Option Text
  | .string s => some s
  | _ => none

def Json.items? : Json → Option (List Json)
  | .array items => some items
  | _ => none

def Json.isTrue : Json → Bool
  | .bool b => b
  | _ => false

/-- A property of an object literal. -/
def get (fields : Fields) (key : Text) : Option Json := entry fields key

def maxSafeInteger : ℕ := 2 ^ 53 - 1

/-- `Number.isSafeInteger` of a number that is not negative. -/
def tokenCount : Json → Option ℕ
  | .number (.finite value) =>
    if value.den = 1 ∧ 0 ≤ value.num ∧ value.num.natAbs ≤ maxSafeInteger then some value.num.natAbs else none
  | _ => none

def requiredPositiveInt (value : Option Json) : Option ℕ := (value.bind tokenCount).filter (0 < ·)

end Values

section Text

def isHighSurrogate (c : CodeUnit) : Bool := 0xD800 ≤ c && c ≤ 0xDBFF

def isLowSurrogate (c : CodeUnit) : Bool := 0xDC00 ≤ c && c ≤ 0xDFFF

def hexDigit (n : ℕ) : CodeUnit := (text "0123456789abcdef").getD n (unit '0')

def unicodeEscape (c : CodeUnit) : Text :=
  [unit '\\',unit 'u',hexDigit (c.toNat / 0x1000),hexDigit (c.toNat / 0x100 % 16),hexDigit (c.toNat / 16 % 16),
    hexDigit (c.toNat % 16)]

/-- A unit of a string literal that is no half of a pair. -/
def escapeUnit (c : CodeUnit) : Text :=
  if c = unit '"' ∨ c = unit '\\' then [unit '\\',c]
  else if c = 8 then [unit '\\',unit 'b']
  else if c = 9 then [unit '\\',unit 't']
  else if c = 10 then [unit '\\',unit 'n']
  else if c = 12 then [unit '\\',unit 'f']
  else if c = 13 then [unit '\\',unit 'r']
  else if c < 32 ∨ isHighSurrogate c ∨ isLowSurrogate c then unicodeEscape c
  else [c]

/-- The inside of a string literal. Half a pair is escaped. -/
def escape : Text → Text
  | [] => []
  | [c] => escapeUnit c
  | c :: d :: rest =>
    if isHighSurrogate c && isLowSurrogate d then c :: d :: escape rest
    else escapeUnit c ++ escape (d :: rest)

def quote (s : Text) : Text := unit '"' :: escape s ++ [unit '"']

mutual

/-- `JSON.stringify`. -/
def stringify (P : Platform) : Json → Text
  | .null => text "null"
  | .bool true => text "true"
  | .bool false => text "false"
  | .number (.finite value) => P.numberText value
  | .number (.infinite _) => text "null"
  | .string s => quote s
  | .array items => unit '[' :: join (text ",") (stringifyItems P items) ++ [unit ']']
  | .object fields => unit '\x7b' :: join (text ",") (stringifyFields P fields) ++ [unit '\x7d']

def stringifyItems (P : Platform) : List Json → List Text
  | [] => []
  | item :: rest => stringify P item :: stringifyItems P rest

def stringifyFields (P : Platform) : List (Text × Json) → List Text
  | [] => []
  | (key,value) :: rest => (quote key ++ unit ':' :: stringify P value) :: stringifyFields P rest

end

/-- The length of a text in UTF-8. Half a pair is replaced by a character of three bytes. -/
def byteLength : Text → ℕ
  | [] => 0
  | [c] => if c < 0x80 then 1 else if c < 0x800 then 2 else 3
  | c :: d :: rest =>
    if isHighSurrogate c && isLowSurrogate d then 4 + byteLength rest
    else (if c < 0x80 then 1 else if c < 0x800 then 2 else 3) + byteLength (d :: rest)

end Text

section Properties
variable {α : Type} {entries : List (Text × α)} {key key' : Text} {value : α}

theorem entry_filter (keep : Text → Bool) (h : keep key = true) :
    entry (entries.filter fun e => keep e.1) key = entry entries key := by
  unfold entry
  congr 1
  induction entries with
  | nil => rfl
  | cons e rest ih =>
    by_cases hk : e.1 = key
    · simp [hk, h]
    · by_cases hkeep : keep e.1 = true
      · simp [hk, hkeep, ih]
      · simp [hk, hkeep, ih]

theorem find?_map_setEntry (h : key' ≠ key) :
    entry (entries.map fun e => if e.1 = key' then (key',value) else e) key = entry entries key := by
  unfold entry
  induction entries with
  | nil => rfl
  | cons e rest ih =>
    by_cases hk : e.1 = key'
    · simp only [List.map_cons, hk, if_true, List.find?_cons, decide_eq_false h]
      exact ih
    · by_cases hkey : e.1 = key
      · simp [hkey, Ne.symm h]
      · simp only [List.map_cons, hk, if_false, List.find?_cons, decide_eq_false hkey]
        exact ih

/-- Setting one property leaves the others. -/
theorem entry_setEntry_ne (h : key' ≠ key) : entry (setEntry entries key' value) key = entry entries key := by
  unfold setEntry
  split
  · exact find?_map_setEntry h
  · simp [entry, List.find?_append, h]

theorem entry_setEntry (entries : List (Text × α)) (key : Text) (value : α) :
    entry (setEntry entries key value) key = some value := by
  unfold setEntry
  split
  · rename_i hany
    unfold entry
    induction entries with
    | nil => simp at hany
    | cons e rest ih =>
      by_cases hk : e.1 = key
      · simp [hk]
      · simp only [List.any_cons, hk, decide_false, Bool.false_or] at hany
        simp only [List.map_cons, hk, if_false, List.find?_cons, decide_false]
        exact ih hany
  · rename_i hany
    have hnone : entries.find? (fun e => decide (e.1 = key)) = none := by
      rw [List.find?_eq_none]
      intro e he hk
      exact hany (List.any_eq_true.mpr ⟨e,he,hk⟩)
    simp [entry, List.find?_append, hnone]

end Properties

end HermesEnterprise.Providers
