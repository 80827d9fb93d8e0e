import Mathlib.Data.List.Sort
import Mathlib.Data.List.Basic

/-! # Canonical JSON text

Values are printed with sorted object keys and no spaces, so that equal values
have one text whatever the order of their fields.
-/
namespace HermesEnterprise.Foundation.CanonicalJson

inductive Json
  | undefined
  | null
  | bool (b : Bool)
  | number (literal : String)
  | string (s : String)
  | array (items : List Json)
  | object (fields : List (String × Json))

def hexDigit (n : ℕ) : Char := "0123456789abcdef".toList.getD n '0'

/-- One character inside a string literal. -/
def escapeChar (c : Char) : List Char :=
  if c = '"' then ['\\','"']
  else if c = '\\' then ['\\','\\']
  else if c.toNat = 8 then ['\\','b']
  else if c.toNat = 9 then ['\\','t']
  else if c.toNat = 10 then ['\\','n']
  else if c.toNat = 12 then ['\\','f']
  else if c.toNat = 13 then ['\\','r']
  else if c.toNat < 32 then ['\\','u','0','0',hexDigit (c.toNat / 16),hexDigit (c.toNat % 16)]
  else [c]

def quote (s : String) : List Char := '"' :: s.toList.flatMap escapeChar ++ ['"']

/-- The order of property names: by code unit, which is by code point below the surrogates. -/
def keyLe (a b : String × List Char) : Bool := a.1 ≤ b.1

def printField (f : String × List Char) : List Char := quote f.1 ++ ':' :: f.2

def commaSeparated : List (List Char) → List Char
  | [] => []
  | [item] => item
  | item :: rest => item ++ ',' :: commaSeparated rest

def printObject (fields : List (String × List Char)) : List Char :=
  '{' :: commaSeparated ((fields.insertionSort (fun a b => keyLe a b = true)).map printField) ++ ['}']

mutual

/-- The canonical text, as characters. -/
def canonical : Json → List Char
  | .undefined => "undefined".toList
  | .null => "null".toList
  | .bool true => "true".toList
  | .bool false => "false".toList
  | .number literal => literal.toList
  | .string s => quote s
  | .array items => '[' :: commaSeparated (canonicalItems items) ++ [']']
  | .object fields => printObject (canonicalFields fields)

def canonicalItems : List Json → List (List Char)
  | [] => []
  | item :: rest => canonical item :: canonicalItems rest

def canonicalFields : List (String × Json) → List (String × List Char)
  | [] => []
  | (key,value) :: rest => (key,canonical value) :: canonicalFields rest

end

theorem canonicalFields_eq_map (fields : List (String × Json)) :
    canonicalFields fields = fields.map fun f => (f.1,canonical f.2) := by
  induction fields with
  | nil => rfl
  | cons f rest ih => exact congrArg (List.cons (f.1,canonical f.2)) ih

theorem canonical_object (fields : List (String × Json)) :
    canonical (.object fields) = printObject (fields.map fun f => (f.1,canonical f.2)) :=
  congrArg printObject (canonicalFields_eq_map fields)

example : canonical (.array [.null,.string "x",.bool true]) = "[null,\"x\",true]".toList := by decide

/-- Objects that agree on their first field, followed by different keys, print differently. -/
theorem printObject_ne {key key' : String} {value value' : List Char}
    {first : String × List Char} {rest rest' : List (String × List Char)}
    {c c' : Char} {tail tail' : List Char}
    (fields fields' : List (String × List Char))
    (hs : fields.insertionSort (fun a b => keyLe a b = true) = first :: (key,value) :: rest)
    (hs' : fields'.insertionSort (fun a b => keyLe a b = true) = first :: (key',value') :: rest')
    (hk : quote key = '"' :: c :: tail) (hk' : quote key' = '"' :: c' :: tail') (hc : c ≠ c') :
    printObject fields ≠ printObject fields' := by
  intro h
  have hcons : ∀ (f : String × List Char) fs, ∃ more,
      commaSeparated ((f :: fs).map printField) = printField f ++ more := by
    intro f fs
    cases fs with
    | nil => exact ⟨[],by simp [commaSeparated]⟩
    | cons g gs => exact ⟨_,rfl⟩
  obtain ⟨more,hmore⟩ := hcons (key,value) rest
  obtain ⟨more',hmore'⟩ := hcons (key',value') rest'
  simp only [printObject, hs, hs', List.map_cons, commaSeparated, List.cons_append,
    List.append_assoc, List.cons.injEq, true_and, List.append_cancel_left_eq] at h
  simp only [List.map_cons] at hmore hmore'
  rw [hmore, hmore'] at h
  simp only [printField, hk, hk', List.cons_append, List.cons.injEq, true_and] at h
  exact hc h.1

end HermesEnterprise.Foundation.CanonicalJson
