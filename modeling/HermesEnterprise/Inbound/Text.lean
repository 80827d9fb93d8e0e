import Mathlib.Data.List.Basic

/-! # Strings and object literals of JavaScript

A string is a list of UTF-16 code units. White space and case folding are those that
regular expressions use. A lookup in an object literal finds the members that every
object inherits.
-/
namespace HermesEnterprise.Inbound

abbrev CodeUnit := UInt16

abbrev Text := List CodeUnit

instance : LawfulBEq Text := inferInstance

def unit (c : Char) : CodeUnit := UInt16.ofNat c.toNat

/-- A literal whose characters are single units. -/
def text (s : String) : Text := s.toList.map unit

section Units

/-- `\s`, and what `trim` removes. -/
def isSpace (c : CodeUnit) : Bool :=
  (9 ≤ c && c ≤ 13) || c ∈ [0x20,0xA0,0x1680,0x2028,0x2029,0x202F,0x205F,0x3000,0xFEFF] ||
    (0x2000 ≤ c && c ≤ 0x200A)

def isLineTerminator (c : CodeUnit) : Bool := c ∈ [10,13,0x2028,0x2029]

def isDigit (c : CodeUnit) : Bool := unit '0' ≤ c && c ≤ unit '9'

def isAsciiLetter (c : CodeUnit) : Bool :=
  (unit 'a' ≤ c && c ≤ unit 'z') || (unit 'A' ≤ c && c ≤ unit 'Z')

def asciiLower (c : CodeUnit) : CodeUnit := if unit 'A' ≤ c && c ≤ unit 'Z' then c + 32 else c

/-- What a unit is compared as, against ASCII, when a regular expression ignores case: the long s and
the Kelvin sign fold to letters too. -/
def foldCase (c : CodeUnit) : CodeUnit :=
  if c = 0x17F then unit 's' else if c = 0x212A then unit 'k' else asciiLower c

/-- `[a-z]`, ignoring case. -/
def isLetter (c : CodeUnit) : Bool := unit 'a' ≤ foldCase c && foldCase c ≤ unit 'z'

def isHexDigit (c : CodeUnit) : Bool := isDigit c || (unit 'a' ≤ foldCase c && foldCase c ≤ unit 'f')

def digitValue (c : CodeUnit) : ℕ :=
  if isDigit c then c.toNat - 48 else (asciiLower c).toNat - 87

def parseInt (base : ℕ) (digits : Text) : ℕ := digits.foldl (fun n c => n * base + digitValue c) 0

def fromCodePoint (n : ℕ) : Text :=
  if n < 0x10000 then [UInt16.ofNat n]
  else [UInt16.ofNat (0xD800 + (n - 0x10000) / 0x400),UInt16.ofNat (0xDC00 + (n - 0x10000) % 0x400)]

end Units

section Strings

def trimStart (s : Text) : Text := s.dropWhile isSpace

def trimEnd (s : Text) : Text := (s.reverse.dropWhile isSpace).reverse

def trim (s : Text) : Text := trimEnd (trimStart s)

/-- A literal regular expression that ignores case. -/
def sameFold (s literal : Text) : Bool := s.map foldCase = literal

/-- What stands before the first occurrence of a pattern, and what follows it. -/
def splitAtFirst (pattern : Text) : Text → Option (Text × Text)
  | [] => if pattern.isEmpty then some ([],[]) else none
  | c :: rest =>
    if pattern.isPrefixOf (c :: rest) then some ([],(c :: rest).drop pattern.length)
    else (splitAtFirst pattern rest).map fun (before,after) => (c :: before,after)

/-- `indexOf`, then the rest behind the occurrence; the end when there is none. -/
def restAfter (pattern s : Text) : Text := ((splitAtFirst pattern s).map Prod.snd).getD []

def stripPrefix (pattern s : Text) : Text := if pattern.isPrefixOf s then s.drop pattern.length else s

/-- What stands before a suffix that is compared without case. -/
def beforeSuffix (suffix s : Text) : Option Text :=
  let before := s.take (s.length - suffix.length)
  if suffix.length ≤ s.length && sameFold (s.drop before.length) suffix then some before else none

/-- What follows a prefix that is compared without case. -/
def afterPrefix (start s : Text) : Option Text :=
  if sameFold (s.take start.length) start then some (s.drop start.length) else none

def removeSpaces (s : Text) : Text := s.filter fun c => !isSpace c

/-- Every run of units of one kind becomes one space. -/
def collapse (kind : CodeUnit → Bool) : Text → Text
  | [] => []
  | [c] => if kind c then [unit ' '] else [c]
  | c :: d :: rest =>
    if !kind c then c :: collapse kind (d :: rest)
    else if kind d then collapse kind (d :: rest)
    else unit ' ' :: collapse kind (d :: rest)

def join (separator : Text) (parts : List Text) : Text := separator.intercalate parts

end Strings

section Objects

/-- The members that an object literal inherits, and how they print. -/
def objectPrototype : List (Text × Text) :=
  (text "constructor",text "function Object() \x7b [native code] \x7d") ::
  (text "__proto__",text "[object Object]") ::
  (["hasOwnProperty","isPrototypeOf","propertyIsEnumerable","toLocaleString","toString","valueOf",
    "__defineGetter__","__defineSetter__","__lookupGetter__","__lookupSetter__"].map fun name =>
      (text name,text ("function " ++ name ++ "() \x7b [native code] \x7d")))

def inheritedMember (key : Text) : Bool := objectPrototype.any fun m => m.1 = key

/-- What a lookup in an object literal finds. -/
inductive Member (α : Type)
  | own (value : α)
  | inherited (printed : Text)
  deriving DecidableEq, Repr

def lookup {α : Type} (table : List (Text × α)) (key : Text) : Option (Member α) :=
  match table.find? fun e => e.1 = key with
  | some e => some (.own e.2)
  | none => (objectPrototype.find? fun m => m.1 = key).map fun m => .inherited m.2

/-- A `Map`: an entry that is set again keeps its place. -/
def setEntry {α : Type} (entries : List (Text × α)) (key : Text) (value : α) : List (Text × α) :=
  if entries.any fun e => e.1 = key then entries.map fun e => if e.1 = key then (key,value) else e
  else entries ++ [(key,value)]

def entry {α : Type} (entries : List (Text × α)) (key : Text) : Option α :=
  (entries.find? fun e => e.1 = key).map Prod.snd

end Objects

structure Url where
  protocol : Text
  href : Text
  /-- `href` without user name and password. -/
  bareHref : Text
  hostname : Text
  deriving DecidableEq, Repr

/-- What the platform computes: the lower case of a string, the addresses that `URL` accepts, and
whether `parseFloat` reads at most 0.05. -/
structure Runtime where
  toLowerCase : Text → Text
  parseUrl : Text → Option Url
  barelyOpaque : Text → Bool
  lower_ascii : ∀ s : Text, (∀ c ∈ s, c < 128) → toLowerCase s = s.map asciiLower

end HermesEnterprise.Inbound
