import HermesEnterprise.Inbound.Tokenizer

/-! # Styles, attributes and links

What hides an element from a reader, what is kept of its style and attributes, and what a
link is shown as.
-/
namespace HermesEnterprise.Inbound
variable (r : Runtime)

section Style

/-- `skip` units belong to a comment. -/
def withoutComments (skip : ℕ) : Text → Text
  | [] => []
  | c :: rest =>
    if 0 < skip then withoutComments (skip - 1) rest
    else if (text "/*").isPrefixOf (c :: rest) then
      match splitAtFirst (text "*/") (rest.drop 1) with
      | some (body,_) => withoutComments (body.length + 3) rest
      | none => c :: withoutComments 0 rest
    else c :: withoutComments 0 rest

def withoutImportant (value : Text) : Text :=
  match beforeSuffix (text "!important") value with
  | some before => trimEnd before
  | none => value

/-- One declaration of a style, when it has a name and a value. -/
def addDeclaration (declarations : List (Text × Text)) (part : Text) : List (Text × Text) :=
  if unit ':' ∉ part then declarations
  else
    let property := r.toLowerCase (trim (part.takeWhile (· ≠ unit ':')))
    let value := withoutImportant (trim ((part.dropWhile (· ≠ unit ':')).drop 1))
    if property.isEmpty || value.isEmpty then declarations else setEntry declarations property value

def parseStyle (value : Text) : List (Text × Text) :=
  ((withoutComments 0 value).splitOn (unit ';')).foldl (addDeclaration r) []

/-- `0?\.` and then digits that meet a condition. -/
def dotted (digits : Text → Bool) (s : Text) : Bool :=
  let s := if s.head? = some (unit '0') then s.drop 1 else s
  decide (s.head? = some (unit '.')) && digits (s.drop 1)

/-- One of the leading digits, and perhaps a fraction. -/
def leading (heads : List CodeUnit) (digits : Text → Bool) (s : Text) : Bool :=
  s.head?.any (· ∈ heads) &&
    ((s.drop 1).isEmpty || (decide ((s.drop 1).head? = some (unit '.')) && digits (s.drop 2)))

def withUnit (units : List String) (number : Text → Bool) (s : Text) : Bool :=
  units.any fun u => (beforeSuffix (text u) s).any number

/-- `ZERO_SIZE`. -/
def zeroSize (s : Text) : Bool :=
  let zeros := fun t : Text => !t.isEmpty && t.all (· = unit '0')
  let digits := fun t : Text => !t.isEmpty && t.all isDigit
  decide (s = text "0") || dotted zeros s ||
    withUnit ["px","pt","em","rem","%"] (leading [unit '0'] zeros) s ||
    withUnit ["px"] (leading [unit '0',unit '1'] digits) s ||
    withUnit ["pt","em","rem"] (dotted digits) s

/-- Far to the left or above: a minus sign and three digits. -/
def farNegative (s : Text) : Bool :=
  decide (s.head? = some (unit '-')) && decide (((s.drop 1).take 3).length = 3) && ((s.drop 1).take 3).all isDigit

/-- Whether inline style or an attribute hides an element from a human reader. -/
def hiddenByMarkup (attrs : List (Text × Text)) : Bool :=
  let style := parseStyle r ((entry attrs (text "style")).getD [])
  let lowered := fun name => (entry style (text name)).map r.toLowerCase
  let squeezed := fun name => (lowered name).map removeSpaces
  let raw := fun name => entry style (text name)
  let isOne := fun (value : Option Text) (choices : List String) => value.any fun v => choices.any fun c => v = text c
  let overflowHidden := isOne (lowered "overflow") ["hidden"]
  let offset := trim (((raw "left").or (raw "top")).getD [])
  (entry attrs (text "hidden")).isSome || isOne (lowered "display") ["none"] ||
    isOne (lowered "visibility") ["hidden","collapse"] || isOne (lowered "mso-hide") ["all"] ||
    (raw "opacity").any r.barelyOpaque || (raw "font-size").any (fun s => zeroSize (trim s)) ||
    isOne (squeezed "color") ["transparent","rgba(0,0,0,0)"] ||
    (["height","max-height","width","max-width"].any fun dimension =>
      overflowHidden && (raw dimension).any fun s => zeroSize (trim s)) ||
    isOne (squeezed "clip") ["rect(0,0,0,0)","rect(0px,0px,0px,0px)"] ||
    (raw "text-indent").any (fun s => farNegative (trim s)) ||
    (isOne (lowered "position") ["absolute","fixed"] && farNegative offset)

def styleValues : List (Text × List Text) :=
  [(text "font-weight",["normal","bold","500","600","700","800","900"].map text),
    (text "font-style",["normal","italic","oblique"].map text),
    (text "text-align",["left","right","center","justify"].map text),
    (text "border-collapse",["collapse","separate"].map text)]

/-- A declaration that is kept: its own property of the table, and one of its values. -/
def safeDeclaration (declaration : Text × Text) : Option Text :=
  let normalized := r.toLowerCase (trim declaration.2)
  if styleValues.any fun e => decide (e.1 = declaration.1) && decide (normalized ∈ e.2) then
    some (declaration.1 ++ text ":" ++ normalized)
  else none

def safeStyle (value : Text) : Option Text :=
  let kept := ((parseStyle r value).filterMap (safeDeclaration r)).take 24
  if kept.isEmpty then none else some (join (text ";") kept)

end Style

section Attributes

def numericAttributes : List Text :=
  ["width","height","colspan","rowspan","span","cellpadding","cellspacing","border","start"].map text

/-- `^\d{1,4}%?$` -/
def numeric (s : Text) : Bool :=
  let digits := s.takeWhile isDigit
  let rest := s.dropWhile isDigit
  !digits.isEmpty && decide (digits.length ≤ 4) && (rest.isEmpty || decide (rest = text "%"))

def oneOf (choices : List String) (s : Text) : Option Text :=
  if choices.any fun c => sameFold s (text c) then some (r.toLowerCase s) else none

def safeAttributeValue (name value : Text) : Option Text :=
  let trimmed := trim value
  if 200 < trimmed.length then none
  else if name ∈ numericAttributes then if numeric trimmed then some trimmed else none
  else if name = text "align" then oneOf r ["left","right","center","justify"] trimmed
  else if name = text "valign" then oneOf r ["top","middle","bottom","baseline"] trimmed
  else if name = text "dir" then oneOf r ["ltr","rtl","auto"] trimmed
  else if name = text "type" then if ["1","a","A","i","I"].any fun c => trimmed = text c then some trimmed else none
  else if name = text "alt" then some trimmed
  else none

end Attributes

section Links

/-- The destination a reviewer should see, when it is a web or mail link. -/
def normalizeHref (value : Text) : Option Text :=
  let compact := value.filter fun c => !(c ≤ 0x20 || c = 0x7f)
  if compact.isEmpty then none
  else
    match r.parseUrl compact with
    | none => none
    | some url =>
      if url.protocol = text "mailto:" then some (url.href.take 2000)
      else if url.protocol ≠ text "http:" ∧ url.protocol ≠ text "https:" then none
      else some (url.bareHref.take 2000)

/-- `^[a-z][a-z0-9+.-]*:` -/
def hasScheme (s : Text) : Bool :=
  let inScheme := fun c => isLetter c || isDigit c || [unit '+',unit '.',unit '-'].contains c
  s.head?.any isLetter && decide ((s.dropWhile inScheme).head? = some (unit ':'))

def hostOf (value : Text) : Option Text :=
  (r.parseUrl (if hasScheme value then value else text "https://" ++ value)).map fun url =>
    stripPrefix (text "www.") (r.toLowerCase url.hostname)

/-- `LOOKS_LIKE_URL`. -/
def looksLikeUrl (s : Text) : Bool :=
  let s := ((afterPrefix (text "https://") s).or (afterPrefix (text "http://") s)).getD s
  let inHost := fun c => isLetter c || isDigit c || c = unit '-' || c = unit '.'
  let labels := (s.takeWhile inHost).splitOn (unit '.')
  let rest := s.dropWhile inHost
  decide (2 ≤ labels.length) && labels.all (fun l => !l.isEmpty) &&
    (labels.getLast?.any fun l => decide (2 ≤ l.length) && l.all isLetter) &&
    (rest.isEmpty || (rest.head?.any (fun c => [unit '/',unit ':',unit '?',unit '#'].contains c) &&
      (rest.drop 1).all fun c => !isSpace c))

def linkMismatch (words href : Text) : Bool :=
  let words := trim words
  if !looksLikeUrl words || (text "mailto:").isPrefixOf href then false
  else
    match hostOf r words, hostOf r href with
    | some shown, some actual => decide (shown ≠ actual)
    | _, _ => false

end Links

def escapeUnit (c : CodeUnit) : Text :=
  if c = unit '&' then text "&amp;"
  else if c = unit '<' then text "&lt;"
  else if c = unit '>' then text "&gt;"
  else if c = 0x22 then text "&quot;"
  else if c = 0x27 then text "&#39;"
  else [c]

def escapeHtml (value : Text) : Text := value.flatMap escapeUnit

/-- Collapse the whitespace a layout table leaves behind, keeping paragraph breaks. -/
def tidyText (value : Text) : Text :=
  let value := (value.map fun c => if c = 0xA0 then unit ' ' else c).filter fun c =>
    !([0x200b,0x200c,0x200d,0x2060,0xfeff,0xad] : List CodeUnit).contains c
  let lines := (value.splitOn 10).map fun line =>
    trim (collapse (fun c => decide (c = 9) || decide (c = unit ' ')) line)
  trim (atMostTwoBreaks 0 (join [10] lines))
where
  /-- The line breaks of a run after its second one are dropped. -/
  atMostTwoBreaks (seen : ℕ) : Text → Text
    | [] => []
    | c :: rest =>
      if c ≠ 10 then c :: atMostTwoBreaks 0 rest
      else if seen < 2 then c :: atMostTwoBreaks (seen + 1) rest
      else atMostTwoBreaks seen rest

end HermesEnterprise.Inbound
