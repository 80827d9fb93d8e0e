import HermesEnterprise.Inbound.Markup

/-! # The writer

It reads tokens and writes a new document from an allowlist. The open elements are a stack
of frames, the innermost first.
-/
namespace HermesEnterprise.Inbound

section Tables

def maxHtml : ℕ := 500000

def maxText : ℕ := 200000

def maxLinks : ℕ := 200

def maxInlineImageBase64 : ℕ := 280000

def dropWithContent : List Text :=
  ["head","title","script","style","noscript","template","svg","math","iframe","frame","frameset","object",
    "embed","applet","video","audio","canvas","form","select","textarea","button","map","noembed","noframes",
    "xmp","plaintext","dialog","portal"].map text

def voidTags : List Text :=
  ["area","base","br","col","embed","hr","img","input","link","meta","param","source","track","wbr"].map text

def allowedTags : List Text :=
  ["abbr","b","blockquote","br","caption","cite","code","col","colgroup","dd","del","div","dl","dt","em","h1",
    "h2","h3","h4","h5","h6","hr","i","img","ins","kbd","li","mark","ol","p","pre","q","s","samp","span","strike",
    "strong","table","tbody","td","tfoot","th","thead","tr","u","ul"].map text

def renamedTags : List (Text × Text) :=
  ([("font","span"),("center","div"),("a","span"),("tt","code"),("big","span"),("small","span"),("sub","span"),
    ("sup","span")] : List (String × String)).map fun (name,target) => (text name,text target)

def blockTags : List Text :=
  ["address","article","aside","blockquote","caption","center","dd","div","dl","dt","footer","h1","h2","h3","h4",
    "h5","h6","header","hr","li","main","nav","ol","p","pre","section","table","tr","ul"].map text

def allowedEverywhere : List Text := ["align","dir"].map text

/-- `ALLOWED_ATTRIBUTES` but for its `*`, which no tag is named. -/
def allowedAttributes : List (Text × List Text) :=
  ([("img",["alt","width","height"]),("td",["colspan","rowspan","valign","width","height"]),
    ("th",["colspan","rowspan","valign","width","height"]),
    ("table",["width","cellpadding","cellspacing","border"]),("tr",["valign"]),("col",["span","width"]),
    ("colgroup",["span","width"]),("ol",["start","type"])] : List (String × List String)).map
    fun (name,attributes) => (text name,attributes.map text)

def hermesClasses : List Text := ["hermes-image-blocked","hermes-link","hermes-link-destination"].map text

end Tables

structure InlineImage where
  contentId : Text
  mimeType : Text
  base64 : Text
  deriving DecidableEq, Repr

structure SanitizedLink where
  href : Text
  text : Text
  mismatch : Bool
  deriving DecidableEq, Repr

structure SanitizedEmail where
  html : Text
  text : Text
  hiddenTextRemovedChars : ℕ
  remoteImagesBlocked : ℕ
  links : List SanitizedLink
  deriving DecidableEq, Repr

/-- How a call may fail: by a loop that does not end, or by spreading what is no list. -/
inductive Failure
  | loops | typeError
  deriving DecidableEq, Repr

inductive Suppression
  | shown | hidden | dropped
  deriving DecidableEq, Repr

structure LinkWords where
  href : Option Text
  text : Text
  deriving DecidableEq, Repr

structure Frame where
  name : Text
  annotation : Bool
  written : Option Text
  suppressed : Suppression
  link : Option LinkWords
  deriving DecidableEq, Repr

/-- `out` and `text` are joined as they grow. -/
structure Writer where
  out : Text
  text : Text
  links : List SanitizedLink
  stack : List Frame
  hiddenChars : ℕ
  remoteImages : ℕ
  htmlOverflow : Bool
  deriving DecidableEq, Repr

def newWriter : Writer := ⟨[],[],[],[],0,0,false⟩

section Frames
variable (r : Runtime) (w : Writer)

/-- The innermost frame that suppresses what is in it. -/
def suppression (stack : List Frame) : Suppression :=
  ((stack.find? fun f => f.suppressed ≠ .shown).map (·.suppressed)).getD .shown

def write (value : Text) : Writer :=
  if w.htmlOverflow || maxHtml < w.out.length + value.length then { w with htmlOverflow := true }
  else { w with out := w.out ++ value }

def addText (value : Text) : Writer := { w with text := w.text ++ value }

def breakLine : Writer := addText w [10]

/-- The words of the innermost open link grow. -/
def addWords (value : Text) : List Frame → List Frame
  | [] => []
  | f :: rest =>
    match f.link with
    | some link => { f with link := some { link with text := link.text ++ value } } :: rest
    | none => f :: addWords value rest

/-- A link that ends, in text that is shown: it is listed, and its destination shown if its words do
not name it. -/
def endLink (link : LinkWords) : Writer × Option Text :=
  let words := trim (collapse isSpace link.text)
  match link.href with
  | none => (w,none)
  | some href =>
    let mismatch := linkMismatch r words href
    let w := if w.links.length < maxLinks then { w with links := w.links ++ [⟨href,words.take 500,mismatch⟩] }
      else w
    let shown := stripPrefix (text "mailto:") href
    (w,if words ≠ shown ∧ words ≠ href then some shown else none)

/-- The link of a frame that is already off the stack. -/
def linkEnd (frame : Frame) : Writer × Option Text :=
  match frame.link with
  | some link =>
    if frame.suppressed = Suppression.shown ∧ suppression w.stack = Suppression.shown then endLink r w link
    else (w,none)
  | none => (w,none)

def writeEnd (written : Option Text) : Writer :=
  match written with
  | some name => write w (text "</" ++ name ++ text ">")
  | none => w

/-- The destination stands behind the closing tag of its link, as plain text. -/
def writeDestination (destination : Option Text) : Writer :=
  match destination with
  | some destination =>
    addText (write w (text "<span class=\"hermes-link-destination\"> (" ++ escapeHtml destination ++
      text ")</span>")) (text " (" ++ destination ++ text ")")
  | none => w

/-- A frame that is already off the stack. -/
def closeFrame (frame : Frame) : Writer :=
  let ended := linkEnd r w frame
  let w := writeDestination (writeEnd ended.1 frame.written) ended.2
  if frame.name ∈ blockTags ∧ frame.name ≠ text "li" ∧ frame.suppressed = Suppression.shown then breakLine w
  else w

/-- The innermost frames are closed, as many as given. -/
def closeFrames : ℕ → Writer → Writer
  | 0, w => w
  | n + 1, w =>
    match w.stack with
    | [] => w
    | frame :: rest => closeFrames n (closeFrame r { w with stack := rest } frame)

end Frames

section Tokens
variable (r : Runtime) (storedOutput : Bool) (images : List (Text × InlineImage)) (w : Writer)

def onText (value : Text) : Writer :=
  let decoded := decodeEntities r value
  match suppression w.stack with
  | .hidden => { w with hiddenChars := w.hiddenChars + (removeSpaces decoded).length }
  | .dropped => w
  | .shown =>
    let w := write w (escapeHtml decoded)
    if w.stack.any (fun f => f.annotation) then w
    else { addText w decoded with stack := addWords decoded w.stack }

def onEnd (name : Text) : Writer :=
  if name ∈ voidTags then w
  else
    match w.stack.findIdx? fun f => f.name = name with
    | some index => closeFrames r (index + 1) w
    | none => w

section Image

def imageTypes : List Text := ["png","jpeg","jpg","gif","webp"].map text

def isImageType (mimeType : Text) : Bool :=
  (afterPrefix (text "image/") mimeType).any fun t => imageTypes.any fun known => sameFold t known

/-- The type and the data of a data URL. -/
def dataUrl (src : Text) : Option (Text × Text) :=
  let inBase64 := fun c => isLetter c || isDigit c || [unit '+',unit '/',unit '='].contains c || isSpace c
  (afterPrefix (text "data:image/") src).bind fun rest =>
    imageTypes.findSome? fun known =>
      (afterPrefix (known ++ text ";base64,") rest).bind fun data =>
        if !data.isEmpty && data.all inBase64 then some (rest.take known.length,data) else none

def withoutAngles (s : Text) : Text :=
  let s := if s.head? = some (unit '<') then s.drop 1 else s
  if s.getLast? = some (unit '>') then s.dropLast else s

def contentId (src : Text) : Option Text :=
  (afterPrefix (text "cid:") src).bind fun rest =>
    if !rest.isEmpty && rest.all (fun c => !isLineTerminator c) then some (r.toLowerCase (withoutAngles rest))
    else none

/-- The source that an image may keep: an inline part or a small data URL. -/
def imageSource (src : Text) : Option Text :=
  let inline := ((contentId r src).filter fun cid => !cid.isEmpty).bind fun cid => entry images cid
  match inline.filter fun image => isImageType image.mimeType && image.base64.length ≤ maxInlineImageBase64 with
  | some image => some (text "data:" ++ r.toLowerCase image.mimeType ++ text ";base64," ++ image.base64)
  | none =>
    match (dataUrl src).filter fun d => d.2.length ≤ maxInlineImageBase64 with
    | some (type,data) =>
      some (text "data:image/" ++ r.toLowerCase type ++ text ";base64," ++ removeSpaces data)
    | none => none

def dimension (name : String) (value : Option Text) : Text :=
  match value with
  | some v => if v.isEmpty then [] else text (" " ++ name ++ "=\"") ++ v ++ text "\""
  | none => []

def onImage (attrs : List (Text × Text)) : Writer :=
  let attr := fun name => (entry attrs (text name)).getD []
  let src := trim (attr "src")
  let alt := (trim (attr "alt")).take 200
  match imageSource r images src with
  | some source =>
    write w (text "<img src=\"" ++ escapeHtml source ++ text "\" alt=\"" ++ escapeHtml alt ++ text "\"" ++
      dimension "width" (safeAttributeValue r (text "width") (attr "width")) ++
      dimension "height" (safeAttributeValue r (text "height") (attr "height")) ++ text ">")
  | none =>
    let protocolRelative := (text "//").isPrefixOf src
    if (afterPrefix (text "http:") src).isSome || (afterPrefix (text "https:") src).isSome || protocolRelative then
      let w := { w with remoteImages := w.remoteImages + 1 }
      let tiny := ["width","height"].any fun d => trim (attr d) = text "0" || trim (attr d) = text "1"
      if tiny then w
      else
        let host := (hostOf r (if protocolRelative then text "https:" ++ src else src)).getD (text "another site")
        write w (text "<span class=\"hermes-image-blocked\">Image not shown" ++
          (if alt.isEmpty then [] else text ": " ++ escapeHtml alt) ++ text " (from " ++ escapeHtml host ++
          text ")</span>")
    else if !alt.isEmpty then
      write w (text "<span class=\"hermes-image-blocked\">[Image: " ++ escapeHtml alt ++ text "]</span>")
    else w

end Image

section Element

/-- The attributes that a tag may keep. Spreading an inherited member fails. -/
def allowedFor (name : Text) : Except Failure (List Text) :=
  match lookup allowedAttributes name with
  | some (.own attributes) => .ok (allowedEverywhere ++ attributes)
  | some (.inherited _) => .error .typeError
  | none => .ok allowedEverywhere

def attributePart (name value : Text) : Text := name ++ text "=\"" ++ value ++ text "\""

/-- What a start tag is written as, behind its name. -/
def tagParts (name : Text) (attrs : List (Text × Text)) (allowed : List Text) : List Text :=
  let kept := attrs.filterMap fun e =>
    if e.1 ∈ allowed then
      (safeAttributeValue r e.1 e.2).map fun clean => attributePart e.1 (escapeHtml clean)
    else none
  let style := ((entry attrs (text "style")).bind (safeStyle r)).toList.map fun style =>
    attributePart (text "style") (escapeHtml style)
  let link := if name = text "a" then [attributePart (text "class") (text "hermes-link")] else []
  let own := if storedOutput && name = text "span" then trim ((entry attrs (text "class")).getD []) else []
  kept ++ style ++ link ++ if own ∈ hermesClasses then [attributePart (text "class") own] else []

/-- The name under which a shown element is written, if at all. -/
def writtenName (name : Text) : Option (Member Text) :=
  if name ∈ allowedTags then some (.own name) else lookup renamedTags name

def writeStart (name : Text) (attrs : List (Text × Text)) : Except Failure (Writer × Option Text) :=
  match writtenName name with
  | none => .ok (w,none)
  | some member => do
    let allowed ← allowedFor name
    let target := match member with
      | .own target => target
      | .inherited printed => printed
    let parts := target :: tagParts r storedOutput name attrs allowed
    return (write w (text "<" ++ join (text " ") parts ++ text ">"),some target)

/-- What a start tag is to the text in it. -/
def suppressedBy (stack : List Frame) (name : Text) (attrs : List (Text × Text)) : Suppression :=
  if name ∈ dropWithContent then .dropped
  else if suppression stack = .shown ∧ hiddenByMarkup r attrs = true then .hidden
  else .shown

def onElement (name : Text) (attrs : List (Text × Text)) (selfClosing : Bool) : Except Failure Writer := do
  let suppressed := suppressedBy r w.stack name attrs
  let visible := decide (suppression w.stack = .shown) && decide (suppressed = .shown)
  let link := if name = text "a" ∧ visible = true then
    some ⟨normalizeHref r ((entry attrs (text "href")).getD []),[]⟩ else none
  let w := if visible && decide (name ∈ blockTags) then breakLine w else w
  let w := if visible && decide (name = text "li") then addText w (text "• ") else w
  let (w,written) ← if visible then writeStart r storedOutput w name attrs else .ok (w,none)
  let annotation := storedOutput && written.isSome && decide (name = text "span") &&
    decide (trim ((entry attrs (text "class")).getD []) = text "hermes-image-blocked")
  let frame : Frame := ⟨name, annotation,written,suppressed,link⟩
  if selfClosing && decide (name ∉ allowedTags) && (lookup renamedTags name).isNone then
    return closeFrame r w frame
  else return { w with stack := frame :: w.stack }

def onStart (name : Text) (attrs : List (Text × Text)) (selfClosing : Bool) : Except Failure Writer :=
  let inherited := suppression w.stack
  if name = text "br" then .ok (if inherited = .shown then breakLine (write w (text "<br>")) else w)
  else if name = text "img" then .ok (if inherited = .shown then onImage r images w attrs else w)
  else if name ∈ voidTags then
    .ok (if name = text "hr" ∧ inherited = .shown then breakLine (write w (text "<hr>")) else w)
  else onElement r storedOutput w name attrs selfClosing

end Element

def onToken : Token → Except Failure Writer
  | .text value => .ok (onText r w value)
  | .ending name => .ok (onEnd r w name)
  | .start name attrs selfClosing => onStart r storedOutput images w name attrs selfClosing

end Tokens

def sanitizeEmailHtml (r : Runtime) (html : Text) (inlineImages : List InlineImage) (storedOutput : Bool) :
    Except Failure SanitizedEmail := do
  let images := inlineImages.foldl (fun m image => setEntry m (r.toLowerCase image.contentId) image) []
  let tokens ← match tokenize r html with
    | some tokens => .ok tokens
    | none => .error .loops
  let w ← tokens.foldlM (onToken r storedOutput images) newWriter
  let w := closeFrames r w.stack.length w
  let visibleText := tidyText w.text
  return ⟨if w.htmlOverflow || maxText < visibleText.length then [] else w.out,visibleText.take maxText,
    w.hiddenChars,w.remoteImages,w.links⟩

end HermesEnterprise.Inbound
