import HermesEnterprise.Inbound.Sanitized

/-! # Dropped and hidden text

Which elements are open at a token is told from the tokens alone. Text in one that is dropped or hidden leaves the
result as it is without that text, but for the count of hidden characters.
-/
namespace HermesEnterprise.Inbound
variable {r : Runtime} {storedOutput : Bool} {images : List (Text × InlineImage)} {w : Writer} {n : ℕ}

section Elements

structure Element where
  name : Text
  attrs : List (Text × Text)
  deriving DecidableEq, Repr

/-- The open elements behind a token, the innermost first. Void elements are never open, and an unknown element that
closes itself is closed at once. -/
def openAfter (elements : List Element) : Token → List Element
  | .text _ => elements
  | .ending name =>
    if name ∈ voidTags then elements
    else
      match elements.findIdx? fun e => e.name = name with
      | some index => elements.drop (index + 1)
      | none => elements
  | .start name attrs selfClosing =>
    if name ∈ voidTags then elements
    else if selfClosing && decide (name ∉ allowedTags) && (lookup renamedTags name).isNone then elements
    else ⟨name,attrs⟩ :: elements

def openElements (tokens : List Token) : List Element := tokens.foldl openAfter []

def inDropped (elements : List Element) : Bool := elements.any fun e => decide (e.name ∈ dropWithContent)

def inHidden (r : Runtime) (elements : List Element) : Bool := elements.any fun e => hiddenByMarkup r e.attrs

/-- The frames of open elements, but for what is written of them. -/
def framesOf (r : Runtime) : List Element → List Frame
  | [] => []
  | e :: rest => ⟨e.name,false,none,suppressedBy r (framesOf r rest) e.name e.attrs,none⟩ :: framesOf r rest

theorem framesOf_drop (elements : List Element) (k : ℕ) : framesOf r (elements.drop k) = (framesOf r elements).drop k := by
  induction elements generalizing k with
  | nil => simp [framesOf]
  | cons e rest ih =>
    cases k with
    | zero => rfl
    | succ k => exact ih k

theorem findIdx?_framesOf (elements : List Element) (name : Text) :
    (framesOf r elements).findIdx? (fun f => f.name = name) = elements.findIdx? fun e => e.name = name := by
  induction elements with
  | nil => rfl
  | cons e rest ih =>
    unfold framesOf
    rw [List.findIdx?_cons, List.findIdx?_cons, ih]

theorem track_framesOf (elements : List Element) (token : Token) :
    track r (framesOf r elements) token = framesOf r (openAfter elements token) := by
  have hspecial : ∀ name, (name = text "br" ∨ name = text "img" ∨ name ∈ voidTags) ↔ name ∈ voidTags := by
    intro name
    constructor
    · rintro (rfl | rfl | hvoid)
      · decide
      · decide
      · exact hvoid
    · exact fun hvoid => Or.inr (Or.inr hvoid)
  cases token with
  | text value => rfl
  | ending name =>
    unfold track openAfter
    dsimp only
    split
    · rfl
    · rw [findIdx?_framesOf]
      cases elements.findIdx? fun e => decide (e.name = name) with
      | none => rfl
      | some index => exact (framesOf_drop elements (index + 1)).symm
  | start name attrs selfClosing =>
    unfold track openAfter
    dsimp only
    rw [if_congr (hspecial name) rfl rfl]
    split
    · rfl
    · split
      · rfl
      · rfl

theorem foldl_track (tokens : List Token) (elements : List Element) :
    tokens.foldl (track r) (framesOf r elements) = framesOf r (tokens.foldl openAfter elements) := by
  induction tokens generalizing elements with
  | nil => rfl
  | cons token rest ih =>
    rw [List.foldl_cons, List.foldl_cons, track_framesOf, ih]

/-- Content that is dropped is dropped also inside what is hidden. -/
theorem suppression_framesOf (elements : List Element) : suppression (framesOf r elements) =
    if inDropped elements then .dropped else if inHidden r elements then .hidden else .shown := by
  have hcons : ∀ (f : Frame) (rest : List Frame), suppression (f :: rest) =
      if f.suppressed = .shown then suppression rest else f.suppressed := by
    intro f rest
    unfold suppression
    rw [List.find?_cons]
    by_cases hshown : f.suppressed = .shown
    · simp [hshown]
    · simp [hshown]
  induction elements with
  | nil => rfl
  | cons e rest ih =>
    unfold framesOf
    rw [hcons]
    unfold suppressedBy
    dsimp only
    rw [ih]
    unfold inDropped inHidden
    rw [List.any_cons, List.any_cons]
    by_cases hdrop : e.name ∈ dropWithContent
    · simp [hdrop]
    · cases hrest : rest.any fun e => decide (e.name ∈ dropWithContent) <;>
        cases hhidden : rest.any fun e => hiddenByMarkup r e.attrs <;>
          cases hown : hiddenByMarkup r e.attrs <;> simp [hdrop]

/-- What the writer holds of the open elements. -/
theorem stack_foldlM {tokens : List Token} {w' : Writer} (h : Sound w)
    (hok : tokens.foldlM (onToken r storedOutput images) w = .ok w') :
    w'.stack.map bare = tokens.foldl (track r) (w.stack.map bare) := by
  induction tokens generalizing w with
  | nil =>
    cases hok
    rfl
  | cons token rest ih =>
    rw [List.foldlM_cons] at hok
    rcases @onToken_result r storedOutput images w h token with ⟨-,herror⟩ | ⟨-,next,hnext,hsound,htrack⟩
    · rw [herror] at hok
      cases hok
    · rw [hnext] at hok
      rw [List.foldl_cons, ← htrack]
      exact ih hsound hok

end Elements

section Count

/-- More hidden characters, and the rest as it was. -/
def recount (n : ℕ) (w : Writer) : Writer := { w with hiddenChars := w.hiddenChars + n }

theorem write_recount (value : Text) : write (recount n w) value = recount n (write w value) := by
  unfold write recount
  dsimp only
  split
  · rfl
  · rfl

theorem endLink_recount (link : LinkWords) :
    endLink r (recount n w) link = (recount n (endLink r w link).1,(endLink r w link).2) := by
  unfold endLink
  dsimp only
  split
  · rfl
  · have hlength : (recount n w).links.length = w.links.length := rfl
    rw [hlength]
    split
    · rfl
    · rfl

theorem linkEnd_recount (frame : Frame) :
    linkEnd r (recount n w) frame = (recount n (linkEnd r w frame).1,(linkEnd r w frame).2) := by
  unfold linkEnd
  have hstack : (recount n w).stack = w.stack := rfl
  rw [hstack]
  split
  · split
    · exact endLink_recount _
    · rfl
  · rfl

theorem writeEnd_recount (written : Option Text) : writeEnd (recount n w) written = recount n (writeEnd w written) := by
  unfold writeEnd
  split
  · exact write_recount _
  · rfl

theorem writeDestination_recount (destination : Option Text) :
    writeDestination (recount n w) destination = recount n (writeDestination w destination) := by
  unfold writeDestination
  split
  · rw [write_recount]
    rfl
  · rfl

theorem closeFrame_recount (frame : Frame) : closeFrame r (recount n w) frame = recount n (closeFrame r w frame) := by
  unfold closeFrame
  dsimp only
  rw [linkEnd_recount, writeEnd_recount, writeDestination_recount]
  split
  · rfl
  · rfl

theorem closeFrames_recount (k : ℕ) : closeFrames r k (recount n w) = recount n (closeFrames r k w) := by
  induction k generalizing w with
  | zero => rfl
  | succ k ih =>
    unfold closeFrames
    have hstack : (recount n w).stack = w.stack := rfl
    rw [hstack]
    split
    · rfl
    · rename_i frame rest _
      have hrest : ({ recount n w with stack := rest } : Writer) = recount n { w with stack := rest } := rfl
      rw [hrest, closeFrame_recount, ih]

theorem onText_recount (value : Text) : onText r (recount n w) value = recount n (onText r w value) := by
  unfold onText
  have hstack : (recount n w).stack = w.stack := rfl
  have hcount : (recount n w).hiddenChars = w.hiddenChars + n := rfl
  dsimp only
  rw [hstack, write_recount]
  split
  · unfold recount
    dsimp only
    rw [Nat.add_right_comm]
  · rfl
  · have hwritten : (recount n (write w (escapeHtml (decodeEntities r value)))).stack =
        (write w (escapeHtml (decodeEntities r value))).stack := rfl
    rw [hwritten]
    split
    · rfl
    · rfl

theorem onEnd_recount (name : Text) : onEnd r (recount n w) name = recount n (onEnd r w name) := by
  unfold onEnd
  have hstack : (recount n w).stack = w.stack := rfl
  rw [hstack]
  split
  · rfl
  · split
    · exact closeFrames_recount _
    · rfl

theorem onImage_recount (attrs : List (Text × Text)) : onImage r images (recount n w) attrs = recount n (onImage r images w attrs) := by
  unfold onImage
  dsimp only
  split
  · exact write_recount _
  · split
    · split
      · rfl
      · have hremote : ({ recount n w with remoteImages := (recount n w).remoteImages + 1 } : Writer) =
            recount n { w with remoteImages := w.remoteImages + 1 } := rfl
        rw [hremote, write_recount]
    · split
      · exact write_recount _
      · rfl

theorem writeStart_recount (name : Text) (attrs : List (Text × Text)) : writeStart r storedOutput (recount n w) name attrs =
    (writeStart r storedOutput w name attrs).map fun p => (recount n p.1,p.2) := by
  unfold writeStart
  split
  · rfl
  · cases allowedFor name with
    | error e => rfl
    | ok allowed =>
      dsimp only [bind, Except.bind, pure, Except.pure, Except.map]
      rw [write_recount]

theorem onElement_recount (name : Text) (attrs : List (Text × Text)) (selfClosing : Bool) :
    onElement r storedOutput (recount n w) name attrs selfClosing =
      (onElement r storedOutput w name attrs selfClosing).map (recount n) := by
  have hfirst : ∀ visible : Bool, (if visible && decide (name ∈ blockTags) then breakLine (recount n w) else recount n w) =
      recount n (if visible && decide (name ∈ blockTags) then breakLine w else w) := by
    intro visible
    split <;> rfl
  have hsecond : ∀ (visible : Bool) (w : Writer),
      (if visible && decide (name = text "li") then addText (recount n w) (text "• ") else recount n w) =
        recount n (if visible && decide (name = text "li") then addText w (text "• ") else w) := by
    intro visible w
    split <;> rfl
  unfold onElement
  have hstack : (recount n w).stack = w.stack := rfl
  dsimp only
  rw [hstack, hfirst, hsecond]
  split
  · rw [writeStart_recount]
    generalize writeStart r storedOutput _ name attrs = written
    cases written with
    | error e => rfl
    | ok p =>
      dsimp only [bind, Except.bind, Except.map, pure, Except.pure]
      split
      · dsimp only
        rw [closeFrame_recount]
      · rfl
  · dsimp only [bind, Except.bind, Except.map, pure, Except.pure]
    split
    · dsimp only
      rw [closeFrame_recount]
    · rfl

theorem onToken_recount (token : Token) :
    onToken r storedOutput images (recount n w) token = (onToken r storedOutput images w token).map (recount n) := by
  have hstack : (recount n w).stack = w.stack := rfl
  cases token with
  | text value => exact congrArg Except.ok (onText_recount value)
  | ending name => exact congrArg Except.ok (onEnd_recount name)
  | start name attrs selfClosing =>
    unfold onToken onStart
    dsimp only
    rw [hstack]
    split
    · refine congrArg Except.ok ?_
      split
      · rw [write_recount]
        rfl
      · rfl
    · split
      · refine congrArg Except.ok ?_
        split
        · exact onImage_recount attrs
        · rfl
      · split
        · refine congrArg Except.ok ?_
          split
          · rw [write_recount]
            rfl
          · rfl
        · exact onElement_recount name attrs selfClosing

theorem foldlM_recount (tokens : List Token) : tokens.foldlM (onToken r storedOutput images) (recount n w) =
    (tokens.foldlM (onToken r storedOutput images) w).map (recount n) := by
  induction tokens generalizing w with
  | nil => rfl
  | cons token rest ih =>
    rw [List.foldlM_cons, List.foldlM_cons, onToken_recount]
    cases onToken r storedOutput images w token with
    | error e => rfl
    | ok w' => exact ih

end Count

section Result

/-- `sanitizeEmailHtml` behind the tokenizer. -/
def sanitizeTokens (r : Runtime) (tokens : List Token) (inlineImages : List InlineImage) (storedOutput : Bool) :
    Except Failure SanitizedEmail := do
  let images := inlineImages.foldl (fun m image => setEntry m (r.toLowerCase image.contentId) image) []
  let w ← tokens.foldlM (onToken r storedOutput images) newWriter
  let w := closeFrames r w.stack.length w
  let visibleText := tidyText w.text
  return ⟨if w.htmlOverflow || maxText < visibleText.length then [] else w.out,visibleText.take maxText,
    w.hiddenChars,w.remoteImages,w.links⟩

theorem sanitizeEmailHtml_tokens {html : Text} {tokens : List Token} (h : tokenize r html = some tokens)
    (inlineImages : List InlineImage) (storedOutput : Bool) :
    sanitizeEmailHtml r html inlineImages storedOutput = sanitizeTokens r tokens inlineImages storedOutput := by
  unfold sanitizeEmailHtml
  rw [h]
  rfl

/-- The same email with more hidden characters. -/
def countHidden (n : ℕ) (email : SanitizedEmail) : SanitizedEmail :=
  { email with hiddenTextRemovedChars := email.hiddenTextRemovedChars + n }

/-- What a text counts for where it is hidden. In dropped content nothing is counted. -/
def hiddenLength (r : Runtime) (elements : List Element) (value : Text) : ℕ :=
  if inDropped elements then 0 else (removeSpaces (decodeEntities r value)).length

theorem onText_suppressed {elements : List Element} {value : Text} (hstack : w.stack.map bare = framesOf r elements)
    (hopen : (inDropped elements || inHidden r elements) = true) :
    onText r w value = recount (hiddenLength r elements value) w := by
  have hsuppression : suppression w.stack = if inDropped elements then .dropped else if inHidden r elements then .hidden
      else .shown := by
    rw [← suppression_bare, hstack, suppression_framesOf]
  unfold onText hiddenLength
  dsimp only
  rw [hsuppression]
  cases hdropped : inDropped elements with
  | true => rfl
  | false =>
    rw [hdropped, Bool.false_or] at hopen
    rw [hopen]
    rfl

theorem sanitizeTokens_suppressed {before after : List Token} {value : Text} {inlineImages : List InlineImage}
    (hopen : (inDropped (openElements before) || inHidden r (openElements before)) = true) :
    sanitizeTokens r (before ++ .text value :: after) inlineImages storedOutput =
      (sanitizeTokens r (before ++ after) inlineImages storedOutput).map
        (countHidden (hiddenLength r (openElements before) value)) := by
  have hnew : Sound newWriter := Or.inr (.base .nil)
  unfold sanitizeTokens
  dsimp only
  rw [List.foldlM_append, List.foldlM_append]
  cases hbefore : before.foldlM (onToken r storedOutput
      (inlineImages.foldl (fun m image => setEntry m (r.toLowerCase image.contentId) image) [])) newWriter with
  | error e => rfl
  | ok w =>
    have hstack : w.stack.map bare = framesOf r (openElements before) :=
      (stack_foldlM hnew hbefore).trans (foldl_track before [])
    have htext : ∀ images, onToken r storedOutput images w (.text value) =
        .ok (recount (hiddenLength r (openElements before) value) w) := fun _ =>
      congrArg Except.ok (onText_suppressed hstack hopen)
    dsimp only [bind, Except.bind]
    rw [List.foldlM_cons, htext]
    dsimp only [bind, Except.bind]
    rw [foldlM_recount]
    cases after.foldlM (onToken r storedOutput
        (inlineImages.foldl (fun m image => setEntry m (r.toLowerCase image.contentId) image) [])) w with
    | error e => rfl
    | ok w' =>
      dsimp only [Except.map]
      have hlength : (recount (hiddenLength r (openElements before) value) w').stack.length = w'.stack.length := rfl
      rw [hlength, closeFrames_recount]
      rfl

theorem suppressed_text_leaves (r : Runtime) (html : Text) (inlineImages : List InlineImage) (storedOutput : Bool)
    (before after : List Token) (value : Text) (htokens : tokenize r html = some (before ++ .text value :: after))
    (hopen : (inDropped (openElements before) || inHidden r (openElements before)) = true) :
    sanitizeEmailHtml r html inlineImages storedOutput = (sanitizeTokens r (before ++ after) inlineImages storedOutput).map
      (countHidden (hiddenLength r (openElements before) value)) := by
  rw [sanitizeEmailHtml_tokens htokens]
  exact sanitizeTokens_suppressed hopen

/-- The text of a hidden block is counted and gone. -/
theorem suppressed_text_leaves_div :
    sanitizeEmailHtml asciiRuntime (text "<div hidden>x</div>y") [] false =
      (sanitizeTokens asciiRuntime [.start (text "div") [(text "hidden",[])] false,.ending (text "div"),.text (text "y")]
        [] false).map (countHidden (hiddenLength asciiRuntime [⟨text "div",[(text "hidden",[])]⟩] (text "x"))) :=
  suppressed_text_leaves asciiRuntime (text "<div hidden>x</div>y") [] false
    [.start (text "div") [(text "hidden",[])] false] [.ending (text "div"),.text (text "y")] (text "x")
    (by decide) (by decide)

/-- A style sheet in a hidden block is dropped content: its text is not among the hidden characters. -/
theorem hidden_style_uncounted : ¬∀ (html : Text) (before after : List Token) (value : Text),
    tokenize asciiRuntime html = some (before ++ .text value :: after) →
    inHidden asciiRuntime (openElements before) = true →
    sanitizeEmailHtml asciiRuntime html [] false = (sanitizeTokens asciiRuntime (before ++ after) [] false).map
      (countHidden (removeSpaces (decodeEntities asciiRuntime value)).length) := by
  intro hclaim
  let before : List Token := [.start (text "div") [(text "hidden",[])] false,.start (text "style") [] false]
  let after : List Token := [.ending (text "style"),.ending (text "div")]
  have htokens : tokenize asciiRuntime (text "<div hidden><style>x</style></div>") =
      some (before ++ .text (text "x") :: after) := by decide
  have hall := hclaim _ _ _ _ htokens (by decide)
  rw [sanitizeEmailHtml_tokens htokens, sanitizeTokens_suppressed (by decide)] at hall
  have hcount := congrArg (fun e : Except Failure SanitizedEmail =>
    e.toOption.map SanitizedEmail.hiddenTextRemovedChars) hall
  revert hcount
  decide

end Result
end HermesEnterprise.Inbound
