import HermesEnterprise.Inbound.Safety

/-! # Where sanitizing succeeds

An email is sanitized exactly when no tag named like a member that every object inherits is
read where its text would be shown. Which tags these are is told by the open elements alone.
-/
namespace HermesEnterprise.Inbound
variable {r : Runtime} {storedOutput : Bool} {images : List (Text × InlineImage)} {w w' : Writer}
variable {name value : Text} {names : List Text} {attrs : List (Text × Text)} {selfClosing : Bool}

section Start

theorem hermesClasses_plain : ∀ c ∈ hermesClasses, escapeHtml c = c := by decide

theorem link_hermesClass : text "hermes-link" ∈ hermesClasses := by decide

/-- What a start tag keeps, as attributes. -/
def keptAttributes (r : Runtime) (storedOutput : Bool) (name : Text) (attrs : List (Text × Text))
    (allowed : List Text) : List (Text × Text) :=
  (attrs.filterMap fun e => if e.1 ∈ allowed then (safeAttributeValue r e.1 e.2).map fun clean => (e.1,clean)
    else none) ++
  ((entry attrs (text "style")).bind (safeStyle r)).toList.map (fun style => (text "style",style)) ++
  (if name = text "a" then [(text "class",text "hermes-link")] else []) ++
  (let own := if storedOutput && name = text "span" then trim ((entry attrs (text "class")).getD []) else []
   if own ∈ hermesClasses then [(text "class",own)] else [])

theorem tagParts_eq (name : Text) (attrs : List (Text × Text)) (allowed : List Text) :
    tagParts r storedOutput name attrs allowed =
      (keptAttributes r storedOutput name attrs allowed).map fun a => attributePart a.1 (escapeHtml a.2) := by
  unfold tagParts keptAttributes
  dsimp only
  rw [List.map_append, List.map_append, List.map_append, List.map_filterMap, List.map_map]
  congr 1
  · congr 1
    · congr 1
      refine List.filterMap_congr fun e _ => ?_
      split
      · rw [Option.map_map]
        rfl
      · rfl
    · split
      · rw [List.map_singleton, hermesClasses_plain _ link_hermesClass]
      · rfl
  · generalize (if (storedOutput && decide (name = text "span")) = true then
      trim ((entry attrs (text "class")).getD []) else []) = own
    split
    · rename_i hown
      rw [List.map_singleton, hermesClasses_plain _ hown]
    · rfl

theorem allowedFor_plain {allowed : List Text} (h : allowedFor name = .ok allowed) :
    ∀ a ∈ allowed, a ∈ plainAttributes := by
  have heverywhere : ∀ a ∈ allowedEverywhere, a ∈ plainAttributes := by decide
  have htable : ∀ e ∈ allowedAttributes, ∀ a ∈ e.2, a ∈ plainAttributes := by decide
  unfold allowedFor at h
  rcases lookup_cases allowedAttributes_not_inherited name with ⟨e,he,-,heq,-⟩ | ⟨⟨_,heq⟩,-⟩ | ⟨heq,-⟩
  · rw [heq] at h
    cases h
    intro a ha
    rcases List.mem_append.mp ha with ha | ha
    · exact heverywhere a ha
    · exact htable e he a ha
  · rw [heq] at h
    cases h
  · rw [heq] at h
    cases h
    exact heverywhere

theorem keptAttributes_allowed {allowed : List Text} (h : allowedFor name = .ok allowed) (target : Text) :
    ∀ a ∈ keptAttributes r storedOutput name attrs allowed, AttributeAllowed target a.1 a.2 := by
  intro a ha
  unfold keptAttributes at ha
  simp only [List.mem_append] at ha
  rcases ha with ((hkept | hstyle) | hlink) | hclass
  · obtain ⟨e,-,he⟩ := List.mem_filterMap.mp hkept
    split at he
    · rename_i hmem
      obtain ⟨clean,-,rfl⟩ := Option.map_eq_some_iff.mp he
      exact .plain (allowedFor_plain h _ hmem)
    · cases he
  · obtain ⟨style,hmem,rfl⟩ := List.mem_map.mp hstyle
    obtain ⟨raw,-,hsafe⟩ := Option.bind_eq_some_iff.mp (Option.mem_toList.mp hmem)
    exact .style rfl (safeStyle_enumerated hsafe)
  · split at hlink
    · rw [List.mem_singleton.mp hlink]
      exact .hermesClass rfl link_hermesClass
    · exact absurd hlink List.not_mem_nil
  · generalize (if (storedOutput && decide (name = text "span")) = true then
      trim ((entry attrs (text "class")).getD []) else []) = own at hclass
    split at hclass
    · rename_i hown
      rw [List.mem_singleton.mp hclass]
      exact .hermesClass rfl hown
    · exact absurd hclass List.not_mem_nil

/-- The names of the tags that are written with content. -/
theorem writtenName_target {target : Text} (h : writtenName name = some (.own target))
    (hbr : name ≠ text "br") (himg : name ≠ text "img") (hvoid : name ∉ voidTags) :
    target ∈ tagNames ∧ target ∉ emptyTags := by
  have hempty : ∀ n ∈ emptyTags, n = text "br" ∨ n = text "img" ∨ n ∈ voidTags := by decide
  have hrenamed : ∀ e ∈ renamedTags, e.2 ∉ emptyTags := by decide
  unfold writtenName at h
  split at h
  · rename_i hallowed
    cases h
    refine ⟨List.mem_append_left _ hallowed,fun hmem => ?_⟩
    rcases hempty _ hmem with heq | heq | hmem
    · exact hbr heq
    · exact himg heq
    · exact hvoid hmem
  · rcases lookup_cases renamedTags_not_inherited name with ⟨e,he,-,heq,-⟩ | ⟨⟨_,heq⟩,-⟩ | ⟨heq,-⟩
    · rw [heq] at h
      cases h
      exact ⟨List.mem_append_right _ (List.mem_map_of_mem he),hrenamed e he⟩
    · rw [heq] at h
      cases h
    · rw [heq] at h
      cases h

/-- What a start tag that is shown does to the output. -/
theorem writeStart_cases (h : Fits names w) (hbr : name ≠ text "br") (himg : name ≠ text "img")
    (hvoid : name ∉ voidTags) :
    (inheritedMember name = true ∧ writeStart r storedOutput w name attrs = .error .typeError) ∨
    (inheritedMember name = false ∧ ∃ w' written, writeStart r storedOutput w name attrs = .ok (w',written) ∧
      w'.stack = w.stack ∧ Fits (written.toList ++ names) w') := by
  unfold writeStart
  rcases writtenName_cases name with ⟨hyes,⟨printed,hwritten⟩,herror⟩ | ⟨hno,hnone | ⟨target,allowed,hwritten,hok⟩⟩
  · rw [hwritten, herror]
    exact Or.inl ⟨hyes,rfl⟩
  · rw [hnone]
    exact Or.inr ⟨hno,w,none,rfl,rfl,h⟩
  · obtain ⟨htag,hempty⟩ := writtenName_target hwritten hbr himg hvoid
    have hopening : text "<" ++ join (text " ") (target :: tagParts r storedOutput name attrs allowed) ++ text ">" =
        Tag.opening ⟨target,_,htag,@keptAttributes_allowed r storedOutput name attrs allowed hok target⟩ := by
      unfold Tag.opening
      dsimp only
      rw [join_cons, tagParts_eq, List.flatMap_map, List.append_assoc]
      unfold writtenAttribute
      simp only [List.append_assoc]
    rw [hwritten, hok]
    refine Or.inr ⟨hno,_,some target,rfl,write_stack _ _,?_⟩
    dsimp only
    rw [hopening]
    exact h.write fun hnested => hnested.opens ⟨target,_,htag,_⟩ hempty

/-- A tag that is no special one: it fails when it would be written and its name is inherited. -/
def failsAt (r : Runtime) (stack : List Frame) : Token → Bool
  | .start name attrs _ =>
    inheritedMember name && decide (suppression stack = .shown) && !hiddenByMarkup r attrs
  | _ => false

/-- A frame but for what is written of it. -/
def bare (f : Frame) : Frame := { f with annotation := false, written := none, link := none }

/-- The open elements behind a token: their names, and what they are to the text in them. -/
def track (r : Runtime) (stack : List Frame) : Token → List Frame
  | .text _ => stack
  | .ending name =>
    if name ∈ voidTags then stack
    else
      match stack.findIdx? fun f => f.name = name with
      | some index => stack.drop (index + 1)
      | none => stack
  | .start name attrs selfClosing =>
    if name = text "br" ∨ name = text "img" ∨ name ∈ voidTags then stack
    else if selfClosing && decide (name ∉ allowedTags) && (lookup renamedTags name).isNone then stack
    else ⟨name,false,none,suppressedBy r stack name attrs,none⟩ :: stack

theorem suppression_bare (stack : List Frame) : suppression (stack.map bare) = suppression stack := by
  induction stack with
  | nil => rfl
  | cons f rest ih =>
    unfold suppression at ih ⊢
    rw [List.map_cons, List.find?_cons, List.find?_cons]
    by_cases hshown : f.suppressed = .shown
    · have hbare : (bare f).suppressed = .shown := hshown
      rw [hbare, hshown]
      exact ih
    · have hbare : (bare f).suppressed = f.suppressed := rfl
      rw [hbare, decide_eq_true hshown]
      rfl

theorem findIdx?_bare (stack : List Frame) (name : Text) :
    (stack.map bare).findIdx? (fun f => f.name = name) = stack.findIdx? fun f => f.name = name := by
  rw [List.findIdx?_map]
  rfl

theorem bare_addWords (value : Text) (stack : List Frame) : (addWords value stack).map bare = stack.map bare := by
  induction stack with
  | nil => rfl
  | cons f rest ih =>
    unfold addWords
    split
    · rfl
    · rw [List.map_cons, List.map_cons, ih]

theorem suppressedBy_bare (stack : List Frame) :
    suppressedBy r (stack.map bare) name attrs = suppressedBy r stack name attrs := by
  unfold suppressedBy
  rw [suppression_bare]

end Start

section Run

/-- What one token does: it fails where it must, and else keeps the output sound. -/
def StepResult (r : Runtime) (w : Writer) (token : Token) (result : Except Failure Writer) : Prop :=
  (failsAt r w.stack token = true ∧ result = .error .typeError) ∨
  (failsAt r w.stack token = false ∧ ∃ w', result = .ok w' ∧ Sound w' ∧
    w'.stack.map bare = track r (w.stack.map bare) token)

/-- The frame of an element that was written is pushed, or closed at once. -/
theorem pushed {frame : Frame} (hname : frame.name = name) (hsuppressed : frame.suppressed = suppressedBy r w.stack name attrs)
    (hstack : w'.stack = w.stack) (hfits : Fits (frame.written.toList ++ openNames w.stack) w') :
    ∃ w'', (if selfClosing && decide (name ∉ allowedTags) && (lookup renamedTags name).isNone then
        (Except.ok (closeFrame r w' frame) : Except Failure Writer)
      else .ok { w' with stack := frame :: w'.stack }) = .ok w'' ∧ Sound w'' ∧
      w''.stack.map bare =
        if selfClosing && decide (name ∉ allowedTags) && (lookup renamedTags name).isNone then w.stack.map bare
        else ⟨name,false,none,suppressedBy r w.stack name attrs,none⟩ :: w.stack.map bare := by
  by_cases hclosed : (selfClosing && decide (name ∉ allowedTags) && (lookup renamedTags name).isNone) = true
  · rw [if_pos hclosed, if_pos hclosed]
    refine ⟨_,rfl,?_,?_⟩
    · unfold Sound
      rw [closeFrame_stack, hstack]
      exact hfits.closeFrame
    · rw [closeFrame_stack, hstack]
  · rw [if_neg hclosed, if_neg hclosed]
    refine ⟨_,rfl,?_,?_⟩
    · have hopen : openNames (frame :: w'.stack) = frame.written.toList ++ openNames w.stack := by
        unfold openNames
        rw [hstack]
        cases hwritten : frame.written with
        | some target => rw [List.filterMap_cons_some hwritten]; rfl
        | none => rw [List.filterMap_cons_none hwritten]; rfl
      unfold Sound
      dsimp only
      rw [hopen]
      exact hfits.same rfl rfl
    · dsimp only
      rw [List.map_cons, hstack]
      unfold bare
      rw [hname, hsuppressed]

theorem onElement_result (h : Sound w) (hbr : name ≠ text "br") (himg : name ≠ text "img") (hvoid : name ∉ voidTags) :
    StepResult r w (.start name attrs selfClosing) (onElement r storedOutput w name attrs selfClosing) := by
  have hdrop : inheritedMember name = true → name ∉ dropWithContent := by
    intro hyes hmem
    have hno := special_not_inherited name (by simp [hmem])
    exact absurd (hno.symm.trans hyes) Bool.false_ne_true
  have htrack : track r (w.stack.map bare) (.start name attrs selfClosing) =
      if selfClosing && decide (name ∉ allowedTags) && (lookup renamedTags name).isNone then w.stack.map bare
      else ⟨name,false,none,suppressedBy r w.stack name attrs,none⟩ :: w.stack.map bare := by
    simp only [track, hbr, himg, hvoid, or_self, if_false]
    rw [suppressedBy_bare]
  unfold StepResult onElement
  rw [htrack]
  by_cases hshown : suppression w.stack = .shown ∧ suppressedBy r w.stack name attrs = .shown
  · have hfails : failsAt r w.stack (.start name attrs selfClosing) = inheritedMember name := by
      have hhidden : inheritedMember name = true → hiddenByMarkup r attrs = false := by
        intro hyes
        have hnot := hshown.2
        unfold suppressedBy at hnot
        rw [if_neg (hdrop hyes)] at hnot
        split at hnot
        · cases hnot
        · rename_i hneither
          exact Bool.eq_false_iff.mpr fun hh => hneither ⟨hshown.1,hh⟩
      unfold failsAt
      dsimp only
      cases hyes : inheritedMember name with
      | true => rw [hshown.1, hhidden hyes]; rfl
      | false => rfl
    have hvisible : (decide (suppression w.stack = .shown) &&
        decide (suppressedBy r w.stack name attrs = .shown)) = true := by
      rw [hshown.1, hshown.2]
      rfl
    rw [hfails]
    simp only [hvisible, if_true, Bool.true_and]
    generalize hw₁ : (if decide (name ∈ blockTags) = true then breakLine w else w) = w₁
    generalize hw₂ : (if decide (name = text "li") = true then addText w₁ (text "• ") else w₁) = w₂
    have hkept₁ : w₁.stack = w.stack ∧ w₁.out = w.out ∧ w₁.htmlOverflow = w.htmlOverflow := by
      rw [← hw₁]
      split <;> exact ⟨rfl,rfl,rfl⟩
    have hkept₂ : w₂.stack = w.stack ∧ w₂.out = w.out ∧ w₂.htmlOverflow = w.htmlOverflow := by
      rw [← hw₂]
      split <;> exact hkept₁
    have hfits : Fits (openNames w.stack) w₂ := Fits.same h hkept₂.2.1 hkept₂.2.2
    rcases @writeStart_cases r storedOutput w₂ name _ attrs hfits hbr himg hvoid with
      ⟨hyes,herror⟩ | ⟨hno,w',written,hok,hstack,hwritten⟩
    · rw [herror]
      exact Or.inl ⟨hyes,rfl⟩
    · rw [hok]
      refine Or.inr ⟨hno,?_⟩
      exact pushed rfl rfl (hstack.trans hkept₂.1) hwritten
  · have hfails : failsAt r w.stack (.start name attrs selfClosing) = false := by
      unfold failsAt
      dsimp only
      rw [Bool.eq_false_iff]
      intro hall
      simp only [Bool.and_eq_true, decide_eq_true_eq, Bool.not_eq_true'] at hall
      obtain ⟨⟨hyes,hinherited⟩,hnot⟩ := hall
      refine hshown ⟨hinherited,?_⟩
      unfold suppressedBy
      rw [if_neg (hdrop hyes), if_neg fun hh => absurd (hnot.symm.trans hh.2) Bool.false_ne_true]
    have hvisible : (decide (suppression w.stack = .shown) &&
        decide (suppressedBy r w.stack name attrs = .shown)) = false := by
      rw [Bool.eq_false_iff]
      intro hall
      simp only [Bool.and_eq_true, decide_eq_true_eq] at hall
      exact hshown hall
    refine Or.inr ⟨hfails,?_⟩
    simp only [hvisible, Bool.false_and]
    exact pushed rfl rfl rfl h

theorem document_br : Document (text "<br>") := by
  have hbr : text "<br>" = Tag.opening ⟨text "br",[],by decide,fun _ h => absurd h List.not_mem_nil⟩ := by
    decide
  rw [hbr]
  exact .empty _ (by decide : text "br" ∈ emptyTags)

theorem document_hr : Document (text "<hr>") := by
  have hhr : text "<hr>" = Tag.opening ⟨text "hr",[],by decide,fun _ h => absurd h List.not_mem_nil⟩ := by
    decide
  rw [hhr]
  exact .empty _ (by decide : text "hr" ∈ emptyTags)

/-- A tag without content is written, and then a line break. -/
theorem Sound.writeBreak (h : Sound w) (hvalue : Document value) : Sound (breakLine (write w value)) := by
  unfold Sound breakLine addText
  dsimp only
  rw [write_stack]
  exact (Fits.document h hvalue).same rfl rfl

/-- A start tag that opens nothing. -/
theorem stepResult_special (hspecial : name = text "br" ∨ name = text "img" ∨ name ∈ voidTags) (hsound : Sound w')
    (hstack : w'.stack = w.stack) : StepResult r w (.start name attrs selfClosing) (.ok w') := by
  have hno : inheritedMember name = false := by
    refine special_not_inherited name ?_
    rcases hspecial with rfl | rfl | hmem
    · exact List.mem_cons_self
    · exact List.mem_cons_of_mem _ List.mem_cons_self
    · exact List.mem_cons_of_mem _ (List.mem_cons_of_mem _ (List.mem_append_left _ hmem))
  refine Or.inr ⟨?_,w',rfl,hsound,?_⟩
  · unfold failsAt
    dsimp only
    rw [hno]
    rfl
  · simp only [track, if_pos hspecial]
    rw [hstack]

theorem onToken_result (h : Sound w) (token : Token) :
    StepResult r w token (onToken r storedOutput images w token) := by
  cases token with
  | text value =>
    refine Or.inr ⟨rfl,_,rfl,h.onText,?_⟩
    unfold onText track
    dsimp only
    split
    · rfl
    · rfl
    · split
      · rw [write_stack]
      · dsimp only
        rw [bare_addWords, write_stack]
  | ending name =>
    refine Or.inr ⟨rfl,_,rfl,h.onEnd,?_⟩
    unfold onEnd track
    dsimp only
    split
    · rfl
    · rw [findIdx?_bare]
      cases w.stack.findIdx? fun f => decide (f.name = name) with
      | none => rfl
      | some index =>
        dsimp only
        rw [(Sound.closeFrames (index + 1) h).2, List.map_drop]
  | start name attrs selfClosing =>
    unfold onToken onStart
    dsimp only
    split
    · rename_i hbr
      refine stepResult_special (.inl hbr) ?_ ?_
      · split
        · exact h.writeBreak document_br
        · exact h
      · split
        · exact write_stack _ _
        · rfl
    · rename_i hbr
      split
      · rename_i himg
        refine stepResult_special (.inr (.inl himg)) ?_ ?_
        · split
          · exact Sound.onImage h
          · exact h
        · split
          · exact onImage_stack
          · rfl
      · rename_i himg
        split
        · rename_i hvoid
          refine stepResult_special (.inr (.inr hvoid)) ?_ ?_
          · split
            · exact h.writeBreak document_hr
            · exact h
          · split
            · exact write_stack _ _
            · rfl
        · rename_i hvoid
          exact onElement_result h hbr himg hvoid

/-- Whether some of these tokens is a tag that fails. -/
def reachesInherited (r : Runtime) : List Frame → List Token → Bool
  | _, [] => false
  | stack, token :: rest => failsAt r stack token || reachesInherited r (track r stack token) rest

theorem failsAt_bare (stack : List Frame) (token : Token) :
    failsAt r (stack.map bare) token = failsAt r stack token := by
  cases token with
  | start name attrs selfClosing =>
    unfold failsAt
    dsimp only
    rw [suppression_bare]
  | text value => rfl
  | ending name => rfl

theorem run_result (tokens : List Token) (h : Sound w) :
    (reachesInherited r (w.stack.map bare) tokens = true ∧
      tokens.foldlM (onToken r storedOutput images) w = .error .typeError) ∨
    (reachesInherited r (w.stack.map bare) tokens = false ∧
      ∃ w', tokens.foldlM (onToken r storedOutput images) w = .ok w' ∧ Sound w') := by
  induction tokens generalizing w with
  | nil => exact Or.inr ⟨rfl,w,rfl,h⟩
  | cons token rest ih =>
    have hfirst : reachesInherited r (w.stack.map bare) (token :: rest) =
        (failsAt r w.stack token || reachesInherited r (track r (w.stack.map bare) token) rest) := by
      rw [reachesInherited, failsAt_bare]
    rw [hfirst, List.foldlM_cons]
    rcases @onToken_result r storedOutput images w h token with ⟨hfails,herror⟩ | ⟨hfine,w',hok,hsound,htrack⟩
    · rw [hfails, herror]
      exact Or.inl ⟨rfl,rfl⟩
    · rw [hfine, hok, Bool.false_or, ← htrack]
      exact ih hsound

/-- Whether a tag named like an inherited member is read where it would be shown: outside content that
is dropped or hidden, and not hidden by its own attributes. -/
def showsInherited (r : Runtime) (html : Text) : Bool :=
  match tokenize r html with
  | some tokens => reachesInherited r [] tokens
  | none => false

/-- An email is sanitized to a document of the allowlist, or it shows such a tag and the call throws. -/
theorem sanitizeEmailHtml_cases (r : Runtime) (html : Text) (inlineImages : List InlineImage) (storedOutput : Bool) :
    (showsInherited r html = true ∧ sanitizeEmailHtml r html inlineImages storedOutput = .error .typeError) ∨
    (showsInherited r html = false ∧
      ∃ email, sanitizeEmailHtml r html inlineImages storedOutput = .ok email ∧ Document email.html) := by
  obtain ⟨tokens,htokens⟩ := tokenize_total r html
  have hnew : Sound newWriter := Or.inr (.base .nil)
  unfold showsInherited sanitizeEmailHtml
  rw [htokens]
  dsimp only [bind, Except.bind]
  rcases @run_result r storedOutput (inlineImages.foldl (fun m image =>
      setEntry m (r.toLowerCase image.contentId) image) []) newWriter tokens hnew with
    ⟨hreaches,herror⟩ | ⟨hnot,w,hok,hsound⟩
  · rw [herror]
    exact Or.inl ⟨hreaches,rfl⟩
  · rw [hok]
    refine Or.inr ⟨hnot,_,rfl,?_⟩
    obtain ⟨hclosed,hstack⟩ := @Sound.closeFrames r w w.stack.length hsound
    dsimp only
    split
    · exact .nil
    · rename_i hroom
      simp only [Bool.or_eq_true, not_or, Bool.not_eq_true] at hroom
      rcases hclosed with hover | hnested
      · exact absurd (hroom.1.symm.trans hover) Bool.false_ne_true
      · rw [hstack, List.drop_length] at hnested
        exact hnested.document

theorem sanitizes_iff_shows_no_inherited (r : Runtime) (html : Text) (inlineImages : List InlineImage)
    (storedOutput : Bool) :
    (∃ email, sanitizeEmailHtml r html inlineImages storedOutput = .ok email ∧ Document email.html) ↔
      showsInherited r html = false := by
  constructor
  · rintro ⟨email,hok,-⟩
    rcases sanitizeEmailHtml_cases r html inlineImages storedOutput with ⟨-,herror⟩ | ⟨hnot,-⟩
    · cases hok.symm.trans herror
    · exact hnot
  · intro hnot
    rcases sanitizeEmailHtml_cases r html inlineImages storedOutput with ⟨hyes,-⟩ | ⟨-,hdocument⟩
    · exact absurd (hnot.symm.trans hyes) Bool.false_ne_true
    · exact hdocument

/-- A platform for strings that are ASCII. -/
def asciiRuntime : Runtime := ⟨fun s => s.map asciiLower,fun _ => none,fun _ => false,fun _ _ => rfl⟩

/-- A tag that is named as every object's constructor is makes the call throw. -/
theorem constructor_tag_throws :
    sanitizeEmailHtml asciiRuntime (text "x<constructor>y") [] false = .error .typeError ∧
      ¬∃ email, sanitizeEmailHtml asciiRuntime (text "x<constructor>y") [] false = .ok email ∧
        Document email.html := by
  have hthrows : sanitizeEmailHtml asciiRuntime (text "x<constructor>y") [] false = .error .typeError := by
    have h : (match sanitizeEmailHtml asciiRuntime (text "x<constructor>y") [] false with
        | .error .typeError => true
        | _ => false) = true := by decide
    split at h
    · assumption
    · cases h
  refine ⟨hthrows,?_⟩
  rintro ⟨email,hok,-⟩
  cases hthrows.symm.trans hok

end Run
end HermesEnterprise.Inbound
