import HermesEnterprise.Inbound.Document
import Mathlib.Data.List.TakeWhile

/-! # The sanitizer against its allowlist

Whatever is written keeps the output a nested document of the allowlist. The only way to
fail is a tag whose name is a member that every object inherits, where it would be shown.
-/
namespace HermesEnterprise.Inbound
variable {r : Runtime} {storedOutput : Bool} {images : List (Text × InlineImage)} {w w' : Writer}
variable {name value : Text} {names : List Text} {attrs : List (Text × Text)} {frame : Frame}

section Lookup

/-- What a lookup finds, for keys that no object inherits. -/
theorem lookup_cases {α : Type} {table : List (Text × α)} (htable : ∀ e ∈ table, inheritedMember e.1 = false)
    (key : Text) : (∃ e ∈ table, e.1 = key ∧ lookup table key = some (.own e.2) ∧ inheritedMember key = false) ∨
      ((∃ printed, lookup table key = some (.inherited printed)) ∧ inheritedMember key = true) ∨
      (lookup table key = none ∧ inheritedMember key = false) := by
  unfold lookup
  cases hfind : table.find? fun e => decide (e.1 = key) with
  | some e =>
    have hmem := List.mem_of_find?_eq_some hfind
    have hkey : e.1 = key := of_decide_eq_true (List.find?_some (p := fun e : Text × α => decide (e.1 = key)) hfind)
    exact Or.inl ⟨e,hmem,hkey,rfl,hkey ▸ htable e hmem⟩
  | none =>
    right
    unfold inheritedMember
    cases hproto : objectPrototype.find? fun m => decide (m.1 = key) with
    | some m =>
      left
      have hkey : decide (m.1 = key) = true := List.find?_some (p := fun m : Text × Text => decide (m.1 = key)) hproto
      exact ⟨⟨m.2,rfl⟩,List.any_eq_true.mpr ⟨m,List.mem_of_find?_eq_some hproto,hkey⟩⟩
    | none =>
      right
      refine ⟨rfl,List.any_eq_false.mpr fun m hm => ?_⟩
      exact fun htrue => absurd htrue (List.find?_eq_none.mp hproto m hm)

theorem allowedTags_not_inherited : ∀ n ∈ allowedTags, inheritedMember n = false := by decide

theorem renamedTags_not_inherited : ∀ e ∈ renamedTags, inheritedMember e.1 = false := by decide

theorem allowedAttributes_not_inherited : ∀ e ∈ allowedAttributes, inheritedMember e.1 = false := by
  decide

theorem special_not_inherited : ∀ n ∈ text "br" :: text "img" :: (voidTags ++ dropWithContent),
    inheritedMember n = false := by decide

/-- The only name that cannot be written is an inherited one. -/
theorem writtenName_cases (name : Text) :
    (inheritedMember name = true ∧ (∃ printed, writtenName name = some (.inherited printed)) ∧
      allowedFor name = .error .typeError) ∨
    (inheritedMember name = false ∧ (writtenName name = none ∨
      ∃ target allowed, writtenName name = some (.own target) ∧ allowedFor name = .ok allowed)) := by
  have hallowed : inheritedMember name = false → ∃ allowed, allowedFor name = .ok allowed := by
    intro hnot
    unfold allowedFor
    rcases lookup_cases allowedAttributes_not_inherited name with ⟨e,-,-,heq,-⟩ | ⟨-,hyes⟩ | ⟨heq,-⟩
    · rw [heq]
      exact ⟨_,rfl⟩
    · exact absurd (hnot.symm.trans hyes) Bool.false_ne_true
    · rw [heq]
      exact ⟨_,rfl⟩
  unfold writtenName
  by_cases hmem : name ∈ allowedTags
  · have hnot := allowedTags_not_inherited name hmem
    obtain ⟨allowed,hok⟩ := hallowed hnot
    rw [if_pos hmem]
    exact Or.inr ⟨hnot,Or.inr ⟨name,allowed,rfl,hok⟩⟩
  · rw [if_neg hmem]
    rcases lookup_cases renamedTags_not_inherited name with ⟨e,-,-,heq,hnot⟩ | ⟨⟨printed,heq⟩,hyes⟩ | ⟨heq,hnot⟩
    · obtain ⟨allowed,hok⟩ := hallowed hnot
      exact Or.inr ⟨hnot,Or.inr ⟨e.2,allowed,heq,hok⟩⟩
    · refine Or.inl ⟨hyes,⟨printed,heq⟩,?_⟩
      unfold allowedFor
      rcases lookup_cases allowedAttributes_not_inherited name with ⟨_,-,-,-,hnot⟩ | ⟨⟨_,heq'⟩,-⟩ | ⟨-,hnot⟩
      · exact absurd (hnot.symm.trans hyes) Bool.false_ne_true
      · rw [heq']
      · exact absurd (hnot.symm.trans hyes) Bool.false_ne_true
    · exact Or.inr ⟨hnot,Or.inl heq⟩

end Lookup

section Values

/-- A string that is compared equal to ASCII without an `s` or a `k` is ASCII itself. -/
theorem ascii_of_sameFold {s literal : Text} (h : sameFold s literal = true)
    (hliteral : ∀ c ∈ literal, c < 128 ∧ c ≠ unit 's' ∧ c ≠ unit 'k') :
    (∀ c ∈ s, c < 128) ∧ s.map asciiLower = literal := by
  have h : s.map foldCase = literal := of_decide_eq_true h
  have hfold : ∀ c ∈ s, foldCase c = asciiLower c ∧ c < 128 := by
    intro c hc
    obtain ⟨hsmall,hs,hk⟩ := hliteral (foldCase c) (h ▸ List.mem_map_of_mem hc)
    unfold foldCase at hsmall hs hk ⊢
    split at hs
    · exact absurd rfl hs
    · rename_i hlong
      rw [if_neg hlong] at hsmall hk ⊢
      split at hk
      · exact absurd rfl hk
      · rename_i hkelvin
        rw [if_neg hkelvin] at hsmall ⊢
        refine ⟨rfl,?_⟩
        unfold asciiLower at hsmall
        split at hsmall
        · rename_i hupper
          have hle : c ≤ unit 'Z' := of_decide_eq_true (Bool.and_eq_true_iff.mp hupper).2
          exact UInt16.lt_of_le_of_lt hle (by decide)
        · exact hsmall
  refine ⟨fun c hc => (hfold c hc).2,?_⟩
  rw [← h]
  exact List.map_congr_left fun c hc => ((hfold c hc).1).symm

theorem imageTypes_ascii : ∀ t ∈ imageTypes, ∀ c ∈ text "image/" ++ t, c < 128 ∧ c ≠ unit 's' ∧ c ≠ unit 'k' := by
  intro t ht
  refine forall_units ?_
  revert t
  decide

theorem isImageType_lower {mimeType : Text} (h : isImageType mimeType = true) :
    text "image/" <+: r.toLowerCase mimeType := by
  unfold isImageType afterPrefix at h
  split at h
  · rename_i hstart
    obtain ⟨t,ht,hsame⟩ := List.any_eq_true.mp h
    have hwhole : sameFold mimeType (text "image/" ++ t) = true := by
      have hstart := of_decide_eq_true hstart
      have hsame := of_decide_eq_true hsame
      unfold sameFold
      rw [← List.take_append_drop (text "image/").length mimeType, List.map_append, hstart, hsame]
      exact decide_eq_true rfl
    obtain ⟨hascii,hlower⟩ := ascii_of_sameFold hwhole (imageTypes_ascii t ht)
    rw [r.lower_ascii mimeType hascii, hlower]
    exact List.prefix_append _ _
  · cases h

/-- Every source that an image keeps is data. -/
theorem imageSource_data {src source : Text} (h : imageSource r images src = some source) :
    text "data:image/" <+: source := by
  have hdata : text "data:image/" = text "data:" ++ text "image/" := by decide
  unfold imageSource at h
  dsimp only at h
  split at h
  · rename_i image himage
    cases h
    have himage := (Option.filter_eq_some_iff.mp himage).2
    have htype := (Bool.and_eq_true_iff.mp himage).1
    obtain ⟨rest,hrest⟩ := isImageType_lower (r := r) htype
    refine ⟨rest ++ text ";base64," ++ image.base64,?_⟩
    rw [hdata, ← hrest]
    simp only [List.append_assoc]
  · split at h
    · rename_i type data _
      cases h
      refine ⟨r.toLowerCase type ++ text ";base64," ++ removeSpaces data,?_⟩
      simp only [List.append_assoc]
    · cases h

theorem escapeUnit_of_ne {c : CodeUnit}
    (h : c ≠ unit '&' ∧ c ≠ unit '<' ∧ c ≠ unit '>' ∧ c ≠ 0x22 ∧ c ≠ 0x27) : escapeUnit c = [c] := by
  unfold escapeUnit
  rw [if_neg h.1, if_neg h.2.1, if_neg h.2.2.1, if_neg h.2.2.2.1, if_neg h.2.2.2.2]

/-- Numbers need no escaping. -/
theorem escapeHtml_numeric {s : Text} (h : numeric s = true) : escapeHtml s = s := by
  have hdigit : ∀ c, isDigit c = true → escapeUnit c = [c] := by
    intro c hc
    unfold isDigit at hc
    simp only [Bool.and_eq_true, decide_eq_true_eq] at hc
    refine escapeUnit_of_ne ⟨?_,?_,?_,?_,?_⟩ <;>
    · rintro rfl
      exact absurd hc (by decide)
  refine escapeHtml_of_plain fun c hc => ?_
  unfold numeric at h
  simp only [Bool.and_eq_true, Bool.or_eq_true, decide_eq_true_eq] at h
  rw [← List.takeWhile_append_dropWhile (p := isDigit) (l := s)] at hc
  rcases List.mem_append.mp hc with hc | hc
  · exact hdigit c (List.mem_takeWhile_imp hc)
  · rcases h.2 with hnone | hpercent
    · rw [List.isEmpty_iff.mp hnone] at hc
      exact absurd hc List.not_mem_nil
    · rw [hpercent] at hc
      have hall : ∀ c ∈ text "%", escapeUnit c = [c] := forall_units (by decide)
      exact hall c hc

theorem safeStyle_enumerated {style : Text} (h : safeStyle r value = some style) : EnumeratedStyle style := by
  unfold safeStyle at h
  dsimp only at h
  split at h
  · cases h
  · cases h
    refine ⟨_,rfl,fun d hd => ?_⟩
    obtain ⟨declaration,-,hkept⟩ := List.mem_filterMap.mp (List.mem_of_mem_take hd)
    unfold safeDeclaration at hkept
    dsimp only at hkept
    split at hkept
    · rename_i hany
      cases hkept
      obtain ⟨e,he,hmatch⟩ := List.any_eq_true.mp hany
      simp only [Bool.and_eq_true, decide_eq_true_eq] at hmatch
      exact ⟨e,he,_,hmatch.2,by rw [hmatch.1]⟩
    · cases hkept

end Values

section Writing

/-- What is written so far, with these elements open; nothing once it is too long. -/
def Fits (names : List Text) (w : Writer) : Prop := w.htmlOverflow = true ∨ Nested names w.out

/-- The names of the open elements that were written. -/
def openNames (stack : List Frame) : List Text := stack.filterMap (·.written)

theorem Fits.same (h : Fits names w) (hout : w'.out = w.out) (hover : w'.htmlOverflow = w.htmlOverflow) :
    Fits names w' := by
  unfold Fits
  rwa [hout, hover]

theorem Fits.write {more : List Text} (h : Fits names w)
    (hvalue : Nested names w.out → Nested more (w.out ++ value)) : Fits more (write w value) := by
  unfold Inbound.write
  split
  · exact Or.inl rfl
  · rename_i hroom
    simp only [Bool.or_eq_true, not_or, Bool.not_eq_true] at hroom
    rcases h with hover | hnested
    · exact absurd (hroom.1.symm.trans hover) Bool.false_ne_true
    · exact Or.inr (hvalue hnested)

theorem Fits.document (h : Fits names w) (hvalue : Document value) : Fits names (Inbound.write w value) :=
  h.write fun hnested => hnested.append hvalue

theorem write_stack (w : Writer) (value : Text) : (Inbound.write w value).stack = w.stack := by
  unfold Inbound.write
  split <;> rfl

/-- The notes that are written around a text. -/
def noteTag (hermesClass : Text) (h : hermesClass ∈ hermesClasses) : Tag where
  name := text "span"
  attrs := [(text "class",hermesClass)]
  name_allowed := by decide
  attrs_allowed := by
    intro a ha
    rw [List.mem_singleton.mp ha]
    exact .hermesClass rfl h

theorem document_note {hermesClass body start : Text} (h : hermesClass ∈ hermesClasses)
    (hstart : start = (noteTag hermesClass h).opening) :
    Document (start ++ escapeHtml body ++ text "</span>") := by
  have hclosing : text "</span>" = closingTag (text "span") := by decide
  have hspan : text "span" ∉ emptyTags := by decide
  rw [hstart, hclosing]
  exact .element (noteTag hermesClass h) hspan (.text body)

theorem document_destination (destination : Text) :
    Document (text "<span class=\"hermes-link-destination\"> (" ++ escapeHtml destination ++ text ")</span>") := by
  have hstart : text "<span class=\"hermes-link-destination\"> (" =
      (noteTag (text "hermes-link-destination") (by decide)).opening ++ escapeHtml (text " (") := by
    decide
  have hend : text ")</span>" = escapeHtml (text ")") ++ text "</span>" := by decide
  have hnote := @document_note _ (text " (" ++ destination ++ text ")") _
    (by decide : text "hermes-link-destination" ∈ hermesClasses) rfl
  rw [escapeHtml_append, escapeHtml_append] at hnote
  rw [hstart, hend]
  simpa only [List.append_assoc] using hnote

/-- Ending a link writes nothing. -/
theorem linkEnd_frame : (linkEnd r w frame).1.out = w.out ∧
    (linkEnd r w frame).1.htmlOverflow = w.htmlOverflow ∧ (linkEnd r w frame).1.stack = w.stack := by
  unfold linkEnd
  split
  · split
    · unfold endLink
      dsimp only
      split
      · exact ⟨rfl,rfl,rfl⟩
      · split <;> exact ⟨rfl,rfl,rfl⟩
    · exact ⟨rfl,rfl,rfl⟩
  · exact ⟨rfl,rfl,rfl⟩

theorem Fits.writeEnd {written : Option Text} (h : Fits (written.toList ++ names) w) :
    Fits names (writeEnd w written) := by
  cases written with
  | some name => exact h.write fun hnested => hnested.close
  | none => exact h

theorem Fits.writeDestination {destination : Option Text} (h : Fits names w) :
    Fits names (writeDestination w destination) := by
  cases destination with
  | some destination => exact (h.document (document_destination destination)).same rfl rfl
  | none => exact h

theorem Fits.closeFrame (h : Fits (frame.written.toList ++ names) w) : Fits names (closeFrame r w frame) := by
  obtain ⟨hout,hover,-⟩ := @linkEnd_frame r w frame
  have hended := @Fits.writeDestination _ _ (linkEnd r w frame).2 ((h.same hout hover).writeEnd)
  unfold Inbound.closeFrame
  dsimp only
  split
  · exact hended.same rfl rfl
  · exact hended

theorem closeFrame_stack : (closeFrame r w frame).stack = w.stack := by
  have hdestination : ∀ (w : Writer) (destination : Option Text),
      (writeDestination w destination).stack = w.stack := by
    intro w destination
    cases destination with
    | some destination => exact write_stack _ _
    | none => rfl
  have hend : ∀ (w : Writer) (written : Option Text), (writeEnd w written).stack = w.stack := by
    intro w written
    cases written with
    | some name => exact write_stack _ _
    | none => rfl
  have hall : (writeDestination (writeEnd (linkEnd r w frame).1 frame.written) (linkEnd r w frame).2).stack =
      w.stack := by rw [hdestination, hend, linkEnd_frame.2.2]
  unfold Inbound.closeFrame
  dsimp only
  split
  · exact hall
  · exact hall

/-- What is written fits the elements that are open. -/
def Sound (w : Writer) : Prop := Fits (openNames w.stack) w

theorem Sound.closeFrames (n : ℕ) (h : Sound w) :
    Sound (closeFrames r n w) ∧ (closeFrames r n w).stack = w.stack.drop n := by
  induction n generalizing w with
  | zero => exact ⟨h,rfl⟩
  | succ n ih =>
    unfold Inbound.closeFrames
    split
    · rename_i hstack
      exact ⟨h,by rw [hstack, List.drop_nil]⟩
    · rename_i frame rest hstack
      have hopen : openNames w.stack = frame.written.toList ++ openNames rest := by
        rw [hstack]
        unfold openNames
        cases hwritten : frame.written with
        | some name => rw [List.filterMap_cons_some hwritten]; rfl
        | none => rw [List.filterMap_cons_none hwritten]; rfl
      have hpopped : Fits (frame.written.toList ++ openNames rest) { w with stack := rest } := hopen ▸ h
      have hclosed := @closeFrame_stack r { w with stack := rest } frame
      have hsound : Sound (closeFrame r { w with stack := rest } frame) := by
        unfold Sound
        rw [hclosed]
        exact hpopped.closeFrame
      obtain ⟨hsound',hstack'⟩ := ih hsound
      refine ⟨hsound',?_⟩
      rw [hstack', hclosed, hstack]
      rfl

theorem openNames_addWords (value : Text) (stack : List Frame) :
    openNames (addWords value stack) = openNames stack := by
  induction stack with
  | nil => rfl
  | cons f rest ih =>
    unfold addWords
    split
    · rfl
    · unfold openNames at ih ⊢
      rw [List.filterMap_cons, List.filterMap_cons, ih]

theorem Sound.onText (h : Sound w) : Sound (onText r w value) := by
  unfold Inbound.onText
  dsimp only
  split
  · exact h.same rfl rfl
  · exact h
  · have hwritten := h.document (.text (decodeEntities r value))
    split
    · unfold Sound
      rwa [write_stack]
    · unfold Sound
      dsimp only
      rw [openNames_addWords, write_stack]
      exact hwritten.same rfl rfl

theorem Sound.onEnd (h : Sound w) : Sound (onEnd r w name) := by
  unfold Inbound.onEnd
  split
  · exact h
  · split
    · exact (h.closeFrames _).1
    · exact h

end Writing

section Image

theorem safeAttributeValue_numeric {clean : Text} (hname : name ∈ numericAttributes)
    (h : safeAttributeValue r name value = some clean) : numeric clean = true := by
  unfold safeAttributeValue at h
  dsimp only at h
  split at h
  · cases h
  · split at h
    · rename_i hnumeric
      cases h
      exact hnumeric
    · cases h

/-- A dimension of an image, as an attribute. -/
def dimensionAttrs (name : String) (value : Option Text) : List (Text × Text) :=
  value.toList.map fun v => (text name,v)

theorem dimension_written (name : String) (hname : text name ∈ numericAttributes) :
    dimension name (safeAttributeValue r (text name) value) =
      (dimensionAttrs name (safeAttributeValue r (text name) value)).flatMap writtenAttribute := by
  cases h : safeAttributeValue r (text name) value with
  | none => rfl
  | some clean =>
    have hnumeric := safeAttributeValue_numeric hname h
    have hnonempty : clean.isEmpty = false := by
      cases clean with
      | nil => exact absurd hnumeric (by decide)
      | cons c rest => rfl
    have hsplit : text (" " ++ name ++ "=\"") = text " " ++ text name ++ text "=\"" := by
      rw [text_append, text_append]
    unfold dimension dimensionAttrs
    dsimp only
    rw [hnonempty, if_neg Bool.false_ne_true, Option.toList_some, List.map_singleton, List.flatMap_singleton]
    unfold writtenAttribute attributePart
    rw [escapeHtml_numeric hnumeric, hsplit]
    simp only [List.append_assoc]

theorem plain_image : text "alt" ∈ plainAttributes ∧ text "width" ∈ plainAttributes ∧
    text "height" ∈ plainAttributes := by decide

/-- The image that is written for a source. -/
def imageTag (source alt : Text) (hsource : text "data:image/" <+: source)
    (width height : Option Text) : Tag where
  name := text "img"
  attrs := (text "src",source) :: (text "alt",alt) :: (dimensionAttrs "width" width ++ dimensionAttrs "height" height)
  name_allowed := by decide
  attrs_allowed := by
    intro a ha
    simp only [List.mem_cons, List.mem_append, dimensionAttrs, List.mem_map] at ha
    rcases ha with rfl | rfl | ⟨v,-,rfl⟩ | ⟨v,-,rfl⟩
    · exact .source rfl rfl hsource
    · exact .plain plain_image.1
    · exact .plain plain_image.2.1
    · exact .plain plain_image.2.2

theorem document_image {source alt width height : Text} (hsource : text "data:image/" <+: source) :
    Document (text "<img src=\"" ++ escapeHtml source ++ text "\" alt=\"" ++ escapeHtml alt ++ text "\"" ++
      dimension "width" (safeAttributeValue r (text "width") width) ++
      dimension "height" (safeAttributeValue r (text "height") height) ++ text ">") := by
  have hempty : text "img" ∈ emptyTags := by decide
  have hopening := Document.empty (imageTag source alt hsource (safeAttributeValue r (text "width") width)
    (safeAttributeValue r (text "height") height)) hempty
  have hsrc : text "<img src=\"" = text "<" ++ text "img" ++ (text " " ++ (text "src" ++ text "=\"")) := by
    decide
  have halt : text "\" alt=\"" = text "\"" ++ (text " " ++ (text "alt" ++ text "=\"")) := by decide
  rw [dimension_written "width" (by decide), dimension_written "height" (by decide), hsrc, halt]
  unfold imageTag Tag.opening at hopening
  dsimp only at hopening
  rw [List.flatMap_cons, List.flatMap_cons, List.flatMap_append] at hopening
  unfold writtenAttribute attributePart at hopening ⊢
  simpa only [List.append_assoc] using hopening

theorem document_blocked {start note : Text}
    (hstart : start = text "<span class=\"hermes-image-blocked\">" ++ escapeHtml note) (body closing : Text) :
    Document (start ++ escapeHtml body ++ escapeHtml closing ++ text "</span>") := by
  have htag : text "<span class=\"hermes-image-blocked\">" =
      (noteTag (text "hermes-image-blocked") (by decide)).opening := by decide
  have hnote := @document_note _ (note ++ body ++ closing) _
    (by decide : text "hermes-image-blocked" ∈ hermesClasses) htag
  rw [escapeHtml_append, escapeHtml_append] at hnote
  rw [hstart]
  simpa only [List.append_assoc] using hnote

/-- An image is written as data, as a note, or not at all. -/
theorem Fits.onImage (h : Fits names w) : Fits names (onImage r images w attrs) := by
  have hclosing : text "]</span>" = escapeHtml (text "]") ++ text "</span>" := by decide
  have hfrom : text " (from " = escapeHtml (text " (from ") := by decide
  have hend : text ")</span>" = escapeHtml (text ")") ++ text "</span>" := by decide
  unfold Inbound.onImage
  dsimp only
  split
  · rename_i source hsource
    exact h.document (document_image (imageSource_data hsource))
  · split
    · split
      · exact h.same rfl rfl
      · have hcounted : Fits names { w with remoteImages := w.remoteImages + 1 } := h.same rfl rfl
        refine hcounted.document ?_
        generalize (trim ((entry attrs (text "alt")).getD [])).take 200 = alt
        have hwords : (if alt.isEmpty then [] else text ": " ++ escapeHtml alt) =
            escapeHtml (if alt.isEmpty then [] else text ": " ++ alt) := by
          split
          · rfl
          · rw [escapeHtml_append]
            rfl
        have hshown : text "<span class=\"hermes-image-blocked\">Image not shown" =
            text "<span class=\"hermes-image-blocked\">" ++ escapeHtml (text "Image not shown") := by decide
        rw [hwords, hfrom, hend]
        have hnote := fun body host => document_blocked hshown (body ++ text " (from " ++ host) (text ")")
        simp only [escapeHtml_append, List.append_assoc] at hnote ⊢
        exact hnote _ _
    · split
      · refine h.document ?_
        have hshown : text "<span class=\"hermes-image-blocked\">[Image: " =
            text "<span class=\"hermes-image-blocked\">" ++ escapeHtml (text "[Image: ") := by decide
        have hnote := fun alt => document_blocked hshown alt (text "]")
        rw [hclosing]
        simp only [List.append_assoc] at hnote ⊢
        exact hnote _
      · exact h

theorem onImage_stack : (onImage r images w attrs).stack = w.stack := by
  unfold onImage
  dsimp only
  split
  · exact write_stack _ _
  · split
    · split
      · rfl
      · exact write_stack _ _
    · split
      · exact write_stack _ _
      · rfl

theorem Sound.onImage (h : Sound w) : Sound (Inbound.onImage r images w attrs) := by
  unfold Sound
  rw [onImage_stack]
  exact Fits.onImage h

end Image
end HermesEnterprise.Inbound
