import HermesEnterprise.Model.Frames

/-! # Streams that a provider writes

A frame is written as its event and data lines and a blank line, with either line end; comments keep the
stream alive. The reader gives the frames back, in any chunking of the bytes.
-/
namespace HermesEnterprise.Model
open Inbound Providers Foundation Foundation.Utf8 Foundation.Framing

section Writing

def lineEnd (crlf : Bool) : Text := if crlf then [unit '\r',unit '\n'] else [unit '\n']

/-- What a provider sends between two blank lines. -/
inductive Sent
  | frame (frame : SseFrame)
  | comment (words : Text)

/-- The lines of what is sent. Every line of the data is a field of its own. -/
def Sent.lines : Sent → List Text
  | .frame f => (f.event.map fun e => text "event: " ++ e).toList ++
      (f.data.splitOn (unit '\n')).map fun line => text "data: " ++ line
  | .comment words => [text ":" ++ words]

def Sent.written (crlf : Bool) (s : Sent) : Text :=
  (s.lines.flatMap fun line => line ++ lineEnd crlf) ++ lineEnd crlf

def written (stream : List (Bool × Sent)) : Text := stream.flatMap fun s => s.2.written s.1

def Sent.frame? : Sent → Option SseFrame
  | .frame f => some f
  | .comment _ => none

def oneLine (s : Text) : Prop := unit '\n' ∉ s ∧ unit '\r' ∉ s

instance (s : Text) : Decidable (oneLine s) := inferInstanceAs (Decidable (_ ∧ _))

/-- What the format can carry: an event of one line, and data without carriage returns whose last line does
not end in white space. -/
def Sent.Plain : Sent → Prop
  | .frame f => (∀ e ∈ f.event, oneLine e) ∧ unit '\r' ∉ f.data ∧
      ∀ c, f.data.getLast? = some c → isSpace c = true → c = unit '\n'
  | .comment words => oneLine words

end Writing

section Cutting
variable {line more : Text} {crlf : Bool} {c : CodeUnit}

theorem cutBlank_cons (hlf : unit '\n' ≠ c) (hcr : unit '\r' ≠ c) (s : Text) :
    cutBlank (c :: s) = (cutBlank s).map fun cut => (c :: cut.1,cut.2) := by
  rw [cutBlank]
  simp [lfBlank, crlfBlank, List.isPrefixOf, hlf, hcr]

/-- No blank line begins in a line. -/
theorem cutBlank_line (h : oneLine line) (s : Text) :
    cutBlank (line ++ s) = (cutBlank s).map fun cut => (line ++ cut.1,cut.2) := by
  induction line with
  | nil =>
    simp
  | cons c line ih =>
    obtain ⟨hlf,hcr⟩ := h
    rw [List.mem_cons, not_or] at hlf hcr
    rw [List.cons_append, cutBlank_cons hlf.1 hcr.1, ih ⟨hlf.2,hcr.2⟩, Option.map_map]
    rfl

/-- A line end before a line ends no frame. -/
theorem cutBlank_lineEnd (hlf : unit '\n' ≠ c) (hcr : unit '\r' ≠ c) (s : Text) :
    cutBlank (lineEnd crlf ++ c :: s) = (cutBlank (c :: s)).map fun cut => (lineEnd crlf ++ cut.1,cut.2) := by
  have hfeed : cutBlank (unit '\n' :: c :: s) = (cutBlank (c :: s)).map fun cut => (unit '\n' :: cut.1,cut.2) := by
    rw [cutBlank]
    have hne : (unit '\r' == unit '\n') = false := by decide
    simp [lfBlank, crlfBlank, List.isPrefixOf, hlf, hne]
  cases crlf with
  | false => exact hfeed
  | true =>
    change cutBlank (unit '\r' :: unit '\n' :: c :: s) = _
    have hne : (unit '\n' == unit '\r') = false := by decide
    rw [cutBlank, hfeed]
    simp [lfBlank, crlfBlank, List.isPrefixOf, hcr, hne, Function.comp_def, lineEnd]

theorem cutBlank_blank (crlf : Bool) (more : Text) : cutBlank (lineEnd crlf ++ (lineEnd crlf ++ more)) = some ([],more) := by
  cases crlf with
  | false => simp [lineEnd, cutBlank, lfBlank, List.isPrefixOf]
  | true =>
    have hne : (unit '\n' == unit '\r') = false := by decide
    simp [lineEnd, cutBlank, lfBlank, crlfBlank, List.isPrefixOf, hne]

/-- Lines that are not empty, as they stand in a frame. -/
def Lines (lines : List Text) : Prop := ∀ line ∈ lines, oneLine line ∧ line ≠ []

/-- The lines are cut off as one piece. -/
theorem cutBlank_lines {lines : List Text} (h : Lines lines) (hne : lines ≠ []) (crlf : Bool) (more : Text) :
    cutBlank ((lines.flatMap fun line => line ++ lineEnd crlf) ++ (lineEnd crlf ++ more)) =
      some ((lineEnd crlf).intercalate lines,more) := by
  induction lines with
  | nil => exact absurd rfl hne
  | cons line rest ih =>
    obtain ⟨hone,hline⟩ := h line List.mem_cons_self
    rw [List.flatMap_cons, List.append_assoc, List.append_assoc, cutBlank_line hone]
    cases rest with
    | nil =>
      rw [List.flatMap_nil, List.nil_append, cutBlank_blank]
      simp
    | cons next rest =>
      have hrest : Lines (next :: rest) := fun l hl => h l (List.mem_cons_of_mem _ hl)
      obtain ⟨hnext,hnonempty⟩ := hrest next List.mem_cons_self
      obtain ⟨c,tail,rfl⟩ := List.exists_cons_of_ne_nil hnonempty
      have hc : unit '\n' ≠ c ∧ unit '\r' ≠ c :=
        ⟨fun he => hnext.1 (he ▸ List.mem_cons_self),fun he => hnext.2 (he ▸ List.mem_cons_self)⟩
      have hih := ih hrest (List.cons_ne_nil _ _)
      rw [List.flatMap_cons, List.append_assoc, List.append_assoc, List.cons_append] at hih ⊢
      rw [cutBlank_lineEnd hc.1 hc.2, hih, List.intercalate_cons_cons]
      simp

end Cutting

section Parsing
variable {line more s : Text} {crlf : Bool} {c : CodeUnit}

theorem cutLine_line (h : oneLine line) (crlf : Bool) (more : Text) :
    lineEnds.cut (line ++ (lineEnd crlf ++ more)) = some (line,more) := by
  change cutLine (unit '\n') (unit '\r') (line ++ (lineEnd crlf ++ more)) = some (line,more)
  induction line with
  | nil =>
    cases crlf with
    | false => simp [lineEnd, cutLine]
    | true =>
      have hne : unit '\r' ≠ unit '\n' := by decide
      simp [lineEnd, cutLine, hne]
  | cons c line ih =>
    obtain ⟨hlf,hcr⟩ := h
    rw [List.mem_cons, not_or] at hlf hcr
    rw [List.cons_append, cutLine, if_neg (Ne.symm hlf.1), if_neg fun hc => hcr.1 hc.1.symm, ih ⟨hlf.2,hcr.2⟩]
    rfl

theorem cutLine_last (h : unit '\n' ∉ line) : lineEnds.cut line = none := by
  change cutLine (unit '\n') (unit '\r') line = none
  induction line with
  | nil => rfl
  | cons c line ih =>
    rw [List.mem_cons, not_or] at h
    have hhead : line.head? ≠ some (unit '\n') := fun hhead => h.2 (List.mem_of_head? hhead)
    rw [cutLine, if_neg (Ne.symm h.1), if_neg fun hc => hhead hc.2, ih h.2]
    rfl

/-- Lines come back from the text they stand in. -/
theorem splitLines_intercalate {lines : List Text} (h : ∀ line ∈ lines, oneLine line) (hne : lines ≠ []) (crlf : Bool) :
    splitLines ((lineEnd crlf).intercalate lines) = lines := by
  induction lines with
  | nil => exact absurd rfl hne
  | cons line rest ih =>
    have hline := h line List.mem_cons_self
    cases rest with
    | nil =>
      rw [List.intercalate_singleton, splitLines, pieces_of_cut_none lineEnds (cutLine_last hline.1)]
      rfl
    | cons next rest =>
      have hih := ih (fun l hl => h l (List.mem_cons_of_mem _ hl)) (List.cons_ne_nil _ _)
      have hcut := cutLine_line hline crlf ((lineEnd crlf).intercalate (next :: rest))
      rw [List.intercalate_cons_cons, List.append_assoc]
      rw [splitLines] at hih ⊢
      rw [pieces_of_cut lineEnds hcut, List.cons_append, hih]

theorem trimStart_cons (h : isSpace c = false) (s : Text) : trimStart (c :: s) = c :: s := by
  simp [trimStart, h]

theorem trimEnd_append (h : trimEnd s ≠ []) (before : Text) : trimEnd (before ++ s) = before ++ trimEnd s := by
  unfold trimEnd at h ⊢
  rw [List.reverse_append, List.dropWhile_append]
  split
  next hnil =>
    rw [List.isEmpty_iff] at hnil
    rw [hnil] at h
    exact absurd rfl h
  next => rw [List.reverse_append, List.reverse_reverse]

theorem trimEnd_cons (h : isSpace c = false) (s : Text) : trimEnd (c :: s) = c :: trimEnd s := by
  unfold trimEnd
  rw [List.reverse_cons, List.dropWhile_append]
  split
  next hnil =>
    rw [List.isEmpty_iff] at hnil
    rw [hnil]
    simp [h]
  next => rw [List.reverse_append, List.reverse_singleton, List.singleton_append]

theorem trimEnd_eq_self (h : ∀ c, s.getLast? = some c → isSpace c = false) : trimEnd s = s := by
  unfold trimEnd
  cases hrev : s.reverse with
  | nil =>
    rw [List.reverse_eq_nil_iff.mp hrev]
    rfl
  | cons c rest =>
    have hlast : s.getLast? = some c := by
      rw [List.getLast?_eq_head?_reverse, hrev]
      rfl
    rw [List.dropWhile_cons_of_neg (by simp [h c hlast]), ← hrev, List.reverse_reverse]

theorem mem_trimEnd (h : c ∈ trimEnd s) : c ∈ s := by
  rw [trimEnd, List.mem_reverse] at h
  exact List.mem_reverse.mp ((List.dropWhile_sublist isSpace).subset h)

theorem intercalate_append_singleton (sep : Text) (init : List Text) (last : Text) :
    sep.intercalate (init ++ [last]) = (init.flatMap fun line => line ++ sep) ++ last := by
  induction init with
  | nil => simp
  | cons line rest ih =>
    rw [List.cons_append, List.intercalate_cons_of_ne_nil (by simp), ih, List.flatMap_cons]
    simp

/-- The line starts with a letter of its field, or a colon. -/
def Starts (line : Text) : Prop := ∃ c rest, line = c :: rest ∧ isSpace c = false

/-- Only the end of the last line is trimmed. -/
theorem trim_intercalate {init : List Text} {last : Text} (sep : Text) (h : ∀ line ∈ init ++ [last], Starts line) :
    trim (sep.intercalate (init ++ [last])) = sep.intercalate (init ++ [trimEnd last]) := by
  obtain ⟨c,rest,hlast,hc⟩ := h last (List.mem_append_right _ (List.mem_singleton_self _))
  have hne : trimEnd last ≠ [] := by
    rw [hlast, trimEnd_cons hc]
    exact List.cons_ne_nil _ _
  have hstart : ∃ d text, (init.flatMap fun line => line ++ sep) ++ last = d :: text ∧ isSpace d = false := by
    cases init with
    | nil => exact ⟨c,rest,hlast,hc⟩
    | cons line lines =>
      obtain ⟨d,text,hline,hd⟩ := h line List.mem_cons_self
      exact ⟨d,_,by rw [List.flatMap_cons, hline, List.cons_append, List.cons_append, List.cons_append],hd⟩
  obtain ⟨d,text,hwhole,hd⟩ := hstart
  rw [intercalate_append_singleton, intercalate_append_singleton, trim, hwhole, trimStart_cons hd, ← hwhole,
    trimEnd_append hne]

end Parsing

section Fields
variable {frame : Option Text × List Text} {e l words : Text}

theorem addLine_event (frame : Option Text × List Text) (e : Text) : addLine frame (text "event: " ++ e) = (some e,frame.2) := rfl

theorem addLine_data (frame : Option Text × List Text) (l : Text) :
    addLine frame (text "data: " ++ l) = (frame.1,frame.2 ++ [l]) := rfl

theorem addLine_noData (frame : Option Text × List Text) : addLine frame (text "data:") = (frame.1,frame.2 ++ [[]]) := rfl

theorem addLine_comment (frame : Option Text × List Text) (words : Text) : addLine frame (text ":" ++ words) = frame := rfl

theorem foldl_data (frame : Option Text × List Text) (lines : List Text) :
    (lines.map fun l => text "data: " ++ l).foldl addLine frame = (frame.1,frame.2 ++ lines) := by
  induction lines generalizing frame with
  | nil => simp
  | cons l lines ih =>
    rw [List.map_cons, List.foldl_cons, addLine_data, ih]
    simp

end Fields

section Sending
variable {s : Sent} {crlf : Bool}

/-- A part between separators has none in it. -/
theorem of_mem_splitOn {sep : CodeUnit} {t part : Text} (h : part ∈ t.splitOn sep) : sep ∉ part ∧ ∀ c ∈ part, c ∈ t := by
  induction t generalizing part with
  | nil =>
    rw [List.splitOn_nil, List.mem_singleton] at h
    subst h
    exact ⟨List.not_mem_nil,fun _ hc => hc⟩
  | cons d t ih =>
    rw [List.splitOn_cons_eq_if_modifyHead] at h
    obtain ⟨head,tail,hsplit⟩ := List.exists_cons_of_ne_nil (List.splitOn_ne_nil sep t)
    split at h
    next =>
      rcases List.mem_cons.mp h with rfl | h
      · exact ⟨List.not_mem_nil,fun _ hc => absurd hc List.not_mem_nil⟩
      · exact ⟨(ih h).1,fun c hc => List.mem_cons_of_mem _ ((ih h).2 c hc)⟩
    next hne =>
      rw [hsplit, List.modifyHead_cons] at h
      rcases List.mem_cons.mp h with rfl | h
      · obtain ⟨hsep,hmem⟩ := @ih head (by rw [hsplit]; exact List.mem_cons_self)
        refine ⟨?_,fun c hc => ?_⟩
        · rw [List.mem_cons, not_or]
          exact ⟨fun he => hne (by simp [he]),hsep⟩
        · rcases List.mem_cons.mp hc with rfl | hc
          · exact List.mem_cons_self
          · exact List.mem_cons_of_mem _ (hmem c hc)
      · obtain ⟨hsep,hmem⟩ := @ih part (by rw [hsplit]; exact List.mem_cons_of_mem _ h)
        exact ⟨hsep,fun c hc => List.mem_cons_of_mem _ (hmem c hc)⟩

theorem oneLine_append {a b : Text} (ha : oneLine a) (hb : oneLine b) : oneLine (a ++ b) := by
  refine ⟨?_,?_⟩ <;> rw [List.mem_append, not_or]
  · exact ⟨ha.1,hb.1⟩
  · exact ⟨ha.2,hb.2⟩

/-- Every line that is sent is one line and starts with its field. -/
theorem Sent.Plain.lines (h : s.Plain) : ∀ line ∈ s.lines, oneLine line ∧ Starts line := by
  have hevent : oneLine (text "event: ") := by decide
  have hdata : oneLine (text "data: ") := by decide
  have hcolon : oneLine (text ":") := by decide
  intro line hline
  cases s with
  | frame f =>
    obtain ⟨he,hcr,-⟩ := h
    rcases List.mem_append.mp hline with hline | hline
    · obtain ⟨e,hfe,rfl⟩ := Option.map_eq_some_iff.mp (Option.mem_toList.mp hline)
      exact ⟨oneLine_append hevent (he e hfe),unit 'e',_,rfl,by decide⟩
    · obtain ⟨part,hpart,rfl⟩ := List.mem_map.mp hline
      obtain ⟨hlf,hmem⟩ := of_mem_splitOn hpart
      exact ⟨oneLine_append hdata ⟨hlf,fun hc => hcr (hmem _ hc)⟩,unit 'd',_,rfl,by decide⟩
  | comment words =>
    rw [List.mem_singleton.mp hline]
    exact ⟨oneLine_append hcolon h,unit ':',_,rfl,by decide⟩

theorem Starts.ne_nil {line : Text} (h : Starts line) : line ≠ [] := by
  obtain ⟨c,rest,rfl,-⟩ := h
  exact List.cons_ne_nil _ _

theorem oneLine_trimEnd {line : Text} (h : oneLine line) : oneLine (trimEnd line) :=
  ⟨fun hc => h.1 (mem_trimEnd hc),fun hc => h.2 (mem_trimEnd hc)⟩

/-- The lines of a frame, once its end was trimmed. -/
theorem parseFrame_lines {init : List Text} {last : Text}
    (h : ∀ line ∈ init ++ [last], oneLine line ∧ Starts line) (crlf : Bool) :
    parseFrame ((lineEnd crlf).intercalate (init ++ [last])) =
      let (event,data) := (init ++ [trimEnd last]).foldl addLine (none,[])
      if data.isEmpty && event.isNone then none else some ⟨event,join [unit '\n'] data⟩ := by
  obtain ⟨hlast,c,rest,hstart,hc⟩ := h last (List.mem_append_right _ (List.mem_singleton_self _))
  have htrim := trim_intercalate (lineEnd crlf) fun line hline => (h line hline).2
  have hlines : ∀ line ∈ init ++ [trimEnd last], oneLine line := by
    intro line hline
    rcases List.mem_append.mp hline with hline | hline
    · exact (h line (List.mem_append_left _ hline)).1
    · rw [List.mem_singleton.mp hline]
      exact oneLine_trimEnd hlast
  have hne : ((lineEnd crlf).intercalate (init ++ [trimEnd last])).isEmpty = false := by
    rw [intercalate_append_singleton, hstart, trimEnd_cons hc]
    simp
  rw [parseFrame, htrim]
  simp only [hne, splitLines_intercalate hlines (by simp)]
  rfl

/-- The last data line: white space at its end is gone, so the blank behind the colon of an empty one too. -/
theorem addLine_last (frame : Option Text × List Text) {l : Text}
    (h : ∀ c, l.getLast? = some c → isSpace c = false) :
    addLine frame (trimEnd (text "data: " ++ l)) = (frame.1,frame.2 ++ [l]) := by
  cases l with
  | nil => rfl
  | cons c rest =>
    have htrim : trimEnd (c :: rest) = c :: rest := trimEnd_eq_self h
    rw [trimEnd_append (by rw [htrim]; exact List.cons_ne_nil _ _), htrim, addLine_data]

/-- A frame is read as it was sent; a comment is not a frame. -/
theorem parseFrame_sent (h : s.Plain) (crlf : Bool) : parseFrame ((lineEnd crlf).intercalate s.lines) = s.frame? := by
  have hall := h.lines
  cases s with
  | frame f =>
    obtain ⟨he,hcr,hend⟩ := h
    obtain ⟨ds,d,hsplit⟩ := (List.eq_nil_or_concat' (f.data.splitOn (unit '\n'))).resolve_left (List.splitOn_ne_nil _ _)
    have hdata : join [unit '\n'] (ds ++ [d]) = f.data := by
      rw [← hsplit]
      exact List.intercalate_splitOn (unit '\n')
    have hlines : (Sent.frame f).lines = ((f.event.map fun e => text "event: " ++ e).toList ++
        ds.map fun l => text "data: " ++ l) ++ [text "data: " ++ d] := by
      rw [Sent.lines, hsplit, List.map_append, List.append_assoc]
      rfl
    have hlast : ∀ c, d.getLast? = some c → isSpace c = false := by
      intro c hc
      by_contra hspace
      rw [Bool.not_eq_false] at hspace
      have hmem : d ∈ f.data.splitOn (unit '\n') := by
        rw [hsplit]
        exact List.mem_append_right _ (List.mem_singleton_self _)
      have hwhole : f.data.getLast? = some c := by
        rw [← hdata, join, intercalate_append_singleton, List.getLast?_append, hc]
        rfl
      have hfeed := hend c hwhole hspace
      exact (of_mem_splitOn hmem).1 (hfeed ▸ List.mem_of_getLast? hc)
    rw [hlines] at hall ⊢
    rw [parseFrame_lines hall, List.foldl_append, List.foldl_append, foldl_data, List.foldl_cons, List.foldl_nil,
      addLine_last _ hlast]
    cases hevent : f.event with
    | none =>
      simp only [Option.map_none, Option.toList_none, List.foldl_nil, List.nil_append, hdata]
      simp [Sent.frame?, ← hevent]
    | some e =>
      simp only [Option.map_some, Option.toList_some, List.foldl_cons, List.foldl_nil, addLine_event, List.nil_append, hdata]
      simp [Sent.frame?, ← hevent]
  | comment words =>
    have hparse := @parseFrame_lines [] _ hall crlf
    rw [List.nil_append] at hparse
    rw [Sent.lines, hparse]
    have hcolon : trimEnd (text ":" ++ words) = text ":" ++ trimEnd words := trimEnd_cons (by decide) words
    rw [List.nil_append, List.foldl_cons, List.foldl_nil, hcolon, addLine_comment]
    rfl

end Sending

section Round
variable {stream : List (Bool × Sent)}

theorem cutBlank_written {s : Sent} (h : s.Plain) (crlf : Bool) (more : Text) :
    frames.cut (s.written crlf ++ more) = some ((lineEnd crlf).intercalate s.lines,more) := by
  have hlines : Lines s.lines := fun line hline => ⟨(h.lines line hline).1,(h.lines line hline).2.ne_nil⟩
  have hne : s.lines ≠ [] := by
    cases s with
    | frame f => exact List.append_ne_nil_of_right_ne_nil _ (by simp)
    | comment words => exact List.cons_ne_nil _ _
  change findBoundary (s.written crlf ++ more) = _
  rw [findBoundary_eq_cutBlank, Sent.written, List.append_assoc]
  exact cutBlank_lines hlines hne crlf more

/-- The pieces of a written stream are the frames it was written from. -/
theorem pieces_written (h : ∀ s ∈ stream, s.2.Plain) :
    (frames.pieces (written stream)).1.filterMap parseFrame = stream.filterMap (fun s => s.2.frame?) ∧
      (frames.pieces (written stream)).2 = [] := by
  induction stream with
  | nil => exact ⟨rfl,rfl⟩
  | cons s stream ih =>
    obtain ⟨hframes,hrest⟩ := ih fun t ht => h t (List.mem_cons_of_mem _ ht)
    have hplain := h s List.mem_cons_self
    have hcut := cutBlank_written hplain s.1 (written stream)
    rw [written, List.flatMap_cons, ← written, pieces_of_cut frames hcut]
    refine ⟨?_,hrest⟩
    rw [List.filterMap_cons, List.filterMap_cons, parseFrame_sent hplain, hframes]

theorem utf16_characters {t : Text} (h : Utf16.wellFormed t = true) : utf16 (Utf16.characters t) = t := by
  have hunits : utf16 (Utf16.characters t) = (Utf16.characters t).flatMap Utf16.unitsOf := rfl
  rw [hunits, Utf16.flatMap_unitsOf h]

/-- A text of lines does not begin with a byte order mark. -/
theorem head_characters {t : Text} (h : Utf16.wellFormed t = true) (hstart : t = [] ∨ Starts t) :
    (Utf16.characters t).head? ≠ some mark := by
  intro hhead
  have hunits := Utf16.flatMap_unitsOf h
  obtain ⟨rest,hcharacters⟩ := List.head?_eq_some_iff.mp hhead
  rw [hcharacters, List.flatMap_cons] at hunits
  have hmark : Utf16.unitsOf mark = [0xFEFF] := by decide
  rw [hmark] at hunits
  rcases hstart with rfl | ⟨c,tail,rfl,hc⟩
  · cases hunits
  · cases hunits
    exact absurd hc (by decide)

theorem decoded {t : Text} (h : Utf16.wellFormed t = true) (hstart : t = [] ∨ Starts t) :
    utf16 (TextDecoder.fresh.push (Utf16.encode t)).2 = t := by
  have hmark := head_characters h hstart
  have hkept : (unmark false (Utf16.characters t)).2 = Utf16.characters t := by
    cases hcharacters : Utf16.characters t with
    | nil => rfl
    | cons c rest =>
      rw [hcharacters] at hmark
      have hne : (c == mark) = false := beq_false_of_ne fun he => hmark (he ▸ rfl)
      rw [unmark_cons, hne]
      rfl
  rw [TextDecoder.push, TextDecoder.fresh, Utf16.encode, feed_encode]
  change utf16 (unmark false (Utf16.characters t)).2 = t
  rw [hkept, utf16_characters h]

theorem starts_written (h : ∀ s ∈ stream, s.2.Plain) : written stream = [] ∨ Starts (written stream) := by
  cases stream with
  | nil => exact Or.inl rfl
  | cons s rest =>
    obtain ⟨line,lines,hlines⟩ : ∃ line lines, s.2.lines = line :: lines := by
      cases s.2 with
      | frame f => exact List.exists_cons_of_ne_nil (List.append_ne_nil_of_right_ne_nil _ (by simp))
      | comment words => exact ⟨_,_,rfl⟩
    obtain ⟨-,c,tail,hline,hc⟩ := (h s List.mem_cons_self).lines line (hlines ▸ List.mem_cons_self)
    refine Or.inr ⟨c,?_,?_,hc⟩
    · exact tail ++ lineEnd s.1 ++ (lines.flatMap fun line => line ++ lineEnd s.1) ++ lineEnd s.1 ++ written rest
    · rw [written, List.flatMap_cons, ← written, Sent.written, hlines, List.flatMap_cons, hline]
      simp

/-- The bytes of a stream are read as the frames that were sent. -/
theorem read_of_written {chunks : List (List UInt8)} (hplain : ∀ s ∈ stream, s.2.Plain)
    (hform : Utf16.wellFormed (written stream) = true) (hbytes : chunks.flatten = Utf16.encode (written stream)) :
    readSse chunks = stream.filterMap fun s => s.2.frame? := by
  obtain ⟨hframes,hrest⟩ := pieces_written hplain
  have hdecoded := decoded hform (starts_written hplain)
  rw [readSse_eq, hbytes, SseReader.push]
  simp only [SseReader.fresh, List.nil_append, hdecoded, hframes, SseReader.tail, hrest]
  simp [parseFrame, trim, trimStart, trimEnd]

/-- Whatever its chunks, a stream is read as the frames that were sent. -/
theorem readSse_written {chunks : List (List UInt8)} (hplain : ∀ s ∈ stream, s.2.Plain)
    (hform : Utf16.wellFormed (written stream) = true) (hbytes : chunks.flatten = Utf16.encode (written stream)) :
    readSse chunks = stream.filterMap fun s => s.2.frame? :=
  read_of_written hplain hform hbytes

/-- A keepalive, and a frame of two data lines, in two chunks. -/
theorem readSse_written_frame :
    readSse [[58,104,10,10,101,118,101,110,116,58,32,100,13,10,100,97,116,97,58,32,195],
        [169,13,10,100,97,116,97,58,32,49,13,10,13,10]] =
      [(false,Sent.comment (text "h")),(true,Sent.frame ⟨some (text "d"),text "é\n1"⟩)].filterMap fun s => s.2.frame? := by
  refine readSse_written ?_ (by decide) (by decide)
  intro s hs
  rcases List.mem_cons.mp hs with rfl | hs
  · exact ⟨by decide,by decide⟩
  · rw [List.mem_singleton.mp hs]
    refine ⟨fun e he => ?_,by decide,fun c hc hspace => ?_⟩
    · cases he
      decide
    · cases hc
      exact absurd hspace (by decide)

end Round

end HermesEnterprise.Model
