import HermesEnterprise.Foundation.Characters
import HermesEnterprise.Providers.Usage

/-! # Server-sent events

The reader buffers what the decoder gives and cuts it at blank lines. What it yields depends on the bytes of
the stream alone, and a stream that was cut short yields the frames before the cut.
-/
namespace HermesEnterprise.Model
open Inbound Providers Foundation Foundation.Utf8 Foundation.Framing

structure SseFrame where
  event : Option Text
  data : Text
  deriving DecidableEq

section Reader

def lfBlank : Text := [unit '\n',unit '\n']

def crlfBlank : Text := [unit '\r',unit '\n',unit '\r',unit '\n']

/-- What stands before the first blank line, and what follows it. -/
def findBoundary (buffer : Text) : Option (Text × Text) :=
  match splitAtFirst lfBlank buffer, splitAtFirst crlfBlank buffer with
  | lf, none => lf
  | none, some crlf => some crlf
  | some lf, some crlf => if crlf.1.length < lf.1.length then some crlf else some lf

/-- `split(/\r?\n/)`. -/
def splitLines (s : Text) : List Text := (lineEnds.pieces s).1 ++ [(lineEnds.pieces s).2]

/-- Field and value of a line; one blank behind the colon is dropped. -/
def lineField (line : Text) : Text × Text :=
  match splitAtFirst (text ":") line with
  | none => (line,[])
  | some (field,value) => (field,if value.head? = some (unit ' ') then value.tail else value)

/-- The event and the data lines after one more line. A comment is a keepalive. -/
def addLine (frame : Option Text × List Text) (line : Text) : Option Text × List Text :=
  if (text ":").isPrefixOf line then frame
  else
    let (field,value) := lineField line
    if field = text "event" then (some value,frame.2)
    else if field = text "data" then (frame.1,frame.2 ++ [value])
    else frame

def parseFrame (raw : Text) : Option SseFrame :=
  let trimmed := trim raw
  if trimmed.isEmpty then none
  else
    let (event,data) := (splitLines trimmed).foldl addLine (none,[])
    if data.isEmpty && event.isNone then none else some ⟨event,join [unit '\n'] data⟩

end Reader

section Boundaries

/-- The first blank line, found in one pass. -/
def cutBlank : Text → Option (Text × Text)
  | [] => none
  | c :: rest =>
    if lfBlank.isPrefixOf (c :: rest) then some ([],(c :: rest).drop 2)
    else if crlfBlank.isPrefixOf (c :: rest) then some ([],(c :: rest).drop 4)
    else (cutBlank rest).map fun cut => (c :: cut.1,cut.2)

theorem not_both_blank (s : Text) : (lfBlank.isPrefixOf s && crlfBlank.isPrefixOf s) = false := by
  cases s with
  | nil => rfl
  | cons c rest =>
    simp only [lfBlank, crlfBlank, List.isPrefixOf]
    by_cases hc : unit '\n' = c
    · subst hc
      simp [unit]
    · simp [hc]

theorem findBoundary_eq_cutBlank (s : Text) : findBoundary s = cutBlank s := by
  induction s with
  | nil => rfl
  | cons c rest ih =>
    have hboth := not_both_blank (c :: rest)
    rw [findBoundary] at ih ⊢
    rw [cutBlank, splitAtFirst, splitAtFirst, ← ih]
    by_cases hlf : lfBlank.isPrefixOf (c :: rest) = true
    · rw [hlf, Bool.true_and] at hboth
      rw [hlf, hboth]
      cases splitAtFirst crlfBlank rest <;> simp [lfBlank]
    · by_cases hcrlf : crlfBlank.isPrefixOf (c :: rest) = true
      · simp only [hlf, hcrlf]
        cases splitAtFirst lfBlank rest <;> simp [crlfBlank]
      · simp only [hlf, hcrlf]
        cases splitAtFirst lfBlank rest with
        | none => cases splitAtFirst crlfBlank rest <;> simp
        | some lf =>
          cases splitAtFirst crlfBlank rest with
          | none => simp
          | some crlf =>
            simp only [Option.map_some, Bool.false_eq_true, if_false, List.length_cons, Nat.add_lt_add_iff_right]
            split <;> rfl

theorem cutBlank_shorter {s piece rest : Text} (h : cutBlank s = some (piece,rest)) : rest.length < s.length := by
  induction s generalizing piece rest with
  | nil => cases h
  | cons c s ih =>
    rw [cutBlank] at h
    split at h
    · cases h
      rw [List.length_drop, List.length_cons]
      omega
    · split at h
      · cases h
        rw [List.length_drop, List.length_cons]
        omega
      · obtain ⟨⟨before,after⟩,hcut,heq⟩ := Option.map_eq_some_iff.mp h
        cases heq
        exact Nat.lt_succ_of_lt (ih hcut)

/-- A blank line that is not whole yet has no cut in it. -/
theorem cutBlank_of_inits {s : Text} (h : s ∈ lfBlank.inits ∨ s ∈ crlfBlank.inits) (hlf : s ≠ lfBlank) (hcrlf : s ≠ crlfBlank) :
    cutBlank s = none := by
  have hall : ∀ s ∈ lfBlank.inits ++ crlfBlank.inits, s ≠ lfBlank → s ≠ crlfBlank → cutBlank s = none := by
    decide
  exact hall s (List.mem_append.mpr h) hlf hcrlf

theorem isPrefixOf_append {pattern s : Text} (more : Text) (h : cutBlank s ≠ none)
    (hpattern : pattern = lfBlank ∨ pattern = crlfBlank) : pattern.isPrefixOf (s ++ more) = pattern.isPrefixOf s := by
  rw [Bool.eq_iff_iff, List.isPrefixOf_iff_prefix, List.isPrefixOf_iff_prefix]
  refine ⟨fun hprefix => ?_,fun hprefix => hprefix.trans (List.prefix_append s more)⟩
  rcases List.prefix_or_prefix_of_prefix hprefix (List.prefix_append s more) with hwhole | hpart
  · exact hwhole
  · by_contra hnot
    refine h (cutBlank_of_inits ?_ ?_ ?_)
    · rcases hpattern with rfl | rfl
      · exact Or.inl (List.mem_inits _ _ |>.mpr hpart)
      · exact Or.inr (List.mem_inits _ _ |>.mpr hpart)
    · rintro rfl
      rcases hpattern with rfl | rfl
      · exact hnot List.prefix_rfl
      · exact absurd hpart (by decide)
    · rintro rfl
      rcases hpattern with rfl | rfl
      · exact absurd hpart.length_le (by decide)
      · exact hnot List.prefix_rfl

/-- A cut stays where it is when more arrives. -/
theorem cutBlank_append {s piece rest : Text} (more : Text) (h : cutBlank s = some (piece,rest)) :
    cutBlank (s ++ more) = some (piece,rest ++ more) := by
  induction s generalizing piece rest with
  | nil => cases h
  | cons c s ih =>
    have hcut : cutBlank (c :: s) ≠ none := by
      rw [h]
      exact Option.some_ne_none _
    have hlf := isPrefixOf_append more hcut (Or.inl rfl)
    have hcrlf := isPrefixOf_append more hcut (Or.inr rfl)
    rw [List.cons_append] at hlf hcrlf ⊢
    rw [cutBlank] at h ⊢
    rw [hlf, hcrlf]
    split at h
    next hblank =>
      cases h
      have hlength : 2 ≤ (c :: s).length := (List.isPrefixOf_iff_prefix.mp hblank).length_le
      rw [if_pos hblank, ← List.cons_append, List.drop_append_of_le_length hlength]
    next hlf' =>
      rw [if_neg hlf']
      split at h
      next hblank =>
        cases h
        have hlength : 4 ≤ (c :: s).length := (List.isPrefixOf_iff_prefix.mp hblank).length_le
        rw [if_pos hblank, ← List.cons_append, List.drop_append_of_le_length hlength]
      next hcrlf' =>
        obtain ⟨⟨before,after⟩,hafter,heq⟩ := Option.map_eq_some_iff.mp h
        cases heq
        rw [if_neg hcrlf', ih hafter]
        rfl

/-- Frames, by the blank lines between them. -/
def frames : Cutter CodeUnit where
  cut := findBoundary
  shorter h := cutBlank_shorter (findBoundary_eq_cutBlank _ ▸ h)
  stable more h := by
    rw [findBoundary_eq_cutBlank] at h ⊢
    exact cutBlank_append more h

end Boundaries

section Reading

structure SseReader where
  decoder : TextDecoder
  buffer : Text

def SseReader.fresh : SseReader := ⟨.fresh,[]⟩

/-- One `read()` of the body, and the frames it completes. -/
def SseReader.push (r : SseReader) (chunk : List UInt8) : SseReader × List SseFrame :=
  let decoded := r.decoder.push chunk
  let cutting := frames.pieces (r.buffer ++ utf16 decoded.2)
  (⟨decoded.1,cutting.2⟩,cutting.1.filterMap parseFrame)

def SseReader.pushAll (r : SseReader) : List (List UInt8) → SseReader × List SseFrame
  | [] => (r,[])
  | chunk :: chunks =>
    let next := r.push chunk
    let last := next.1.pushAll chunks
    (last.1,next.2 ++ last.2)

/-- A trailing frame with no blank line after it is used. -/
def SseReader.tail (r : SseReader) : List SseFrame := (parseFrame r.buffer).toList

/-- What was yielded when a read fails after these chunks. -/
def readTorn (chunks : List (List UInt8)) : List SseFrame := (SseReader.fresh.pushAll chunks).2

def readSse (chunks : List (List UInt8)) : List SseFrame :=
  let read := SseReader.fresh.pushAll chunks
  read.2 ++ read.1.tail

variable {r : SseReader}

/-- A reader between two chunks keeps no whole frame. -/
def Waits (r : SseReader) : Prop := frames.cut r.buffer = none

theorem Waits.push (chunk : List UInt8) : Waits (r.push chunk).1 := cut_rest frames _

/-- Two chunks in a row are read as their concatenation. -/
theorem push_push (r : SseReader) (xs ys : List UInt8) :
    r.push (xs ++ ys) = (((r.push xs).1.push ys).1,(r.push xs).2 ++ ((r.push xs).1.push ys).2) := by
  have hcut := pieces_append frames (r.buffer ++ utf16 (r.decoder.push xs).2) (utf16 ((r.decoder.push xs).1.push ys).2)
  simp only [SseReader.push, push_append, utf16_append]
  rw [← List.append_assoc, hcut, List.filterMap_append]

theorem push_empty (h : Waits r) : r.push [] = (r,[]) := by
  have hpieces : frames.pieces r.buffer = ([],r.buffer) := pieces_of_cut_none frames h
  simp only [SseReader.push, push_nil, utf16, List.flatMap_nil, List.append_nil, hpieces, List.filterMap_nil]

theorem pushAll_eq_push (h : Waits r) (chunks : List (List UInt8)) : r.pushAll chunks = r.push chunks.flatten := by
  induction chunks generalizing r with
  | nil => exact (push_empty h).symm
  | cons chunk chunks ih => rw [SseReader.pushAll, ih (.push chunk), List.flatten_cons, push_push]

theorem waits_fresh : Waits .fresh := rfl

/-- Where a stream is cut into chunks does not show. -/
theorem readSse_eq (chunks : List (List UInt8)) :
    readSse chunks = (SseReader.fresh.push chunks.flatten).2 ++ (SseReader.fresh.push chunks.flatten).1.tail := by
  rw [readSse, pushAll_eq_push waits_fresh]

theorem readTorn_eq (chunks : List (List UInt8)) : readTorn chunks = (SseReader.fresh.push chunks.flatten).2 := by
  rw [readTorn, pushAll_eq_push waits_fresh]

/-- What was yielded of a stream stays what it was, however the stream goes on. -/
theorem readTorn_prefix {chunks chunks' : List (List UInt8)} (h : chunks.flatten <+: chunks'.flatten) :
    readTorn chunks <+: readSse chunks' := by
  obtain ⟨more,hmore⟩ := h
  rw [readTorn_eq, readSse_eq, ← hmore, push_push, List.append_assoc]
  exact List.prefix_append _ _

/-- Frames depend on the bytes of a stream, not on its chunks, and a stream that breaks off has given the first
of them. -/
theorem readSse_chunking {chunks chunks' : List (List UInt8)} (h : chunks.flatten = chunks'.flatten)
    (more : List (List UInt8)) : readSse chunks = readSse chunks' ∧ readTorn chunks <+: readSse (chunks' ++ more) := by
  refine ⟨?_, readTorn_prefix ?_⟩
  · rw [readSse_eq, readSse_eq, h]
  · rw [List.flatten_append, h]
    exact List.prefix_append _ _

/-- A blank line of two carriage returns, cut between its units. -/
theorem readSse_chunking_torn :
    readSse [[100,97,116,97,58,49,13],[10,13],[10]] = readSse [[100,97,116,97,58,49,13,10,13,10]] ∧
      readTorn [[100,97,116,97,58,49,13],[10,13],[10]] <+: readSse ([[100,97,116,97,58,49,13,10,13,10]] ++ [[100,97]]) :=
  readSse_chunking rfl [[100,97]]

end Reading

end HermesEnterprise.Model
