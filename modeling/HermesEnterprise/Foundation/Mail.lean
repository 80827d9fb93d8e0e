import HermesEnterprise.Foundation.Base64
import HermesEnterprise.Foundation.Utf8
import Mathlib.Data.List.DropRight

/-! # Internet messages

How a reader of mail takes a message apart: its lines, the header section with folded fields, display
names in encoded words, mailboxes and lists of tokens. The reader is a lenient one: a carriage return or
a line feed alone ends a line too.
-/
namespace HermesEnterprise.Foundation.Mail

/-- The characters of bytes that are read to their end. -/
def characters (bytes : List UInt8) : List Char :=
  let fed := Utf8.Decoder.idle.feed bytes
  fed.2 ++ fed.1.flush

theorem characters_encode (s : List Char) : characters (Utf8.encode s) = s := by
  unfold characters
  rw [Utf8.feed_encode]
  exact List.append_nil s

/-- How many octets a text takes on the wire. -/
def octets (s : List Char) : ℕ := (Utf8.encode s).length

theorem octets_append (s t : List Char) : octets (s ++ t) = octets s + octets t := by
  unfold octets
  rw [Utf8.encode_append, List.length_append]

/-! ## Lines -/

section Lines
variable {l s : List Char} {afterReturn : Bool}

def isBreak (c : Char) : Bool := c = '\r' || c = '\n'

def crlf : List Char := ['\r','\n']

/-- The lines of a text. After a carriage return a line feed belongs to the same line end. -/
def linesFrom : Bool → List Char → List (List Char)
  | _, [] => [[]]
  | afterReturn, c :: s =>
    if afterReturn && c = '\n' then linesFrom false s
    else if isBreak c then [] :: linesFrom (c = '\r') s
    else (linesFrom false s).modifyHead (c :: ·)

def lines (s : List Char) : List (List Char) := linesFrom false s

/-- A text on one line. -/
def OneLine (l : List Char) : Prop := ∀ c ∈ l, isBreak c = false

instance (l : List Char) : Decidable (OneLine l) := List.decidableBAll (fun c => isBreak c = false) l

theorem OneLine.append {t : List Char} (hs : OneLine s) (ht : OneLine t) : OneLine (s ++ t) := fun c hc =>
  (List.mem_append.mp hc).elim (hs c) (ht c)

theorem linesFrom_crlf (h : OneLine l) : linesFrom afterReturn (l ++ (crlf ++ s)) = l :: lines s := by
  induction l generalizing afterReturn with
  | nil =>
    cases afterReturn with
    | false => rfl
    | true => rfl
  | cons c l ih =>
    have hc := h c List.mem_cons_self
    have hfeed : c ≠ '\n' := by
      rintro rfl
      cases hc
    rw [List.cons_append, linesFrom, if_neg (by simp [hfeed]), if_neg (by simp [hc]),
      ih fun d hd => h d (List.mem_cons_of_mem c hd)]
    rfl

theorem lines_crlf (h : OneLine l) : lines (l ++ (crlf ++ s)) = l :: lines s := linesFrom_crlf h

theorem lines_of_oneLine (h : OneLine l) : lines l = [l] := by
  unfold lines
  induction l with
  | nil => rfl
  | cons c l ih =>
    rw [linesFrom, if_neg (by simp), if_neg (by simp [h c List.mem_cons_self]),
      ih fun d hd => h d (List.mem_cons_of_mem c hd)]
    rfl

theorem oneLine_of_mem_linesFrom (h : l ∈ linesFrom afterReturn s) : OneLine l := by
  induction s generalizing afterReturn l with
  | nil =>
    rw [linesFrom, List.mem_singleton] at h
    subst h
    exact fun c hc => absurd hc List.not_mem_nil
  | cons c s ih =>
    rw [linesFrom] at h
    split at h
    · exact ih h
    split at h
    · rcases List.mem_cons.mp h with rfl | h
      · exact fun c hc => absurd hc List.not_mem_nil
      · exact ih h
    · rename_i hbreak
      cases hlines : linesFrom false s with
      | nil =>
        rw [hlines] at h
        cases h
      | cons first rest =>
        rw [hlines, List.modifyHead_cons] at h
        rcases List.mem_cons.mp h with rfl | h
        · intro d hd
          rcases List.mem_cons.mp hd with rfl | hd
          · exact eq_false_of_ne_true hbreak
          · exact ih (hlines ▸ List.mem_cons_self) d hd
        · exact ih (hlines ▸ List.mem_cons_of_mem first h)

theorem oneLine_of_mem_lines (h : l ∈ lines s) : OneLine l := oneLine_of_mem_linesFrom h

/-- Lines that are written one after the other. -/
def written (ls : List (List Char)) : List Char := ls.flatMap fun l => l ++ crlf

theorem lines_written {ls : List (List Char)} (h : ∀ l ∈ ls, OneLine l) (s : List Char) :
    lines (written ls ++ s) = ls ++ lines s := by
  induction ls with
  | nil => rfl
  | cons l ls ih =>
    have hwritten : written (l :: ls) ++ s = l ++ (crlf ++ (written ls ++ s)) := by
      unfold written
      rw [List.flatMap_cons, List.append_assoc, List.append_assoc]
    rw [hwritten, lines_crlf (h l List.mem_cons_self), ih fun k hk => h k (List.mem_cons_of_mem l hk), List.cons_append]

end Lines

/-! ## The header section -/

section Fields
variable {l s : List Char}

def isBlank (c : Char) : Bool := c = ' ' || c = '\t'

/-- A line that goes on with the field of the line before it. -/
def continues (l : List Char) : Bool := l.head?.any isBlank

def unfoldLine (l : List Char) : List (List Char) → List (List Char)
  | [] => [l]
  | next :: rest => if continues next then (l ++ next) :: rest else l :: next :: rest

/-- The fields of the lines of a header section. -/
def unfolded (ls : List (List Char)) : List (List Char) := ls.foldr unfoldLine []

structure Field where
  name : List Char
  value : List Char
  deriving DecidableEq

def fieldOf (l : List Char) : Field :=
  ⟨l.takeWhile (· ≠ ':'),((l.dropWhile (· ≠ ':')).drop 1).dropWhile isBlank⟩

/-- The lines before the first empty one. -/
def headOf (message : List Char) : List (List Char) := (lines message).takeWhile (· ≠ [])

def fields (message : List Char) : List Field := (unfolded (headOf message)).map fieldOf

/-- The lines after the first empty one, put together. -/
def contentOf (message : List Char) : List Char := (((lines message).dropWhile (· ≠ [])).drop 1).flatten

def valueOf (fs : List Field) (name : String) : Option (List Char) :=
  (fs.find? fun f => f.name = name.toList).map (·.value)

theorem unfolded_cons (l : List Char) (ls : List (List Char)) : unfolded (l :: ls) = unfoldLine l (unfolded ls) := rfl

theorem oneLine_of_mem_unfolded {ls : List (List Char)} (h : ∀ l ∈ ls, OneLine l) : ∀ l ∈ unfolded ls, OneLine l := by
  induction ls with
  | nil => exact fun l hl => absurd hl List.not_mem_nil
  | cons first ls ih =>
    have hfirst := h first List.mem_cons_self
    have hrest := ih fun l hl => h l (List.mem_cons_of_mem first hl)
    intro l hl
    rw [unfolded_cons] at hl
    cases hnext : unfolded ls with
    | nil =>
      rw [hnext, unfoldLine, List.mem_singleton] at hl
      exact hl ▸ hfirst
    | cons next rest =>
      rw [hnext] at hl hrest
      rw [unfoldLine] at hl
      split at hl
      · rcases List.mem_cons.mp hl with rfl | hl
        · exact hfirst.append (hrest next List.mem_cons_self)
        · exact hrest l (List.mem_cons_of_mem next hl)
      · rcases List.mem_cons.mp hl with rfl | hl
        · exact hfirst
        · exact hrest l hl

/-- No value of a field has a line break in it. -/
theorem oneLine_of_mem_fields {message : List Char} {f : Field} (h : f ∈ fields message) : OneLine f.value := by
  obtain ⟨l,hl,rfl⟩ := List.mem_map.mp h
  have hhead : ∀ k ∈ headOf message, OneLine k := fun k hk =>
    oneLine_of_mem_lines ((List.takeWhile_sublist _).subset hk)
  intro c hc
  refine oneLine_of_mem_unfolded hhead l hl c ?_
  exact (List.dropWhile_sublist _).subset (List.mem_of_mem_drop ((List.dropWhile_sublist _).subset hc))

theorem oneLine_of_valueOf {message value : List Char} {name : String} (h : valueOf (fields message) name = some value) :
    OneLine value := by
  obtain ⟨f,hf,rfl⟩ := Option.map_eq_some_iff.mp h
  exact oneLine_of_mem_fields (List.mem_of_find?_eq_some hf)

/-- A field on a line of its own. -/
theorem fieldOf_append {name value : List Char} (hname : ':' ∉ name) (hvalue : continues value = false) :
    fieldOf (name ++ (':' :: ' ' :: value)) = ⟨name,value⟩ := by
  have hne : ∀ c ∈ name, (c ≠ ':') := fun c hc h => hname (h ▸ hc)
  have htake : (name ++ (':' :: ' ' :: value)).takeWhile (· ≠ ':') = name := by
    rw [List.takeWhile_append_of_pos fun c hc => decide_eq_true (hne c hc)]
    simp
  have hdrop : (name ++ (':' :: ' ' :: value)).dropWhile (· ≠ ':') = ':' :: ' ' :: value := by
    rw [List.dropWhile_append_of_pos fun c hc => decide_eq_true (hne c hc)]
    simp
  unfold fieldOf
  rw [htake, hdrop, List.drop_one, List.tail_cons, List.dropWhile_cons_of_pos rfl]
  cases value with
  | nil => rfl
  | cons c value =>
    rw [List.dropWhile_cons_of_neg]
    simpa [continues] using hvalue

theorem unfoldLine_of_not_continues {ls : List (List Char)} (h : ∀ next ∈ ls.head?, continues next = false) :
    unfoldLine l ls = l :: ls := by
  cases ls with
  | nil => rfl
  | cons next rest =>
    rw [unfoldLine, if_neg]
    simp [h next rfl]

/-- A field whose later lines continue it is one line. -/
theorem unfolded_folded {more : List (List Char)} (ls : List (List Char)) (hmore : ∀ k ∈ more, continues k = true)
    (hls : ∀ next ∈ (unfolded ls).head?, continues next = false) :
    unfolded (l :: (more ++ ls)) = (l ++ more.flatten) :: unfolded ls := by
  induction more generalizing l with
  | nil =>
    rw [List.nil_append, unfolded_cons, unfoldLine_of_not_continues hls, List.flatten_nil, List.append_nil]
  | cons k more ih =>
    have hk := hmore k List.mem_cons_self
    rw [List.cons_append, unfolded_cons, ih fun j hj => hmore j (List.mem_cons_of_mem k hj), unfoldLine, if_pos,
      List.flatten_cons]
    cases k with
    | nil => cases hk
    | cons c k => exact hk

/-- A field as it is written: the line with its name, and lines that continue it. -/
structure Written where
  name : List Char
  value : List Char
  more : List (List Char)

def Written.lines (w : Written) : List (List Char) := (w.name ++ (':' :: ' ' :: w.value)) :: w.more

def Written.field (w : Written) : Field := ⟨w.name,w.value ++ w.more.flatten⟩

/-- The name is no part of another field, the value starts with no blank, and the other lines do. -/
structure Written.WellFormed (w : Written) : Prop where
  colon : ':' ∉ w.name
  start : w.name ≠ [] ∧ continues w.name = false
  value : w.value ≠ [] ∧ continues w.value = false
  more : ∀ k ∈ w.more, continues k = true

theorem continues_append {t : List Char} (hs : s ≠ []) : continues (s ++ t) = continues s := by
  cases s with
  | nil => exact absurd rfl hs
  | cons c s => rfl

theorem Written.WellFormed.lines_ne_nil {w : Written} (h : w.WellFormed) : ∀ l ∈ w.lines, l ≠ [] := by
  intro l hl
  rcases List.mem_cons.mp hl with rfl | hl
  · exact List.append_ne_nil_of_left_ne_nil h.start.1 _
  · rintro rfl
    cases h.more [] hl

theorem head_unfolded (w : Written) (hw : w.WellFormed) (ls : List (List Char)) :
    ∀ next ∈ (unfolded (w.lines ++ ls)).head?, continues next = false := by
  intro next hnext
  unfold Written.lines at hnext
  rw [List.cons_append, unfolded_cons] at hnext
  have hstart : ∀ t, continues ((w.name ++ (':' :: ' ' :: w.value)) ++ t) = false := fun t => by
    rw [List.append_assoc, continues_append hw.start.1]
    exact hw.start.2
  cases hrest : unfolded (w.more ++ ls) with
  | nil =>
    rw [hrest] at hnext
    cases hnext
    simpa using hstart []
  | cons first rest =>
    rw [hrest, unfoldLine] at hnext
    split at hnext
    · cases hnext
      exact hstart first
    · cases hnext
      simpa using hstart []

/-- The fields that are written are the fields that are read. -/
theorem fields_of_written {ws : List Written} (h : ∀ w ∈ ws, w.WellFormed) :
    (unfolded (ws.flatMap Written.lines)).map fieldOf = ws.map Written.field := by
  induction ws with
  | nil => rfl
  | cons w ws ih =>
    have hw := h w List.mem_cons_self
    have hws : ∀ v ∈ ws, v.WellFormed := fun v hv => h v (List.mem_cons_of_mem w hv)
    have hnext : ∀ next ∈ (unfolded (ws.flatMap Written.lines)).head?, continues next = false := by
      cases ws with
      | nil => exact fun next hnext => by cases hnext
      | cons v ws =>
        rw [List.flatMap_cons]
        exact head_unfolded v (hws v List.mem_cons_self) _
    have hline : fieldOf (w.name ++ (':' :: ' ' :: w.value) ++ w.more.flatten) = w.field := by
      rw [List.append_assoc, List.cons_append, List.cons_append]
      refine fieldOf_append hw.colon ?_
      rw [continues_append hw.value.1]
      exact hw.value.2
    rw [List.flatMap_cons, Written.lines, List.cons_append, unfolded_folded _ hw.more hnext, List.map_cons, ih hws, hline,
      List.map_cons]

end Fields

/-! ## What stands in a field -/

section Words

/-- The text of an encoded word of UTF-8 in base64. -/
def readWord (w : List Char) : Option (List Char) :=
  if "=?UTF-8?B?".toList.isPrefixOf w then
    let rest := w.drop 10
    let encoded := rest.takeWhile (· ≠ '?')
    if rest.drop encoded.length = "?=".toList then
      some (characters (Base64.decode Base64.standard encoded))
    else none
  else none

/-- A display name. What is no encoded word stands for itself. -/
def displayName (phrase : List Char) : List Char :=
  let name := phrase.rdropWhile isBlank
  (readWord name).getD name

/-- The one mailbox of an address field: its display name and its address. -/
def readMailbox (value : List Char) : Option (List Char × List Char) :=
  match value.dropWhile (· ≠ '<') with
  | [] => if ',' ∈ value then none else some ([],value)
  | _ :: rest =>
    if rest.dropWhile (· ≠ '>') = ['>'] then
      some (displayName (value.takeWhile (· ≠ '<')),rest.takeWhile (· ≠ '>'))
    else none

/-- The tokens of a value, with blanks between them. -/
def tokens (value : List Char) : List (List Char) := (value.splitOnP isBlank).filter (· ≠ [])

end Words

end HermesEnterprise.Foundation.Mail
