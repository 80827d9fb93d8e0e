import Mathlib.Algebra.Order.Archimedean.Basic
import Mathlib.Data.List.Chain
import Mathlib.Data.Rat.Floor
import Mathlib.Logic.Relation
import Mathlib.Tactic

/-! # Pages of an extracted text

A document is read a page at a time: a window of so many tokens, cut after its last line break when one lies
past the half of the window. A text is its UTF-16 units; numbers are exact.
-/
namespace HermesEnterprise.Storage.Pages

abbrev Text := List UInt16

def charsPerToken : ℚ := 4

def newline : UInt16 := 10

section Strings

/-- The whole part of an index. -/
def toInteger (x : ℚ) : ℤ := if x < 0 then ⌈x⌉ else ⌊x⌋

/-- Where `slice` cuts; a negative index counts from the end. -/
def sliceIndex (length : ℕ) (x : ℚ) : ℕ :=
  if toInteger x < 0 then (length + toInteger x).toNat else min (toInteger x).toNat length

def slice (text : Text) (start stop : ℚ) : Text :=
  (text.take (sliceIndex text.length stop)).drop (sliceIndex text.length start)

/-- The last place of a unit that is not beyond `n`, or `-1`. -/
def lastIndexFrom (text : Text) (c : UInt16) : ℕ → ℤ
  | 0 => if text[0]? = some c then 0 else -1
  | n + 1 => if text[n + 1]? = some c then (n + 1 : ℕ) else lastIndexFrom text c n

def lastIndexOf (text : Text) (c : UInt16) (position : ℚ) : ℤ :=
  lastIndexFrom text c (min (toInteger position).toNat text.length)

end Strings

section Paging
variable (text : Text)

/-- Characters to tokens, crudely and on purpose. -/
def estimateTokens : ℕ := ⌈(text.length : ℚ) / charsPerToken⌉₊

def pageChars (maxTokens : ℚ) : ℚ := maxTokens * charsPerToken

structure TextPage where
  text : Text
  offset : ℚ
  nextOffset : Option ℚ
  tokenEstimate : ℕ
  totalLength : ℕ
  truncated : Bool
  deriving DecidableEq

/-- Where the page starts: the offset, brought into the text. -/
def pageStart (offset : ℚ) : ℚ := max 0 (min offset text.length)

/-- Where it ends: at the limit, or after the last break when that leaves a page worth reading. -/
def pageEnd (start limit : ℚ) : ℚ :=
  let stop := min (start + limit) text.length
  if stop < text.length then
    let lastBreak := lastIndexOf text newline stop
    if start + limit / 2 < lastBreak then lastBreak + 1 else stop
  else stop

def pageOf (offset maxTokens : ℚ) : TextPage :=
  let start := pageStart text offset
  let stop := pageEnd text start (pageChars maxTokens)
  let sliced := slice text start stop
  { text := sliced
    offset := start
    nextOffset := if stop < text.length then some stop else none
    tokenEstimate := estimateTokens sliced
    totalLength := text.length
    truncated := decide (stop < text.length) }

/-- The calls from an offset on, each at the offset that the one before returned. -/
inductive Follows (maxTokens : ℚ) : ℚ → List TextPage → Prop
  | last {offset : ℚ} : (pageOf text offset maxTokens).nextOffset = none →
      Follows maxTokens offset [pageOf text offset maxTokens]
  | next {offset nextOffset : ℚ} {pages : List TextPage} :
      (pageOf text offset maxTokens).nextOffset = some nextOffset → Follows maxTokens nextOffset pages →
      Follows maxTokens offset (pageOf text offset maxTokens :: pages)

/-- The units from one place up to another. -/
def between (start stop : ℚ) : Text := (text.take ⌊stop⌋₊).drop ⌊start⌋₊

/-- The page from here keeps within the whole tokens of the cap: no break that it could end after lies at or
beyond them, and the window has no unit more than they have, unless a break comes before. -/
def Fits (offset maxTokens : ℚ) : Prop :=
  let far := ⌊offset⌋₊ + 4 * ⌊maxTokens⌋₊
  if offset + 4 * maxTokens < text.length then
    (∀ i : ℕ, far ≤ i → (i : ℚ) ≤ offset + 4 * maxTokens → offset + 2 * maxTokens < i → text[i]? ≠ some newline) ∧
      (⌊offset + 4 * maxTokens⌋₊ ≤ far ∨
        ∃ i : ℕ, offset + 2 * maxTokens < i ∧ i < far ∧ text[i]? = some newline)
  else text.length ≤ far

end Paging

section Indices
variable {text : Text} {c : UInt16} {n i : ℕ} {x y : ℚ}

theorem lastIndexFrom_cases (text : Text) (c : UInt16) (n : ℕ) :
    lastIndexFrom text c n = -1 ∨ ∃ k ≤ n, lastIndexFrom text c n = k ∧ text[k]? = some c := by
  induction n with
  | zero =>
    unfold lastIndexFrom
    split
    · rename_i h
      exact Or.inr ⟨0,le_refl 0,rfl,h⟩
    · exact Or.inl rfl
  | succ n ih =>
    unfold lastIndexFrom
    split
    · rename_i h
      exact Or.inr ⟨n + 1,le_refl _,rfl,h⟩
    · rcases ih with h | ⟨k,hk,h⟩
      · exact Or.inl h
      · exact Or.inr ⟨k,by omega,h⟩

theorem le_lastIndexFrom (hi : i ≤ n) (h : text[i]? = some c) : (i : ℤ) ≤ lastIndexFrom text c n := by
  induction n with
  | zero =>
    obtain rfl : i = 0 := by omega
    simp [lastIndexFrom,h]
  | succ n ih =>
    unfold lastIndexFrom
    split
    · exact_mod_cast hi
    · rename_i hne
      have hne' : i ≠ n + 1 := by
        rintro rfl
        exact hne h
      exact ih (by omega)

theorem toInteger_of_nonneg (hx : 0 ≤ x) : toInteger x = ⌊x⌋₊ := by
  rw [toInteger,if_neg (not_lt.mpr hx),Int.natCast_floor_eq_floor hx]

/-- Within the text, the search starts at the whole part of its position. -/
theorem lastIndexOf_of_lt (hx : 0 ≤ x) (hlt : x < text.length) :
    lastIndexOf text c x = lastIndexFrom text c ⌊x⌋₊ := by
  have hle : ⌊x⌋₊ ≤ text.length := ((Nat.floor_lt hx).mpr hlt).le
  rw [lastIndexOf,toInteger_of_nonneg hx,Int.toNat_natCast,min_eq_left hle]

end Indices

section Page
variable {text : Text} {offset maxTokens : ℚ}

theorem pageStart_of_mem (h : 0 ≤ offset) (ht : offset ≤ text.length) : pageStart text offset = offset := by
  rw [pageStart,min_eq_left ht,max_eq_right h]

/-- The end of a page: of the text, after the last break of the window, or at the limit. -/
theorem pageEnd_cases (text : Text) (h : 0 ≤ offset) (hm : 1 ≤ maxTokens) :
    ((text.length : ℚ) ≤ offset + 4 * maxTokens ∧ pageEnd text offset (pageChars maxTokens) = text.length) ∨
    offset + 4 * maxTokens < text.length ∧
      ((∃ k : ℕ, text[k]? = some newline ∧ offset + 2 * maxTokens < k ∧ (k : ℚ) ≤ offset + 4 * maxTokens ∧
          (∀ i : ℕ, (i : ℚ) ≤ offset + 4 * maxTokens → text[i]? = some newline → i ≤ k) ∧
          pageEnd text offset (pageChars maxTokens) = k + 1) ∨
        (∀ i : ℕ, (i : ℚ) ≤ offset + 4 * maxTokens → text[i]? = some newline → (i : ℚ) ≤ offset + 2 * maxTokens) ∧
          pageEnd text offset (pageChars maxTokens) = offset + 4 * maxTokens) := by
  have hlimit : pageChars maxTokens = 4 * maxTokens := mul_comm _ _
  have hhalf : 4 * maxTokens / 2 = 2 * maxTokens := by ring
  have hstop : 0 ≤ offset + 4 * maxTokens := by linarith
  rcases le_or_gt (text.length : ℚ) (offset + 4 * maxTokens) with hle | hlt
  · refine Or.inl ⟨hle,?_⟩
    rw [hlimit,pageEnd,min_eq_right hle,if_neg (lt_irrefl _)]
  · refine Or.inr ⟨hlt,?_⟩
    have hlast : ∀ i : ℕ, (i : ℚ) ≤ offset + 4 * maxTokens → text[i]? = some newline →
        (i : ℤ) ≤ lastIndexFrom text newline ⌊offset + 4 * maxTokens⌋₊ :=
      fun i hi hc => le_lastIndexFrom ((Nat.le_floor_iff hstop).mpr hi) hc
    simp only [hlimit,pageEnd,min_eq_left hlt.le,if_pos hlt,lastIndexOf_of_lt hstop hlt,hhalf]
    rcases lastIndexFrom_cases text newline ⌊offset + 4 * maxTokens⌋₊ with hnone | ⟨k,hk,hbreak,hc⟩
    · refine Or.inr ⟨fun i hi hc => ?_,if_neg ?_⟩
      · have := hlast i hi hc
        omega
      · rw [hnone]
        push_cast
        linarith
    · rw [hbreak] at hlast ⊢
      by_cases hhalf' : offset + 2 * maxTokens < k
      · refine Or.inl ⟨k,hc,hhalf',(Nat.le_floor_iff hstop).mp hk,fun i hi hi' => by exact_mod_cast hlast i hi hi',?_⟩
        rw [if_pos (by exact_mod_cast hhalf')]
        push_cast
        rfl
      · refine Or.inr ⟨fun i hi hi' => ?_,if_neg (by exact_mod_cast hhalf')⟩
        have : i ≤ k := by exact_mod_cast hlast i hi hi'
        exact (Nat.cast_le.mpr this).trans (not_lt.mp hhalf')

/-- A page takes at least one unit of what is left. -/
theorem floor_lt_pageEnd (h : 0 ≤ offset) (ht : offset < text.length) (hm : 1 ≤ maxTokens) :
    ⌊offset⌋₊ < ⌊pageEnd text offset (pageChars maxTokens)⌋₊ := by
  have hone : offset + 1 ≤ pageEnd text offset (pageChars maxTokens) → ⌊offset⌋₊ <
      ⌊pageEnd text offset (pageChars maxTokens)⌋₊ := by
    intro hle
    have := Nat.floor_mono hle
    rw [Nat.floor_add_one h] at this
    omega
  rcases pageEnd_cases text h hm with ⟨_,he⟩ | ⟨_,⟨k,_,hk,_,_,he⟩ | ⟨_,he⟩⟩
  · rw [he,Nat.floor_natCast]
    exact (Nat.floor_lt h).mpr ht
  · exact hone (by linarith)
  · exact hone (by linarith)

/-- The offsets that a call returns or that the first one is made at. -/
def Offset (text : Text) (offset : ℚ) : Prop := 0 ≤ offset ∧ (offset < text.length ∨ text = [] ∧ offset = 0)

theorem Offset.le (h : Offset text offset) : offset ≤ text.length := by
  rcases h.2 with hlt | ⟨_,rfl⟩
  · exact hlt.le
  · positivity

theorem pageEnd_nonneg (text : Text) (h : 0 ≤ offset) (hm : 1 ≤ maxTokens) :
    0 ≤ pageEnd text offset (pageChars maxTokens) := by
  rcases pageEnd_cases text h hm with ⟨_,he⟩ | ⟨_,⟨k,_,_,_,_,he⟩ | ⟨_,he⟩⟩
  · rw [he]
    positivity
  · rw [he]
    positivity
  · rw [he]
    linarith

theorem pageOf_nextOffset (h : Offset text offset) :
    (pageOf text offset maxTokens).nextOffset =
      if pageEnd text offset (pageChars maxTokens) < text.length then
        some (pageEnd text offset (pageChars maxTokens)) else none := by
  simp only [pageOf,pageStart_of_mem h.1 h.le]

theorem Offset.next (h : Offset text offset) (hm : 1 ≤ maxTokens) {next : ℚ}
    (hnext : (pageOf text offset maxTokens).nextOffset = some next) :
    Offset text next ∧ next = pageEnd text offset (pageChars maxTokens) ∧ ⌊offset⌋₊ < ⌊next⌋₊ := by
  rw [pageOf_nextOffset h] at hnext
  split at hnext
  · rename_i hlt
    obtain rfl := Option.some_inj.mp hnext
    refine ⟨⟨pageEnd_nonneg text h.1 hm,Or.inl hlt⟩,rfl,?_⟩
    rcases h.2 with hin | ⟨rfl,rfl⟩
    · exact floor_lt_pageEnd h.1 hin hm
    · exact absurd hlt (not_lt.mpr (by simpa using pageEnd_nonneg [] (le_refl 0) hm))
  · exact nomatch hnext

end Page

section Slices
variable {text : Text} {offset maxTokens start limit : ℚ}

end Slices

section Paged
variable {text : Text} {maxTokens : ℚ}

end Paged

end HermesEnterprise.Storage.Pages
