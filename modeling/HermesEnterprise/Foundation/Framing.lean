import Mathlib.Data.List.Basic

/-! # Cutting a stream into pieces

A buffer collects what arrives, and whole pieces are cut off its front. When a cut is not moved by what
arrives later, the pieces do not depend on how the stream was chunked.
-/
namespace HermesEnterprise.Foundation.Framing
variable {α : Type*}

/-- How the first piece is cut off a buffer, when a whole one is there. -/
structure Cutter (α : Type*) where
  cut : List α → Option (List α × List α)
  shorter : ∀ {buffer piece rest}, cut buffer = some (piece,rest) → rest.length < buffer.length
  stable : ∀ {buffer piece rest} more, cut buffer = some (piece,rest) → cut (buffer ++ more) = some (piece,rest ++ more)

/-- The pieces of a buffer, at most a given number of them, and what is left. -/
def Cutter.within (c : Cutter α) : ℕ → List α → List (List α) × List α
  | 0, buffer => ([],buffer)
  | n + 1, buffer =>
    match c.cut buffer with
    | none => ([],buffer)
    | some (piece,rest) =>
      let later := c.within n rest
      (piece :: later.1,later.2)

/-- All the pieces of a buffer, and what is left. -/
def Cutter.pieces (c : Cutter α) (buffer : List α) : List (List α) × List α := c.within buffer.length buffer

variable (c : Cutter α) {buffer piece rest more : List α}

theorem within_eq_pieces {n : ℕ} (hn : buffer.length ≤ n) : c.within n buffer = c.pieces buffer := by
  suffices H : ∀ {n m : ℕ} {buffer : List α}, buffer.length ≤ n → buffer.length ≤ m →
      c.within n buffer = c.within m buffer from H hn (Nat.le_refl _)
  intro n m buffer hn hm
  induction n generalizing m buffer with
  | zero =>
    have hnil : buffer = [] := List.length_eq_zero_iff.mp (Nat.le_zero.mp hn)
    subst hnil
    cases m with
    | zero => rfl
    | succ m =>
      simp only [Cutter.within]
      split
      · rfl
      · rename_i hcut
        exact absurd (c.shorter hcut) (by simp)
  | succ n ih =>
    cases m with
    | zero =>
      have hnil : buffer = [] := List.length_eq_zero_iff.mp (Nat.le_zero.mp hm)
      subst hnil
      simp only [Cutter.within]
      split
      · rfl
      · rename_i hcut
        exact absurd (c.shorter hcut) (by simp)
    | succ m =>
      simp only [Cutter.within]
      split
      · rfl
      · rename_i piece rest hcut
        have hlt := c.shorter hcut
        rw [@ih m rest (by omega) (by omega)]

theorem pieces_of_cut_none (h : c.cut buffer = none) : c.pieces buffer = ([],buffer) := by
  unfold Cutter.pieces
  cases buffer.length with
  | zero => rfl
  | succ n => simp only [Cutter.within, h]

theorem pieces_of_cut (h : c.cut buffer = some (piece,rest)) :
    c.pieces buffer = (piece :: (c.pieces rest).1,(c.pieces rest).2) := by
  have hlt := c.shorter h
  obtain ⟨n,hn⟩ : ∃ n, buffer.length = n + 1 := ⟨buffer.length - 1,by omega⟩
  rw [Cutter.pieces, hn]
  simp only [Cutter.within, h, within_eq_pieces c (show rest.length ≤ n by omega)]

/-- Nothing whole stays behind. -/
theorem cut_rest (buffer : List α) : c.cut (c.pieces buffer).2 = none := by
  induction hn : buffer.length using Nat.strongRecOn generalizing buffer with
  | _ n ih =>
    cases hcut : c.cut buffer with
    | none => rw [pieces_of_cut_none c hcut]; exact hcut
    | some cutting =>
      obtain ⟨piece,rest⟩ := cutting
      have hlt := c.shorter hcut
      rw [pieces_of_cut c hcut]
      exact ih rest.length (by omega) rest rfl

/-- What arrives later only adds pieces. -/
theorem pieces_append (buffer more : List α) :
    c.pieces (buffer ++ more) =
      ((c.pieces buffer).1 ++ (c.pieces ((c.pieces buffer).2 ++ more)).1,
        (c.pieces ((c.pieces buffer).2 ++ more)).2) := by
  induction hn : buffer.length using Nat.strongRecOn generalizing buffer with
  | _ n ih =>
    cases hcut : c.cut buffer with
    | none => simp [pieces_of_cut_none c hcut]
    | some cutting =>
      obtain ⟨piece,rest⟩ := cutting
      have hlt := c.shorter hcut
      rw [pieces_of_cut c hcut, pieces_of_cut c (c.stable more hcut), ih rest.length (by omega) rest rfl]
      rfl

/-- The chunks of a stream one after the other. -/
def Cutter.pushAll (c : Cutter α) (buffer : List α) : List (List α) → List (List α) × List α
  | [] => ([],buffer)
  | chunk :: chunks =>
    let next := c.pieces (buffer ++ chunk)
    let last := c.pushAll next.2 chunks
    (next.1 ++ last.1,last.2)

/-- Where a stream is cut does not show. -/
theorem pushAll_eq_pieces (h : c.cut buffer = none) (chunks : List (List α)) :
    c.pushAll buffer chunks = c.pieces (buffer ++ chunks.flatten) := by
  induction chunks generalizing buffer with
  | nil => simp [Cutter.pushAll, pieces_of_cut_none c h]
  | cons chunk chunks ih =>
    rw [Cutter.pushAll, ih (cut_rest c _), List.flatten_cons, ← List.append_assoc, pieces_append c (buffer ++ chunk)]

section Lines
variable [DecidableEq α] (lf cr : α)

/-- The first line, whose end is a line feed with or without a carriage return before it. -/
def cutLine : List α → Option (List α × List α)
  | [] => none
  | c :: rest =>
    if c = lf then some ([],rest)
    else if c = cr ∧ rest.head? = some lf then some ([],rest.tail)
    else (cutLine rest).map fun line => (c :: line.1,line.2)

theorem cutLine_shorter {buffer piece rest : List α} (h : cutLine lf cr buffer = some (piece,rest)) :
    rest.length < buffer.length := by
  induction buffer generalizing piece rest with
  | nil => cases h
  | cons c buffer ih =>
    rw [cutLine] at h
    split at h
    · cases h
      exact Nat.lt_succ_self _
    · split at h
      · cases h
        rw [List.length_tail, List.length_cons]
        omega
      · obtain ⟨⟨line,later⟩,hline,heq⟩ := Option.map_eq_some_iff.mp h
        cases heq
        exact Nat.lt_succ_of_lt (ih hline)

theorem cutLine_append {buffer piece rest : List α} (more : List α) (h : cutLine lf cr buffer = some (piece,rest)) :
    cutLine lf cr (buffer ++ more) = some (piece,rest ++ more) := by
  induction buffer generalizing piece rest with
  | nil => cases h
  | cons c buffer ih =>
    rw [cutLine] at h
    rw [List.cons_append, cutLine]
    split at h
    · rename_i hlf
      cases h
      rw [if_pos hlf]
    · rename_i hlf
      rw [if_neg hlf]
      cases buffer with
      | nil => simp [cutLine] at h
      | cons d buffer =>
        split at h
        · rename_i hcr
          cases h
          rw [if_pos ⟨hcr.1,hcr.2⟩]
          rfl
        · rename_i hcr
          obtain ⟨line,hline,heq⟩ := Option.map_eq_some_iff.mp h
          cases heq
          rw [if_neg (by exact hcr), ih hline]
          rfl

/-- Lines. A carriage return at the end of a chunk waits for what follows it. -/
def lines : Cutter α where
  cut := cutLine lf cr
  shorter := cutLine_shorter lf cr
  stable := cutLine_append lf cr

end Lines

end HermesEnterprise.Foundation.Framing
