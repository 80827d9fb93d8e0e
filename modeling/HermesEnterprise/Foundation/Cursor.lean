import Mathlib.Data.List.Sort

/-! # Reading a log up to a cursor

A log holds one entry for each key, in key order. A reader that takes chunks of it, drops
what is at or below its cursor and never passes an entry it was not given has read the
log up to the cursor.
-/
namespace HermesEnterprise.Foundation.Cursor
variable {β : Type*} (key : β → ℕ) (accept : β → Bool)

def Sorted (log : List β) : Prop := log.Pairwise fun a b => key a < key b

/-- The accepted entries above `after`, up to the cursor. -/
def window (log : List β) (after cursor : ℕ) : List β :=
  log.filter fun e => decide (after < key e) && decide (key e ≤ cursor) && accept e

/-- The chunk has every entry between the cursor and one of its own. -/
def Fills (log : List β) (cursor : ℕ) (chunk : List β) : Prop :=
  ∀ x ∈ chunk, ∀ e ∈ log, cursor < key e → key e ≤ key x → e ∈ chunk

/-- The cursor and what was taken, after one more entry. -/
def advance (r : ℕ × List β) (x : β) : ℕ × List β :=
  if key x ≤ r.1 then r else (key x,if accept x then r.2 ++ [x] else r.2)

variable {key accept} {log chunk : List β} {after cursor : ℕ} {x : β} {taken : List β}

theorem Sorted.nodup_keys (h : Sorted key log) : (log.map key).Nodup := by
  refine List.Pairwise.map key (fun a b hab => ?_) h
  exact Nat.ne_of_lt hab

theorem Sorted.inj (h : Sorted key log) {a b : β} (ha : a ∈ log) (hb : b ∈ log)
    (hkey : key a = key b) : a = b := List.inj_on_of_nodup_map h.nodup_keys ha hb hkey

theorem Fills.mono {cursor' : ℕ} (h : Fills key log cursor chunk) (hle : cursor ≤ cursor') :
    Fills key log cursor' chunk := fun y hy e he hlt hkey => h y hy e he (by omega) hkey

/-- What a passed entry adds to the window, when nothing lies between the cursor and it. -/
theorem window_step (hs : Sorted key log) (hx : x ∈ log) (hafter : after ≤ cursor)
    (hlt : cursor < key x) (hgap : ∀ e ∈ log, cursor < key e → key x ≤ key e) :
    window key accept log after (key x) =
      if accept x then window key accept log after cursor ++ [x]
      else window key accept log after cursor := by
  obtain ⟨before,rest,rfl⟩ := List.append_of_mem hx
  obtain ⟨-,hrest,hbefore⟩ := List.pairwise_append.mp hs
  have hrest := (List.pairwise_cons.mp hrest).1
  have hold : ∀ e ∈ before, key e ≤ cursor := by
    intro e he
    have hlt' := hbefore e he x List.mem_cons_self
    by_contra hnot
    have := hgap e (List.mem_append_left _ he) (by omega)
    omega
  have hnone : ∀ bound ≤ key x, (rest.filter fun e => decide (after < key e) && decide (key e ≤ bound) &&
      accept e) = [] := by
    intro bound hbound
    refine List.filter_eq_nil_iff.mpr fun e he => ?_
    have := hrest e he
    simp only [Bool.and_eq_true, decide_eq_true_eq, not_and]
    omega
  have hsame : (before.filter fun e => decide (after < key e) && decide (key e ≤ key x) && accept e) =
      before.filter fun e => decide (after < key e) && decide (key e ≤ cursor) && accept e := by
    refine List.filter_congr fun e he => ?_
    have hle := hold e he
    have hle' : key e ≤ key x := by omega
    rw [decide_eq_true hle, decide_eq_true hle']
  unfold window
  rw [List.filter_append, List.filter_append, List.filter_cons, List.filter_cons, hnone _ (le_refl _),
    hnone cursor hlt.le, hsame]
  have habove : after < key x := by omega
  have hover : ¬ key x ≤ cursor := by omega
  cases accept x <;> simp [habove, hover]

/-- Taking a chunk that fills what lies before it keeps the reader at the window of its cursor. -/
theorem window_advance (hs : Sorted key log) (hsub : chunk ⊆ log)
    (hsorted : chunk.Pairwise fun a b => key a ≤ key b) (hafter : after ≤ cursor)
    (hfills : Fills key log cursor chunk) (htaken : taken = window key accept log after cursor) :
    ∃ cursor', cursor ≤ cursor' ∧ (∀ x ∈ chunk, key x ≤ cursor') ∧
      (cursor' = cursor ∨ ∃ x ∈ chunk, key x = cursor') ∧
      chunk.foldl (advance key accept) (cursor,taken) =
        (cursor',window key accept log after cursor') := by
  induction chunk generalizing cursor taken with
  | nil =>
    exact ⟨cursor,le_refl _,fun x hx => (List.not_mem_nil hx).elim,Or.inl rfl,by rw [List.foldl_nil, htaken]⟩
  | cons x rest ih =>
    obtain ⟨hxrest,hsorted⟩ := List.pairwise_cons.mp hsorted
    have hx := hsub List.mem_cons_self
    have hrest : rest ⊆ log := fun y hy => hsub (List.mem_cons_of_mem _ hy)
    rw [List.foldl_cons]
    unfold advance
    by_cases hle : key x ≤ cursor
    · rw [if_pos hle]
      have hfills' : Fills key log cursor rest := by
        intro y hy e he hlt hkey
        rcases List.mem_cons.mp (hfills y (List.mem_cons_of_mem _ hy) e he hlt hkey) with rfl | hmem
        · omega
        · exact hmem
      obtain ⟨cursor',hcursor,hall,hwhere,hfold⟩ := ih hrest hsorted hafter hfills' htaken
      refine ⟨cursor',hcursor,fun y hy => ?_,?_,hfold⟩
      · rcases List.mem_cons.mp hy with rfl | hy
        · exact hle.trans hcursor
        · exact hall y hy
      · rcases hwhere with hwhere | ⟨y,hy,hkey⟩
        · exact Or.inl hwhere
        · exact Or.inr ⟨y,List.mem_cons_of_mem _ hy,hkey⟩
    · rw [if_neg hle]
      have hlt : cursor < key x := Nat.lt_of_not_le hle
      have hgap : ∀ e ∈ log, cursor < key e → key x ≤ key e := by
        intro e he he'
        by_contra hnot
        have hbefore : key e ≤ key x := by omega
        rcases List.mem_cons.mp (hfills x List.mem_cons_self e he he' hbefore) with rfl | hmem
        · omega
        · exact hnot (hxrest e hmem)
      have hfills' : Fills key log (key x) rest := by
        intro y hy e he hlt' hkey
        rcases List.mem_cons.mp (hfills y (List.mem_cons_of_mem _ hy) e he (by omega) hkey) with rfl | hmem
        · omega
        · exact hmem
      have htaken' := @window_step _ key accept log after cursor x hs hx hafter hlt hgap
      rw [← htaken] at htaken'
      obtain ⟨cursor',hcursor,hall,hwhere,hfold⟩ :=
        ih hrest hsorted (hafter.trans hlt.le) hfills' htaken'.symm
      refine ⟨cursor',hlt.le.trans hcursor,fun y hy => ?_,Or.inr ?_,hfold⟩
      · rcases List.mem_cons.mp hy with rfl | hy
        · exact hcursor
        · exact hall y hy
      · rcases hwhere with hwhere | ⟨y,hy,hkey⟩
        · exact ⟨x,List.mem_cons_self,hwhere.symm⟩
        · exact ⟨y,List.mem_cons_of_mem _ hy,hkey⟩

theorem window_self (after : ℕ) : window key accept log after after = [] := by
  refine List.filter_eq_nil_iff.mpr fun e _ => ?_
  simp only [Bool.and_eq_true, decide_eq_true_eq, not_and]
  omega

/-- Entries beyond the cursor do not change the window. -/
theorem window_append (hx : cursor = after ∨ cursor < key x) :
    window key accept (log ++ [x]) after cursor = window key accept log after cursor := by
  have hout : ¬ (after < key x ∧ key x ≤ cursor) := by omega
  unfold window
  rw [List.filter_append, List.filter_cons]
  by_cases hlow : after < key x
  · have hover : ¬ key x ≤ cursor := fun hle => hout ⟨hlow,hle⟩
    simp [hover]
  · simp [hlow]

theorem window_keys_sorted (hs : Sorted key log) :
    (window key accept log after cursor).Pairwise fun a b => key a < key b := hs.filter _

/-- Every entry up to one that lies in a prefix is in that prefix. -/
theorem mem_take_of_le (hs : Sorted key log) {n : ℕ} {e : β} (he : e ∈ log) (hx : x ∈ log.take n)
    (hle : key e ≤ key x) : e ∈ log.take n := by
  rw [← List.take_append_drop n log] at he
  rcases List.mem_append.mp he with he | he
  · exact he
  · rw [← List.take_append_drop n log] at hs
    have := (List.pairwise_append.mp hs).2.2 x hx e he
    omega

end HermesEnterprise.Foundation.Cursor
