import Mathlib.Data.Finset.Card
import Mathlib.Data.List.Nodup
import Mathlib.Data.List.OfFn
import Mathlib.Data.List.Forall2
import Mathlib.Tactic

/-! # Distinct representatives by augmenting paths

Slots are lists of candidates. The search promises every slot one candidate and
re-promises earlier slots along a depth-first path, with one visited list shared
by the whole path. It succeeds exactly when distinct representatives exist.
-/
namespace HermesEnterprise.Foundation.Representatives
variable {α : Type*} [DecidableEq α]

omit [DecidableEq α] in
/-- One candidate for every slot, no candidate twice. -/
def HasRepresentatives (slots : List (List α)) : Prop :=
  ∃ reps : List α, reps.Nodup ∧ List.Forall₂ (fun a slot => a ∈ slot) reps slots

/-- The slot a candidate is promised to. -/
abbrev Promise (α : Type*) := α → Option ℕ

/-- The mutable state of one augmenting search. -/
structure Search (α : Type*) where
  seen : List α
  promise : Promise α

/-- The candidate loop of one slot; `next` searches a new place for a displaced slot. -/
def tryCandidates (next : ℕ → Search α → Bool × Search α) (i : ℕ) :
    List α → Search α → Bool × Search α
  | [], s => (false,s)
  | a :: rest, s =>
    if a ∈ s.seen then tryCandidates next i rest s
    else match s.promise a with
      | none => (true,⟨a :: s.seen,Function.update s.promise a (some i)⟩)
      | some j =>
        match next j ⟨a :: s.seen,s.promise⟩ with
        | (true,t) => (true,⟨t.seen,Function.update t.promise a (some i)⟩)
        | (false,t) => tryCandidates next i rest t

/-- One augmenting search from slot `i`. The fuel bounds the length of the path. -/
def assign (slots : List (List α)) : ℕ → ℕ → Search α → Bool × Search α
  | 0, _, s => (false,s)
  | fuel + 1, i, s => tryCandidates (assign slots fuel) i (slots.getD i []) s

/-- Assign the listed slots in order and stop at the first that cannot be placed. -/
def assignEach (slots : List (List α)) (fuel : ℕ) : List ℕ → Promise α → Bool
  | [], _ => true
  | i :: rest, p =>
    match assign slots fuel i ⟨[],p⟩ with
    | (true,t) => assignEach slots fuel rest t.promise
    | (false,_) => false

/-- A path never visits a candidate twice, so this much fuel is never used up. -/
def fuelFor (slots : List (List α)) : ℕ := slots.flatten.length + 1

def assignAll (slots : List (List α)) : Bool :=
  assignEach slots (fuelFor slots) (List.range slots.length) (fun _ => none)

section Soundness

/-- Promises are real edges, and no two unvisited candidates share a slot. -/
structure Promises (slots : List (List α)) (seen : List α) (p : Promise α) : Prop where
  edge : ∀ a j, p a = some j → a ∈ slots.getD j []
  inj : ∀ a b j, a ∉ seen → b ∉ seen → p a = some j → p b = some j → a = b

/-- The slot is held by an unvisited candidate. -/
def Covered (seen : List α) (p : Promise α) (j : ℕ) : Prop := ∃ a, a ∉ seen ∧ p a = some j

/-- What a successful search from slot `i` did to the promises. -/
structure Augments (slots : List (List α)) (seen : List α) (i : ℕ) (p q : Promise α) : Prop
    extends Promises slots seen q where
  agree : ∀ a ∈ seen, q a = p a
  cover : ∀ j, Covered seen q j ↔ j = i ∨ Covered seen p j

variable {slots : List (List α)} {seen seen' : List α} {i j : ℕ} {p q : Promise α} {a : α}

omit [DecidableEq α] in
theorem Promises.grow (h : Promises slots seen p) (hs : seen ⊆ seen') : Promises slots seen' p :=
  ⟨h.edge,fun b c k hb hc => h.inj b c k (fun hm => hb (hs hm)) (fun hm => hc (hs hm))⟩

omit [DecidableEq α] in
theorem not_covered_grow (h : ¬ Covered seen p i) (hs : seen ⊆ seen') : ¬ Covered seen' p i :=
  fun ⟨b,hb,hp⟩ => h ⟨b,fun hm => hb (hs hm),hp⟩

/-- An augmentation found after visiting more candidates is one for the fewer. -/
theorem Augments.shrink (h : Augments slots seen' i p q) (hs : seen ⊆ seen')
    (hp : Promises slots seen p) (hi : ¬ Covered seen p i) : Augments slots seen i p q := by
  have hmixed : ∀ b c k, b ∉ seen → b ∈ seen' → c ∉ seen' → q b = some k → q c = some k → False := by
    intro b c k hb hb' hc hqb hqc
    have hpb : p b = some k := h.agree b hb' ▸ hqb
    rcases (h.cover k).mp ⟨c,hc,hqc⟩ with rfl | ⟨d,hd,hpd⟩
    · exact hi ⟨b,hb,hpb⟩
    · have hbd := hp.inj b d k hb (fun hm => hd (hs hm)) hpb hpd
      exact hd (hbd ▸ hb')
  refine ⟨⟨h.edge,?_⟩,fun b hb => h.agree b (hs hb),?_⟩
  · intro b c k hb hc hqb hqc
    by_cases hb' : b ∈ seen' <;> by_cases hc' : c ∈ seen'
    · exact hp.inj b c k hb hc (h.agree b hb' ▸ hqb) (h.agree c hc' ▸ hqc)
    · exact (hmixed b c k hb hb' hc' hqb hqc).elim
    · exact (hmixed c b k hc hc' hb' hqc hqb).elim
    · exact h.inj b c k hb' hc' hqb hqc
  · intro k
    constructor
    · rintro ⟨b,hb,hqb⟩
      by_cases hb' : b ∈ seen'
      · exact Or.inr ⟨b,hb,h.agree b hb' ▸ hqb⟩
      · exact ((h.cover k).mp ⟨b,hb',hqb⟩).imp_right fun ⟨c,hc,hpc⟩ => ⟨c,fun hm => hc (hs hm),hpc⟩
    · rintro (rfl | ⟨b,hb,hpb⟩)
      · obtain ⟨c,hc,hqc⟩ := (h.cover k).mpr (Or.inl rfl)
        exact ⟨c,fun hm => hc (hs hm),hqc⟩
      · by_cases hb' : b ∈ seen'
        · exact ⟨b,hb,(h.agree b hb').trans hpb⟩
        · obtain ⟨c,hc,hqc⟩ := (h.cover k).mpr (Or.inr ⟨b,hb',hpb⟩)
          exact ⟨c,fun hm => hc (hs hm),hqc⟩

/-- A free candidate takes the slot. -/
theorem Augments.free (hp : Promises slots seen p) (hi : ¬ Covered seen p i)
    (ha : a ∉ seen) (hfree : p a = none) (he : a ∈ slots.getD i []) :
    Augments slots seen i p (Function.update p a (some i)) := by
  refine ⟨⟨?_,?_⟩,?_,?_⟩
  · intro b k hb
    by_cases hba : b = a
    · subst hba
      simp only [Function.update_self, Option.some.injEq] at hb
      exact hb ▸ he
    · exact hp.edge b k (by simpa [hba] using hb)
  · intro b c k hb hc hqb hqc
    by_cases hba : b = a <;> by_cases hca : c = a
    · exact hba.trans hca.symm
    · subst hba
      simp only [Function.update_self, Option.some.injEq] at hqb
      exact (hi ⟨c,hc,by rw [hqb]; simpa [hca] using hqc⟩).elim
    · subst hca
      simp only [Function.update_self, Option.some.injEq] at hqc
      exact (hi ⟨b,hb,by rw [hqc]; simpa [hba] using hqb⟩).elim
    · exact hp.inj b c k hb hc (by simpa [hba] using hqb) (by simpa [hca] using hqc)
  · intro b hb
    have hba : b ≠ a := fun h => ha (h ▸ hb)
    simp [hba]
  · intro k
    constructor
    · rintro ⟨b,hb,hqb⟩
      by_cases hba : b = a
      · subst hba
        simp only [Function.update_self, Option.some.injEq] at hqb
        exact Or.inl hqb.symm
      · exact Or.inr ⟨b,hb,by simpa [hba] using hqb⟩
    · rintro (rfl | ⟨b,hb,hpb⟩)
      · exact ⟨a,ha,by simp⟩
      · have hba : b ≠ a := fun h => by simp [h, hfree] at hpb
        exact ⟨b,hb,by simpa [hba] using hpb⟩

/-- A candidate moves to slot `i` once its former slot `j` found another one. -/
theorem Augments.displace (hi : ¬ Covered seen p i)
    (ha : a ∉ seen) (hold : p a = some j) (he : a ∈ slots.getD i [])
    (h : Augments slots (a :: seen) j p q) :
    Augments slots seen i p (Function.update q a (some i)) := by
  have hqa : q a = some j := (h.agree a List.mem_cons_self).trans hold
  have hcover : ∀ b k, b ∉ seen → b ≠ a → (q b = some k → Covered seen p k) := by
    intro b k hb hba hqb
    have hb' : b ∉ a :: seen := by simp [hba, hb]
    rcases (h.cover k).mp ⟨b,hb',hqb⟩ with rfl | ⟨c,hc,hpc⟩
    · exact ⟨a,ha,hold⟩
    · exact ⟨c,fun hm => hc (List.mem_cons_of_mem _ hm),hpc⟩
  refine ⟨⟨?_,?_⟩,?_,?_⟩
  · intro b k hb
    by_cases hba : b = a
    · subst hba
      simp only [Function.update_self, Option.some.injEq] at hb
      exact hb ▸ he
    · exact h.edge b k (by simpa [hba] using hb)
  · intro b c k hb hc hqb hqc
    by_cases hba : b = a <;> by_cases hca : c = a
    · exact hba.trans hca.symm
    · subst hba
      simp only [Function.update_self, Option.some.injEq] at hqb
      exact (hi (hcover c i hc hca (by rw [hqb]; simpa [hca] using hqc))).elim
    · subst hca
      simp only [Function.update_self, Option.some.injEq] at hqc
      exact (hi (hcover b i hb hba (by rw [hqc]; simpa [hba] using hqb))).elim
    · exact h.inj b c k (by simp [hba, hb]) (by simp [hca, hc])
        (by simpa [hba] using hqb) (by simpa [hca] using hqc)
  · intro b hb
    have hba : b ≠ a := fun h => ha (h ▸ hb)
    simpa [hba] using h.agree b (List.mem_cons_of_mem _ hb)
  · intro k
    constructor
    · rintro ⟨b,hb,hqb⟩
      by_cases hba : b = a
      · subst hba
        simp only [Function.update_self, Option.some.injEq] at hqb
        exact Or.inl hqb.symm
      · exact Or.inr (hcover b k hb hba (by simpa [hba] using hqb))
    · rintro (rfl | ⟨b,hb,hpb⟩)
      · exact ⟨a,ha,by simp⟩
      · have hk : k = j ∨ Covered (a :: seen) p k := by
          by_cases hba : b = a
          · subst hba
            exact Or.inl (Option.some.inj (hpb.symm.trans hold))
          · exact Or.inr ⟨b,by simp [hba, hb],hpb⟩
        obtain ⟨c,hc,hqc⟩ := (h.cover k).mpr hk
        simp only [List.mem_cons, not_or] at hc
        exact ⟨c,hc.2,by simpa [hc.1] using hqc⟩

end Soundness

section Completeness

/-- Candidates visited on the way are all promised, to slots without unvisited candidates. -/
structure Closed (slots : List (List α)) (p : Promise α) (seen seen' : List α) : Prop where
  sub : seen ⊆ seen'
  full : ∀ a ∈ seen', a ∉ seen → ∃ j, p a = some j ∧ slots.getD j [] ⊆ seen'

variable {slots : List (List α)} {seen seen' seen'' : List α} {i j : ℕ} {p q : Promise α} {a : α}

omit [DecidableEq α] in
theorem Closed.refl : Closed slots p seen seen := ⟨fun _ h => h,fun _ h hn => absurd h hn⟩

theorem Closed.trans (h : Closed slots p seen seen') (h' : Closed slots p seen' seen'') :
    Closed slots p seen seen'' := by
  refine ⟨fun a ha => h'.sub (h.sub ha),?_⟩
  intro a ha hn
  by_cases hm : a ∈ seen'
  · obtain ⟨j,hj,hs⟩ := h.full a hm hn
    exact ⟨j,hj,fun c hc => h'.sub (hs hc)⟩
  · exact h'.full a ha hm

theorem Closed.visit (ha : p a = some j) (h : Closed slots p (a :: seen) seen')
    (hs : slots.getD j [] ⊆ seen') : Closed slots p seen seen' := by
  refine ⟨fun b hb => h.sub (List.mem_cons_of_mem _ hb),?_⟩
  intro b hb hn
  by_cases hba : b = a
  · exact ⟨j,hba ▸ ha,hs⟩
  · exact h.full b hb (by simp [hba, hn])

/-- The result of a search through the candidates `cs` of slot `i` started in `s`. -/
def Correct (slots : List (List α)) (i : ℕ) (cs : List α) (s : Search α) : Bool × Search α → Prop
  | (true,t) => Augments slots s.seen i s.promise t.promise
  | (false,t) => t.promise = s.promise ∧ Closed slots s.promise s.seen t.seen ∧ cs ⊆ t.seen

/-- How many candidates a search may still visit. -/
def unvisited (slots : List (List α)) (seen : List α) : ℕ :=
  (slots.flatten.toFinset \ seen.toFinset).card

omit [DecidableEq α] in
theorem mem_flatten_of_mem_getD (h : a ∈ slots.getD i []) : a ∈ slots.flatten := by
  rw [List.getD_eq_getElem?_getD] at h
  cases hs : slots[i]? with
  | none => simp [hs] at h
  | some slot =>
    simp only [hs, Option.getD_some] at h
    exact List.mem_flatten.mpr ⟨slot,List.mem_of_getElem? hs,h⟩

theorem unvisited_cons_lt (ha : a ∈ slots.getD i []) (hn : a ∉ seen) :
    unvisited slots (a :: seen) < unvisited slots seen := by
  apply Finset.card_lt_card
  rw [Finset.ssubset_iff_of_subset]
  · exact ⟨a,by simpa [hn] using mem_flatten_of_mem_getD ha,by simp⟩
  · intro b
    simp only [Finset.mem_sdiff, List.mem_toFinset, List.mem_cons, not_or]
    exact fun ⟨hb,_,hb'⟩ => ⟨hb,hb'⟩

theorem unvisited_anti (h : seen ⊆ seen') : unvisited slots seen' ≤ unvisited slots seen := by
  apply Finset.card_le_card
  intro b
  simp only [Finset.mem_sdiff, List.mem_toFinset]
  exact fun ⟨hb,hn⟩ => ⟨hb,fun hm => hn (h hm)⟩

theorem tryCandidates_correct {next : ℕ → Search α → Bool × Search α} {fuel : ℕ}
    (hnext : ∀ j t, Promises slots t.seen t.promise → ¬ Covered t.seen t.promise j →
      unvisited slots t.seen < fuel → Correct slots j (slots.getD j []) t (next j t))
    (cs : List α) (s : Search α) (hcs : cs ⊆ slots.getD i [])
    (hp : Promises slots s.seen s.promise) (hi : ¬ Covered s.seen s.promise i)
    (hf : unvisited slots s.seen ≤ fuel) :
    Correct slots i cs s (tryCandidates next i cs s) := by
  induction cs generalizing s with
  | nil => exact ⟨rfl,Closed.refl,fun _ h => absurd h (by simp)⟩
  | cons a rest ih =>
    have hrest : rest ⊆ slots.getD i [] := fun b hb => hcs (List.mem_cons_of_mem _ hb)
    have hae : a ∈ slots.getD i [] := hcs List.mem_cons_self
    by_cases ha : a ∈ s.seen
    · have h := ih s hrest hp hi hf
      simp only [tryCandidates, ha, if_true]
      cases hr : tryCandidates next i rest s with
      | mk b t =>
        rw [hr] at h
        cases b with
        | true => exact h
        | false => exact ⟨h.1,h.2.1,List.cons_subset.mpr ⟨h.2.1.sub ha,h.2.2⟩⟩
    · have hgrow : s.seen ⊆ a :: s.seen := fun b hb => List.mem_cons_of_mem _ hb
      simp only [tryCandidates, ha, if_false]
      cases hpa : s.promise a with
      | none => exact Augments.free hp hi ha hpa hae
      | some j =>
        have hj : ¬ Covered (a :: s.seen) s.promise j := by
          rintro ⟨b,hb,hpb⟩
          simp only [List.mem_cons, not_or] at hb
          exact hb.1 (hp.inj b a j hb.2 ha hpb hpa)
        have hlt : unvisited slots (a :: s.seen) < fuel := (unvisited_cons_lt hae ha).trans_le hf
        have h := hnext j ⟨a :: s.seen,s.promise⟩ (hp.grow hgrow) hj hlt
        dsimp only
        cases hr : next j ⟨a :: s.seen,s.promise⟩ with
        | mk b t =>
          rw [hr] at h
          cases b with
          | true => exact Augments.displace hi ha hpa hae h
          | false =>
            obtain ⟨ht,hclosed,hslot⟩ := h
            have hvisit : Closed slots s.promise s.seen t.seen := Closed.visit hpa hclosed hslot
            dsimp only
            have h' := ih t hrest (ht ▸ hp.grow hvisit.sub)
              (ht ▸ not_covered_grow hi hvisit.sub) ((unvisited_anti hvisit.sub).trans hf)
            cases hr' : tryCandidates next i rest t with
            | mk b' t' =>
              rw [hr'] at h'
              cases b' with
              | true => exact Augments.shrink (by simpa only [Correct, ht] using h') hvisit.sub hp hi
              | false =>
                obtain ⟨ht',hclosed',hrest'⟩ := h'
                rw [ht] at ht' hclosed'
                refine ⟨ht',hvisit.trans hclosed',List.cons_subset.mpr ⟨?_,hrest'⟩⟩
                exact hclosed'.sub (hclosed.sub List.mem_cons_self)

/-- With enough fuel a search augments the promises or visits a closed set. -/
theorem assign_correct (fuel : ℕ) (i : ℕ) (s : Search α) (hp : Promises slots s.seen s.promise)
    (hi : ¬ Covered s.seen s.promise i) (hf : unvisited slots s.seen < fuel) :
    Correct slots i (slots.getD i []) s (assign slots fuel i s) := by
  induction fuel generalizing i s with
  | zero => exact absurd hf (Nat.not_lt_zero _)
  | succ fuel ih =>
    exact tryCandidates_correct (fun j t hpt hj ht => ih j t hpt hj ht) _ s (fun _ h => h) hp hi
      (Nat.lt_succ_iff.mp hf)

end Completeness

section Exactness
variable {slots : List (List α)} {i : ℕ} {p : Promise α}

omit [DecidableEq α] in
theorem HasRepresentatives.pick (h : HasRepresentatives slots) :
    ∃ reps : List α, reps.Nodup ∧ reps.length = slots.length ∧
      ∀ k (hk : k < reps.length), reps[k] ∈ slots.getD k [] := by
  obtain ⟨reps,hn,h⟩ := h
  refine ⟨reps,hn,h.length_eq,fun k hk => ?_⟩
  have hs : k < slots.length := h.length_eq ▸ hk
  simpa [List.getD_eq_getElem?_getD, hs] using (List.forall₂_iff_get.mp h).2 k hk hs

/-- A closed visited set is a Hall violator: one slot more than it has candidates. -/
theorem not_hasRepresentatives_of_closed {seen : List α} (hp : Promises slots [] p)
    (hi : ¬ Covered [] p i) (hlt : i < slots.length) (hc : Closed slots p [] seen)
    (hs : slots.getD i [] ⊆ seen) : ¬ HasRepresentatives slots := by
  intro h
  obtain ⟨reps,hn,hlen,hmem⟩ := h.pick
  have hseen : ∀ a ∈ seen.toFinset, ∃ j, p a = some j ∧ slots.getD j [] ⊆ seen :=
    fun a ha => hc.full a (List.mem_toFinset.mp ha) (by simp)
  let held : Finset ℕ := seen.toFinset.image (fun a => (p a).getD 0)
  have hheld : held.card = seen.toFinset.card := by
    apply Finset.card_image_of_injOn
    intro a ha b hb hab
    obtain ⟨j,hj,_⟩ := hseen a ha
    obtain ⟨k,hk,_⟩ := hseen b hb
    simp only [hj, hk, Option.getD_some] at hab
    exact hp.inj a b j (by simp) (by simp) hj (hab ▸ hk)
  have hfresh : i ∉ held := by
    intro h
    obtain ⟨a,ha,hai⟩ := Finset.mem_image.mp h
    obtain ⟨j,hj,_⟩ := hseen a ha
    simp only [hj, Option.getD_some] at hai
    exact hi ⟨a,by simp,hai ▸ hj⟩
  have hall : ∀ k ∈ insert i held, k < slots.length ∧ slots.getD k [] ⊆ seen := by
    intro k hk
    rcases Finset.mem_insert.mp hk with rfl | hk
    · exact ⟨hlt,hs⟩
    · obtain ⟨a,ha,hak⟩ := Finset.mem_image.mp hk
      obtain ⟨j,hj,hsub⟩ := hseen a ha
      simp only [hj, Option.getD_some] at hak
      subst hak
      refine ⟨?_,hsub⟩
      by_contra hge
      have he := hp.edge a j hj
      rw [List.getD_eq_getElem?_getD, List.getElem?_eq_none (Nat.le_of_not_lt hge)] at he
      simp at he
  have hcard : (insert i held).card ≤ seen.toFinset.card := by
    apply Finset.card_le_card_of_injOn (fun k => reps.getD k (reps.get ⟨i,hlen ▸ hlt⟩))
    · intro k hk
      have hk' : k < reps.length := hlen ▸ (hall k hk).1
      simpa [List.getD_eq_getElem?_getD, hk'] using (hall k hk).2 (hmem k hk')
    · intro k hk l hl hkl
      have hk' : k < reps.length := hlen ▸ (hall k hk).1
      have hl' : l < reps.length := hlen ▸ (hall l hl).1
      simp only [List.getD_eq_getElem?_getD, List.getElem?_eq_getElem hk',
        List.getElem?_eq_getElem hl', Option.getD_some] at hkl
      exact (List.Nodup.getElem_inj_iff hn).mp hkl
  rw [Finset.card_insert_of_notMem hfresh, hheld] at hcard
  omega

omit [DecidableEq α] in
/-- A promise for every slot reads off as representatives. -/
theorem hasRepresentatives_of_promises (hp : Promises slots [] p)
    (hc : ∀ j < slots.length, Covered [] p j) : HasRepresentatives slots := by
  choose f hf using fun k : Fin slots.length => hc k k.isLt
  refine ⟨List.ofFn f,List.nodup_ofFn.mpr ?_,?_⟩
  · intro k l hkl
    have h := (hf k).2
    rw [hkl, (hf l).2] at h
    exact Fin.ext (Option.some.inj h).symm
  · rw [List.forall₂_iff_get]
    refine ⟨by simp,fun k hk hk' => ?_⟩
    have h := hp.edge _ _ (hf ⟨k,hk'⟩).2
    simpa [List.getD_eq_getElem?_getD, hk'] using h

theorem unvisited_lt_fuelFor (seen : List α) : unvisited slots seen < fuelFor slots :=
  Nat.lt_succ_of_le ((Finset.card_le_card Finset.sdiff_subset).trans (List.toFinset_card_le _))

/-- The slots in `is` are placed one after another exactly when representatives exist. -/
theorem assignEach_iff (is : List ℕ) (hn : is.Nodup) (hlt : ∀ j ∈ is, j < slots.length)
    (hp : Promises slots [] p) (hc : ∀ j, Covered [] p j ↔ j < slots.length ∧ j ∉ is) :
    assignEach slots (fuelFor slots) is p = true ↔ HasRepresentatives slots := by
  induction is generalizing p with
  | nil =>
    simp only [assignEach, true_iff]
    exact hasRepresentatives_of_promises hp (fun j hj => (hc j).mpr ⟨hj,by simp⟩)
  | cons i rest ih =>
    obtain ⟨hi,hrest⟩ := List.nodup_cons.mp hn
    have hfree : ¬ Covered [] p i := fun h => ((hc i).mp h).2 List.mem_cons_self
    have h := assign_correct (fuelFor slots) i ⟨[],p⟩ hp hfree (unvisited_lt_fuelFor [])
    simp only [assignEach]
    cases hr : assign slots (fuelFor slots) i ⟨[],p⟩ with
    | mk b t =>
      rw [hr] at h
      cases b with
      | true =>
        dsimp only
        refine ih hrest (fun j hj => hlt j (List.mem_cons_of_mem _ hj)) h.toPromises ?_
        intro j
        rw [h.cover j, hc j]
        have hil := hlt i List.mem_cons_self
        constructor
        · rintro (rfl | ⟨hj,hm⟩)
          · exact ⟨hil,hi⟩
          · exact ⟨hj,fun hm' => hm (List.mem_cons_of_mem _ hm')⟩
        · rintro ⟨hj,hm⟩
          by_cases hji : j = i
          · exact Or.inl hji
          · exact Or.inr ⟨hj,by simp [hji, hm]⟩
      | false =>
        simp only [Bool.false_eq_true, false_iff]
        exact not_hasRepresentatives_of_closed hp hfree (hlt i List.mem_cons_self) h.2.1 h.2.2

/-- The search decides the existence of distinct representatives. -/
theorem assignAll_iff : assignAll slots = true ↔ HasRepresentatives slots := by
  apply assignEach_iff (List.range slots.length) List.nodup_range (fun j hj => List.mem_range.mp hj)
  · exact ⟨fun a j h => by simp at h,fun a b j _ _ h => by simp at h⟩
  · intro j
    simp [Covered]

end Exactness

section Termination
variable {slots : List (List α)} {i j : ℕ} {cs : List α} {s t : Search α} {p : Promise α} {a : α}

/-- The search with no bound on its path: what the candidate loop of slot `i` returns. A derivation
is one terminating execution. -/
inductive Searches (slots : List (List α)) : ℕ → List α → Search α → Bool × Search α → Prop
  | spent (i : ℕ) (s : Search α) : Searches slots i [] s (false,s)
  | skipped {i : ℕ} {a : α} {rest : List α} {s : Search α} {r : Bool × Search α} (ha : a ∈ s.seen)
      (h : Searches slots i rest s r) : Searches slots i (a :: rest) s r
  | free {i : ℕ} {a : α} {rest : List α} {s : Search α} (ha : a ∉ s.seen)
      (hp : s.promise a = none) :
      Searches slots i (a :: rest) s (true,⟨a :: s.seen,Function.update s.promise a (some i)⟩)
  | moved {i j : ℕ} {a : α} {rest : List α} {s t : Search α} (ha : a ∉ s.seen)
      (hp : s.promise a = some j)
      (h : Searches slots j (slots.getD j []) ⟨a :: s.seen,s.promise⟩ (true,t)) :
      Searches slots i (a :: rest) s (true,⟨t.seen,Function.update t.promise a (some i)⟩)
  | blocked {i j : ℕ} {a : α} {rest : List α} {s t : Search α} {r : Bool × Search α}
      (ha : a ∉ s.seen) (hp : s.promise a = some j)
      (h : Searches slots j (slots.getD j []) ⟨a :: s.seen,s.promise⟩ (false,t))
      (hrest : Searches slots i rest t r) : Searches slots i (a :: rest) s r

/-- The loop over the slots, each placed by an unbounded search. -/
inductive Places (slots : List (List α)) : List ℕ → Promise α → Bool → Prop
  | done (p : Promise α) : Places slots [] p true
  | placed {i : ℕ} {rest : List ℕ} {p : Promise α} {t : Search α} {b : Bool}
      (h : Searches slots i (slots.getD i []) ⟨[],p⟩ (true,t)) (hrest : Places slots rest t.promise b) :
      Places slots (i :: rest) p b
  | unplaced {i : ℕ} {rest : List ℕ} {p : Promise α} {t : Search α}
      (h : Searches slots i (slots.getD i []) ⟨[],p⟩ (false,t)) : Places slots (i :: rest) p false

/-- The search is deterministic. -/
theorem Searches.det {r r' : Bool × Search α} (h : Searches slots i cs s r)
    (h' : Searches slots i cs s r') : r = r' := by
  induction h generalizing r' with
  | spent i s => cases h'; rfl
  | skipped ha _ ih =>
    cases h' with
    | skipped _ h' => exact ih h'
    | free ha' _ => exact absurd ha ha'
    | moved ha' _ _ => exact absurd ha ha'
    | blocked ha' _ _ _ => exact absurd ha ha'
  | free ha hp =>
    cases h' with
    | skipped ha' _ => exact absurd ha' ha
    | free _ _ => rfl
    | moved _ hp' _ => cases hp.symm.trans hp'
    | blocked _ hp' _ _ => cases hp.symm.trans hp'
  | moved ha hp _ ih =>
    cases h' with
    | skipped ha' _ => exact absurd ha' ha
    | free _ hp' => cases hp.symm.trans hp'
    | moved _ hp' h' =>
      cases hp.symm.trans hp'
      cases ih h'
      rfl
    | blocked _ hp' h' _ =>
      cases hp.symm.trans hp'
      cases ih h'
  | blocked ha hp _ _ ih ihrest =>
    cases h' with
    | skipped ha' _ => exact absurd ha' ha
    | free _ hp' => cases hp.symm.trans hp'
    | moved _ hp' h' =>
      cases hp.symm.trans hp'
      cases ih h'
    | blocked _ hp' h' hrest' =>
      cases hp.symm.trans hp'
      cases ih h'
      exact ihrest hrest'

/-- The visited list only grows. -/
theorem Searches.grows {r : Bool × Search α} (h : Searches slots i cs s r) : s.seen ⊆ r.2.seen := by
  induction h with
  | spent i s => exact fun _ hb => hb
  | skipped _ _ ih => exact ih
  | free _ _ => exact fun _ hb => List.mem_cons_of_mem _ hb
  | moved _ _ _ ih => exact fun _ hb => ih (List.mem_cons_of_mem _ hb)
  | blocked _ _ _ _ ih ihrest => exact fun _ hb => ihrest (ih (List.mem_cons_of_mem _ hb))

theorem searches_tryCandidates {next : ℕ → Search α → Bool × Search α} {fuel : ℕ}
    (hnext : ∀ j t, unvisited slots t.seen < fuel → Searches slots j (slots.getD j []) t (next j t))
    (cs : List α) (s : Search α) (hcs : cs ⊆ slots.getD i []) (hf : unvisited slots s.seen ≤ fuel) :
    Searches slots i cs s (tryCandidates next i cs s) := by
  induction cs generalizing s with
  | nil => exact .spent i s
  | cons a rest ih =>
    have hrest : rest ⊆ slots.getD i [] := fun b hb => hcs (List.mem_cons_of_mem _ hb)
    by_cases ha : a ∈ s.seen
    · simp only [tryCandidates, ha, if_true]
      exact .skipped ha (ih s hrest hf)
    · simp only [tryCandidates, ha, if_false]
      cases hpa : s.promise a with
      | none => exact .free ha hpa
      | some j =>
        -- the path goes on with one candidate less to visit
        have hlt : unvisited slots (a :: s.seen) < fuel :=
          (unvisited_cons_lt (hcs List.mem_cons_self) ha).trans_le hf
        have h := hnext j ⟨a :: s.seen,s.promise⟩ hlt
        dsimp only
        cases hr : next j ⟨a :: s.seen,s.promise⟩ with
        | mk b t =>
          rw [hr] at h
          cases b with
          | true => exact .moved ha hpa h
          | false =>
            have hseen : s.seen ⊆ t.seen := fun b hb => h.grows (List.mem_cons_of_mem _ hb)
            exact .blocked ha hpa h (ih t hrest ((unvisited_anti hseen).trans hf))

/-- With more fuel than unvisited candidates the bounded search is the unbounded one. -/
theorem searches_assign (fuel : ℕ) (i : ℕ) (s : Search α) (hf : unvisited slots s.seen < fuel) :
    Searches slots i (slots.getD i []) s (assign slots fuel i s) := by
  induction fuel generalizing i s with
  | zero => exact absurd hf (Nat.not_lt_zero _)
  | succ fuel ih =>
    exact searches_tryCandidates (fun j t ht => ih j t ht) _ s (fun _ h => h) (Nat.lt_succ_iff.mp hf)

/-- From any visited list and any promises, the search of any slot terminates. -/
theorem exists_searches (slots : List (List α)) (i : ℕ) (s : Search α) :
    ∃ r, Searches slots i (slots.getD i []) s r :=
  ⟨_,searches_assign (fuelFor slots) i s (unvisited_lt_fuelFor _)⟩

theorem places_assignEach (is : List ℕ) (p : Promise α) :
    Places slots is p (assignEach slots (fuelFor slots) is p) := by
  induction is generalizing p with
  | nil => exact .done p
  | cons i rest ih =>
    have h := searches_assign (fuelFor slots) i ⟨[],p⟩ (unvisited_lt_fuelFor _)
    simp only [assignEach]
    cases hr : assign slots (fuelFor slots) i ⟨[],p⟩ with
    | mk b t =>
      rw [hr] at h
      cases b with
      | true => exact .placed h (ih t.promise)
      | false => exact .unplaced h

theorem Places.det {is : List ℕ} {b b' : Bool} (h : Places slots is p b) (h' : Places slots is p b') :
    b = b' := by
  induction h generalizing b' with
  | done p => cases h'; rfl
  | placed h _ ih =>
    cases h' with
    | placed h' hrest' =>
      cases h.det h'
      exact ih hrest'
    | unplaced h' => cases h.det h'
  | unplaced h =>
    cases h' with
    | placed h' _ => cases h.det h'
    | unplaced _ => rfl

/-- The unbounded search of all slots returns one result, the bounded one. -/
theorem places_iff {b : Bool} :
    Places slots (List.range slots.length) (fun _ => none) b ↔ b = assignAll slots :=
  ⟨fun h => h.det (places_assignEach _ _),fun h => h ▸ places_assignEach _ _⟩

end Termination

section Teams
variable {ι : Type*} [DecidableEq ι] {groups : List ι} {need : ι → ℕ} {can : ι → List α}
variable {team : ι → Finset α}

/-- Disjoint teams of the needed sizes, each drawn from the candidates of its group. -/
structure Teams (groups : List ι) (need : ι → ℕ) (can : ι → List α) (team : ι → Finset α) :
    Prop where
  size : ∀ g ∈ groups, (team g).card = need g
  drawn : ∀ g ∈ groups, ∀ a ∈ team g, a ∈ can g
  disjoint : ∀ g ∈ groups, ∀ h ∈ groups, g ≠ h → Disjoint (team g) (team h)

/-- One slot for every member a group needs. -/
def groupSlots (groups : List ι) (need : ι → ℕ) (can : ι → List α) : List (List α) :=
  groups.flatMap fun g => List.replicate (need g) (can g)

omit [DecidableEq α] in
theorem forall₂_replicate {reps slot : List α} {n : ℕ} :
    List.Forall₂ (fun a slot => a ∈ slot) reps (List.replicate n slot) ↔
      reps.length = n ∧ ∀ a ∈ reps, a ∈ slot := by
  induction reps generalizing n with
  | nil => cases n <;> simp [List.replicate_succ]
  | cons a rest ih =>
    cases n with
    | zero => simp
    | succ n =>
      rw [List.replicate_succ, List.forall₂_cons, ih]
      simp only [List.length_cons, List.mem_cons, forall_eq_or_imp, Nat.add_right_cancel_iff]
      tauto

/-- Representatives of the slots of each group form its team. -/
theorem teams_of_representatives (hn : groups.Nodup) (reps : List α) (hr : reps.Nodup)
    (h : List.Forall₂ (fun a slot => a ∈ slot) reps (groupSlots groups need can)) :
    ∃ team, Teams groups need can team ∧ ∀ g ∈ groups, ∀ a ∈ team g, a ∈ reps := by
  induction groups generalizing reps with
  | nil => exact ⟨fun _ => ∅,⟨by simp,by simp,by simp⟩,by simp⟩
  | cons g rest ih =>
    obtain ⟨hg,hn⟩ := List.nodup_cons.mp hn
    have hslots : groupSlots (g :: rest) need can =
        List.replicate (need g) (can g) ++ groupSlots rest need can := rfl
    rw [hslots] at h
    have htake := List.forall₂_take_append _ _ _ h
    have hdrop := List.forall₂_drop_append _ _ _ h
    simp only [List.length_replicate] at htake hdrop
    obtain ⟨hlen,hmem⟩ := forall₂_replicate.mp htake
    have hsplit := List.take_append_drop (need g) reps
    rw [← hsplit, List.nodup_append] at hr
    obtain ⟨hfirst,hlast,hne⟩ := hr
    obtain ⟨team,hteams,hteam⟩ := ih hn (reps.drop (need g)) hlast hdrop
    have hother : ∀ k ∈ rest, k ≠ g := fun k hk he => hg (he ▸ hk)
    have hapart : ∀ k ∈ rest, Disjoint (reps.take (need g)).toFinset (team k) := by
      intro k hk
      rw [Finset.disjoint_left]
      intro a ha ha'
      exact hne a (List.mem_toFinset.mp ha) a (hteam k hk a ha') rfl
    refine ⟨Function.update team g (reps.take (need g)).toFinset,⟨?_,?_,?_⟩,?_⟩
    · intro k hk
      rcases List.mem_cons.mp hk with rfl | hk
      · rw [Function.update_self, List.toFinset_card_of_nodup hfirst, hlen]
      · rw [Function.update_of_ne (hother k hk)]
        exact hteams.size k hk
    · intro k hk a ha
      rcases List.mem_cons.mp hk with rfl | hk
      · rw [Function.update_self, List.mem_toFinset] at ha
        exact hmem a ha
      · rw [Function.update_of_ne (hother k hk)] at ha
        exact hteams.drawn k hk a ha
    · intro k hk l hl hkl
      rcases List.mem_cons.mp hk with rfl | hk' <;> rcases List.mem_cons.mp hl with rfl | hl'
      · exact absurd rfl hkl
      · rw [Function.update_self, Function.update_of_ne (hother l hl')]
        exact hapart l hl'
      · rw [Function.update_self, Function.update_of_ne (hother k hk')]
        exact (hapart k hk').symm
      · rw [Function.update_of_ne (hother k hk'), Function.update_of_ne (hother l hl')]
        exact hteams.disjoint k hk' l hl' hkl
    · intro k hk a ha
      rcases List.mem_cons.mp hk with rfl | hk
      · rw [Function.update_self, List.mem_toFinset] at ha
        exact List.mem_of_mem_take ha
      · rw [Function.update_of_ne (hother k hk)] at ha
        exact List.mem_of_mem_drop (hteam k hk a ha)

omit [DecidableEq α] [DecidableEq ι] in
theorem representatives_of_teams (hn : groups.Nodup) (h : Teams groups need can team) :
    HasRepresentatives (groupSlots groups need can) := by
  refine ⟨groups.flatMap fun g => (team g).toList,?_,?_⟩
  · rw [List.nodup_flatMap]
    refine ⟨fun g _ => Finset.nodup_toList _,?_⟩
    refine hn.imp_of_mem ?_
    intro g k hg hk hgk a ha ha'
    exact Finset.disjoint_left.mp (h.disjoint g hg k hk hgk) (Finset.mem_toList.mp ha)
      (Finset.mem_toList.mp ha')
  · have hpart : ∀ g ∈ groups, List.Forall₂ (fun a slot => a ∈ slot) (team g).toList
        (List.replicate (need g) (can g)) := by
      intro g hg
      rw [forall₂_replicate, Finset.length_toList]
      exact ⟨h.size g hg,fun a ha => h.drawn g hg a (Finset.mem_toList.mp ha)⟩
    clear h hn
    induction groups with
    | nil => exact .nil
    | cons g rest ih =>
      exact List.rel_append (hpart g List.mem_cons_self)
        (ih fun k hk => hpart k (List.mem_cons_of_mem _ hk))

/-- Slots of groups have distinct representatives exactly when the groups have disjoint teams. -/
theorem hasRepresentatives_iff_teams (hn : groups.Nodup) :
    HasRepresentatives (groupSlots groups need can) ↔ ∃ team, Teams groups need can team := by
  constructor
  · rintro ⟨reps,hr,h⟩
    obtain ⟨team,hteams,-⟩ := teams_of_representatives hn reps hr h
    exact ⟨team,hteams⟩
  · rintro ⟨team,h⟩
    exact representatives_of_teams hn h

end Teams

end HermesEnterprise.Foundation.Representatives
