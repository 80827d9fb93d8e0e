import HermesEnterprise.Model.Fragments
import Mathlib.Data.List.Sort

/-! # Reasoning as it was produced

The blocks of a stream come back from the merge and from JSON exactly when their indices ascend. Anthropic's
come back exactly when each signature comes at once.
-/
namespace HermesEnterprise.Model
open Inbound Providers

variable {P : Platform} {index : Number} {detail block : ReasoningDetail}

section Related
variable {α β : Type} {R : α → β → Prop} {xs : List α} {ys : List β}

theorem exists_left (h : List.Forall₂ R xs ys) {y : β} (hy : y ∈ ys) : ∃ x ∈ xs, R x y := by
  induction h with
  | nil => cases hy
  | cons hr _ ih =>
    rcases List.mem_cons.mp hy with rfl | hy
    · exact ⟨_,List.mem_cons_self,hr⟩
    · obtain ⟨x,hx,hxy⟩ := ih hy
      exact ⟨x,List.mem_cons_of_mem _ hx,hxy⟩

theorem map_eq_map_of_forall₂ {γ : Type} {f : α → γ} {g : β → γ} (h : List.Forall₂ R xs ys)
    (hfg : ∀ x y, R x y → f x = g y) : xs.map f = ys.map g := by
  induction h with
  | nil => rfl
  | cons hr _ ih => rw [List.map_cons, List.map_cons, hfg _ _ hr, ih]

end Related

section Order

theorem rank_injective : Function.Injective rank := by
  intro a b h
  cases a with
  | finite x =>
    cases b with
    | finite y => simpa [rank] using h
    | infinite negative => cases negative <;> simp [rank] at h
  | infinite negative =>
    cases b with
    | finite y => cases negative <;> simp [rank] at h
    | infinite negative' => cases negative <;> cases negative' <;> simp [rank] at h <;> rfl

variable {blocks : List ReasoningDetail} {frames : List (List ReasoningDetail)}

/-- The fragments of blocks with indices of their own add each block under its index. -/
theorem foldl_blocks {fragments : List (List ReasoningDetail)} (h : List.Forall₂ Splits blocks fragments) :
    ∀ (into : Blocks) {indices : List Number}, blocks.map indexOf = indices.map some → indices.Nodup →
      (∀ e ∈ into, e.1 ∉ indices) → ∃ values, fragments.flatten.foldl (mergeAt P) into =
        into ++ indices.zip values ∧ List.Forall₂ Same values blocks := by
  induction h with
  | nil =>
    intro into indices hindices _ _
    have hnil : indices = [] := List.map_eq_nil_iff.mp hindices.symm
    exact ⟨[],by simp [hnil],.nil⟩
  | @cons block fs blocks fragments hsplit _ ih =>
    intro into indices hindices hnodup hfresh
    cases indices with
    | nil => simp at hindices
    | cons index indices =>
      simp only [List.map_cons, List.cons.injEq] at hindices
      obtain ⟨hindex,hindices⟩ := hindices
      obtain ⟨hnot,hnodup⟩ := List.nodup_cons.mp hnodup
      obtain ⟨v,hv,hsame⟩ := foldl_fragments (P := P) hsplit hindex fun e he heq =>
        hfresh e he (heq ▸ List.mem_cons_self)
      have hfresh' : ∀ e ∈ into ++ [(index,v)], e.1 ∉ indices := by
        intro e he
        rcases List.mem_append.mp he with he | he
        · exact fun hmem => hfresh e he (List.mem_cons_of_mem _ hmem)
        · cases List.mem_singleton.mp he
          exact hnot
      obtain ⟨values,hvalues,hall⟩ := ih _ hindices hnodup hfresh'
      refine ⟨v :: values,?_,.cons hsame hall⟩
      rw [List.flatten_cons, List.foldl_append, hv, hvalues, List.append_assoc]
      rfl

theorem pairwise_zip {indices : List Number} (h : indices.Pairwise fun i j => rank i < rank j) :
    ∀ values : List ReasoningDetail, (indices.zip values).Pairwise fun a b => decide (rank a.1 ≤ rank b.1) = true := by
  induction h with
  | nil => exact fun _ => by simp
  | @cons index rest hlt _ ih =>
    intro values
    cases values with
    | nil => simp
    | cons v values =>
      rw [List.zip_cons_cons, List.pairwise_cons]
      refine ⟨fun e he => decide_eq_true (hlt e.1 ?_).le,ih values⟩
      exact (List.of_mem_zip (a := e.1) (b := e.2) he).1

/-- A fragment has the index of its block. -/
theorem Streams.indexOf_mem (h : Streams blocks frames) {f : ReasoningDetail} (hf : f ∈ frames.flatten) :
    ∃ block ∈ blocks, indexOf f = indexOf block := by
  obtain ⟨fragments,hsplits,hflatten⟩ := h
  rw [hflatten] at hf
  obtain ⟨fs,hfs,hf⟩ := List.mem_flatten.mp hf
  obtain ⟨block,hblock,hsplit⟩ := exists_left hsplits hfs
  refine ⟨block,hblock,?_⟩
  unfold indexOf
  rw [hsplit.index f hf]

/-- Blocks with ascending indices come out of the merge as they were. -/
theorem orderedDetails_of_ascending (h : Streams blocks frames) (hasc : Ascending blocks) :
    List.Forall₂ Same (orderedDetails (mergeReasoningDetails P) frames) blocks := by
  obtain ⟨indices,hindices,hpairwise⟩ := hasc
  have hindexed : ∀ d ∈ frames.flatten, (indexOf d).isSome := by
    intro d hd
    obtain ⟨block,hblock,heq⟩ := h.indexOf_mem hd
    have hmem : indexOf block ∈ indices.map some := hindices ▸ List.mem_map_of_mem hblock
    obtain ⟨index,-,hindex⟩ := List.mem_map.mp hmem
    rw [heq, ← hindex]
    rfl
  have hnodup : indices.Nodup := hpairwise.imp fun hlt heq => (heq ▸ hlt).false
  obtain ⟨fragments,hsplits,hflatten⟩ := h
  obtain ⟨values,hvalues,hsame⟩ := foldl_blocks (P := P) hsplits [] hindices hnodup (by simp)
  have hlength : values.length = indices.length := by
    have hlen := congrArg List.length hindices
    rw [List.length_map, List.length_map] at hlen
    rw [hsame.length_eq, hlen]
  unfold orderedDetails
  rw [foldl_frames hindexed, hflatten, hvalues, List.nil_append,
    List.mergeSort_of_pairwise (pairwise_zip hpairwise values), List.map_snd_zip hlength.le]
  exact hsame

end Order

section Keyed
variable {blocks : List ReasoningDetail} {frames : List (List ReasoningDetail)} {into : Blocks}

/-- Every block is under one key, its index: finite, or one that was streamed. -/
structure Keyed (seen : Number → Prop) (into : Blocks) : Prop where
  nodup : (into.map Prod.fst).Nodup
  index : ∀ e ∈ into, get e.2 (text "index") = some (.number e.1)
  seen : ∀ e ∈ into, (∃ value, e.1 = .finite value) ∨ seen e.1

theorem Keyed.set {seen : Number → Prop} (h : Keyed seen into)
    (hd : get detail (text "index") = some (.number index)) (hs : (∃ value, index = .finite value) ∨ seen index) :
    Keyed seen (into.set index detail) := by
  unfold Blocks.set
  split
  · have hkeys : (into.map fun e => if e.1 = index then (index,detail) else e).map Prod.fst =
        into.map Prod.fst := by
      rw [List.map_map]
      refine List.map_congr_left fun e _ => ?_
      by_cases he : e.1 = index <;> simp [he]
    have hmem : ∀ e ∈ into.map fun e => if e.1 = index then (index,detail) else e,
        e = (index,detail) ∨ e ∈ into := by
      intro e he
      obtain ⟨x,hx,rfl⟩ := List.mem_map.mp he
      by_cases hxi : x.1 = index
      · exact Or.inl (if_pos hxi)
      · exact Or.inr (by rwa [if_neg hxi])
    refine ⟨hkeys ▸ h.nodup,fun e he => ?_,fun e he => ?_⟩
    · rcases hmem e he with rfl | he
      · exact hd
      · exact h.index e he
    · rcases hmem e he with rfl | he
      · exact hs
      · exact h.seen e he
  · rename_i hany
    have hfresh : index ∉ into.map Prod.fst := by
      intro hmem
      obtain ⟨e,he,heq⟩ := List.mem_map.mp hmem
      exact hany (List.any_eq_true.mpr ⟨e,he,decide_eq_true heq⟩)
    refine ⟨?_,fun e he => ?_,fun e he => ?_⟩
    · rw [List.map_append]
      exact h.nodup.append (List.nodup_singleton _) (List.disjoint_singleton.mpr hfresh)
    · rcases List.mem_append.mp he with he | he
      · exact h.index e he
      · cases List.mem_singleton.mp he
        exact hd
    · rcases List.mem_append.mp he with he | he
      · exact h.seen e he
      · cases List.mem_singleton.mp he
        exact hs

theorem keyed_merge {seen : Number → Prop} {details : List ReasoningDetail}
    (hseen : ∀ d ∈ details, ∀ i, indexOf d = some i → seen i) :
    ∀ s : Blocks × ℕ, Keyed seen s.1 → Keyed seen (details.foldl (mergeNext P) s).1 := by
  induction details with
  | nil => exact fun _ h => h
  | cons d rest ih =>
    intro s h
    rw [List.foldl_cons]
    refine ih (fun d hd => hseen d (List.mem_cons_of_mem _ hd)) _ ?_
    unfold mergeNext
    cases hindex : indexOf d with
    | none => exact h.set (get_mergeDetail_index _) (Or.inl ⟨_,rfl⟩)
    | some i => exact h.set (get_mergeDetail_index _) (Or.inr (hseen d List.mem_cons_self i hindex))

theorem keyed_frames {seen : Number → Prop} (hseen : ∀ d ∈ frames.flatten, ∀ i, indexOf d = some i → seen i) :
    ∀ into : Blocks, Keyed seen into → Keyed seen (frames.foldl (mergeReasoningDetails P) into) := by
  induction frames with
  | nil => exact fun _ h => h
  | cons frame rest ih =>
    intro into h
    rw [List.foldl_cons]
    exact ih (fun d hd => hseen d (List.mem_append_right _ hd)) _
      (keyed_merge (fun d hd => hseen d (List.mem_append_left _ hd)) _ h)

/-- The merged blocks in their order, each with its index. -/
theorem ordered_indices (seen : Number → Prop)
    (hseen : ∀ d ∈ frames.flatten, ∀ i, indexOf d = some i → seen i) : ∃ indices : List Number,
      (orderedDetails (mergeReasoningDetails P) frames).map (get · (text "index")) =
        indices.map (fun i => some (.number i)) ∧
      indices.Pairwise (fun i j => rank i < rank j) ∧
      ∀ i ∈ indices, (∃ value, i = .finite value) ∨ seen i := by
  have hempty : Keyed seen [] := ⟨List.nodup_nil,by simp,by simp⟩
  have hkeyed := keyed_frames (P := P) hseen [] hempty
  generalize hinto : frames.foldl (mergeReasoningDetails P) [] = into at hkeyed
  obtain ⟨hnodup,hindex,hkeys⟩ := hkeyed
  let le : Number × ReasoningDetail → Number × ReasoningDetail → Bool := fun a b => decide (rank a.1 ≤ rank b.1)
  have hperm : (into.mergeSort le).Perm into := List.mergeSort_perm into le
  have hsorted : (into.mergeSort le).Pairwise fun a b => le a b = true :=
    List.pairwise_mergeSort (fun a b c hab hbc => decide_eq_true ((of_decide_eq_true hab).trans (of_decide_eq_true hbc)))
      (fun a b => by
        rcases le_total (rank a.1) (rank b.1) with h | h
        · exact Bool.or_eq_true_iff.mpr (Or.inl (decide_eq_true h))
        · exact Bool.or_eq_true_iff.mpr (Or.inr (decide_eq_true h))) into
  have hdistinct : ((into.mergeSort le).map Prod.fst).Nodup := (hperm.map Prod.fst).nodup_iff.mpr hnodup
  refine ⟨(into.mergeSort le).map Prod.fst,?_,?_,?_⟩
  · unfold orderedDetails
    rw [hinto, List.map_map, List.map_map]
    exact List.map_congr_left fun e he => hindex e (hperm.mem_iff.mp he)
  · rw [List.pairwise_map]
    refine (hsorted.and (List.pairwise_map.mp hdistinct)).imp fun ⟨hle,hne⟩ => ?_
    exact (of_decide_eq_true hle).lt_of_ne fun heq => hne (rank_injective heq)
  · intro i hi
    obtain ⟨e,he,rfl⟩ := List.mem_map.mp hi
    exact hkeys e (hperm.mem_iff.mp he)

end Keyed

section Exact
variable {blocks : List ReasoningDetail} {frames : List (List ReasoningDetail)}

theorem same_stored {v : ReasoningDetail} (h : Same v block) (hf : FiniteBlock block) :
    Same (storedFields v) block := by
  intro key
  rw [get_storedFields, h key]
  cases hvalue : get block key with
  | none => rfl
  | some value => rw [Option.map_some, (stored_eq_self_iff value).mpr (hf key value hvalue)]

theorem finite_of_same {v : ReasoningDetail} (h : Same (storedFields v) block) : FiniteBlock block := by
  intro key value hvalue
  rw [← h key, get_storedFields] at hvalue
  obtain ⟨x,-,rfl⟩ := Option.map_eq_some_iff.mp hvalue
  exact finite_stored x

def numeral? : Json → Option Number
  | .number n => some n
  | _ => none

theorem ascending_of_same (h : Streams blocks frames) (hsame : List.Forall₂ Same
    ((orderedDetails (mergeReasoningDetails P) frames).map storedFields) blocks) : Ascending blocks := by
  have hfinite : ∀ block ∈ blocks, FiniteBlock block := by
    intro block hblock
    obtain ⟨v,hv,hvb⟩ := exists_left hsame hblock
    obtain ⟨d,-,rfl⟩ := List.mem_map.mp hv
    exact finite_of_same hvb
  obtain ⟨indices,hindices,hpairwise,hseen⟩ := ordered_indices (P := P)
    (fun i => ∃ value, i = .finite value) (by
      -- An index that was streamed is the index of a block that came back from JSON.
      intro d hd i hi
      obtain ⟨block,hblock,heq⟩ := h.indexOf_mem hd
      have hvalue := hfinite block hblock _ _ (indexOf_eq_some.mp (heq ▸ hi))
      cases i with
      | finite value => exact ⟨value,rfl⟩
      | infinite => simp [finite] at hvalue)
  refine ⟨indices,?_,hpairwise⟩
  have hstored : ((orderedDetails (mergeReasoningDetails P) frames).map storedFields).map indexOf =
      blocks.map indexOf := map_eq_map_of_forall₂ hsame fun x y hxy => by
    unfold indexOf
    rw [hxy]
  rw [← hstored, List.map_map]
  have hread : ∀ d ∈ orderedDetails (mergeReasoningDetails P) frames,
      ∃ value, get d (text "index") = some (.number (.finite value)) := by
    intro d hd
    have hmem : get d (text "index") ∈ indices.map fun i => some (.number i) :=
      hindices ▸ List.mem_map_of_mem hd
    obtain ⟨i,hi,hvalue⟩ := List.mem_map.mp hmem
    obtain ⟨value,rfl⟩ := (hseen i hi).elim id id
    exact ⟨value,hvalue.symm⟩
  have hnumber : (orderedDetails (mergeReasoningDetails P) frames).map (indexOf ∘ storedFields) =
      (orderedDetails (mergeReasoningDetails P) frames).map indexOf := by
    refine List.map_congr_left fun d hd => ?_
    obtain ⟨value,hvalue⟩ := hread d hd
    unfold indexOf
    rw [Function.comp_apply, get_storedFields, hvalue]
    rfl
  rw [hnumber]
  have hof : ∀ d : ReasoningDetail, indexOf d = (get d (text "index")).bind numeral? := by
    intro d
    unfold indexOf
    cases get d (text "index") with
    | none => rfl
    | some value => cases value <;> rfl
  calc (orderedDetails (mergeReasoningDetails P) frames).map indexOf
      = ((orderedDetails (mergeReasoningDetails P) frames).map (get · (text "index"))).map fun value =>
          value.bind numeral? := by
        rw [List.map_map]
        exact List.map_congr_left fun d _ => hof d
    _ = indices.map some := by
        rw [hindices, List.map_map]
        rfl

/-- Blocks come back from the merge and from JSON exactly when their indices ascend and they hold no infinite
number. -/
theorem details_exact_iff (h : Streams blocks frames) :
    List.Forall₂ Same ((orderedDetails (mergeReasoningDetails P) frames).map storedFields) blocks ↔
      Ascending blocks ∧ ∀ block ∈ blocks, FiniteBlock block := by
  constructor
  · intro hsame
    refine ⟨ascending_of_same h hsame,fun block hblock => ?_⟩
    obtain ⟨v,hv,hvb⟩ := exists_left hsame hblock
    obtain ⟨d,-,rfl⟩ := List.mem_map.mp hv
    exact finite_of_same hvb
  · rintro ⟨hasc,hfinite⟩
    have hsame := orderedDetails_of_ascending (P := P) h hasc
    rw [List.forall₂_map_left_iff, List.forall₂_iff_zip]
    exact ⟨hsame.length_eq,fun hpair =>
      same_stored (List.forall₂_zip hsame hpair) (hfinite _ (List.of_mem_zip hpair).2)⟩

end Exact

section Signatures

/-- A block as Anthropic emits it. -/
inductive EmittedBlock
  | thinking (whole : Text) (signature : Option Text)
  | redacted (data : Text)

/-- The part that should be sent back. -/
def EmittedBlock.part : EmittedBlock → ContentPart
  | thinking whole signature => .thinking (some whole) signature
  | redacted data => .redactedThinking (some data)

/-- The frames of one block: thinking in pieces, then its signature. -/
inductive Cuts : EmittedBlock → List ThinkingFrame → Prop
  | thinking (pieces parts : List Text) (signature : Option Text) :
      parts.flatten = signature.getD [] → Cuts (.thinking pieces.flatten signature)
        (.startThinking :: (pieces.map .thinkingDelta ++ parts.map .signatureDelta))
  | redacted (data : Text) : Cuts (.redacted data) [.startRedacted (some data)]

/-- A signature that closes a block. -/
def signatureOf : ThinkingFrame → Option Text
  | .signatureDelta signature => if signature = [] then none else some signature
  | _ => none

def signatures (cut : List ThinkingFrame) : List Text := cut.filterMap signatureOf

/-- The signature of a thinking block comes in one frame. -/
def SignedAtOnce : EmittedBlock → List ThinkingFrame → Prop
  | .thinking _ _, cut => (signatures cut).length = 1
  | .redacted _, _ => True

def signedBlock (thinking signature : Text) : ThinkingBlock := ⟨false,some thinking,none,some signature⟩

/-- What the signatures of a thinking block add: the first one closes it. -/
def closed (thinking : Text) : List Text → List ThinkingBlock
  | [] => []
  | s :: rest => signedBlock thinking s :: rest.map (signedBlock [])

/-- What a cut block adds to the carry. -/
def added : EmittedBlock → List ThinkingFrame → List ThinkingBlock
  | .redacted data, _ => [⟨true,none,some data,none⟩]
  | .thinking thinking _, cut => closed thinking (signatures cut)

variable {cut : List ThinkingFrame} {emitted : EmittedBlock} {t : ThinkingState}

theorem foldl_pieces (pieces : List Text) : ∀ (bs : List ThinkingBlock) (open_ : Text),
    (pieces.map ThinkingFrame.thinkingDelta).foldl takeThinking ⟨bs,some open_⟩ =
      ⟨bs,some (open_ ++ pieces.flatten)⟩ := by
  induction pieces with
  | nil => intro bs open_; simp
  | cons piece rest ih =>
    intro bs open_
    rw [List.map_cons, List.foldl_cons, takeThinking]
    dsimp only [Option.map_some]
    rw [ih, List.flatten_cons, List.append_assoc]

theorem signatures_map (parts : List Text) :
    signatures (parts.map ThinkingFrame.signatureDelta) = parts.filter (· ≠ []) := by
  unfold signatures
  rw [List.filterMap_map]
  induction parts with
  | nil => rfl
  | cons s rest ih =>
    rw [List.filterMap_cons, ih]
    by_cases hs : s = [] <;> simp [signatureOf, hs]

/-- A block that was closed takes further signatures as blocks of their own. -/
theorem foldl_signatures (parts : List Text) : ∀ bs : List ThinkingBlock,
    (parts.map ThinkingFrame.signatureDelta).foldl takeThinking ⟨bs,none⟩ =
      ⟨bs ++ (parts.filter (· ≠ [])).map (signedBlock []),none⟩ := by
  induction parts with
  | nil => intro bs; simp
  | cons s rest ih =>
    intro bs
    rw [List.map_cons, List.foldl_cons, takeThinking]
    by_cases hs : s = []
    · rw [if_pos hs, ih, List.filter_cons_of_neg (by simp [hs])]
    · rw [if_neg hs, Option.getD_none, ih, List.filter_cons_of_pos (by simp [hs]), List.map_cons,
        List.append_assoc]
      rfl

theorem foldl_signatures_open (parts : List Text) (thinking : Text) (bs : List ThinkingBlock) :
    ((parts.map ThinkingFrame.signatureDelta).foldl takeThinking ⟨bs,some thinking⟩).blocks =
      bs ++ closed thinking (parts.filter (· ≠ [])) := by
  induction parts with
  | nil => simp [closed]
  | cons s rest ih =>
    rw [List.map_cons, List.foldl_cons, takeThinking]
    by_cases hs : s = []
    · rw [if_pos hs, ih, List.filter_cons_of_neg (by simp [hs])]
    · rw [if_neg hs, Option.getD_some, foldl_signatures, List.filter_cons_of_pos (by simp [hs]), closed,
        List.append_assoc]
      rfl

theorem signatures_pieces (pieces : List Text) : signatures (pieces.map ThinkingFrame.thinkingDelta) = [] := by
  unfold signatures
  rw [List.filterMap_eq_nil_iff]
  intro frame hframe
  obtain ⟨piece,-,rfl⟩ := List.mem_map.mp hframe
  rfl

theorem signatures_thinking (pieces parts : List Text) :
    signatures (.startThinking :: (pieces.map .thinkingDelta ++ parts.map .signatureDelta)) =
      parts.filter (· ≠ []) := by
  have happend : signatures (.startThinking :: (pieces.map .thinkingDelta ++ parts.map .signatureDelta)) =
      signatures (pieces.map .thinkingDelta) ++ signatures (parts.map .signatureDelta) := by
    unfold signatures
    rw [List.filterMap_cons, List.filterMap_append]
    rfl
  rw [happend, signatures_pieces, signatures_map, List.nil_append]

/-- What a cut block adds does not depend on what was open before it. -/
theorem foldl_cut_block (h : Cuts emitted cut) (t : ThinkingState) :
    (cut.foldl takeThinking t).blocks = t.blocks ++ added emitted cut := by
  cases h with
  | redacted data => rfl
  | thinking pieces parts signature =>
    rw [List.foldl_cons, List.foldl_append, takeThinking]
    rw [foldl_pieces, List.nil_append, foldl_signatures_open, added, signatures_thinking]

theorem foldl_cuts {blocks : List EmittedBlock} {cuts : List (List ThinkingFrame)}
    (h : List.Forall₂ Cuts blocks cuts) : ∀ t : ThinkingState,
      (cuts.flatten.foldl takeThinking t).blocks = t.blocks ++ (List.zipWith added blocks cuts).flatten := by
  induction h with
  | nil => intro t; simp
  | cons hcut _ ih =>
    intro t
    rw [List.flatten_cons, List.foldl_append, ih, foldl_cut_block hcut, List.zipWith_cons_cons, List.flatten_cons,
      List.append_assoc]

/-- Frames about other things leave the blocks alone. -/
theorem foldl_other (frames : List ThinkingFrame) : ∀ t : ThinkingState,
    frames.foldl takeThinking t = (frames.filter (· ≠ .other)).foldl takeThinking t := by
  induction frames with
  | nil => exact fun _ => rfl
  | cons frame rest ih =>
    intro t
    by_cases hother : frame = .other
    · rw [hother, List.foldl_cons, List.filter_cons_of_neg (by simp)]
      exact ih t
    · rw [List.filter_cons_of_pos (by simpa using hother), List.foldl_cons, List.foldl_cons]
      exact ih _

theorem thinkingBlocks_cuts {blocks : List EmittedBlock} {cuts : List (List ThinkingFrame)}
    {frames : List ThinkingFrame} (h : List.Forall₂ Cuts blocks cuts)
    (hframes : frames.filter (· ≠ .other) = cuts.flatten) :
    thinkingBlocks frames = (List.zipWith added blocks cuts).flatten := by
  unfold thinkingBlocks
  rw [foldl_other, hframes, foldl_cuts h, List.nil_append]

/-- A block with one signature is added as it was emitted. -/
theorem added_of_signedAtOnce (h : Cuts emitted cut) (hs : SignedAtOnce emitted cut) :
    (added emitted cut).map thinkingPart = [emitted.part] := by
  cases h with
  | redacted data => rfl
  | thinking pieces parts signature hsignature =>
    have hs : (signatures (.startThinking :: (pieces.map .thinkingDelta ++ parts.map .signatureDelta))).length =
      1 := hs
    rw [signatures_thinking] at hs
    rw [added, signatures_thinking]
    obtain ⟨s,hone⟩ := List.length_eq_one_iff.mp hs
    have hmem : s ∈ parts.filter (· ≠ []) := by rw [hone]; exact List.mem_singleton_self s
    have hne : s ≠ [] := by simpa using (List.mem_filter.mp hmem).2
    have hflatten : parts.flatten = s := by
      have hfilter : (parts.filter (· ≠ [])).flatten = parts.flatten := List.flatten_filter_ne_nil
      rw [← hfilter, hone, List.flatten_singleton]
    have hsome : signature = some s := by
      cases signature with
      | none => exact absurd (hflatten.symm.trans hsignature) hne
      | some x => rw [← hflatten, hsignature]; rfl
    rw [hone, hsome]
    rfl

/-- A part of the carry that is no redacted one has a signature. -/
theorem signature_of_added {part : ContentPart} (h : part ∈ (added emitted cut).map thinkingPart)
    {thinking signature : Option Text} (hpart : part = .thinking thinking signature) :
    ∃ s, signature = some s ∧ s ≠ [] := by
  subst hpart
  obtain ⟨block,hblock,heq⟩ := List.mem_map.mp h
  cases emitted with
  | redacted data =>
    cases List.mem_singleton.mp hblock
    simp [thinkingPart] at heq
  | thinking whole sig =>
    have hclosed : ∀ (ss : List Text), (∀ s ∈ ss, s ≠ []) → block ∈ closed whole ss →
        ∃ t s, block = signedBlock t s ∧ s ≠ [] := by
      intro ss hss hmem
      cases ss with
      | nil => cases hmem
      | cons s rest =>
        rcases List.mem_cons.mp hmem with rfl | hmem
        · exact ⟨whole,s,rfl,hss s List.mem_cons_self⟩
        · obtain ⟨s',hs',rfl⟩ := List.mem_map.mp hmem
          exact ⟨[],s',rfl,hss s' (List.mem_cons_of_mem _ hs')⟩
    have hne : ∀ s ∈ signatures cut, s ≠ [] := by
      intro s hs
      obtain ⟨frame,-,hframe⟩ := List.mem_filterMap.mp hs
      cases frame with
      | signatureDelta x =>
        by_cases hx : x = []
        · simp [signatureOf, hx] at hframe
        · simp only [signatureOf, hx, if_false, Option.some.injEq] at hframe
          exact hframe ▸ hx
      | _ => cases hframe
    obtain ⟨t,s,rfl,hs⟩ := hclosed _ hne hblock
    simp only [thinkingPart, signedBlock, Bool.false_eq_true, if_false, ContentPart.thinking.injEq] at heq
    exact ⟨s,heq.2.symm,hs⟩

/-- A signed block adds at least one part. -/
theorem one_le_added (h : Cuts emitted cut)
    (hs : ∀ thinking signature, emitted.part = .thinking thinking signature → ∃ s, signature = some s ∧ s ≠ []) :
    1 ≤ (added emitted cut).length := by
  cases h with
  | redacted data => exact le_rfl
  | thinking pieces parts signature hsignature =>
    obtain ⟨s,rfl,hne⟩ := hs _ _ rfl
    rw [added, signatures_thinking]
    cases hparts : parts.filter (· ≠ []) with
    | nil =>
      have hfilter : (parts.filter (· ≠ [])).flatten = parts.flatten := List.flatten_filter_ne_nil
      rw [hparts, hsignature] at hfilter
      exact absurd hfilter.symm hne
    | cons s rest => simp [closed]

theorem length_added (h : Cuts emitted cut) (hlength : (added emitted cut).length = 1) :
    SignedAtOnce emitted cut := by
  cases h with
  | redacted data => trivial
  | thinking pieces parts signature _ =>
    rw [added] at hlength
    show (signatures _).length = 1
    cases hs : signatures (.startThinking :: (pieces.map .thinkingDelta ++ parts.map .signatureDelta)) with
    | nil => rw [hs] at hlength; cases hlength
    | cons s rest =>
      rw [hs] at hlength
      simpa [closed] using hlength

theorem flatten_of_signedAtOnce {blocks : List EmittedBlock} {cuts : List (List ThinkingFrame)}
    (h : List.Forall₂ Cuts blocks cuts) (hs : List.Forall₂ SignedAtOnce blocks cuts) :
    (List.zipWith added blocks cuts).flatten.map thinkingPart = blocks.map EmittedBlock.part := by
  induction h with
  | nil => rfl
  | cons hcut _ ih =>
    obtain ⟨hone,hrest⟩ := List.forall₂_cons.mp hs
    rw [List.zipWith_cons_cons, List.flatten_cons, List.map_append, ih hrest,
      added_of_signedAtOnce hcut hone]
    rfl

/-- Where every block adds something and there are as many parts as blocks, each adds one. -/
theorem signedAtOnce_of_length {blocks : List EmittedBlock} {cuts : List (List ThinkingFrame)}
    (h : List.Forall₂ Cuts blocks cuts) (hone : ∀ emitted ∈ blocks, ∀ thinking signature,
      emitted.part = .thinking thinking signature → ∃ s, signature = some s ∧ s ≠ []) :
    blocks.length ≤ (List.zipWith added blocks cuts).flatten.length ∧
    ((List.zipWith added blocks cuts).flatten.length ≤ blocks.length → List.Forall₂ SignedAtOnce blocks cuts) := by
  induction h with
  | nil => exact ⟨le_rfl,fun _ => .nil⟩
  | @cons emitted cut blocks cuts hcut _ ih =>
    obtain ⟨hle,hall⟩ := ih fun e he => hone e (List.mem_cons_of_mem _ he)
    have hadded := one_le_added hcut (hone emitted List.mem_cons_self)
    rw [List.zipWith_cons_cons, List.flatten_cons, List.length_append, List.length_cons]
    refine ⟨by omega,fun hlength => .cons (length_added hcut (by omega)) (hall (by omega))⟩

/-- Anthropic's blocks come back exactly when each signature comes at once. -/
theorem thinking_exact_iff {blocks : List EmittedBlock} {cuts : List (List ThinkingFrame)}
    {frames : List ThinkingFrame} (h : List.Forall₂ Cuts blocks cuts)
    (hframes : frames.filter (· ≠ .other) = cuts.flatten) :
    (thinkingBlocks frames).map thinkingPart = blocks.map EmittedBlock.part ↔
      List.Forall₂ SignedAtOnce blocks cuts := by
  rw [thinkingBlocks_cuts h hframes]
  constructor
  · intro heq
    have hone : ∀ emitted ∈ blocks, ∀ thinking signature,
        emitted.part = .thinking thinking signature → ∃ s, signature = some s ∧ s ≠ [] := by
      intro emitted hemitted thinking signature hpart
      have hmem : emitted.part ∈ (List.zipWith added blocks cuts).flatten.map thinkingPart :=
        heq ▸ List.mem_map_of_mem hemitted
      obtain ⟨b,hb,hbpart⟩ := List.mem_map.mp hmem
      obtain ⟨bs,hbs,hb⟩ := List.mem_flatten.mp hb
      rw [← List.map_uncurry_zip_eq_zipWith] at hbs
      obtain ⟨⟨emitted',cut⟩,-,rfl⟩ := List.mem_map.mp hbs
      exact signature_of_added (List.mem_map.mpr ⟨b,hb,hbpart⟩) hpart
    refine (signedAtOnce_of_length h hone).2 ?_
    have hlength := congrArg List.length heq
    rw [List.length_map, List.length_map] at hlength
    exact hlength.le
  · exact flatten_of_signedAtOnce h

end Signatures

section Messages

theorem mapM_getElem? {α β ε : Type} {f : α → Except ε β} : ∀ {xs : List α} {ys : List β} {i : ℕ} {x : α},
    xs.mapM f = .ok ys → xs[i]? = some x → ∃ y, ys[i]? = some y ∧ f x = .ok y := by
  intro xs
  induction xs with
  | nil => intro ys i x _ hx; simp at hx
  | cons a rest ih =>
    intro ys i x h hx
    rw [List.mapM_cons] at h
    cases ha : f a with
    | error e => rw [ha] at h; cases h
    | ok b =>
      cases hrest : rest.mapM f with
      | error e => rw [ha, hrest] at h; cases h
      | ok bs =>
        rw [ha, hrest] at h
        cases h
        cases i with
        | zero =>
          cases hx
          exact ⟨b,rfl,ha⟩
        | succ i =>
          have hrow := ih hrest hx
          exact hrow

theorem chatMessage_ok {readDetails : ReasoningCarry → Except ProviderError (List ReasoningDetail)}
    {message : ProviderMessage} {sent : ChatMessage} {details : List ReasoningDetail}
    (h : chatMessage readDetails message = .ok sent) (hrole : message.role = .assistant)
    (hreads : ∀ carry, message.reasoning = some carry → readDetails carry = .ok details)
    (hnone : message.reasoning = none → details = []) :
    sent = .assistant message.content details message.toolCalls := by
  unfold chatMessage at h
  rw [hrole] at h
  dsimp only at h
  cases hcarry : message.reasoning with
  | none =>
    rw [hcarry] at h
    cases h
    rw [hnone hcarry]
  | some carry =>
    rw [hcarry] at h
    dsimp only at h
    rw [hreads carry hcarry] at h
    cases h
    rfl

theorem toChat_ok {readDetails : ReasoningCarry → Except ProviderError (List ReasoningDetail)}
    {system : Text} {messages : List ProviderMessage} {sent : List ChatMessage} {i : ℕ}
    {message : ProviderMessage} {details : List ReasoningDetail}
    (h : (messages.mapM (chatMessage readDetails)).map (ChatMessage.system system :: ·) = .ok sent)
    (hi : messages[i]? = some message) (hrole : message.role = .assistant)
    (hreads : ∀ carry, message.reasoning = some carry → readDetails carry = .ok details)
    (hnone : message.reasoning = none → details = []) :
    sent[i + 1]? = some (.assistant message.content details message.toolCalls) := by
  cases hm : messages.mapM (chatMessage readDetails) with
  | error e => rw [hm] at h; cases h
  | ok rest =>
    rw [hm] at h
    cases h
    obtain ⟨y,hy,hmessage⟩ := mapM_getElem? hm hi
    rw [List.getElem?_cons_succ, hy, chatMessage_ok hmessage hrole hreads hnone]

theorem anthropicMessage_ok {message : ProviderMessage} {sent : AnthropicMessage} {parts : List ContentPart}
    (h : anthropicMessage P message = .ok sent) (hrole : message.role = .assistant)
    (hparts : reasoningParts message.reasoning = .ok parts) : ∃ calls, sent = .assistant
      (parts ++ (if message.content = [] then [] else [.text message.content]) ++ calls) := by
  unfold anthropicMessage at h
  rw [hrole] at h
  dsimp only at h
  rw [hparts] at h
  cases hcalls : message.toolCalls.mapM (toolUse P) with
  | error e => rw [hcalls] at h; cases h
  | ok calls =>
    rw [hcalls] at h
    cases h
    exact ⟨calls,rfl⟩

end Messages

section Replay

/-- The details that the stream of OpenRouter or Nous comes to, after they were stored. -/
def replayedDetails (P : Platform) (frames : List (List ReasoningDetail)) : List ReasoningDetail :=
  (orderedDetails (mergeReasoningDetails P) frames).map storedFields

theorem orderedDetails_nil {frames : List (List ReasoningDetail)}
    (h : frames.foldl (mergeReasoningDetails P) [] = []) :
    orderedDetails (mergeReasoningDetails P) frames = [] := by
  unfold orderedDetails
  rw [h, List.mergeSort_nil, List.map_nil]

theorem openRouterDetails_carry {frames : List (List ReasoningDetail)} {carry : ReasoningCarry}
    (h : (openRouterCarry P frames).map ReasoningCarry.stored = some carry) :
    openRouterDetails carry = .ok (replayedDetails P frames) := by
  unfold openRouterCarry at h
  split at h
  · cases h
  · cases h
    rfl

theorem nousDetails_carry {frames : List (List ReasoningDetail)} {carry : ReasoningCarry}
    (h : (nousCarry P frames).map ReasoningCarry.stored = some carry) :
    nousDetails carry = .ok (replayedDetails P frames) := by
  unfold nousCarry at h
  split at h
  · cases h
  · cases h
    rfl

theorem replayedDetails_of_none {frames : List (List ReasoningDetail)}
    (h : (openRouterCarry P frames).map ReasoningCarry.stored = none) : replayedDetails P frames = [] := by
  unfold openRouterCarry at h
  split at h
  · rename_i hempty
    unfold replayedDetails
    rw [orderedDetails_nil (List.isEmpty_iff.mp hempty), List.map_nil]
  · cases h

theorem reasoningParts_carry (frames : List ThinkingFrame) :
    reasoningParts ((anthropicCarry frames).map ReasoningCarry.stored) =
      .ok ((thinkingBlocks frames).map thinkingPart) := by
  unfold anthropicCarry
  split
  · rename_i hempty
    rw [List.isEmpty_iff.mp hempty]
    rfl
  · rfl

/-- Wherever the message of a turn stands in a later request, its blocks are sent as they were produced exactly
when, for OpenRouter and Nous, every block has an index, the indices ascend and no number is infinite, and, for
Anthropic, the signature of each thinking block comes at once. -/
theorem replayed_exactly_iff (P : Platform) {messages : List ProviderMessage} {i : ℕ} {message : ProviderMessage}
    (hi : messages[i]? = some message) (hrole : message.role = .assistant) :
    (∀ blocks frames, Streams blocks frames → ∀ (system : Text) sent,
      message.reasoning = (openRouterCarry P frames).map ReasoningCarry.stored →
      toChatMessages system messages = .ok sent →
      ∃ details, sent[i + 1]? = some (.assistant message.content details message.toolCalls) ∧
        (List.Forall₂ Same details blocks ↔ Ascending blocks ∧ ∀ block ∈ blocks, FiniteBlock block)) ∧
    (∀ blocks frames, Streams blocks frames → ∀ (system : Text) sent,
      message.reasoning = (nousCarry P frames).map ReasoningCarry.stored →
      toNousChatMessages system messages = .ok sent →
      ∃ details, sent[i + 1]? = some (.assistant message.content details message.toolCalls) ∧
        (List.Forall₂ Same details blocks ↔ Ascending blocks ∧ ∀ block ∈ blocks, FiniteBlock block)) ∧
    ∀ blocks cuts frames, List.Forall₂ Cuts blocks cuts → frames.filter (· ≠ .other) = cuts.flatten → ∀ sent,
      message.reasoning = (anthropicCarry frames).map ReasoningCarry.stored →
      toAnthropicMessages P messages = .ok sent →
      ∃ parts calls, sent[i]? = some (.assistant
          (parts ++ (if message.content = [] then [] else [.text message.content]) ++ calls)) ∧
        (parts = blocks.map EmittedBlock.part ↔ List.Forall₂ SignedAtOnce blocks cuts) := by
  refine ⟨?_,?_,?_⟩
  · intro blocks frames h system sent hcarry hsent
    refine ⟨replayedDetails P frames,toChat_ok hsent hi hrole ?_ ?_,details_exact_iff h⟩
    · exact fun carry hc => openRouterDetails_carry (hcarry ▸ hc)
    · exact fun hnone => replayedDetails_of_none (hcarry ▸ hnone)
  · intro blocks frames h system sent hcarry hsent
    refine ⟨replayedDetails P frames,toChat_ok hsent hi hrole ?_ ?_,details_exact_iff h⟩
    · exact fun carry hc => nousDetails_carry (hcarry ▸ hc)
    · intro hnone
      rw [hcarry, Option.map_eq_none_iff] at hnone
      apply replayedDetails_of_none
      rw [Option.map_eq_none_iff]
      unfold nousCarry at hnone
      unfold openRouterCarry
      split at hnone
      · rename_i hempty
        exact if_pos hempty
      · cases hnone
  · intro blocks cuts frames hcuts hframes sent hcarry hsent
    obtain ⟨y,hy,hmessage⟩ := mapM_getElem? hsent hi
    obtain ⟨calls,rfl⟩ := anthropicMessage_ok hmessage hrole (hcarry ▸ reasoningParts_carry frames)
    exact ⟨_,calls,hy,thinking_exact_iff hcuts hframes⟩

/-- A block may come whole. -/
theorem splits_self (block : ReasoningDetail) : Splits block [block] := by
  refine ⟨List.cons_ne_nil _ _,?_,?_,?_⟩
  · intro f hf
    rw [List.mem_singleton.mp hf]
  · rintro key whole ⟨-,hwhole⟩
    refine ⟨[whole],List.cons_ne_nil _ _,List.flatten_singleton,?_⟩
    rw [List.filterMap_cons, hwhole]
    rfl
  · intro key _
    refine ⟨fun f hf => Or.inr (by rw [List.mem_singleton.mp hf]),fun value hvalue => ?_⟩
    exact ⟨block,List.mem_singleton_self _,hvalue⟩

def samplePlatform : Platform := ⟨fun _ => none,fun _ => []⟩

def sampleBlock (index : Option ℚ) (value : String) : ReasoningDetail :=
  (text "type",.string (text "reasoning.text")) :: (text "text",.string (text value)) ::
    (index.map fun i => (text "index",Json.number (.finite i))).toList

def assistantMessage (reasoning : Option ReasoningCarry) : ProviderMessage := ⟨.assistant,[],none,[],reasoning⟩

theorem replayed_exactly_iff_sample : ∃ sent details,
    toChatMessages [] [assistantMessage ((openRouterCarry samplePlatform [[sampleBlock (some 3) "a"]]).map
      ReasoningCarry.stored)] = .ok sent ∧
    sent[1]? = some (.assistant [] details []) ∧ List.Forall₂ Same details [sampleBlock (some 3) "a"] := by
  have hstreams : Streams [sampleBlock (some 3) "a"] [[sampleBlock (some 3) "a"]] :=
    ⟨[[sampleBlock (some 3) "a"]],.cons (splits_self _) .nil,rfl⟩
  obtain ⟨sent,hsent⟩ : ∃ sent, toChatMessages [] [assistantMessage
      ((openRouterCarry samplePlatform [[sampleBlock (some 3) "a"]]).map ReasoningCarry.stored)] = .ok sent :=
    ⟨_,rfl⟩
  obtain ⟨details,hdetails,hiff⟩ := (replayed_exactly_iff samplePlatform (i := 0) rfl rfl).1 _ _ hstreams [] sent rfl hsent
  refine ⟨sent,details,hsent,hdetails,hiff.mpr ⟨⟨[.finite 3],by decide,by simp⟩,?_⟩⟩
  intro block hblock key value hvalue
  rw [List.mem_singleton.mp hblock] at hvalue
  have hmem : value ∈ (sampleBlock (some 3) "a").map Prod.snd := by
    obtain ⟨e,he,rfl⟩ := Option.map_eq_some_iff.mp hvalue
    exact List.mem_map_of_mem (List.mem_of_find?_eq_some he)
  simp only [sampleBlock, Option.map_some, Option.toList_some, List.map_cons, List.map_nil, List.mem_cons,
    List.not_mem_nil, or_false] at hmem
  rcases hmem with rfl | rfl | rfl <;> simp [finite]

/-- A block without an index is merged into the block before it, whose index is the number of blocks. -/
theorem not_replayed_exactly : ∃ P blocks frames sent, Streams blocks frames ∧
    toChatMessages [] [assistantMessage ((openRouterCarry P frames).map ReasoningCarry.stored)] = .ok sent ∧
    ¬ ∃ content details calls, sent[1]? = some (.assistant content details calls) ∧
      List.Forall₂ Same details blocks := by
  refine ⟨samplePlatform,[sampleBlock (some 1) "a",sampleBlock none "b"],
    [[sampleBlock (some 1) "a"],[sampleBlock none "b"]],_,
    ⟨[[sampleBlock (some 1) "a"],[sampleBlock none "b"]],.cons (splits_self _) (.cons (splits_self _) .nil),rfl⟩,
    rfl,?_⟩
  rintro ⟨content,details,calls,hsent,hsame⟩
  have hdetails : replayedDetails samplePlatform [[sampleBlock (some 1) "a"],[sampleBlock none "b"]] = details := by
    cases hsent
    rfl
  have hone : (replayedDetails samplePlatform
      [[sampleBlock (some 1) "a"],[sampleBlock none "b"]]).length = 1 := by
    unfold replayedDetails orderedDetails
    rw [List.length_map, List.length_map, List.length_mergeSort]
    rfl
  rw [hdetails, hsame.length_eq] at hone
  cases hone

end Replay

end HermesEnterprise.Model
