import HermesEnterprise.Model.Reasoning
import Mathlib.Data.List.Basic

/-! # Blocks in fragments

A block is cut into fragments: text and summary in pieces, every other field whole. Merging fragments that
carry the index of their block gives the block back.
-/
namespace HermesEnterprise.Model
open Inbound Providers

variable {P : Platform} {index : Number} {detail block : ReasoningDetail} {key : Text}

section Fields

theorem get_setEntry (fields : Fields) (key : Text) (value : Json) :
    get (setEntry fields key value) key = some value := entry_setEntry fields key value

theorem get_setEntry_ne {fields : Fields} {key key' : Text} {value : Json} (h : key' ≠ key) :
    get (setEntry fields key' value) key = get fields key := entry_setEntry_ne h

theorem get_cons (e : Text × Json) (rest : Fields) (key : Text) :
    get (e :: rest) key = if e.1 = key then some e.2 else get rest key := by
  unfold Providers.get entry
  by_cases h : e.1 = key <;> simp [h]

theorem get_append (a b : Fields) (key : Text) : get (a ++ b) key = (get a key).or (get b key) := by
  unfold Providers.get entry
  rw [List.find?_append]
  cases a.find? (fun e => decide (e.1 = key)) <;> rfl

theorem get_map (f : Text → Json → Json) (fields : Fields) (key : Text) :
    get (fields.map fun e => (e.1,f e.1 e.2)) key = (get fields key).map (f key) := by
  induction fields with
  | nil => rfl
  | cons e rest ih =>
    rw [List.map_cons, get_cons, get_cons, ih]
    by_cases h : e.1 = key
    · rw [if_pos h, if_pos h, h]
      rfl
    · rw [if_neg h, if_neg h]

/-- A spread keeps the newer of two values. -/
theorem get_assign (base detail : Fields) (key : Text) :
    get (assign base detail) key = (get detail key).or (get base key) := by
  unfold assign
  rw [get_append, get_map fun k v => (get detail k).getD v]
  cases hbase : get base key with
  | none =>
    have hkeep : get (detail.filter fun e => (get base e.1).isNone) key = get detail key :=
      entry_filter (fun k => (get base k).isNone) (by rw [hbase]; rfl)
    rw [hkeep]
    cases get detail key <;> rfl
  | some value => cases get detail key <;> rfl

theorem storedFields_eq_map (fields : Fields) :
    storedFields fields = fields.map fun e => (e.1,stored e.2) := by
  induction fields with
  | nil => rw [storedFields, List.map_nil]
  | cons e rest ih =>
    obtain ⟨key,value⟩ := e
    rw [storedFields, ih, List.map_cons]

theorem get_storedFields (fields : Fields) (key : Text) :
    get (storedFields fields) key = (get fields key).map stored := by
  rw [storedFields_eq_map]
  exact get_map (fun _ => stored) fields key

end Fields

section Finite

mutual

/-- No number in the value is infinite. -/
def finite : Json → Bool
  | .number (.infinite _) => false
  | .array items => finiteItems items
  | .object fields => finiteFields fields
  | _ => true

def finiteItems : List Json → Bool
  | [] => true
  | item :: rest => finite item && finiteItems rest

def finiteFields : List (Text × Json) → Bool
  | [] => true
  | (_,value) :: rest => finite value && finiteFields rest

end

mutual

theorem stored_eq_self_iff : ∀ value : Json, stored value = value ↔ finite value = true
  | .null | .bool _ | .string _ | .number (.finite _) => by simp [stored, finite]
  | .number (.infinite _) => by simp [stored, finite]
  | .array items => by
    rw [stored, finite, Json.array.injEq]
    exact storedItems_eq_self_iff items
  | .object fields => by
    rw [stored, finite, Json.object.injEq]
    exact storedFields_eq_self_iff fields

theorem storedItems_eq_self_iff : ∀ items : List Json, storedItems items = items ↔ finiteItems items = true
  | [] => by simp [storedItems, finiteItems]
  | item :: rest => by
    rw [storedItems, finiteItems, List.cons.injEq, Bool.and_eq_true, stored_eq_self_iff item,
      storedItems_eq_self_iff rest]

theorem storedFields_eq_self_iff :
    ∀ fields : List (Text × Json), storedFields fields = fields ↔ finiteFields fields = true
  | [] => by simp [storedFields, finiteFields]
  | (key,value) :: rest => by
    rw [storedFields, finiteFields, List.cons.injEq, Prod.mk.injEq, Bool.and_eq_true, stored_eq_self_iff value,
      storedFields_eq_self_iff rest]
    simp

end

mutual

/-- What was stored once is stored alike. -/
theorem finite_stored : ∀ value : Json, finite (stored value) = true
  | .null | .bool _ | .string _ | .number (.finite _) => by simp [stored, finite]
  | .number (.infinite _) => by simp [stored, finite]
  | .array items => by
    rw [stored, finite]
    exact finite_storedItems items
  | .object fields => by
    rw [stored, finite]
    exact finite_storedFields fields

theorem finite_storedItems : ∀ items : List Json, finiteItems (storedItems items) = true
  | [] => by simp [storedItems, finiteItems]
  | item :: rest => by
    rw [storedItems, finiteItems, finite_stored item, finite_storedItems rest]
    rfl

theorem finite_storedFields : ∀ fields : List (Text × Json), finiteFields (storedFields fields) = true
  | [] => by simp [storedFields, finiteFields]
  | (key,value) :: rest => by
    rw [storedFields, finiteFields, finite_stored value, finite_storedFields rest]
    rfl

end

end Finite

section Splitting

/-- The two fields whose text is streamed in pieces. -/
def cutKeys : List Text := [text "text",text "summary"]

/-- A field of a block that comes in pieces. -/
def Cut (block : ReasoningDetail) (key : Text) (whole : Text) : Prop :=
  key ∈ cutKeys ∧ get block key = some (.string whole)

/-- The fragments of one block. Each has its index, if it has one; pieces of a text are in order; another
field comes whole, once or repeatedly. -/
structure Splits (block : ReasoningDetail) (fragments : List ReasoningDetail) : Prop where
  nonempty : fragments ≠ []
  index : ∀ f ∈ fragments, get f (text "index") = get block (text "index")
  cut : ∀ key whole, Cut block key whole → ∃ pieces : List Text, pieces ≠ [] ∧ pieces.flatten = whole ∧
    fragments.filterMap (get · key) = pieces.map Json.string
  whole : ∀ key, (∀ t, ¬ Cut block key t) →
    (∀ f ∈ fragments, get f key = none ∨ get f key = get block key) ∧
    (∀ value, get block key = some value → ∃ f ∈ fragments, get f key = some value)

/-- The frames of a stream that cut each block in turn. -/
def Streams (blocks : List ReasoningDetail) (frames : List (List ReasoningDetail)) : Prop :=
  ∃ fragments : List (List ReasoningDetail), List.Forall₂ Splits blocks fragments ∧
    frames.flatten = fragments.flatten

/-- The same fields with the same values. -/
def Same (a b : ReasoningDetail) : Prop := ∀ key, get a key = get b key

/-- Every block has an index, and the indices ascend. -/
def Ascending (blocks : List ReasoningDetail) : Prop :=
  ∃ indices : List Number, blocks.map indexOf = indices.map some ∧
    indices.Pairwise fun i j => rank i < rank j

/-- No number in the block is infinite. -/
def FiniteBlock (block : ReasoningDetail) : Prop := ∀ key value, get block key = some value → finite value = true

end Splitting

section Merging

/-- What a fragment makes of one field of an open block. -/
def fieldStep (P : Platform) (key : Text) (value piece : Option Json) : Option Json :=
  if key ∈ cutKeys then
    match piece with
    | some (.string s) => some (.string (templateText P value ++ s))
    | some other => some other
    | none => value
  else piece.or value

theorem index_not_cut : text "index" ∉ cutKeys := by decide

theorem text_ne_summary : text "text" ≠ text "summary" := by decide

theorem get_appendText_ne {open_ merged : ReasoningDetail} {key key' : Text} (h : key' ≠ key) :
    get (appendText P open_ detail key' merged) key = get merged key := by
  unfold appendText
  split
  · exact get_setEntry_ne h
  · rfl

theorem get_appendText {open_ merged : ReasoningDetail} {key : Text} :
    get (appendText P open_ detail key merged) key =
      match get detail key with
      | some (.string piece) => some (.string (templateText P (get open_ key) ++ piece))
      | _ => get merged key := by
  unfold appendText
  cases get detail key with
  | none => rfl
  | some value =>
    cases value with
    | string piece => exact get_setEntry ..
    | _ => rfl

/-- The fields of a merged block, other than its index. -/
theorem get_mergeDetail (open_ : Option ReasoningDetail) (hkey : text "index" ≠ key) :
    get (mergeDetail P open_ detail index) key = fieldStep P key (open_.bind (get · key)) (get detail key) := by
  cases open_ with
  | none =>
    unfold mergeDetail fieldStep
    rw [get_setEntry_ne hkey]
    cases get detail key with
    | none => simp
    | some value => cases value <;> simp [templateText]
  | some open_ =>
    unfold mergeDetail fieldStep
    dsimp only [Option.bind_some]
    have hspread : get (setEntry (assign open_ detail) (text "index") (.number index)) key =
        (get detail key).or (get open_ key) := by rw [get_setEntry_ne hkey, get_assign]
    by_cases hcut : key ∈ cutKeys
    · rw [if_pos hcut]
      rcases List.mem_pair.mp hcut with rfl | rfl
      · rw [get_appendText_ne (Ne.symm text_ne_summary), get_appendText, hspread]
        cases get detail (text "text") with
        | none => rfl
        | some value => cases value <;> rfl
      · rw [get_appendText, get_appendText_ne text_ne_summary, hspread]
        cases get detail (text "summary") with
        | none => rfl
        | some value => cases value <;> rfl
    · have hne : text "text" ≠ key ∧ text "summary" ≠ key := by
        constructor <;> (rintro rfl; exact hcut (by decide))
      rw [if_neg hcut, get_appendText_ne hne.2, get_appendText_ne hne.1, hspread]

theorem get_mergeDetail_index (open_ : Option ReasoningDetail) :
    get (mergeDetail P open_ detail index) (text "index") = some (.number index) := by
  have htext : text "text" ≠ text "index" := by decide
  have hsummary : text "summary" ≠ text "index" := by decide
  cases open_ with
  | none => exact get_setEntry ..
  | some open_ =>
    unfold mergeDetail
    dsimp only
    rw [get_appendText_ne hsummary, get_appendText_ne htext, get_setEntry]

/-- A block after some of its fragments. -/
def absorb (P : Platform) (index : Number) (open_ : Option ReasoningDetail) (detail : ReasoningDetail) :
    Option ReasoningDetail := some (mergeDetail P open_ detail index)

theorem get_absorbed (hkey : text "index" ≠ key) (fragments : List ReasoningDetail) :
    ∀ open_ : Option ReasoningDetail, (fragments.foldl (absorb P index) open_).bind (get · key) =
      (fragments.map (get · key)).foldl (fieldStep P key) (open_.bind (get · key)) := by
  induction fragments with
  | nil => exact fun _ => rfl
  | cons f rest ih =>
    intro open_
    rw [List.foldl_cons, ih, List.map_cons, List.foldl_cons]
    congr 1
    exact get_mergeDetail open_ hkey

end Merging

section Pieces
variable {value : Json} {pieces : List (Option Json)}

/-- A field that comes whole replaces itself. -/
theorem fieldStep_whole (hwhole : ∀ t, key ∈ cutKeys → value ≠ .string t) {open_ piece : Option Json}
    (ho : open_ = none ∨ open_ = some value) (hp : piece = none ∨ piece = some value) :
    fieldStep P key open_ piece = piece.or open_ := by
  unfold fieldStep
  by_cases hcut : key ∈ cutKeys
  · rw [if_pos hcut]
    rcases hp with rfl | rfl
    · rfl
    · cases value with
      | string t => exact absurd rfl (hwhole t hcut)
      | _ => rfl
  · rw [if_neg hcut]

theorem foldl_whole (hwhole : ∀ t, key ∈ cutKeys → value ≠ .string t)
    (hp : ∀ piece ∈ pieces, piece = none ∨ piece = some value) :
    ∀ open_ : Option Json, open_ = none ∨ open_ = some value → some value ∈ pieces ∨ open_ = some value →
      pieces.foldl (fieldStep P key) open_ = some value := by
  induction pieces with
  | nil =>
    intro open_ _ h
    exact h.resolve_left List.not_mem_nil
  | cons piece rest ih =>
    intro open_ ho h
    have hpiece := hp piece List.mem_cons_self
    have hrest : ∀ p ∈ rest, p = none ∨ p = some value := fun p h => hp p (List.mem_cons_of_mem _ h)
    rw [List.foldl_cons, fieldStep_whole hwhole ho hpiece]
    rcases hpiece with rfl | rfl
    · rw [Option.none_or]
      exact ih hrest open_ ho (h.imp_left fun hmem => (List.mem_cons.mp hmem).resolve_left (by simp))
    · rw [Option.some_or]
      exact ih hrest _ (Or.inr rfl) (Or.inr rfl)

/-- A field that never comes stays as it is. -/
theorem foldl_absent (hp : ∀ piece ∈ pieces, piece = none) (open_ : Option Json) :
    pieces.foldl (fieldStep P key) open_ = open_ := by
  induction pieces with
  | nil => rfl
  | cons piece rest ih =>
    have hstep : fieldStep P key open_ none = open_ := by
      unfold fieldStep
      split <;> rfl
    rw [List.foldl_cons, hp piece List.mem_cons_self, hstep]
    exact ih fun p h => hp p (List.mem_cons_of_mem _ h)

/-- Pieces of a text are put together. -/
theorem foldl_cut (hcut : key ∈ cutKeys) {texts : List Text}
    (hp : pieces.filterMap id = texts.map Json.string) :
    ∀ open_ : Option Json, (open_ = none ∨ ∃ s, open_ = some (.string s)) →
      pieces.foldl (fieldStep P key) open_ =
        if texts = [] then open_ else some (.string (templateText P open_ ++ texts.flatten)) := by
  induction pieces generalizing texts with
  | nil =>
    intro open_ _
    have hnil : texts = [] := List.map_eq_nil_iff.mp hp.symm
    rw [hnil, if_pos rfl]
    rfl
  | cons piece rest ih =>
    intro open_ ho
    cases piece with
    | none =>
      have hstep : fieldStep P key open_ none = open_ := by
        unfold fieldStep
        rw [if_pos hcut]
      rw [List.foldl_cons, hstep]
      exact ih (by simpa using hp) open_ ho
    | some v =>
      cases texts with
      | nil => simp at hp
      | cons s texts =>
        have hv : v = .string s ∧ rest.filterMap id = texts.map Json.string := by simpa using hp
        obtain ⟨rfl,hrest⟩ := hv
        have hstep : fieldStep P key open_ (some (.string s)) =
            some (.string (templateText P open_ ++ s)) := by
          unfold fieldStep
          rw [if_pos hcut]
        rw [List.foldl_cons, hstep, ih hrest _ (Or.inr ⟨_,rfl⟩), if_neg (List.cons_ne_nil _ _)]
        cases texts with
        | nil => simp
        | cons t texts => simp [templateText, display]

end Pieces

section Blocks
variable {blocks : List ReasoningDetail} {fragments : List ReasoningDetail} {into : Blocks}

theorem indexOf_eq_some : indexOf detail = some index ↔ get detail (text "index") = some (.number index) := by
  unfold indexOf
  cases get detail (text "index") with
  | none => simp
  | some value => cases value <;> simp

/-- The fragments of a block with an index make up the block. -/
theorem absorbed_same (h : Splits block fragments) (hindex : indexOf block = some index) :
    ∃ v, fragments.foldl (absorb P index) none = some v ∧ Same v block := by
  have hsome : ∃ v, fragments.foldl (absorb P index) none = some v ∧
      get v (text "index") = some (.number index) := by
    obtain ⟨before,last,hlast⟩ := List.eq_nil_or_concat fragments |>.resolve_left h.nonempty
    refine ⟨mergeDetail P (before.foldl (absorb P index) none) last index,?_,get_mergeDetail_index _⟩
    rw [hlast, List.concat_eq_append, List.foldl_append]
    rfl
  obtain ⟨v,hv,hvindex⟩ := hsome
  refine ⟨v,hv,fun key => ?_⟩
  by_cases hkey : text "index" = key
  · rw [← hkey, hvindex, indexOf_eq_some.mp hindex]
  · have hget : (fragments.foldl (absorb P index) none).bind (get · key) = _ :=
      get_absorbed hkey fragments none
    rw [hv, Option.bind_some, Option.bind_none] at hget
    rw [hget]
    by_cases hcut : ∃ t, Cut block key t
    · obtain ⟨whole,hkeys,hblock⟩ := hcut
      obtain ⟨pieces,hne,hflatten,hpieces⟩ := h.cut key whole ⟨hkeys,hblock⟩
      have hmap : (fragments.map (get · key)).filterMap id = pieces.map Json.string := by
        rw [List.filterMap_map]
        exact hpieces
      rw [foldl_cut hkeys hmap _ (Or.inl rfl), if_neg hne, hblock, hflatten]
      rfl
    · have hnot : ∀ t, ¬ Cut block key t := fun t ht => hcut ⟨t,ht⟩
      obtain ⟨hwhole,hcomes⟩ := h.whole key hnot
      cases hblock : get block key with
      | none =>
        refine foldl_absent (fun piece hpiece => ?_) none
        obtain ⟨f,hf,rfl⟩ := List.mem_map.mp hpiece
        exact (hwhole f hf).elim id fun heq => heq.trans hblock
      | some value =>
        obtain ⟨f,hf,hvalue⟩ := hcomes value hblock
        refine foldl_whole (fun t hkeys heq => hnot t ⟨hkeys,by rw [hblock, heq]⟩) ?_ none (Or.inl rfl)
          (Or.inl (List.mem_map.mpr ⟨f,hf,hvalue⟩))
        intro piece hpiece
        obtain ⟨g,hg,rfl⟩ := List.mem_map.mp hpiece
        rw [← hblock]
        exact hwhole g hg

theorem Blocks.get_fresh (h : ∀ e ∈ into, e.1 ≠ index) : into.get index = none := by
  unfold Blocks.get
  rw [List.find?_eq_none.mpr fun e he => by simpa using h e he]
  rfl

theorem Blocks.set_fresh (h : ∀ e ∈ into, e.1 ≠ index) : into.set index detail = into ++ [(index,detail)] := by
  unfold Blocks.set
  rw [if_neg]
  intro hany
  obtain ⟨e,he,heq⟩ := List.any_eq_true.mp hany
  exact h e he (of_decide_eq_true heq)

theorem Blocks.get_last (h : ∀ e ∈ into, e.1 ≠ index) : Blocks.get (into ++ [(index,detail)]) index = some detail := by
  unfold Blocks.get
  rw [List.find?_append, List.find?_eq_none.mpr fun e he => by simpa using h e he]
  simp

theorem Blocks.set_last {detail' : ReasoningDetail} (h : ∀ e ∈ into, e.1 ≠ index) :
    Blocks.set (into ++ [(index,detail)]) index detail' = into ++ [(index,detail')] := by
  unfold Blocks.set
  have hmap : into.map (fun e => if e.1 = index then (index,detail') else e) = into := by
    conv_rhs => rw [← List.map_id into]
    refine List.map_congr_left fun e he => ?_
    rw [if_neg (h e he), id]
  rw [if_pos (by simp), List.map_append, hmap]
  simp

/-- Merging a detail under its own index. -/
def mergeAt (P : Platform) (into : Blocks) (detail : ReasoningDetail) : Blocks :=
  match indexOf detail with
  | some index => into.set index (mergeDetail P (into.get index) detail index)
  | none => into

theorem foldl_mergeNext {details : List ReasoningDetail} (h : ∀ d ∈ details, (indexOf d).isSome) (n : ℕ) :
    ∀ into : Blocks, details.foldl (mergeNext P) (into,n) = (details.foldl (mergeAt P) into,n) := by
  induction details with
  | nil => exact fun _ => rfl
  | cons d rest ih =>
    intro into
    obtain ⟨index,hindex⟩ := Option.isSome_iff_exists.mp (h d List.mem_cons_self)
    have hnext : mergeNext P (into,n) d = (mergeAt P into d,n) := by
      unfold mergeNext mergeAt
      rw [hindex]
    rw [List.foldl_cons, List.foldl_cons, hnext]
    exact ih (fun d hd => h d (List.mem_cons_of_mem _ hd)) _

/-- Frames do not matter for details that have their index. -/
theorem foldl_frames {frames : List (List ReasoningDetail)} (h : ∀ d ∈ frames.flatten, (indexOf d).isSome) :
    ∀ into : Blocks, frames.foldl (mergeReasoningDetails P) into = frames.flatten.foldl (mergeAt P) into := by
  induction frames with
  | nil => exact fun _ => rfl
  | cons frame rest ih =>
    intro into
    have hframe : mergeReasoningDetails P into frame = frame.foldl (mergeAt P) into := by
      unfold mergeReasoningDetails
      rw [foldl_mergeNext fun d hd => h d (List.mem_append_left _ hd)]
    rw [List.foldl_cons, List.flatten_cons, List.foldl_append, hframe]
    exact ih (fun d hd => h d (List.mem_append_right _ hd)) _

/-- Fragments of one index go on with its entry, the last one. -/
theorem foldl_last (hindices : ∀ f ∈ fragments, indexOf f = some index) (hfresh : ∀ e ∈ into, e.1 ≠ index) :
    ∀ open_ : ReasoningDetail, ∃ v, fragments.foldl (absorb P index) (some open_) = some v ∧
      fragments.foldl (mergeAt P) (into ++ [(index,open_)]) = into ++ [(index,v)] := by
  induction fragments with
  | nil => exact fun open_ => ⟨open_,rfl,rfl⟩
  | cons f rest ih =>
    intro open_
    have hstep : mergeAt P (into ++ [(index,open_)]) f =
        into ++ [(index,mergeDetail P (some open_) f index)] := by
      unfold mergeAt
      rw [hindices f List.mem_cons_self]
      dsimp only
      rw [Blocks.get_last hfresh, Blocks.set_last hfresh]
    obtain ⟨v,hv,hlast⟩ := ih (fun f hf => hindices f (List.mem_cons_of_mem _ hf))
      (mergeDetail P (some open_) f index)
    exact ⟨v,hv,by rw [List.foldl_cons, hstep, hlast]⟩

/-- The fragments of a block add it under its index. -/
theorem foldl_fragments (h : Splits block fragments) (hindex : indexOf block = some index)
    (hfresh : ∀ e ∈ into, e.1 ≠ index) :
    ∃ v, fragments.foldl (mergeAt P) into = into ++ [(index,v)] ∧ Same v block := by
  obtain ⟨v,hv,hsame⟩ := absorbed_same (P := P) h hindex
  refine ⟨v,?_,hsame⟩
  have hindices : ∀ f ∈ fragments, indexOf f = some index := fun f hf => by
    rw [indexOf_eq_some, h.index f hf, ← indexOf_eq_some, hindex]
  cases fragments with
  | nil => exact absurd rfl h.nonempty
  | cons f rest =>
    have hstep : mergeAt P into f = into ++ [(index,mergeDetail P none f index)] := by
      unfold mergeAt
      rw [hindices f List.mem_cons_self]
      dsimp only
      rw [Blocks.get_fresh hfresh, Blocks.set_fresh hfresh]
    obtain ⟨w,hw,hlast⟩ := foldl_last (P := P) (fun f hf => hindices f (List.mem_cons_of_mem _ hf)) hfresh
      (mergeDetail P none f index)
    have hvw : some w = some v := by
      rw [← hw, ← hv]
      rfl
    rw [List.foldl_cons, hstep, hlast, Option.some.inj hvw]

end Blocks

end HermesEnterprise.Model
