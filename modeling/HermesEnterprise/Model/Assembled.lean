import HermesEnterprise.Model.Replayed
import HermesEnterprise.Model.Torn
import HermesEnterprise.Providers.JsonText

/-! # Tool calls put together

A Chat Completions provider streams its tool calls in fragments, several calls at once and in any order. What
is yielded is one call for each index, in the order of the indices, made of all the fragments of its index.
-/
namespace HermesEnterprise.Model
open Inbound Providers

section Specification
variable (P : Platform)

/-- The fragments that a frame brings: those of its first choice. -/
def fragmentsIn (value : Json) : List CallFragment :=
  match (itemsAt ((value.fields?).getD []) (text "choices")).bind List.head? with
  | none => []
  | some choice => if truthy choice then fragmentsOf ((fieldsAt ((choice.fields?).getD []) (text "delta")).getD []) else []

/-- The fragments of a stream, in the order they were sent. -/
def fragmentsSent (frames : List SseFrame) : List CallFragment :=
  frames.flatMap fun frame =>
    match parseFrameJson P frame with
    | .ok (some value) => fragmentsIn value
    | _ => []

/-- The text of a frame: the content of its first choice. -/
def contentIn (value : Json) : Text :=
  match (itemsAt ((value.fields?).getD []) (text "choices")).bind List.head? with
  | none => []
  | some choice =>
    if truthy choice then
      (textAt ((fieldsAt ((choice.fields?).getD []) (text "delta")).getD []) (text "content")).getD []
    else []

def contentSent (frames : List SseFrame) : Text :=
  frames.flatMap fun frame =>
    match parseFrameJson P frame with
    | .ok (some value) => contentIn value
    | _ => []

/-- The call that all fragments of an index make: the last id that is given, the names and arguments in a row. -/
def assembled (fragments : List CallFragment) (index : Number) : OpenCall :=
  let own := fragments.filter fun f => f.index = index
  ⟨(((own.map CallFragment.id).filter fun id => id ≠ []).getLast?).getD [],own.flatMap CallFragment.name,
    own.flatMap CallFragment.args⟩

/-- The indices that occur, in order. -/
def indicesOf (fragments : List CallFragment) : List Number :=
  (fragments.map CallFragment.index).dedup.mergeSort fun a b => rank a ≤ rank b

/-- The call as it is yielded. -/
def OpenCall.yielded (call : OpenCall) : ToolCall :=
  ⟨call.id,call.name,if call.args = [] then text "\x7b\x7d" else call.args⟩

def ProviderEvent.words : ProviderEvent → Text
  | .textDelta words => words
  | _ => []

/-- The text that the events say. -/
def said (events : List ProviderEvent) : Text := events.flatMap ProviderEvent.words

def ProviderEvent.toolCall? : ProviderEvent → Option ToolCall
  | .toolCall call => some call
  | _ => none

end Specification

section Accumulating
variable {fragments : List CallFragment} {calls : Calls} {f : CallFragment} {index : Number}

/-- One entry for each index that occurred, made of the fragments of that index. -/
structure Assembles (fragments : List CallFragment) (calls : Calls) : Prop where
  nodup : (calls.map Prod.fst).Nodup
  keys : ∀ index, index ∈ calls.map Prod.fst ↔ index ∈ fragments.map CallFragment.index
  made : ∀ e ∈ calls, e.2 = assembled fragments e.1

theorem assembled_other (h : f.index ≠ index) : assembled (fragments ++ [f]) index = assembled fragments index := by
  simp [assembled, List.filter_append, h]

theorem assembled_add : assembled (fragments ++ [f]) f.index = (assembled fragments f.index).add f := by
  have hone : [f].filter (fun g => g.index = f.index) = [f] := by simp
  simp only [assembled, List.filter_append, hone, List.map_append, List.flatMap_append, OpenCall.add,
    List.map_singleton, List.flatMap_singleton]
  by_cases hid : f.id = [] <;> simp [hid]

theorem assembled_none (h : index ∉ fragments.map CallFragment.index) : assembled fragments index = ⟨[],[],[]⟩ := by
  have hnil : fragments.filter (fun f => f.index = index) = [] := by
    rw [List.filter_eq_nil_iff]
    intro f hf hindex
    exact h (List.mem_map.mpr ⟨f,hf,of_decide_eq_true hindex⟩)
  simp [assembled, hnil]

theorem Assembles.get (h : Assembles fragments calls) (index : Number) : calls.get index = assembled fragments index := by
  unfold Calls.get
  cases hfind : calls.find? fun e => e.1 = index with
  | some e =>
    have hkey : e.1 = index := by simpa using List.find?_some hfind
    rw [Option.map_some, Option.getD_some, h.made e (List.mem_of_find?_eq_some hfind), hkey]
  | none =>
    have hnone : index ∉ fragments.map CallFragment.index := by
      rw [← h.keys]
      intro hmem
      obtain ⟨e,he,hkey⟩ := List.mem_map.mp hmem
      exact List.find?_eq_none.mp hfind e he (decide_eq_true hkey)
    rw [assembled_none hnone]
    rfl

/-- One more fragment goes to the entry of its index. -/
theorem Assembles.add (h : Assembles fragments calls) (f : CallFragment) :
    Assembles (fragments ++ [f]) (addFragment calls f) := by
  have hget := h.get f.index
  have hvalue : (calls.get f.index).add f = assembled (fragments ++ [f]) f.index := by rw [hget, assembled_add]
  unfold addFragment Calls.set
  split
  next hany =>
    have hkeys : (calls.map fun e => if e.1 = f.index then (f.index,(calls.get f.index).add f) else e).map Prod.fst =
        calls.map Prod.fst := by
      rw [List.map_map]
      refine List.map_congr_left fun e _ => ?_
      simp only [Function.comp]
      split
      next hkey => exact hkey.symm
      next => rfl
    have hmem : f.index ∈ fragments.map CallFragment.index := by
      rw [← h.keys]
      obtain ⟨e,he,hkey⟩ := List.any_eq_true.mp hany
      exact List.mem_map.mpr ⟨e,he,of_decide_eq_true hkey⟩
    refine ⟨by rw [hkeys]; exact h.nodup,fun index => ?_,fun e he => ?_⟩
    · rw [hkeys, h.keys, List.map_append, List.mem_append, List.map_singleton, List.mem_singleton]
      exact ⟨Or.inl,fun hor => hor.elim id fun heq => heq ▸ hmem⟩
    · obtain ⟨old,hold,rfl⟩ := List.mem_map.mp he
      split
      next => exact hvalue
      next hkey => rw [h.made old hold, assembled_other (Ne.symm hkey)]
  next hnone =>
    have hfresh : f.index ∉ calls.map Prod.fst := by
      intro hmem
      obtain ⟨e,he,hkey⟩ := List.mem_map.mp hmem
      exact hnone (List.any_eq_true.mpr ⟨e,he,decide_eq_true hkey⟩)
    refine ⟨?_,fun index => ?_,fun e he => ?_⟩
    · rw [List.map_append]
      exact h.nodup.append (List.nodup_singleton _) (by simpa using hfresh)
    · rw [List.map_append, List.mem_append, h.keys, List.map_append, List.mem_append]
      rfl
    · rcases List.mem_append.mp he with he | he
      · have hne : f.index ≠ e.1 := fun heq => hfresh (heq ▸ List.mem_map_of_mem he)
        rw [h.made e he, assembled_other hne]
      · rw [List.mem_singleton.mp he]
        exact hvalue

theorem assembles_foldl (more : List CallFragment) (h : Assembles fragments calls) :
    Assembles (fragments ++ more) (more.foldl addFragment calls) := by
  induction more generalizing fragments calls with
  | nil => rwa [List.append_nil]
  | cons f rest ih =>
    have hnext := ih (h.add f)
    rwa [List.append_assoc] at hnext

theorem assembles_nil : Assembles [] [] :=
  ⟨List.nodup_nil,fun _ => Iff.rfl,fun _ he => absurd he List.not_mem_nil⟩

/-- Two lists of the same numbers, none twice, sort to the same list. -/
theorem sorted_eq {xs ys : List Number} (hx : xs.Nodup) (hy : ys.Nodup) (h : ∀ i, i ∈ xs ↔ i ∈ ys) :
    (xs.mergeSort fun a b => rank a ≤ rank b) = ys.mergeSort fun a b => rank a ≤ rank b := by
  have hsorted : ∀ zs : List Number, (zs.mergeSort fun a b => rank a ≤ rank b).Pairwise fun a b => rank a ≤ rank b := by
    intro zs
    refine (List.pairwise_mergeSort (fun a b c hab hbc => ?_) (fun a b => ?_) zs).imp of_decide_eq_true
    · exact decide_eq_true ((of_decide_eq_true hab).trans (of_decide_eq_true hbc))
    · simpa using le_total (rank a) (rank b)
  have hperm : xs.Perm ys := (List.perm_ext_iff_of_nodup hx hy).mpr h
  refine List.Perm.eq_of_pairwise ?_ (hsorted xs) (hsorted ys) ?_
  · exact fun a b _ _ hab hba => rank_injective (le_antisymm hab hba)
  · exact ((List.mergeSort_perm xs _).trans hperm).trans (List.mergeSort_perm ys _).symm

/-- Sorted by their indices, the entries are the assembled calls. -/
theorem Assembles.ordered (h : Assembles fragments calls) :
    calls.ordered = (indicesOf fragments).map (assembled fragments) := by
  have hsnd : calls.ordered = ((calls.mergeSort fun a b => rank a.1 ≤ rank b.1).map Prod.fst).map (assembled fragments) := by
    unfold Calls.ordered
    rw [List.map_map]
    exact List.map_congr_left fun e he => h.made e (List.mem_mergeSort.mp he)
  have hfst : (calls.mergeSort fun a b => rank a.1 ≤ rank b.1).map Prod.fst =
      (calls.map Prod.fst).mergeSort fun a b => rank a ≤ rank b := List.map_mergeSort fun _ _ _ _ => rfl
  have hsame : ∀ i, i ∈ calls.map Prod.fst ↔ i ∈ (fragments.map CallFragment.index).dedup := by
    intro i
    rw [h.keys, List.mem_dedup]
  rw [hsnd, hfst, sorted_eq h.nodup (List.nodup_dedup _) hsame]
  rfl

end Accumulating

section Streams
variable {P : Platform} {dialect : ChatDialect} {s : ChatState}

/-- These events say a text and yield no call. -/
structure Says (events : List ProviderEvent) (words : Text) : Prop where
  said : said events = words
  callless : events.filterMap ProviderEvent.toolCall? = []

theorem Says.nil : Says [] [] := ⟨rfl,rfl⟩

theorem Says.append {xs ys : List ProviderEvent} {u v : Text} (h : Says xs u) (h' : Says ys v) : Says (xs ++ ys) (u ++ v) := by
  refine ⟨?_,?_⟩
  · rw [Model.said, List.flatMap_append, ← Model.said, ← Model.said, h.said, h'.said]
  · rw [List.filterMap_append, h.callless, h'.callless]
    rfl

theorem wordsAt_getD (fields : Fields) (key : Text) : (wordsAt fields key).getD [] = (textAt fields key).getD [] := by
  unfold wordsAt
  cases textAt fields key with
  | none => rfl
  | some words => cases words <;> rfl

theorem readDelta_says (dialect : ChatDialect) (delta : Fields) :
    (s.readDelta P dialect delta).1.calls = (fragmentsOf delta).foldl addFragment s.calls ∧
      Says (s.readDelta P dialect delta).2 ((textAt delta (text "content")).getD []) := by
  have hreasoning : Says ((wordsAt delta dialect.reasoningKey).map ProviderEvent.reasoningDelta).toList [] := by
    cases wordsAt delta dialect.reasoningKey <;> exact ⟨rfl,rfl⟩
  have hcontent : Says ((wordsAt delta (text "content")).map ProviderEvent.textDelta).toList
      ((wordsAt delta (text "content")).getD []) := by
    cases wordsAt delta (text "content") with
    | none => exact .nil
    | some words => exact ⟨List.append_nil _,rfl⟩
  rw [wordsAt_getD] at hcontent
  exact ⟨rfl,hreasoning.append hcontent⟩

theorem readChoice_says (dialect : ChatDialect) (choice : Fields) :
    (s.readChoice P dialect choice).1.calls =
      (fragmentsOf ((fieldsAt choice (text "delta")).getD [])).foldl addFragment s.calls ∧
      Says (s.readChoice P dialect choice).2 ((textAt ((fieldsAt choice (text "delta")).getD []) (text "content")).getD []) := by
  obtain ⟨hcalls,hevents⟩ := readDelta_says (P := P) (s := s) dialect ((fieldsAt choice (text "delta")).getD [])
  unfold ChatState.readChoice
  dsimp only
  split
  · exact ⟨hcalls,hevents⟩
  · exact ⟨hcalls,hevents⟩

theorem readUsage_calls (event : Fields) : (s.readUsage dialect event).calls = s.calls := by
  unfold ChatState.readUsage
  split <;> rfl

/-- A frame adds its fragments, and says its content. -/
theorem chatFrame_says {value : Json} {taken : ChatState × List ProviderEvent} (h : chatFrame P dialect s value = .ok taken) :
    taken.1.calls = (fragmentsIn value).foldl addFragment s.calls ∧ Says taken.2 (contentIn value) := by
  simp only [chatFrame] at h
  split at h
  · cases h
  · split at h
    next hnone =>
      cases h
      rw [fragmentsIn, contentIn, hnone]
      exact ⟨readUsage_calls _,.nil⟩
    next choice hsome =>
      cases h
      simp only [fragmentsIn, contentIn, hsome]
      split
      next =>
        obtain ⟨hcalls,hevents⟩ := readChoice_says (P := P)
          (s := s.readUsage dialect ((value.fields?).getD [])) dialect ((choice.fields?).getD [])
        rw [readUsage_calls] at hcalls
        exact ⟨hcalls,hevents⟩
      next => exact ⟨readUsage_calls _,.nil⟩

/-- The frames of a stream add the fragments that were sent, and say its content. -/
theorem read_says {frames : List SseFrame} {t : ChatState}
    (h : ((chatAdapter P dialect).read P s frames).2 = .ok t) :
    t.calls = (fragmentsSent P frames).foldl addFragment s.calls ∧
      Says ((chatAdapter P dialect).read P s frames).1 (contentSent P frames) := by
  induction frames generalizing s with
  | nil =>
    cases h
    exact ⟨rfl,.nil⟩
  | cons frame rest ih =>
    simp only [Adapter.read] at h ⊢
    cases htake : (chatAdapter P dialect).take P s frame with
    | error failure => rw [htake] at h; cases h
    | ok taken =>
      rw [htake] at h
      obtain ⟨hcalls,hevents⟩ := ih h
      have htaken : taken.1.calls = (fragmentsSent P [frame]).foldl addFragment s.calls ∧
          Says taken.2 (contentSent P [frame]) := by
        unfold Adapter.take at htake
        simp only [fragmentsSent, contentSent, List.flatMap_singleton]
        cases hparse : parseFrameJson P frame with
        | error failure => rw [hparse] at htake; cases htake
        | ok value =>
          rw [hparse] at htake
          cases value with
          | none =>
            cases htake
            exact ⟨rfl,.nil⟩
          | some value => exact chatFrame_says htake
      have hsent : fragmentsSent P (frame :: rest) = fragmentsSent P [frame] ++ fragmentsSent P rest := by
        simp only [fragmentsSent, List.flatMap_cons, List.flatMap_nil, List.append_nil]
      have hcontent : contentSent P (frame :: rest) = contentSent P [frame] ++ contentSent P rest := by
        simp only [contentSent, List.flatMap_cons, List.flatMap_nil, List.append_nil]
      refine ⟨?_,hcontent ▸ htaken.2.append hevents⟩
      rw [hcalls, htaken.1, ← List.foldl_append, hsent]

/-- Calls whose arguments are all JSON are yielded as they are. -/
theorem yieldCalls_eq {calls : List OpenCall} (h : (yieldCalls P calls).2 = none) :
    (yieldCalls P calls).1.filterMap ProviderEvent.toolCall? = calls.map OpenCall.yielded ∧
      ∀ call ∈ calls, (P.parse call.yielded.arguments).isSome = true := by
  induction calls with
  | nil => exact ⟨rfl,fun _ hc => absurd hc List.not_mem_nil⟩
  | cons call rest ih =>
    simp only [yieldCalls] at h ⊢
    split at h
    next => cases h
    next value hparse =>
      obtain ⟨hcalls,hparsed⟩ := ih h
      have hargs : P.parse call.yielded.arguments = some value := hparse
      refine ⟨?_,fun c hc => ?_⟩
      · rw [List.filterMap_cons, hcalls]
        rfl
      · rcases List.mem_cons.mp hc with rfl | hc
        · rw [hargs]
          rfl
        · exact hparsed c hc

theorem yieldCalls_said (calls : List OpenCall) : said (yieldCalls P calls).1 = [] := by
  induction calls with
  | nil => rfl
  | cons call rest ih =>
    simp only [yieldCalls]
    split
    · rfl
    · exact ih

theorem carried_quiet (s : ChatState) : Says (s.carried dialect) [] := by
  unfold ChatState.carried
  split
  · split <;> exact ⟨rfl,rfl⟩
  · split <;> exact ⟨rfl,rfl⟩

/-- A stream that returns has said all its content, and yielded each tool call once, whole and in order, however
its fragments came. -/
theorem chat_calls_assembled {frames : List SseFrame} {events : List ProviderEvent}
    (h : (chatAdapter P dialect).stream P frames .finished = (events,none)) :
    said events = contentSent P frames ∧
      events.filterMap ProviderEvent.toolCall? =
        (indicesOf (fragmentsSent P frames)).map (fun index => (assembled (fragmentsSent P frames) index).yielded) ∧
      ∀ call ∈ events.filterMap ProviderEvent.toolCall?, (P.parse call.arguments).isSome = true := by
  unfold Adapter.stream at h
  cases hread : (chatAdapter P dialect).read P (chatAdapter P dialect).start frames with
  | mk before result =>
    rw [hread] at h
    cases result with
    | error failure => cases h
    | ok s =>
      have hok : ((chatAdapter P dialect).read P (chatAdapter P dialect).start frames).2 = .ok s := by rw [hread]
      obtain ⟨hcalls,hspoken⟩ := read_says hok
      rw [hread] at hspoken
      have hordered : s.calls.ordered = (indicesOf (fragmentsSent P frames)).map (assembled (fragmentsSent P frames)) := by
        have hassembles := assembles_foldl (fragmentsSent P frames) assembles_nil
        rw [List.nil_append] at hassembles
        rw [hcalls]
        exact hassembles.ordered
      simp only [chatAdapter, chatFinish] at h
      cases hfailure : (yieldCalls P s.calls.ordered).2 with
      | some failure => rw [hfailure] at h; cases h
      | none =>
        rw [hfailure] at h
        obtain ⟨rfl,-⟩ := Prod.mk.inj h
        obtain ⟨hyielded,hparsed⟩ := yieldCalls_eq hfailure
        have hlast : Says (s.carried dialect ++ [.usage s.usage,.stop s.stop]) [] :=
          (carried_quiet s).append ⟨rfl,rfl⟩
        have hall : (before ++ ((yieldCalls P s.calls.ordered).1 ++ s.carried dialect ++
            [ProviderEvent.usage s.usage,.stop s.stop])).filterMap ProviderEvent.toolCall? =
              s.calls.ordered.map OpenCall.yielded := by
          rw [List.append_assoc, List.filterMap_append, List.filterMap_append, hyielded, hspoken.callless, hlast.callless]
          exact List.append_nil _
        refine ⟨?_,?_,fun call hc => ?_⟩
        · rw [List.append_assoc, said, List.flatMap_append, List.flatMap_append, ← said, ← said, ← said, hspoken.said,
            yieldCalls_said, hlast.said]
          exact List.append_nil _
        · rw [hall, hordered, List.map_map]
          rfl
        · rw [hall] at hc
          obtain ⟨open_,hopen,rfl⟩ := List.mem_map.mp hc
          exact hparsed open_ hopen

/-- A frame of a content and fragments. -/
def chunk (content : String) (fragments : List (ℕ × String × String × String)) : Json :=
  let call : ℕ × String × String × String → Json := fun (index,id,name,args) =>
    .object [(text "index",.number (.finite index)),(text "id",.string (text id)),
      (text "function",.object [(text "name",.string (text name)),(text "arguments",.string (text args))])]
  .object [(text "choices",.array [.object [(text "delta",.object
    [(text "content",.string (text content)),(text "tool_calls",.array (fragments.map call))])]])]

/-- Two calls, the second begun first. -/
def chunks : List Json :=
  [chunk "h" [(1,"b","g","")],chunk "" [(0,"a","f","\x7b")],chunk "i" [(1,"","o",""),(0,"","","\x7d")]]

def chunkPlatform : Platform := .reading (.object [] :: chunks)

def chunkFrames : List SseFrame := chunks.map fun value => ⟨none,stringify chunkPlatform value⟩

theorem yieldCalls_none {calls : List OpenCall} (h : ∀ call ∈ calls, (P.parse call.yielded.arguments).isSome = true) :
    (yieldCalls P calls).2 = none := by
  induction calls with
  | nil => rfl
  | cons call rest ih =>
    obtain ⟨value,hvalue⟩ := Option.isSome_iff_exists.mp (h call List.mem_cons_self)
    have hargs : P.parse (if call.args = [] then text "\x7b\x7d" else call.args) = some value := hvalue
    simp only [yieldCalls, hargs]
    exact ih fun c hc => h c (List.mem_cons_of_mem _ hc)

/-- A stream returns if its frames are read and the arguments of its calls are JSON. -/
theorem stream_returns {frames : List SseFrame}
    (hread : ∃ t, ((chatAdapter P dialect).read P (chatAdapter P dialect).start frames).2 = .ok t)
    (hjson : ∀ e ∈ (fragmentsSent P frames).foldl addFragment [], (P.parse e.2.yielded.arguments).isSome = true) :
    ((chatAdapter P dialect).stream P frames .finished).2 = none := by
  obtain ⟨t,ht⟩ := hread
  obtain ⟨hcalls,-⟩ := read_says ht
  have hnone : (yieldCalls P t.calls.ordered).2 = none := by
    refine yieldCalls_none fun call hcall => ?_
    obtain ⟨e,he,rfl⟩ := List.mem_map.mp hcall
    rw [List.mem_mergeSort, hcalls] at he
    exact hjson e he
  unfold Adapter.stream
  split
  next events failure hread =>
    rw [hread] at ht
    cases ht
  next events s hread =>
    rw [hread] at ht
    cases ht
    simp only [chatAdapter, chatFinish, hnone]

theorem chat_calls_assembled_interleaved :
    said ((chatAdapter chunkPlatform openRouter).stream chunkPlatform chunkFrames .finished).1 = text "hi" ∧
      ((chatAdapter chunkPlatform openRouter).stream chunkPlatform chunkFrames .finished).1.filterMap ProviderEvent.toolCall? =
        [⟨text "a",text "f",text "\x7b\x7d"⟩,⟨text "b",text "go",text "\x7b\x7d"⟩] := by
  have hnone : ((chatAdapter chunkPlatform openRouter).stream chunkPlatform chunkFrames .finished).2 = none := by
    refine stream_returns ?_ (by decide +kernel)
    have hok : ((chatAdapter chunkPlatform openRouter).read chunkPlatform .fresh chunkFrames).2.isOk = true := by decide +kernel
    have hstart : (chatAdapter chunkPlatform openRouter).start = .fresh := rfl
    rw [hstart]
    cases hread : ((chatAdapter chunkPlatform openRouter).read chunkPlatform .fresh chunkFrames).2 with
    | error failure => rw [hread] at hok; cases hok
    | ok t => exact ⟨t,rfl⟩
  obtain ⟨events,hstream⟩ : ∃ events, (chatAdapter chunkPlatform openRouter).stream chunkPlatform chunkFrames .finished = (events,none) := by
    rw [← hnone]
    exact ⟨_,(Prod.mk.eta).symm⟩
  obtain ⟨hsaid,hcalls,-⟩ := chat_calls_assembled hstream
  have hcontent : contentSent chunkPlatform chunkFrames = text "hi" := by decide +kernel
  have hkeys : (fragmentsSent chunkPlatform chunkFrames).map CallFragment.index = [.finite 1,.finite 0,.finite 1,.finite 0] := by
    decide +kernel
  have hindices : indicesOf (fragmentsSent chunkPlatform chunkFrames) = [.finite 0,.finite 1] := by
    have hsorted : ([Number.finite 0,.finite 1].mergeSort fun a b => rank a ≤ rank b) = [.finite 0,.finite 1] :=
      List.mergeSort_of_pairwise (by decide +kernel)
    rw [← hsorted, indicesOf, hkeys]
    exact sorted_eq (List.nodup_dedup _) (by decide) (by simp [or_comm])
  have hassembled : [Number.finite 0,.finite 1].map
      (fun index => (assembled (fragmentsSent chunkPlatform chunkFrames) index).yielded) =
        [⟨text "a",text "f",text "\x7b\x7d"⟩,⟨text "b",text "go",text "\x7b\x7d"⟩] := by decide +kernel
  rw [hindices, hassembled] at hcalls
  rw [hstream]
  exact ⟨hsaid.trans hcontent,hcalls⟩

end Streams

end HermesEnterprise.Model
