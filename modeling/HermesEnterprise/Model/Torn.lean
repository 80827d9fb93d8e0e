import HermesEnterprise.Model.Adapters

/-! # Streams that break off

A stream either returns, and its last event is its only stop, or throws, and gave no stop. What it gave
before a read failed, or was aborted, is how every longer stream begins.
-/
namespace HermesEnterprise.Model
open Inbound Providers

/-- An event that ends a stream. -/
def ProviderEvent.isStop : ProviderEvent → Bool
  | .stop _ => true
  | _ => false

/-- No stop among these events. -/
def Going (events : List ProviderEvent) : Prop := ∀ e ∈ events, e.isStop = false

/-- These events end with their only stop. -/
def Ended (events : List ProviderEvent) (reason : StopReason) : Prop :=
  ∃ before, events = before ++ [.stop reason] ∧ Going before

theorem Going.nil : Going [] := fun _ he => absurd he List.not_mem_nil

theorem Going.append {xs ys : List ProviderEvent} (h : Going xs) (h' : Going ys) : Going (xs ++ ys) := by
  intro e he
  rcases List.mem_append.mp he with he | he
  · exact h e he
  · exact h' e he

theorem Going.singleton {e : ProviderEvent} (h : e.isStop = false) : Going [e] := by
  intro e' he
  rw [List.mem_singleton.mp he]
  exact h

theorem Going.toList {o : Option Text} {f : Text → ProviderEvent} (h : ∀ words, (f words).isStop = false) :
    Going (o.map f).toList := by
  cases o with
  | none => exact .nil
  | some words => exact .singleton (h words)

theorem Ended.prepend {xs ys : List ProviderEvent} {reason : StopReason} (h : Going xs) (h' : Ended ys reason) :
    Ended (xs ++ ys) reason := by
  obtain ⟨before,rfl,hbefore⟩ := h'
  exact ⟨xs ++ before,(List.append_assoc ..).symm,h.append hbefore⟩

/-- The usage and the stop of an adapter's end. -/
theorem Ended.last {xs : List ProviderEvent} (h : Going xs) (usage : Usage) (reason : StopReason) :
    Ended (xs ++ [.usage usage,.stop reason]) reason :=
  ⟨xs ++ [.usage usage],by simp,h.append (.singleton rfl)⟩

section Folding
variable {σ : Type} {P : Platform} {A : Adapter σ}

/-- Frames in a row: the later ones are read from the state the earlier ones left, if they left one. -/
theorem read_append (fs gs : List SseFrame) (s : σ) :
    (∃ t, (A.read P s fs).2 = .ok t ∧ A.read P s (fs ++ gs) = ((A.read P s fs).1 ++ (A.read P t gs).1,(A.read P t gs).2)) ∨
      ∃ failure, (A.read P s fs).2 = .error failure ∧ A.read P s (fs ++ gs) = A.read P s fs := by
  induction fs generalizing s with
  | nil => exact Or.inl ⟨s,rfl,rfl⟩
  | cons frame rest ih =>
    rw [List.cons_append]
    simp only [Adapter.read]
    cases A.take P s frame with
    | error failure => exact Or.inr ⟨failure,rfl,rfl⟩
    | ok taken =>
      rcases ih taken.1 with ⟨t,ht,hread⟩ | ⟨failure,hfailure,hread⟩
      · refine Or.inl ⟨t,ht,?_⟩
        simp only [hread, List.append_assoc]
      · exact Or.inr ⟨failure,hfailure,by simp only [hread]⟩

/-- The events of the first frames are the first events. -/
theorem read_mono {fs gs : List SseFrame} (h : fs <+: gs) (s : σ) : (A.read P s fs).1 <+: (A.read P s gs).1 := by
  obtain ⟨later,rfl⟩ := h
  rcases read_append (A := A) (P := P) fs later s with ⟨t,-,hread⟩ | ⟨failure,-,hread⟩
  · rw [hread]
    exact List.prefix_append _ _
  · rw [hread]

/-- A frame that was read was nothing or JSON. -/
theorem parsed_of_read {frames : List SseFrame} {s t : σ} (h : (A.read P s frames).2 = .ok t) :
    ∀ frame ∈ frames, ∃ value, parseFrameJson P frame = .ok value := by
  induction frames generalizing s with
  | nil => exact fun _ hf => absurd hf List.not_mem_nil
  | cons frame rest ih =>
    simp only [Adapter.read] at h
    cases htake : A.take P s frame with
    | error failure => rw [htake] at h; cases h
    | ok taken =>
      rw [htake] at h
      intro f hf
      rcases List.mem_cons.mp hf with rfl | hf
      · unfold Adapter.take at htake
        cases hparse : parseFrameJson P f with
        | error failure => rw [hparse] at htake; cases htake
        | ok value => exact ⟨value,rfl⟩
      · exact ih h f hf

/-- Frames give no stop; the end gives one, or is thrown at. -/
structure Adapter.Marks (A : Adapter σ) : Prop where
  frame : ∀ s value taken, A.frame s value = .ok taken → Going taken.2
  finish : ∀ s, ((A.finish s).2 = none ∧ ∃ reason, Ended (A.finish s).1 reason) ∨
    ((A.finish s).2 ≠ none ∧ Going (A.finish s).1)

theorem Adapter.Marks.read (h : A.Marks) (frames : List SseFrame) (s : σ) : Going (A.read P s frames).1 := by
  induction frames generalizing s with
  | nil => exact .nil
  | cons frame rest ih =>
    simp only [Adapter.read]
    cases htake : A.take P s frame with
    | error failure => exact .nil
    | ok taken =>
      refine Going.append ?_ (ih taken.1)
      unfold Adapter.take at htake
      cases hparse : parseFrameJson P frame with
      | error failure => rw [hparse] at htake; cases htake
      | ok value =>
        rw [hparse] at htake
        cases value with
        | none =>
          cases htake
          exact .nil
        | some value => exact h.frame s value taken htake

/-- What a reader of the stream can rely on. -/
structure Adapter.Honest (P : Platform) (A : Adapter σ) : Prop where
  returned : ∀ frames ending, (A.stream P frames ending).2 = none → ∃ reason, Ended (A.stream P frames ending).1 reason ∧
    (ending = .aborted ∧ reason = .stopped ∨
      ending = .finished ∧ ∀ frame ∈ frames, ∃ value, parseFrameJson P frame = .ok value)
  thrown : ∀ frames ending, (A.stream P frames ending).2 ≠ none → Going (A.stream P frames ending).1
  torn : ∀ chunks chunks' ending ending', ending ≠ .finished → chunks.flatten <+: chunks'.flatten →
    (A.streamBody P chunks ending).1.filter (fun e => !e.isStop) <+: (A.streamBody P chunks' ending').1

/-- The events of the frames begin those of the stream. -/
theorem stream_begins (frames : List SseFrame) (ending : Ending) :
    (A.read P A.start frames).1 <+: (A.stream P frames ending).1 := by
  unfold Adapter.stream
  split
  next events failure hread => rw [hread]
  next events s hread =>
    rw [hread]
    cases ending with
    | finished => exact List.prefix_append _ _
    | aborted => exact List.prefix_append _ _
    | failed message => exact List.prefix_rfl

/-- A read that fails adds a stop at most. -/
theorem stream_unfinished (h : A.Marks) (frames : List SseFrame) {ending : Ending} (hne : ending ≠ .finished) :
    (A.stream P frames ending).1.filter (fun e => !e.isStop) = (A.read P A.start frames).1 := by
  have hgoing : (A.read P A.start frames).1.filter (fun e => !e.isStop) = (A.read P A.start frames).1 := by
    rw [List.filter_eq_self]
    intro e he
    rw [h.read frames A.start e he]
    rfl
  unfold Adapter.stream
  split
  next events failure hread => rwa [hread] at hgoing ⊢
  next events s hread =>
    rw [hread] at hgoing ⊢
    cases ending with
    | finished => exact absurd rfl hne
    | aborted =>
      rw [List.filter_append, hgoing]
      exact List.append_nil _
    | failed message => exact hgoing

theorem Adapter.Marks.honest (h : A.Marks) : A.Honest P := by
  refine ⟨fun frames ending hnone => ?_,fun frames ending hsome => ?_,fun chunks chunks' ending ending' hne hbytes => ?_⟩
  · have hgoing := h.read (P := P) frames A.start
    unfold Adapter.stream at hnone ⊢
    cases hread : A.read P A.start frames with
    | mk events result =>
      rw [hread] at hnone hgoing
      cases result with
      | error failure => cases hnone
      | ok s =>
        cases ending with
        | finished =>
          rcases h.finish s with ⟨-,reason,hended⟩ | ⟨hthrown,-⟩
          · refine ⟨reason,hended.prepend hgoing,Or.inr ⟨rfl,?_⟩⟩
            exact parsed_of_read (A := A) (by rw [hread])
          · exact absurd hnone hthrown
        | aborted => exact ⟨.stopped,⟨events,rfl,hgoing⟩,Or.inl ⟨rfl,rfl⟩⟩
        | failed message => cases hnone
  · have hgoing := h.read (P := P) frames A.start
    unfold Adapter.stream at hsome ⊢
    cases hread : A.read P A.start frames with
    | mk events result =>
      rw [hread] at hsome hgoing
      cases result with
      | error failure => exact hgoing
      | ok s =>
        cases ending with
        | finished =>
          rcases h.finish s with ⟨hnone,-⟩ | ⟨-,hgoing'⟩
          · exact absurd hnone hsome
          · exact hgoing.append hgoing'
        | aborted => exact absurd rfl hsome
        | failed message => exact hgoing
  · unfold Adapter.streamBody
    rw [if_neg hne, stream_unfinished h _ hne]
    refine (read_mono ?_ A.start).trans (stream_begins _ _)
    split
    · exact readTorn_prefix hbytes
    · rw [readTorn_eq, readTorn_eq]
      obtain ⟨more,hmore⟩ := hbytes
      rw [← hmore, push_push]
      exact List.prefix_append _ _

end Folding

section Members
variable (P : Platform)

theorem going_yieldCalls (calls : List OpenCall) : Going (yieldCalls P calls).1 := by
  induction calls with
  | nil => exact .nil
  | cons call rest ih =>
    simp only [yieldCalls]
    split
    · exact .nil
    · exact (Going.singleton (e := .toolCall _) rfl).append ih

theorem chatAdapter_marks (dialect : ChatDialect) : (chatAdapter P dialect).Marks := by
  have hdelta : ∀ (s : ChatState) delta, Going (s.readDelta P dialect delta).2 := by
    intro s delta
    exact (Going.toList fun _ => rfl).append (.toList fun _ => rfl)
  have hchoice : ∀ (s : ChatState) choice, Going (s.readChoice P dialect choice).2 := by
    intro s choice
    unfold ChatState.readChoice
    dsimp only
    split
    · exact hdelta s _
    · exact hdelta s _
  refine ⟨fun s value taken h => ?_,fun s => ?_⟩
  · simp only [chatAdapter, chatFrame] at h
    split at h
    · cases h
    · split at h
      · cases h
        exact .nil
      · cases h
        split
        · exact hchoice _ _
        · exact .nil
  · have hcalls := going_yieldCalls P s.calls.ordered
    simp only [chatAdapter, chatFinish]
    split
    next failure hfailure => exact Or.inr ⟨by simp,hcalls⟩
    next hnone =>
      refine Or.inl ⟨rfl,s.stop,.last (hcalls.append ?_) s.usage s.stop⟩
      unfold ChatState.carried
      split
      · split
        · exact .nil
        · exact .singleton rfl
      · split
        · exact .nil
        · exact .singleton rfl

theorem anthropicAdapter_marks : (anthropicAdapter P).Marks := by
  have hdelta : ∀ (s : AnthropicState) index delta, Going (s.readDelta index delta).2 := by
    intro s index delta
    unfold AnthropicState.readDelta
    dsimp only
    repeat' split
    all_goals first | exact .nil | exact .singleton rfl
  have hstop : ∀ (s : AnthropicState) index taken, s.stopBlock P index = .ok taken → Going taken.2 := by
    intro s index taken h
    simp only [AnthropicState.stopBlock] at h
    split at h
    · cases h
      exact .nil
    · split at h
      · cases h
      · cases h
        exact .singleton rfl
  refine ⟨fun s value taken h => ?_,fun s => ?_⟩
  · simp only [anthropicAdapter, anthropicFrame] at h
    split at h
    · cases h; exact .nil
    split at h
    · split at h <;> cases h <;> exact .nil
    split at h
    · split at h
      · cases h; exact .nil
      · cases h; exact hdelta _ _ _
    split at h
    · exact hstop s _ taken h
    split at h
    · split at h <;> cases h <;> exact .nil
    split at h
    · cases h
    · cases h; exact .nil
  · refine Or.inl ⟨rfl,s.stop,.last ?_ s.usage s.stop⟩
    split
    · exact .nil
    · exact .singleton rfl

theorem openAiAdapter_marks : (openAiAdapter P).Marks := by
  have hcall : ∀ (s : OpenAiState) item taken, s.readCall P item = .ok taken → Going taken.2 := by
    intro s item taken h
    simp only [OpenAiState.readCall] at h
    split at h
    · cases h
    · cases h
      exact .singleton rfl
  have hitem : ∀ (s : OpenAiState) item taken, s.readItem P item = .ok taken → Going taken.2 := by
    intro s item taken h
    simp only [OpenAiState.readItem] at h
    split at h
    · cases h; exact .nil
    · split at h
      · exact hcall s item taken h
      · cases h; exact .nil
  refine ⟨fun s value taken h => ?_,fun s => ?_⟩
  · simp only [openAiAdapter, openAiFrame] at h
    split at h
    · cases h; exact .toList fun _ => rfl
    split at h
    · cases h; exact .toList fun _ => rfl
    split at h
    · split at h
      · cases h; exact .nil
      · exact hitem s _ taken h
    split at h
    · cases h; exact .nil
    split at h
    · cases h
    · cases h; exact .nil
  · refine Or.inl ⟨rfl,_,.last ?_ s.usage _⟩
    split
    · exact .nil
    · exact .singleton rfl

/-- Every adapter, whatever the provider sends and wherever the stream breaks off. -/
theorem adapters_honest : (∀ dialect, (chatAdapter P dialect).Honest P) ∧ (anthropicAdapter P).Honest P ∧
    (openAiAdapter P).Honest P :=
  ⟨fun dialect => (chatAdapter_marks P dialect).honest,(anthropicAdapter_marks P).honest,(openAiAdapter_marks P).honest⟩

end Members

end HermesEnterprise.Model
