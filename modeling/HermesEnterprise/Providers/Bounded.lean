import HermesEnterprise.Providers.Metered

/-! # The output bound

Of the two limits, the proxy understands positive integers. Another value in a limit field is sent as it
is, unless the reviewed limit is written over it.
-/
namespace HermesEnterprise.Providers
open Inbound Foundation Foundation.Runs

section Forwarded
variable {value forwarded : Fields} {key : Text}

theorem get_includeUsage (h : text "stream_options" ≠ key) : get (includeUsage forwarded) key = get forwarded key := by
  unfold includeUsage
  split
  · exact entry_setEntry_ne h
  · rfl

theorem get_restrictTools {names : List Text} (h : key ∉ toolFields) :
    get (restrictTools names forwarded) key = get forwarded key := by
  have htools : text "tools" ≠ key := fun heq => h (heq ▸ by decide)
  have hchoice : text "tool_choice" ≠ key := fun heq => h (heq ▸ by decide)
  simp only [restrictTools]
  split
  · split
    on_goal 2 => refine (entry_setEntry_ne hchoice).trans ?_
    all_goals
      split
      · rfl
      · split
        · exact entry_filter (fun k => k ∉ toolFields) (decide_eq_true h)
        · exact entry_setEntry_ne htools
  · split
    · rfl
    · split
      · exact entry_filter (fun k => k ∉ toolFields) (decide_eq_true h)
      · exact entry_setEntry_ne htools

theorem get_addReasoning (h : text "reasoning" ≠ key) : get (addReasoning value forwarded) key = get forwarded key := by
  unfold addReasoning
  split
  · exact entry_setEntry_ne h
  · rfl

theorem get_copyField (k : Text) :
    get (copyField value forwarded k) key =
      if k = key then (get value key).or (get forwarded key) else get forwarded key := by
  unfold copyField
  by_cases hk : k = key
  · subst hk
    cases hv : get value k with
    | none => simp
    | some v =>
      rw [if_pos rfl, Option.some_or]
      exact entry_setEntry forwarded k v
  · rw [if_neg hk]
    split
    · exact entry_setEntry_ne hk
    · rfl

theorem get_copyFields (keys : List Text) :
    get (keys.foldl (copyField value) forwarded) key =
      if key ∈ keys then (get value key).or (get forwarded key) else get forwarded key := by
  induction keys generalizing forwarded with
  | nil => simp
  | cons k keys ih =>
    rw [List.foldl_cons, ih, get_copyField]
    by_cases hk : k = key
    · subst hk
      cases hv : get value k <;> simp
    · simp [hk, Ne.symm hk]

/-- The limits are sent as they were asked. -/
theorem get_forward {run : ActiveRun} {model : Text} {messages : List Json} (h : key = maxTokens ∨ key = maxCompletionTokens) :
    get (forward run value model messages) key = get value key := by
  have hmem : key ∈ forwardedFields run.responseOnly := by
    obtain rfl | rfl := h <;> exact List.mem_append_left _ (by decide)
  have htools : key ∉ toolFields := by obtain rfl | rfl := h <;> decide
  have hstream : text "stream_options" ≠ key := by obtain rfl | rfl := h <;> decide
  have hreasoning : text "reasoning" ≠ key := by obtain rfl | rfl := h <;> decide
  have hbase : get [(text "model",.string model),(text "messages",.array messages)] key = none := by
    have hmodel : text "model" ≠ key := by obtain rfl | rfl := h <;> decide
    have hmessages : text "messages" ≠ key := by obtain rfl | rfl := h <;> decide
    simp [get, entry, hmodel, hmessages]
  have hcopied : get ((forwardedFields run.responseOnly).foldl (copyField value)
      [(text "model",.string model),(text "messages",.array messages)]) key = get value key := by
    rw [get_copyFields, if_pos hmem, hbase, Option.or_none]
  simp only [forward]
  rw [get_includeUsage hstream, get_addReasoning hreasoning]
  split <;> split <;> simp only [restrictToIntakeTools, restrictToWatchTools, get_restrictTools htools, hcopied]

end Forwarded

section Bounds
variable {P : Platform} {store : Bool} {context : RuntimeBudgetContext} {prepared : PreparedRuntimeBudget}
variable {run : Option ActiveRun} {body sent forwarded : Fields} {reviewed bound : ℕ}

/-- What an admitted call has been checked against. -/
theorem admitBound_eq_ok (h : admitBound P context reviewed bound forwarded = .ok prepared) :
    bound ≤ reviewed ∧ prepared.outputTokenBound = bound := by
  simp only [admitBound] at h
  split at h
  · cases h
  · rename_i hle
    split at h
    · cases h
    · split at h
      · cases h
      · cases h
        exact ⟨Nat.le_of_not_lt hle,rfl⟩

theorem prepareRuntimeBudget_eq_ok {modelId : Text}
    (h : prepareRuntimeBudget P store (some context) modelId forwarded = .ok (some prepared,sent)) :
    boundOutput (context.maxOutputTokensPerCall.getD 0) (includeUsage forwarded) = (prepared.outputTokenBound,sent) ∧
      prepared.outputTokenBound ≤ context.maxOutputTokensPerCall.getD 0 := by
  simp only [prepareRuntimeBudget] at h
  iterate 6
    split at h
    · cases h
  split at h
  · cases h
  · rename_i hfits
    obtain ⟨hle,hbound⟩ := admitBound_eq_ok hfits
    cases h
    exact ⟨Prod.ext hbound.symm rfl,hbound ▸ hle⟩

/-- What the proxy reserves, from the limits that were asked. -/
theorem prepare_eq_ok (h : prepare P store run (some context) body = .ok (some prepared,sent)) :
    ∃ forwarded, (∀ key, key = maxTokens ∨ key = maxCompletionTokens → get forwarded key = get body key) ∧
      boundOutput (context.maxOutputTokensPerCall.getD 0) forwarded = (prepared.outputTokenBound,sent) ∧
      prepared.outputTokenBound ≤ context.maxOutputTokensPerCall.getD 0 := by
  unfold prepare at h
  split at h
  · rename_i model messages _ _
    cases run with
    | none => cases h
    | some run =>
      simp only [] at h
      split at h
      · cases h
      · split at h
        · cases h
        · split at h
          · cases h
          · rename_i hprepared
            cases h
            obtain ⟨hbound,hle⟩ := prepareRuntimeBudget_eq_ok hprepared
            refine ⟨_,fun key hkey => ?_,hbound,hle⟩
            rw [get_includeUsage (by obtain rfl | rfl := hkey <;> decide), get_forward hkey]
  · cases h

/-- A number as it is sent, not above a bound. -/
def Json.atMost (bound : ℕ) : Json → Bool
  | .number (.finite value) => value ≤ bound
  | _ => false

/-- Every output limit that is sent is a number not above the bound. -/
def LimitsBounded (bound : ℕ) (sent : Fields) : Prop :=
  ∀ key ∈ [maxTokens,maxCompletionTokens], ∀ limit, get sent key = some limit → limit.atMost bound = true

/-- A limit field is absent, a positive integer, or another number that does not exceed the bound. -/
def Understood (bound : ℕ) (field : Option Json) : Prop :=
  ∀ limit, field = some limit → (requiredPositiveInt (some limit)).isSome ∨ limit.atMost bound = true

/-- Nothing is sent as a limit that the bound does not count: `max_completion_tokens` beside the other
limit, or beside the reviewed one, and `max_tokens` beside a positive `max_completion_tokens`. -/
def LimitsUnderstood (reviewed : ℕ) (body : Fields) : Prop :=
  Understood ((requiredPositiveInt (get body maxTokens)).getD reviewed) (get body maxCompletionTokens) ∧
    ∀ limit, requiredPositiveInt (get body maxCompletionTokens) = some limit → Understood limit (get body maxTokens)

theorem atMost_of_requiredPositiveInt {limit : Json} {n : ℕ} (h : requiredPositiveInt (some limit) = some n) (bound : ℕ) :
    limit.atMost bound = true ↔ n ≤ bound := by
  simp only [requiredPositiveInt, Option.bind_some, Option.filter_eq_some_iff] at h
  obtain ⟨htokens,-⟩ := h
  unfold tokenCount at htokens
  split at htokens
  · rename_i value
    split at htokens
    · rename_i hvalue
      cases htokens
      have heq : value = (value.num.natAbs : ℚ) := by
        have hnum : (value.num.natAbs : ℤ) = value.num := Int.natAbs_of_nonneg hvalue.2.1
        rw [← Int.cast_natCast, hnum]
        exact (Rat.coe_int_num_of_den_eq_one hvalue.1).symm
      have hle : value ≤ (bound : ℚ) ↔ value.num.natAbs ≤ bound := by
        conv_lhs => rw [heq]
        exact Nat.cast_le
      simpa only [Json.atMost, decide_eq_true_eq] using hle
    · cases htokens
  · cases htokens

theorem understood_iff {field : Option Json} (h : requiredPositiveInt field = none) :
    Understood bound field ↔ ∀ limit, field = some limit → limit.atMost bound = true := by
  refine forall₂_congr fun limit hlimit => ?_
  rw [← hlimit, h]
  simp

theorem understood_of_some {field : Option Json} {n : ℕ} (h : requiredPositiveInt field = some n) :
    Understood bound field := by
  intro limit hlimit
  left
  rw [← hlimit, h]
  rfl

theorem atMost_of_some {field : Option Json} {n : ℕ} (h : requiredPositiveInt field = some n) (hle : n ≤ bound) :
    ∀ limit, field = some limit → limit.atMost bound = true := by
  rintro limit rfl
  exact (atMost_of_requiredPositiveInt h bound).mpr hle

theorem limitsBounded_pair :
    LimitsBounded bound sent ↔ (∀ limit, get sent maxTokens = some limit → limit.atMost bound = true) ∧
      ∀ limit, get sent maxCompletionTokens = some limit → limit.atMost bound = true := by
  simp [LimitsBounded]

/-- The four cases of which limits the proxy understands. -/
theorem limitsBounded_iff (h : boundOutput reviewed forwarded = (bound,sent)) :
    LimitsBounded bound sent ↔ LimitsUnderstood reviewed forwarded := by
  rw [limitsBounded_pair]
  unfold boundOutput requestedOutputBound at h
  cases ha : requiredPositiveInt (get forwarded maxTokens) with
  | none =>
    cases hb : requiredPositiveInt (get forwarded maxCompletionTokens) with
    | none =>
      simp only [ha, hb, List.filterMap_cons, id_eq, List.filterMap_nil, List.max?_nil] at h
      cases h
      have hset : get (setEntry forwarded maxTokens (tokens reviewed)) maxTokens = some (tokens reviewed) :=
        entry_setEntry _ _ _
      have hkept : get (setEntry forwarded maxTokens (tokens reviewed)) maxCompletionTokens =
          get forwarded maxCompletionTokens := entry_setEntry_ne (by decide)
      rw [hset, hkept, LimitsUnderstood, ha, hb, Option.getD_none, understood_iff hb]
      simp [tokens, Json.atMost]
    | some m =>
      simp only [ha, hb, List.filterMap_cons, id_eq, List.filterMap_nil] at h
      cases h
      have hown := atMost_of_some hb (Nat.le_refl m)
      rw [LimitsUnderstood, hb]
      simp only [Option.some.injEq, forall_eq', understood_iff ha, understood_of_some hb, true_and]
      exact and_iff_left hown
  | some n =>
    cases hb : requiredPositiveInt (get forwarded maxCompletionTokens) with
    | none =>
      simp only [ha, hb, List.filterMap_cons, id_eq, List.filterMap_nil] at h
      cases h
      have hown := atMost_of_some ha (Nat.le_refl n)
      rw [LimitsUnderstood, ha, hb, Option.getD_some, understood_iff hb]
      simp only [reduceCtorEq, false_implies, implies_true, and_true]
      exact and_iff_right hown
    | some m =>
      simp only [ha, hb, List.filterMap_cons, id_eq, List.filterMap_nil] at h
      cases h
      have hfirst := atMost_of_some ha (Nat.le_max_left n m)
      have hsecond := atMost_of_some hb (Nat.le_max_right n m)
      rw [LimitsUnderstood, ha, hb]
      exact iff_of_true ⟨hfirst,hsecond⟩ ⟨understood_of_some hb,fun _ _ => understood_of_some ha⟩

theorem limitsUnderstood_congr (h : ∀ key, key = maxTokens ∨ key = maxCompletionTokens → get forwarded key = get body key) :
    LimitsUnderstood reviewed forwarded ↔ LimitsUnderstood reviewed body := by
  rw [LimitsUnderstood, LimitsUnderstood, h _ (.inl rfl), h _ (.inr rfl)]

/-- A reserved call is bounded and settled once exactly when the proxy understands its limits. -/
theorem bounded_settled_iff (h : prepare P store run (some context) body = .ok (some prepared,sent)) :
    (LimitsBounded prepared.outputTokenBound sent ∧
        prepared.outputTokenBound ≤ context.maxOutputTokensPerCall.getD 0 ∧
        ∀ events s, Calls P prepared events s → Accounted P prepared s) ↔
      LimitsUnderstood (context.maxOutputTokensPerCall.getD 0) body := by
  obtain ⟨forwarded,hkept,hbound,hle⟩ := prepare_eq_ok h
  rw [limitsBounded_iff hbound, limitsUnderstood_congr hkept]
  exact and_iff_left ⟨hle,fun _ _ => accounted⟩

end Bounds

section Sample

/-- Numbers are printed as integers, and nothing is parsed. -/
def samplePlatform : Platform where
  parse _ := none
  numberText value := text (toString value.num)

def sampleContext : RuntimeBudgetContext where
  partnerWatch := false
  budgetId := some (text "b")
  authorizationState := .admitted
  state := some .active
  modelId := some (text "m")
  maxOutputTokensPerCall := some 1000
  contextLength := some 100000
  pricingVerifiedOn := some (text "2026-01-01")
  pricing := some ⟨some 1,some 2,none⟩

def sampleRun : ActiveRun := ⟨true,text "m",some (text "m"),false,false,false⟩

def sampleBody (second : Json) : Fields :=
  [(text "model",.string (text "m")),(text "messages",.array []),(maxTokens,tokens 100),(maxCompletionTokens,second)]

/-- Two positive integers are both counted. -/
theorem bounded_settled_sample :
    (LimitsBounded 200 (sampleBody (tokens 200)) ∧ 200 ≤ 1000 ∧ ∀ events s,
        Calls samplePlatform ⟨sampleContext,200,200⟩ events s → Accounted samplePlatform ⟨sampleContext,200,200⟩ s) ↔
      LimitsUnderstood 1000 (sampleBody (tokens 200)) :=
  @bounded_settled_iff samplePlatform true sampleContext ⟨sampleContext,200,200⟩ (some sampleRun)
    (sampleBody (tokens 200)) (sampleBody (tokens 200)) rfl

/-- A text beside a positive integer is forwarded as a limit. -/
theorem limit_passes :
    ∃ prepared sent, prepare samplePlatform true (some sampleRun) (some sampleContext)
        (sampleBody (.string (text "100000"))) = .ok (some prepared,sent) ∧
      ¬ LimitsBounded prepared.outputTokenBound sent := by
  refine ⟨⟨sampleContext,205,100⟩,sampleBody (.string (text "100000")),rfl,fun h => ?_⟩
  have hlimit := h maxCompletionTokens (by decide) (.string (text "100000")) rfl
  cases hlimit

end Sample

end HermesEnterprise.Providers
