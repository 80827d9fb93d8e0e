import HermesEnterprise.RunLog.Validator

/-! # What the validator's state says of the rows it has read

The rules of the validator speak of the rows before an event. Each is stated here
over the log alone, and the validator reports a row exactly when the row does not
fit the rows before it.
-/
namespace HermesEnterprise.RunLog
open Foundation.Tables

section Splits
variable {α : Type*} {P : List α → α → Prop} {l past rest : List α} {a x : α}

/-- The places of a row in a log, after one more row. -/
theorem split_append : l ++ [a] = past ++ x :: rest ↔
    (rest = [] ∧ past = l ∧ x = a) ∨ ∃ rest', rest = rest' ++ [a] ∧ l = past ++ x :: rest' := by
  constructor
  · intro heq
    rcases List.eq_nil_or_concat rest with rfl | ⟨rest,y,rfl⟩
    · obtain ⟨rfl,hx⟩ := List.append_inj' heq rfl
      simp only [List.cons.injEq, and_true] at hx
      exact Or.inl ⟨rfl,rfl,hx.symm⟩
    · rw [List.concat_eq_append, ← List.cons_append, ← List.append_assoc] at heq
      obtain ⟨hl,hy⟩ := List.append_inj' heq rfl
      simp only [List.cons.injEq, and_true] at hy
      exact Or.inr ⟨rest,by simp [hy],hl⟩
  · rintro (⟨rfl,rfl,rfl⟩ | ⟨rest',rfl,rfl⟩) <;> simp

theorem forall_split_append : (∀ past x rest, l ++ [a] = past ++ x :: rest → P past x) ↔
    (∀ past x rest, l = past ++ x :: rest → P past x) ∧ P l a := by
  simp only [split_append]
  constructor
  · intro h
    exact ⟨fun past x rest hl => h past x (rest ++ [a]) (Or.inr ⟨rest,rfl,hl⟩),
      h l a [] (Or.inl ⟨rfl,rfl,rfl⟩)⟩
  · rintro ⟨h,ha⟩ past x rest (⟨-,rfl,rfl⟩ | ⟨rest',-,hl⟩)
    · exact ha
    · exact h past x rest' hl

end Splits

section Conditions
variable (past : List Entry) (r : RunId)

def startedIn : Prop := ∃ id a, ⟨id,.readable (.started r a)⟩ ∈ past

def statusOf (r : RunId) (e : Entry) : Option RunStatus :=
  match e.content with
  | .readable (.status r' _ s) => if r' = r then some s else none
  | _ => none

/-- The status the run reported last. -/
def lastStatus : Option RunStatus := (past.filterMap (statusOf r)).getLast?

/-- A `message.final` marks the turn closed and a `message.reset` open again. -/
def turnMark (r : RunId) (turn : ℕ) (e : Entry) : Option Bool :=
  match e.content with
  | .readable (.final r' t _) => if r' = r ∧ t = turn then some true else none
  | .readable (.reset r' t _) => if r' = r ∧ t = turn then some false else none
  | _ => none

/-- The turn has a final message that no reset discarded. -/
def closed (turn : ℕ) : Prop := (past.filterMap (turnMark r turn)).getLast? = some true

def streamed (turn : ℕ) : Prop := ∃ id a, ⟨id,.readable (.delta r turn a)⟩ ∈ past

def recorded (known : List MessageId) (g : MessageId) : Prop :=
  g ∈ known ∨ ∃ id r, ⟨id,.readable (.appended r g (some "guidance"))⟩ ∈ past

/-- The ids before this one are smaller. -/
def inOrder (id : ℕ) : Prop := ∀ i p, ⟨i,.readable p⟩ ∈ past → i < id

/-- The rules, over the rows before an event. -/
def allowed (known : List MessageId) : Payload → Prop
  | .step r _ => startedIn past r ∧ ∀ s, lastStatus past r = some s → s.terminal = false
  | .status r _ new => ∀ s, lastStatus past r = some s → s.terminal = true → new = s
  | .guidanceApplied _ g _ => recorded past known g
  | .delta r turn _ => ¬ closed past r turn
  | .final r turn _ => ¬ closed past r turn
  | .started .. | .appended .. | .reset .. | .other .. => True

/-- The row breaks no rule after the rows before it. -/
def fits (known : List MessageId) (e : Entry) : Prop :=
  match e.content with
  | .unreadable .. => False
  | .readable p => inOrder past e.id ∧ allowed past known p

end Conditions

section Runs
variable {s : LogState} {r r' : RunId} {f : RunState → RunState}

theorem runOf_setRun : runOf (setRun s r f) r' = if r' = r then f (runOf s r) else runOf s r' := by
  unfold runOf setRun
  by_cases ha : s.runs.any (fun x => decide (x.1 = r)) = true
  · dsimp only
    rw [if_pos ha]
    rw [find?_updateWhere_key Prod.fst (fun x : RunId × RunState => (x.1,f x.2)) (fun _ => rfl)]
    by_cases hr : r' = r
    · subst hr
      obtain ⟨x,hx,hxr⟩ := List.any_eq_true.mp ha
      cases hf : s.runs.find? fun x => decide (x.1 = r') with
      | none => exact absurd hxr (List.find?_eq_none.mp hf x hx)
      | some y => simp
    · simp [hr]
  · have hnone : s.runs.find? (fun x => decide (x.1 = r)) = none := by
      rw [List.find?_eq_none]
      intro x hx hxr
      exact ha (List.any_eq_true.mpr ⟨x,hx,hxr⟩)
    dsimp only
    rw [if_neg ha, List.find?_append, List.find?_cons, List.find?_nil]
    by_cases hr : r' = r
    · subst hr
      simp [hnone]
    · have hr' : ¬ r = r' := fun h => hr h.symm
      simp [hr, hr']

theorem keys_setRun (h : (s.runs.map (·.1)).Nodup) : ((setRun s r f).runs.map (·.1)).Nodup := by
  unfold setRun
  dsimp only
  split
  next =>
    have hm : (updateWhere (fun x => decide (x.1 = r)) (fun x => (x.1,f x.2)) s.runs).map (·.1) =
        s.runs.map (·.1) := map_updateWhere _ fun _ _ _ => rfl
    rwa [hm]
  next ha =>
    rw [List.map_append, List.map_singleton]
    refine h.append (List.nodup_singleton _) ?_
    intro x hx hxr
    obtain ⟨y,hy,rfl⟩ := List.mem_map.mp hx
    exact ha (List.any_eq_true.mpr ⟨y,hy,by simpa using hxr⟩)

/-- The rows of the map are the states it answers. -/
theorem runOf_of_mem (h : (s.runs.map (·.1)).Nodup) {run : RunState} (hr : (r,run) ∈ s.runs) :
    runOf s r = run := by
  have hf : (s.runs.find? fun x => decide (x.1 = r)) = some (r,run) := find?_key h hr
  simp [runOf, hf]

theorem mem_of_runOf (h : runOf s r ≠ .blank) : (r,runOf s r) ∈ s.runs := by
  unfold runOf at h ⊢
  cases hf : s.runs.find? fun x => decide (x.1 = r) with
  | none => simp [hf] at h
  | some x =>
    have hx : x.1 = r := by simpa using List.find?_some hf
    have := List.mem_of_find?_eq_some hf
    subst hx
    simpa using this

@[simp] theorem runOf_readId {id : ℕ} : runOf (readId s id) r = runOf s r := rfl

@[simp] theorem runOf_mk {g : List MessageId} {l : Option ℕ} : runOf ⟨s.runs,g,l⟩ r = runOf s r := rfl

@[simp] theorem runs_readId {id : ℕ} : (readId s id).runs = s.runs := rfl

@[simp] theorem guidance_readId {id : ℕ} : (readId s id).guidance = s.guidance := rfl

@[simp] theorem guidance_setRun : (setRun s r f).guidance = s.guidance := rfl

@[simp] theorem lastId_setRun : (setRun s r f).lastId = s.lastId := rfl

@[simp] theorem lastId_learn {p : Payload} : (learn s p).lastId = s.lastId := by cases p <;> rfl

end Runs

section Scan
variable {known : List MessageId} {past : List Entry} {e : Entry} {r : RunId} {turn : ℕ}

theorem scan_append : scan known (past ++ [e]) = visit (scan known past) (e,past.length) := by
  simp [scan, List.zipIdx_append]

theorem lastStatus_append : lastStatus (past ++ [e]) r = (statusOf r e).or (lastStatus past r) := by
  unfold lastStatus
  rw [List.filterMap_append, List.getLast?_append]
  cases h : statusOf r e <;> simp [h]

theorem closed_append : closed (past ++ [e]) r turn ↔
    turnMark r turn e = some true ∨ (turnMark r turn e = none ∧ closed past r turn) := by
  unfold closed
  rw [List.filterMap_append, List.getLast?_append]
  cases h : turnMark r turn e with
  | none => simp [h]
  | some b => cases b <;> simp [h]

theorem inOrder_append {id i : ℕ} {p : Payload} :
    inOrder (past ++ [⟨id,.readable p⟩]) i ↔ inOrder past i ∧ id < i := by
  unfold inOrder
  constructor
  · intro h
    exact ⟨fun j q hq => h j q (by simp [hq]),h id p (by simp)⟩
  · rintro ⟨h,hi⟩ j q hq
    rcases List.mem_append.mp hq with hq | hq
    · exact h j q hq
    · simp only [List.mem_singleton, Entry.mk.injEq, Content.readable.injEq] at hq
      omega

/-- The validator's state, told by the rows read. -/
structure Tells (known : List MessageId) (past : List Entry) (s : LogState) : Prop where
  started : ∀ r, (runOf s r).started = true ↔ startedIn past r
  status : ∀ r, (runOf s r).status = lastStatus past r
  finals : ∀ r turn, turn ∈ (runOf s r).finals ↔ closed past r turn
  finalizedTurns : ∀ r turn, turn ∈ (runOf s r).finalizedTurns ↔ closed past r turn
  deltaTurns : ∀ r turn, turn ∈ (runOf s r).deltaTurns ↔ streamed past r turn
  guidance : ∀ g, g ∈ s.guidance ↔ recorded past known g
  lastId : ∀ id, (∀ last, s.lastId = some last → last < id) ↔ inOrder past id
  keys : (s.runs.map (·.1)).Nodup

theorem tells_nil : Tells known [] ⟨[],known,none⟩ := by
  constructor <;> simp [runOf, RunState.blank, startedIn, lastStatus, closed, streamed, recorded,
    inOrder]

/-- Reading one more row. -/
theorem tells_readEntry {s : LogState} (h : Tells known past s) :
    Tells known (past ++ [e]) (readEntry s e) := by
  obtain ⟨id,c⟩ := e
  cases c with
  | unreadable q k m =>
    constructor
    · intro r; simpa [readEntry, startedIn] using h.started r
    · intro r; simpa [readEntry, lastStatus_append, statusOf] using h.status r
    · intro r t; simpa [readEntry, closed_append, turnMark] using h.finals r t
    · intro r t; simpa [readEntry, closed_append, turnMark] using h.finalizedTurns r t
    · intro r t; simpa [readEntry, streamed] using h.deltaTurns r t
    · intro g; simpa [readEntry, recorded] using h.guidance g
    · intro i; simpa [readEntry, inOrder] using h.lastId i
    · exact h.keys
  | readable p =>
    constructor
    · intro r
      have := h.started r
      cases p <;> simp [readEntry, learn, runOf_setRun, startedIn] at this ⊢ <;> grind
    · intro r
      have := h.status r
      cases p <;> simp [readEntry, learn, runOf_setRun, lastStatus_append, statusOf] at this ⊢ <;> grind
    · intro r t
      have := h.finals r t
      cases p <;> simp [readEntry, learn, runOf_setRun, closed_append, turnMark] at this ⊢ <;> grind
    · intro r t
      have := h.finalizedTurns r t
      cases p <;> simp [readEntry, learn, runOf_setRun, closed_append, turnMark] at this ⊢ <;> grind
    · intro r t
      have := h.deltaTurns r t
      cases p <;> simp [readEntry, learn, runOf_setRun, streamed] at this ⊢ <;> grind
    · intro g
      have := h.guidance g
      cases p <;> simp [readEntry, learn, recorded] at this ⊢ <;> grind
    · intro i
      rw [inOrder_append, ← h.lastId i]
      cases hl : s.lastId with
      | none => simp [readEntry, readId, hl]
      | some last => simp [readEntry, readId, hl, and_comm]
    · cases p with
      | started | step | status | delta | reset | final => exact keys_setRun h.keys
      | guidanceApplied | appended | other => exact h.keys

theorem tells_scan (known : List MessageId) (events : List Entry) :
    Tells known events (scan known events).1 := by
  induction events using List.reverseRecOn with
  | nil => exact tells_nil
  | append_singleton past e ih =>
    rw [scan_append]
    exact tells_readEntry ih

/-- A row is faulted exactly when it does not fit the rows before it. -/
theorem entryFaults_eq_nil {s : LogState} {index : ℕ} (h : Tells known past s) :
    entryFaults s index e = [] ↔ fits past known e := by
  obtain ⟨id,c⟩ := e
  cases c with
  | unreadable => simp [entryFaults, fits]
  | readable p =>
    have hid : idFaults s index id p = [] ↔ inOrder past id := by
      rw [← h.lastId id]
      unfold idFaults
      cases s.lastId with
      | none => simp
      | some last => simp
    have hp : faults s index id p = [] ↔ allowed past known p := by
      cases p with
      | step r a =>
        have h1 := h.started r
        have h2 := h.status r
        simp only [faults, allowed, List.append_eq_nil_iff, ← h2, ← h1]
        cases (runOf s r).status <;> simp
      | status r a new =>
        simp only [faults, allowed, ← h.status r]
        cases (runOf s r).status <;> simp
      | guidanceApplied r g t => simp [faults, allowed, ← h.guidance g]
      | delta r t a => simp [faults, allowed, ← h.finalizedTurns r t]
      | final r t a => simp [faults, allowed, ← h.finals r t]
      | started | appended | reset | other => simp [faults, allowed]
    simp only [entryFaults, fits, List.append_eq_nil_iff, hid, hp]

theorem index_entryFaults {s : LogState} {index : ℕ} {v : RunLogViolation}
    (h : v ∈ entryFaults s index e) : v.index = some index := by
  unfold entryFaults at h
  cases hc : e.content with
  | unreadable => simp [hc] at h; rw [h]
  | readable p =>
    rw [hc] at h
    rcases List.mem_append.mp h with h | h
    · unfold idFaults at h
      split at h
      next => split at h <;> simp [violation] at h; rw [h]
      next => simp at h
    · cases p <;> simp only [faults, violation] at h <;> grind

/-- Every finding of the loop is about one row, read after the rows before it. -/
theorem mem_scan {events : List Entry} {v : RunLogViolation} :
    v ∈ (scan known events).2 ↔ ∃ past e rest, events = past ++ e :: rest ∧
      v ∈ entryFaults (scan known past).1 past.length e := by
  induction events using List.reverseRecOn with
  | nil => simp [scan]
  | append_singleton past e ih =>
    rw [scan_append]
    simp only [visit, List.mem_append, ih]
    constructor
    · rintro (⟨p,e',rest,rfl,hv⟩ | hv)
      · exact ⟨p,e',rest ++ [e],by simp,hv⟩
      · exact ⟨past,e,[],rfl,hv⟩
    · rintro ⟨p,e',rest,heq,hv⟩
      rcases split_append.mp heq with ⟨-,rfl,rfl⟩ | ⟨rest',-,hl⟩
      · exact Or.inr hv
      · exact Or.inl ⟨p,e',rest',hl,hv⟩

/-- The row at an index is reported exactly when it does not fit. -/
theorem scan_reports (rest : List Entry) :
    (∃ v ∈ (scan known (past ++ e :: rest)).2, v.index = some past.length) ↔ ¬ fits past known e := by
  have hn : entryFaults (scan known past).1 past.length e = [] ↔ fits past known e :=
    entryFaults_eq_nil (tells_scan known past)
  rw [← hn]
  constructor
  · rintro ⟨v,hv,hi⟩
    obtain ⟨p,e',r,heq,hv⟩ := mem_scan.mp hv
    have hl : p.length = past.length := by
      rw [index_entryFaults hv] at hi
      simpa using hi
    obtain ⟨rfl,he⟩ := List.append_inj heq hl.symm
    simp only [List.cons.injEq] at he
    exact List.ne_nil_of_mem (he.1 ▸ hv)
  · intro hne
    obtain ⟨v,hv⟩ := List.exists_mem_of_ne_nil _ hne
    exact ⟨v,mem_scan.mpr ⟨past,e,rest,rfl,hv⟩,index_entryFaults hv⟩

theorem scan_clean {events : List Entry} : (scan known events).2 = [] ↔
    ∀ past e rest, events = past ++ e :: rest → fits past known e := by
  constructor
  · rintro h past e rest rfl
    by_contra hf
    obtain ⟨v,hv,-⟩ := (scan_reports rest).mpr hf
    rw [h] at hv
    cases hv
  · intro h
    rw [List.eq_nil_iff_forall_not_mem]
    intro v hv
    obtain ⟨past,e,rest,heq,hv⟩ := mem_scan.mp hv
    rw [(entryFaults_eq_nil (tells_scan known past)).mpr (h past e rest heq)] at hv
    simp at hv

theorem missingFinals_eq_nil {s : LogState} (h : Tells known past s) :
    missingFinals s.runs = [] ↔ ∀ r turn, streamed past r turn → closed past r turn := by
  unfold missingFinals
  rw [List.flatMap_eq_nil_iff]
  constructor
  · intro hm r turn hs
    have hd := (h.deltaTurns r turn).mpr hs
    have hne : runOf s r ≠ .blank := by
      intro hb
      simp [hb, RunState.blank] at hd
    have := hm _ (mem_of_runOf hne)
    rw [← h.finals r turn]
    by_contra hf
    simp only [List.map_eq_nil_iff, List.filter_eq_nil_iff, decide_eq_true_eq, not_not] at this
    exact hf (this turn hd)
  · rintro hm ⟨r,run⟩ hr
    have hrun := runOf_of_mem h.keys hr
    simp only [List.map_eq_nil_iff, List.filter_eq_nil_iff, decide_eq_true_eq, not_not]
    intro turn hd
    subst hrun
    exact (h.finals r turn).mpr (hm r turn ((h.deltaTurns r turn).mp hd))

/-- The validator is silent exactly on logs whose rows all fit, with their streamed turns closed
where that is asked. -/
theorem validateRunLog_clean {events : List Entry} {options : RunLogOptions} :
    (validateRunLog events options).violations = [] ↔
      (∀ past e rest, events = past ++ e :: rest → fits past options.knownGuidanceIds e) ∧
      (options.requireFinalPerTurn = true →
        ∀ r turn, streamed events r turn → closed events r turn) := by
  unfold validateRunLog
  rw [List.append_eq_nil_iff, scan_clean]
  split
  next h => simp [h, missingFinals_eq_nil (tells_scan _ events)]
  next h => simp [h]

end Scan
end HermesEnterprise.RunLog
