import HermesEnterprise.RunLog.Engine

/-! # Which logs the nightly check accepts

A log that the engine publishes breaks no rule of the validator except at a retry,
at guidance that an earlier run recorded, and at a turn left without its message.
-/
namespace HermesEnterprise.RunLog
open Foundation.Runs Foundation.Tables

section Logs
variable (r : RunId)

/-- A status that reopens the run after a terminal one. -/
def reopens (past : List Entry) (e : Entry) : Prop :=
  ∃ id a s, e = ⟨id,.readable (.status r a .working)⟩ ∧ lastStatus past r = some s ∧
    s.terminal = true

/-- Guidance applied whose recording is not in the log. -/
def appliesUnrecorded (past : List Entry) (e : Entry) : Prop :=
  ∃ id g turn, e = ⟨id,.readable (.guidanceApplied r g turn)⟩ ∧ ¬ recorded past [] g

/-- What the log of a run says about the run. -/
structure Consistent (run : LiveRun) (log : List Entry) : Prop where
  own : ∀ e ∈ log, e.runId = some run.id
  ended : run.live = false → lastStatus log run.id = some run.status
  live : run.live = true → ∀ s, lastStatus log run.id = some s → s.terminal = false
  started : run.started = true → startedIn log run.id
  opened : ∀ turn, run.turn = some turn → ¬ closed log run.id turn
  attempt : 1 ≤ run.attempt
  faults : ∀ past e rest, log = past ++ e :: rest →
    fits past [] e ∨ reopens run.id past e ∨ appliesUnrecorded run.id past e
  first : run.attempt = 1 → ∀ past e rest, log = past ++ e :: rest → ¬ reopens run.id past e
  later : run.attempt ≠ 1 → ∃ past e rest, log = past ++ e :: rest ∧ reopens run.id past e

end Logs

section Steps
variable {run run' : LiveRun} {log : List Entry} {q : Publication} {payloads : List Payload} {n : ℕ}

/-- The rows of a publication that carry the run's id. -/
def ownRows (r : RunId) (n : ℕ) (payloads : List Payload) : List Entry :=
  (payloads.zipIdx.map fun x => ⟨n + x.2,.readable x.1⟩).filter fun e => e.runId = some r

/-- The log after one more row of the run, when the row reports no status. -/
structure Adds (run run' : LiveRun) (log : List Entry) (e : Entry) : Prop where
  same : run'.id = run.id ∧ run'.status = run.status ∧ run'.attempt = run.attempt
  runId : e.runId = some run.id
  quiet : statusOf run.id e = none
  started : run'.started = true → startedIn (log ++ [e]) run.id
  opened : ∀ turn, run'.turn = some turn → ¬ closed (log ++ [e]) run.id turn
  fault : fits log [] e ∨ appliesUnrecorded run.id log e

theorem not_reopens_of_quiet {r : RunId} {past : List Entry} {e : Entry} (h : statusOf r e = none) :
    ¬ reopens r past e := by
  rintro ⟨id,a,s,rfl,-⟩
  simp [statusOf] at h

theorem Consistent.adds {e : Entry} (h : Consistent run log) (ha : Adds run run' log e) :
    Consistent run' (log ++ [e]) := by
  obtain ⟨⟨hid,hs,hat⟩,hr,hq,hst,ho,hf⟩ := ha
  have hlast : lastStatus (log ++ [e]) run'.id = lastStatus log run.id := by
    rw [lastStatus_append, hid, hq, Option.none_or]
  have hlive : run'.live = run.live := by rw [LiveRun.live, LiveRun.live, hs]
  constructor
  · intro x hx
    rcases List.mem_append.mp hx with hx | hx
    · rw [hid]; exact h.own x hx
    · rw [List.mem_singleton.mp hx, hid]; exact hr
  · rw [hlast, hlive, hs]; exact h.ended
  · rw [hlast, hlive]; exact h.live
  · rw [hid]; exact hst
  · rw [hid]; exact ho
  · rw [hat]; exact h.attempt
  · rw [forall_split_append, hid]
    exact ⟨h.faults,hf.imp_right Or.inr⟩
  · rw [forall_split_append, hid, hat]
    intro h1
    exact ⟨h.first h1,not_reopens_of_quiet hq⟩
  · rw [hid, hat]
    intro h1
    obtain ⟨past,x,rest,rfl,hx⟩ := h.later h1
    exact ⟨past,x,rest ++ [e],by simp,hx⟩

/-- A status of the run's own attempt, or the one that opens its next attempt. -/
theorem Consistent.reports {new : RunStatus} {a : ℕ} (h : Consistent run log) (hin : inOrder log n)
    (hid : run'.id = run.id) (hs : run'.status = new) (hst : run'.started = true → run.started = true)
    (ht : ∀ turn, run'.turn = some turn → run.turn = some turn)
    (hcase : (run.live = true ∧ run'.attempt = run.attempt) ∨
      (run.live = false ∧ new = .working ∧ run'.attempt = run.attempt + 1)) :
    Consistent run' (log ++ [⟨n,.readable (.status run.id a new)⟩]) := by
  have hlast : lastStatus (log ++ [⟨n,.readable (.status run.id a new)⟩]) run.id = some new := by
    rw [lastStatus_append]
    simp [statusOf]
  constructor
  · intro x hx
    rcases List.mem_append.mp hx with hx | hx
    · rw [hid]; exact h.own x hx
    · rw [List.mem_singleton.mp hx, hid]; rfl
  · rw [hid, hs, hlast]; exact fun _ => rfl
  · rw [hid, hlast, LiveRun.live, hs]
    rintro hl s ⟨⟩
    simpa using hl
  · rw [hid]
    intro h1
    obtain ⟨id,b,hm⟩ := h.started (hst h1)
    exact ⟨id,b,List.mem_append_left _ hm⟩
  · rw [hid]
    intro turn h1
    rw [closed_append]
    simp [turnMark, h.opened turn (ht turn h1)]
  · rcases hcase with ⟨-,h1⟩ | ⟨-,-,h1⟩ <;> have := h.attempt <;> omega
  · rw [forall_split_append, hid]
    refine ⟨h.faults,?_⟩
    rcases hcase with ⟨hl,-⟩ | ⟨hl,hw,-⟩
    · refine Or.inl ⟨hin,fun s h1 h2 => ?_⟩
      rw [h.live hl s h1] at h2
      cases h2
    · exact Or.inr (Or.inl ⟨n,a,_,hw ▸ rfl,h.ended hl,by simpa [LiveRun.live] using hl⟩)
  · rw [forall_split_append, hid]
    intro h1
    rcases hcase with ⟨hl,hat⟩ | ⟨-,-,hat⟩
    · refine ⟨h.first (hat ▸ h1),?_⟩
      rintro ⟨i,b,s,-,hls,hterm⟩
      rw [h.live hl s hls] at hterm
      cases hterm
    · have := h.attempt
      omega
  · rw [hid]
    intro h1
    rcases hcase with ⟨-,hat⟩ | ⟨hl,hw,-⟩
    · obtain ⟨past,x,rest,rfl,hx⟩ := h.later (hat ▸ h1)
      exact ⟨past,x,rest ++ [⟨n,.readable (.status run.id a new)⟩],by simp,hx⟩
    · exact ⟨log,_,[],rfl,n,a,_,hw ▸ rfl,h.ended hl,by simpa [LiveRun.live] using hl⟩

/-- A change of the run row that publishes nothing. -/
theorem Consistent.keeps (h : Consistent run log) (hid : run'.id = run.id)
    (hs : run'.status = run.status) (hat : run'.attempt = run.attempt)
    (hst : run'.started = run.started) (ht : run'.turn = run.turn) : Consistent run' log := by
  have hlive : run'.live = run.live := by rw [LiveRun.live, LiveRun.live, hs]
  refine ⟨?_,?_,?_,?_,?_,?_,?_,?_,?_⟩ <;> simp only [hid, hs, hat, hst, ht, hlive]
  exacts [h.own,h.ended,h.live,h.started,h.opened,h.attempt,h.faults,h.first,h.later]

theorem startedIn_append {e : Entry} {r : RunId} (h : startedIn log r) : startedIn (log ++ [e]) r := by
  obtain ⟨id,a,hm⟩ := h
  exact ⟨id,a,List.mem_append_left _ hm⟩

/-- A row that is neither a status, a final message nor a reset. -/
theorem Consistent.plain {p : Payload} (h : Consistent run log) (hin : inOrder log n)
    (hown : p.runId = some run.id) (hq : statusOf run.id ⟨n,.readable p⟩ = none)
    (hm : ∀ turn, turnMark run.id turn ⟨n,.readable p⟩ = none) (hp : allowed log [] p) :
    Consistent run (log ++ [⟨n,.readable p⟩]) :=
  h.adds ⟨⟨rfl,rfl,rfl⟩,hown,hq,fun hs => startedIn_append (h.started hs),
    fun turn ht => by simp [closed_append, hm, h.opened turn ht],Or.inl ⟨hin,hp⟩⟩

theorem Consistent.step {a : ℕ} (h : Consistent run log) (hin : inOrder log n)
    (hl : run.live = true) (hs : run.started = true) :
    Consistent run (log ++ [⟨n,.readable (.step run.id a)⟩]) :=
  h.plain hin rfl rfl (fun _ => rfl) ⟨h.started hs,h.live hl⟩

/-- The message of the open turn. -/
theorem Consistent.final {turn a : ℕ} (h : Consistent run log) (hin : inOrder log n)
    (ht : run.turn = some turn) :
    Consistent { run with turn := none } (log ++ [⟨n,.readable (.final run.id turn a)⟩]) :=
  h.adds ⟨⟨rfl,rfl,rfl⟩,rfl,rfl,fun hs => startedIn_append (h.started hs),
    (fun _ h1 => by cases h1),Or.inl ⟨hin,h.opened turn ht⟩⟩

theorem ownRows_one {r : RunId} {p : Payload} (hp : p.runId = some r) :
    ownRows r n [p] = [⟨n,.readable p⟩] := by
  simp [ownRows, Entry.runId, hp]

theorem ownRows_two {r : RunId} {p p' : Payload} (hp : p.runId = some r) (hp' : p'.runId = some r) :
    ownRows r n [p,p'] = [⟨n,.readable p⟩] ++ [⟨n + 1,.readable p'⟩] := by
  simp [ownRows, Entry.runId, hp, hp']

theorem inOrder_of_lt (h : ∀ e ∈ log, e.id < n) : inOrder log n := fun _ _ hm => h _ hm

/-- What one publication adds to the log of its run. -/
theorem publish_consistent (h : Consistent run log) (hn : ∀ e ∈ log, e.id < n)
    (hp : publish run q = some (run',payloads)) :
    Consistent run' (log ++ ownRows run.id n payloads) := by
  have hin := inOrder_of_lt hn
  have hin' : ∀ e : Entry, e.id = n → inOrder (log ++ [e]) (n + 1) := by
    intro e he
    apply inOrder_of_lt
    intro x hx
    rcases List.mem_append.mp hx with hx | hx
    · exact (hn x hx).trans (Nat.lt_succ_self n)
    · rw [List.mem_singleton.mp hx, he]
      exact Nat.lt_succ_self n
  cases q with
  | createTurn => cases hp
  | guideRun g =>
    simp only [publish] at hp
    split at hp <;> cases hp
    next =>
      rw [ownRows_one rfl]
      have hk : Consistent { run with guidance := run.guidance ++ [g] } log :=
        h.keeps rfl rfl rfl rfl rfl
      exact hk.plain hin rfl rfl (fun _ => rfl) trivial
    next => simpa [ownRows, Entry.runId, Payload.runId] using h
  | runStarted =>
    simp only [publish] at hp
    split at hp <;> cases hp
    rw [ownRows_one rfl]
    exact h.adds ⟨⟨rfl,rfl,rfl⟩,rfl,rfl,fun _ => ⟨n,run.attempt,by simp⟩,
      fun turn ht => by simpa [closed_append, turnMark] using h.opened turn ht,Or.inl ⟨hin,trivial⟩⟩
  | enterStep turn =>
    simp only [publish] at hp
    split at hp <;> cases hp
    next hl =>
      rw [Bool.and_eq_true] at hl
      rw [ownRows_two rfl rfl, ← List.append_assoc]
      have hstep := h.step (a := run.attempt) hin hl.1 hl.2
      -- the reset opens the turn, whatever an earlier try left
      refine hstep.adds ⟨⟨rfl,rfl,rfl⟩,rfl,rfl,fun hs => startedIn_append (hstep.started hs),?_,
        Or.inl ⟨hin' _ rfl,trivial⟩⟩
      rintro t ⟨⟩
      rw [closed_append]
      simp [turnMark]
  | toolStep =>
    simp only [publish] at hp
    split at hp <;> cases hp
    next hl =>
      rw [Bool.and_eq_true] at hl
      rw [ownRows_one rfl]
      exact h.step hin hl.1 hl.2
  | flushDelta =>
    simp only [publish] at hp
    split at hp
    next =>
      obtain ⟨turn,ht,hp⟩ := Option.map_eq_some_iff.mp hp
      cases hp
      rw [ownRows_one rfl]
      exact h.plain hin rfl rfl (fun _ => rfl) (h.opened turn ht)
    next => cases hp
  | markGuidanceApplied g =>
    simp only [publish] at hp
    split at hp
    next =>
      obtain ⟨turn,ht,hp⟩ := Option.map_eq_some_iff.mp hp
      cases hp
      rw [ownRows_one rfl]
      refine (h.keeps rfl rfl rfl rfl rfl).adds ⟨⟨rfl,rfl,rfl⟩,rfl,rfl,
        fun hs => startedIn_append (h.started hs),
        fun t h1 => by simpa [closed_append, turnMark] using h.opened t h1,?_⟩
      by_cases hr : recorded log [] g
      · exact Or.inl ⟨hin,hr⟩
      · exact Or.inr ⟨n,g,turn,rfl,hr⟩
    next => cases hp
  | carryGuidance =>
    cases hp
    have hk : Consistent { run with guidance := [] } log := h.keeps rfl rfl rfl rfl rfl
    simpa [ownRows] using hk
  | answered =>
    simp only [publish] at hp
    split at hp
    next hl =>
      rw [Bool.and_eq_true] at hl
      obtain ⟨turn,ht,hp⟩ := Option.map_eq_some_iff.mp hp
      cases hp
      rw [ownRows_two rfl rfl, ← List.append_assoc]
      exact (h.step hin hl.1 hl.2).final (hin' _ rfl) ht
    next => cases hp
  | interrupted =>
    simp only [publish] at hp
    split at hp
    next =>
      obtain ⟨turn,ht,hp⟩ := Option.map_eq_some_iff.mp hp
      cases hp
      rw [ownRows_one rfl]
      exact h.final hin ht
    next => cases hp
  | malformed =>
    simp only [publish] at hp
    split at hp
    next hl =>
      rw [Bool.and_eq_true] at hl
      obtain ⟨turn,ht,hp⟩ := Option.map_eq_some_iff.mp hp
      cases hp
      rw [ownRows_one rfl]
      have hstep := h.step (a := run.attempt) hin hl.1 hl.2
      refine ⟨hstep.own,hstep.ended,hstep.live,hstep.started,?_,hstep.attempt,hstep.faults,
        hstep.first,hstep.later⟩
      rintro t ⟨⟩
    next => cases hp
  | park | resume | requestRunStop =>
    simp only [publish] at hp
    split at hp <;> cases hp
    next hl =>
      rw [ownRows_one rfl]
      exact h.reports hin rfl rfl id (fun _ => id) (Or.inl ⟨hl,rfl⟩)
  | finish status =>
    simp only [publish] at hp
    split at hp <;> cases hp
    next hl =>
      rw [Bool.and_eq_true] at hl
      rw [ownRows_one rfl]
      exact h.reports hin rfl rfl id (fun _ h1 => by cases h1) (Or.inl ⟨hl.1,rfl⟩)
  | retryTask =>
    simp only [publish] at hp
    split at hp <;> cases hp
    next hs =>
      have hl : run.live = false := by rcases hs with hs | hs <;> simp [LiveRun.live, hs, RunStatus.terminal]
      rw [ownRows_one rfl]
      exact h.reports hin rfl rfl (fun h1 => by cases h1) (fun _ h1 => by cases h1)
        (Or.inr ⟨hl,rfl,rfl⟩)
  | other kind =>
    cases hp
    rw [ownRows_one rfl]
    exact h.plain hin rfl rfl (fun _ => rfl) trivial

/-- A publication speaks of its own run only, and keeps who the run is. -/
theorem publish_own (hp : publish run q = some (run',payloads)) :
    run'.id = run.id ∧ run'.workspaceId = run.workspaceId ∧
      ∀ p ∈ payloads, p.runId = some run.id ∨ p.runId = none := by
  cases q <;> simp only [publish] at hp <;>
    grind [Payload.runId, Option.map_eq_some_iff]

end Steps

section Platforms
variable {p p' : Platform} {run : LiveRun} {workspaceId : WorkspaceId} {payloads : List Payload}

def logOf (p : Platform) (run : LiveRun) : List Entry :=
  (p.stream.filter fun x => x.workspaceId = run.workspaceId ∧ x.entry.runId = some run.id).map
    (·.entry)

/-- The stream is in id order, and the rows of a run tell what the run row says. -/
structure Logged (p : Platform) : Prop where
  keys : (p.runs.map (·.id)).Nodup
  sorted : (p.stream.map (·.entry.id)).Pairwise (· < ·)
  below : ∀ x ∈ p.stream, x.entry.id < p.nextId
  owned : ∀ x ∈ p.stream, ∀ r, x.entry.runId = some r → ∃ run ∈ p.runs, run.id = r
  consistent : ∀ run ∈ p.runs, Consistent run (logOf p run)

theorem logOf_lt (h : ∀ x ∈ p.stream, x.entry.id < p.nextId) : ∀ e ∈ logOf p run, e.id < p.nextId := by
  intro e he
  obtain ⟨x,hx,rfl⟩ := List.mem_map.mp he
  exact h x (List.mem_filter.mp hx).1

theorem emit_sorted (workspaceId : WorkspaceId) (payloads : List Payload) (hs : (p.stream.map (·.entry.id)).Pairwise (· < ·))
    (hb : ∀ x ∈ p.stream, x.entry.id < p.nextId) :
    ((emit workspaceId payloads p).stream.map (·.entry.id)).Pairwise (· < ·) ∧
    ∀ x ∈ (emit workspaceId payloads p).stream, x.entry.id < (emit workspaceId payloads p).nextId := by
  unfold emit
  have hidx : ∀ x ∈ payloads.zipIdx, x.2 < payloads.length := fun x hx => by
    simpa using List.snd_lt_of_mem_zipIdx hx
  constructor
  · rw [List.map_append, List.pairwise_append]
    refine ⟨hs,?_,?_⟩
    · rw [List.map_map, List.pairwise_map, List.pairwise_iff_getElem]
      intro i j hi hj hij
      simp
      omega
    · intro a ha b hb'
      simp only [List.map_map, List.mem_map, Function.comp] at ha hb'
      obtain ⟨x,hx,rfl⟩ := ha
      obtain ⟨y,-,rfl⟩ := hb'
      have := hb x hx
      omega
  · intro x hx
    rcases List.mem_append.mp hx with hx | hx
    · have := hb x hx
      dsimp only
      omega
    · obtain ⟨y,hy,rfl⟩ := List.mem_map.mp hx
      have := hidx y hy
      dsimp only
      omega

/-- The log of a run after a publication. -/
theorem logOf_emit : logOf (emit workspaceId payloads p) run = logOf p run ++
    if workspaceId = run.workspaceId then ownRows run.id p.nextId payloads else [] := by
  unfold logOf emit ownRows
  rw [List.filter_append, List.map_append, List.filter_map, List.map_map, List.filter_map]
  congr 1
  by_cases hw : workspaceId = run.workspaceId
  · simp [hw, Function.comp_def]
  · simp [hw, Function.comp_def]

theorem ownRows_other {r : RunId} {n : ℕ} (h : ∀ q ∈ payloads, q.runId ≠ some r) :
    ownRows r n payloads = [] := by
  unfold ownRows
  rw [List.filter_eq_nil_iff]
  intro e he
  obtain ⟨x,hx,rfl⟩ := List.mem_map.mp he
  have := h x.1 (List.fst_mem_of_mem_zipIdx hx)
  simp only [decide_eq_true_eq]
  exact this

/-- A new run starts with its first message. -/
theorem logged_createRun {runId : RunId} {m : MessageId} {sessionId : SessionId} {now : ℕ}
    (h : Logged p) (hn : ∀ run ∈ p.runs, run.id ≠ runId) :
    Logged (createRun p runId m workspaceId sessionId now) := by
  have hlog : ∀ run : LiveRun, logOf (createRun p runId m workspaceId sessionId now) run =
      logOf p run ++ if workspaceId = run.workspaceId then
        ownRows run.id p.nextId [.appended (some runId) m none] else [] := fun _ => logOf_emit
  have hso := emit_sorted workspaceId [.appended (some runId) m none] h.sorted h.below
  refine ⟨?_,hso.1,hso.2,?_,?_⟩
  · change ((p.runs ++ [_]).map _).Nodup
    rw [List.map_append, List.map_singleton]
    refine h.keys.append (List.nodup_singleton _) ?_
    intro x hx hx'
    obtain ⟨run,hrun,rfl⟩ := List.mem_map.mp hx
    exact hn run hrun (by simpa using hx')
  · intro x hx r hr
    rcases List.mem_append.mp hx with hx | hx
    · obtain ⟨run,hrun,rfl⟩ := h.owned x hx r hr
      exact ⟨run,List.mem_append_left _ hrun,rfl⟩
    · obtain ⟨y,hy,rfl⟩ := List.mem_map.mp hx
      simp only [List.zipIdx_singleton, List.mem_singleton] at hy
      subst hy
      simp only [Entry.runId, Payload.runId, Option.some.injEq] at hr
      exact ⟨_,List.mem_append_right _ (List.mem_singleton_self _),hr⟩
  · intro run hrun
    rw [hlog]
    rcases List.mem_append.mp hrun with hrun | hrun
    · rw [ownRows_other, ite_self, List.append_nil]
      · exact h.consistent run hrun
      · rintro q hq
        rw [List.mem_singleton.mp hq]
        simpa [Payload.runId] using (hn run hrun).symm
    · rw [List.mem_singleton] at hrun
      subst hrun
      have hnil : logOf p ⟨runId,workspaceId,sessionId,now,.working,1,false,none,
          carried p workspaceId sessionId⟩ = [] := by
        unfold logOf
        rw [List.map_eq_nil_iff, List.filter_eq_nil_iff]
        intro x hx hx'
        simp only [decide_eq_true_eq] at hx'
        obtain ⟨run,hrun,hid⟩ := h.owned x hx _ hx'.2
        exact hn run hrun hid
      rw [hnil, if_pos rfl, ownRows_one rfl]
      have hempty : Consistent ⟨runId,workspaceId,sessionId,now,.working,1,false,none,
          carried p workspaceId sessionId⟩ [] := by
        constructor <;> simp [LiveRun.live, RunStatus.terminal, lastStatus]
      exact hempty.plain (fun _ _ hm => by cases hm) rfl rfl (fun _ => rfl) trivial

theorem logged_publishRun {r : RunId} {q : Publication} (h : Logged p)
    (hs : publishRun p r q = some p') : Logged p' := by
  obtain ⟨run,hfind,hs⟩ := Option.bind_eq_some_iff.mp hs
  obtain ⟨⟨run',payloads⟩,hp,hs⟩ := Option.bind_eq_some_iff.mp hs
  cases hs
  have hrun := List.mem_of_find?_eq_some hfind
  have hr : run.id = r := by simpa using List.find?_some hfind
  subst hr
  obtain ⟨hid,hws,hown⟩ := publish_own hp
  have hkeys : (updateWhere (fun x : LiveRun => decide (x.id = run.id)) (fun _ => run') p.runs).map (·.id) =
      p.runs.map (·.id) := by
    apply map_updateWhere
    intro x _ hx
    rw [hid, of_decide_eq_true hx]
  have hlog : ∀ x : LiveRun, logOf (emit run.workspaceId payloads
      { p with
        runs := updateWhere (fun x => decide (x.id = run.id)) (fun _ => run') p.runs
        waiting := keptGuidance run p.waiting q }) x = logOf p x ++
      if run.workspaceId = x.workspaceId then ownRows x.id p.nextId payloads else [] :=
    fun _ => logOf_emit
  obtain ⟨hsorted,hbelow⟩ := emit_sorted run.workspaceId payloads h.sorted h.below
  refine ⟨hkeys ▸ h.keys,hsorted,hbelow,?_,?_⟩
  · intro x hx r hr
    have hkept : ∀ y ∈ p.runs, ∃ z ∈ updateWhere (fun x => decide (x.id = run.id)) (fun _ => run') p.runs,
        z.id = y.id := by
      intro y hy
      have hm : y.id ∈ p.runs.map (·.id) := List.mem_map.mpr ⟨y,hy,rfl⟩
      rw [← hkeys] at hm
      exact List.mem_map.mp hm
    rcases List.mem_append.mp hx with hx | hx
    · obtain ⟨y,hy,rfl⟩ := h.owned x hx r hr
      exact hkept y hy
    · obtain ⟨y,hy,rfl⟩ := List.mem_map.mp hx
      rcases hown y.1 (List.fst_mem_of_mem_zipIdx hy) with h1 | h1
      · have hrr : run.id = r := Option.some.inj (h1.symm.trans hr)
        exact hrr ▸ hkept run hrun
      · exact absurd (h1.symm.trans hr) (by simp)
  · intro x hx
    rw [hlog]
    rcases mem_updateWhere_key h.keys hrun hx with rfl | ⟨hx,hne⟩
    · rw [if_pos hws.symm, hid]
      have hsame : logOf p x = logOf p run := by rw [logOf, logOf, hid, hws]
      rw [hsame]
      exact publish_consistent (h.consistent run hrun) (logOf_lt h.below) hp
    · rw [ownRows_other, ite_self, List.append_nil]
      · exact h.consistent x hx
      · intro q hq hqx
        rcases hown q hq with h1 | h1 <;> rw [hqx] at h1
        · exact hne (Option.some.inj h1)
        · cases h1

/-- One publication keeps every log consistent with its run. -/
theorem logged_step {e : RunId × Publication} (h : Logged p) (hs : Published p e p') : Logged p' := by
  obtain ⟨r,q⟩ := e
  cases q with
  | createTurn m w sid now =>
    simp only [Published, Platform.apply] at hs
    split at hs <;> cases hs
    next hn => exact logged_createRun h fun run hrun hid => hn (by simpa using ⟨run,hrun,hid⟩)
  | _ => exact logged_publishRun h hs

theorem logged (h : ReachablePlatform p) : Logged p :=
  Reachable.invariant h (by rintro _ rfl; exact ⟨by simp [Platform.empty],by simp [Platform.empty],
    by simp [Platform.empty],by simp [Platform.empty],by simp [Platform.empty]⟩)
    fun _ _ _ => logged_step

/-- The logs the check accepts: the run was never retried, read only guidance that its own log
records, and left no streamed turn without its message when it ended. -/
structure Uneventful (run : LiveRun) (log : List Entry) : Prop where
  once : run.attempt = 1
  guidance : ∀ past e rest, log = past ++ e :: rest → ¬ appliesUnrecorded run.id past e
  finished : run.live = false → ∀ turn, streamed log run.id turn → closed log run.id turn

theorem not_fits_of_reopens {r : RunId} {past : List Entry} {e : Entry} (h : reopens r past e) :
    ¬ fits past [] e := by
  intro hf
  obtain ⟨id,a,s,rfl,hs,ht⟩ := h
  have := hf.2 s hs ht
  subst this
  cases ht

theorem not_fits_of_unrecorded {r : RunId} {past : List Entry} {e : Entry}
    (h : appliesUnrecorded r past e) : ¬ fits past [] e := by
  intro hf
  obtain ⟨id,g,turn,rfl,hg⟩ := h
  exact hg hf.2

/-- The findings about a published log. -/
theorem runViolations_eq_nil (h : ReachablePlatform p) (hrun : run ∈ p.runs) :
    runViolations p.stream run.workspaceId run.row = [] ↔ Uneventful run (logOf p run) := by
  have hl := logged h
  have hc := hl.consistent run hrun
  have hslice : slice p.stream run.workspaceId run.row.id = logOf p run := slice_of_sorted hl.sorted
  have hterm : run.row.status.terminal = true ↔ run.live = false := by
    simp [LiveRun.live, LiveRun.row]
  unfold runViolations
  rw [hslice, validateRunLog_clean]
  dsimp only
  rw [hterm]
  constructor
  · rintro ⟨hfits,hfin⟩
    refine ⟨?_,fun past e rest heq hu => not_fits_of_unrecorded hu (hfits past e rest heq),
      fun hd => hfin hd run.id⟩
    by_contra hne
    obtain ⟨past,e,rest,heq,hre⟩ := hc.later hne
    exact not_fits_of_reopens hre (hfits past e rest heq)
  · rintro ⟨honce,hg,hfin⟩
    constructor
    · intro past e rest heq
      rcases hc.faults past e rest heq with hf | hre | hu
      · exact hf
      · exact absurd hre (hc.first honce past e rest heq)
      · exact absurd hu (hg past e rest heq)
    · rintro hd r turn ⟨id,a,hm⟩
      have hr : r = run.id := Option.some.inj (hc.own _ hm)
      subst hr
      exact hfin hd turn ⟨id,a,hm⟩

end Platforms

section Reported
variable {known : List MessageId} {a b rest : List Entry} {e : Entry} {r : RunId} {i x turn : ℕ}

/-- After a terminal status, either a later row is reported or the status stands. -/
theorem terminal_stands (rest : List Entry) {s : RunStatus} (hs : s.terminal = true) :
    (∃ v ∈ (scan known ((a ++ ⟨i,.readable (.status r x s)⟩ :: b) ++ rest)).2, ∃ k,
      v.index = some k ∧ a.length < k ∧ k ≤ a.length + b.length) ∨
    lastStatus (a ++ ⟨i,.readable (.status r x s)⟩ :: b) r = some s := by
  induction b using List.reverseRecOn generalizing rest with
  | nil =>
    right
    rw [lastStatus_append]
    simp [statusOf]
  | append_singleton b y ih =>
    rcases ih (y :: rest) with ⟨v,hv,k,hk,hlo,hhi⟩ | hlast
    · left
      refine ⟨v,by simpa using hv,k,hk,hlo,?_⟩
      simp
      omega
    · have hassoc : a ++ ⟨i,.readable (.status r x s)⟩ :: (b ++ [y]) =
          (a ++ ⟨i,.readable (.status r x s)⟩ :: b) ++ [y] := by simp
      rw [hassoc, lastStatus_append]
      cases hy : statusOf r y with
      | none => exact Or.inr (by simpa using hlast)
      | some s' =>
        by_cases hss : s' = s
        · exact Or.inr (by simp [hss])
        · left
          have hnot : ¬ fits (a ++ ⟨i,.readable (.status r x s)⟩ :: b) known y := by
            obtain ⟨id,c⟩ := y
            unfold statusOf at hy
            split at hy
            next r' x' new hc =>
              dsimp only at hc
              subst hc
              split at hy
              next hr =>
                subst hr
                cases hy
                rintro ⟨-,hall⟩
                exact hss (hall s hlast hs)
              next => cases hy
            next => cases hy
          obtain ⟨v,hv,hk⟩ := (scan_reports rest).mpr hnot
          refine ⟨v,by simpa using hv,_,hk,?_,?_⟩ <;> simp

/-- A final message closes its turn until a reset. -/
theorem closed_of_no_reset (hb : ∀ y ∈ b, turnMark r turn y ≠ some false) :
    closed (a ++ ⟨i,.readable (.final r turn x)⟩ :: b) r turn := by
  induction b using List.reverseRecOn with
  | nil =>
    rw [closed_append]
    simp [turnMark]
  | append_singleton b y ih =>
    have hassoc : a ++ ⟨i,.readable (.final r turn x)⟩ :: (b ++ [y]) =
        (a ++ ⟨i,.readable (.final r turn x)⟩ :: b) ++ [y] := by simp
    rw [hassoc, closed_append]
    have hih := ih fun z hz => hb z (List.mem_append_left _ hz)
    have hy := hb y (by simp)
    cases hm : turnMark r turn y with
    | none => exact Or.inr ⟨rfl,hih⟩
    | some m => cases m <;> simp_all

/-- Some row of the run is reported at an index of this range. -/
def reportedWithin (page : RunLogPage) (runId : RunId) (lo hi : ℕ) : Prop :=
  ∃ v, (runId,v) ∈ page.violations ∧ ∃ k, v.index = some k ∧ lo ≤ k ∧ k ≤ hi

section Pages
variable {stream : List StreamRow} {workspaceId : WorkspaceId} {runs : List RunRow}
variable {cursor : Option RunId} {limit : ℕ} {run : RunRow}

theorem reportedWithin_of_scan (hn : (runs.map (·.id)).Nodup)
    (h : run ∈ pageRuns workspaceId runs cursor limit) {v : RunLogViolation} {k lo hi : ℕ}
    (hv : v ∈ (scan [] (slice stream workspaceId run.id)).2) (hk : v.index = some k) (hlo : lo ≤ k)
    (hhi : k ≤ hi) :
    reportedWithin (validateRunLogPage stream workspaceId runs cursor limit) run.id lo hi :=
  ⟨v,(page_violations hn h).mpr (List.mem_append_left _ hv),k,hk,hlo,hhi⟩

/-- A step or another status after a terminal status does not pass. -/
theorem page_reports_after_terminal (hn : (runs.map (·.id)).Nodup)
    (h : run ∈ pageRuns workspaceId runs cursor limit) {s : RunStatus} (hs : s.terminal = true)
    (hslice : slice stream workspaceId run.id =
      (a ++ ⟨i,.readable (.status run.id x s)⟩ :: b) ++ e :: rest)
    (he : (∃ id y, e = ⟨id,.readable (.step run.id y)⟩) ∨
      ∃ id y s', e = ⟨id,.readable (.status run.id y s')⟩ ∧ s' ≠ s) :
    reportedWithin (validateRunLogPage stream workspaceId runs cursor limit) run.id (a.length + 1)
      (a.length + 1 + b.length) := by
  rcases @terminal_stands [] a b run.id i x (e :: rest) s hs with ⟨v,hv,k,hk,hlo,hhi⟩ | hlast
  · rw [← hslice] at hv
    exact reportedWithin_of_scan hn h hv hk hlo (by omega)
  · have hnot : ¬ fits (a ++ ⟨i,.readable (.status run.id x s)⟩ :: b) [] e := by
      rcases he with ⟨id,y,rfl⟩ | ⟨id,y,s',rfl,hne⟩ <;> intro hf
      · rw [hf.2.2 s hlast] at hs
        cases hs
      · exact hne (hf.2 s hlast hs)
    obtain ⟨v,hv,hk⟩ := (scan_reports rest).mpr hnot
    rw [← hslice] at hv
    refine reportedWithin_of_scan hn h hv hk ?_ ?_ <;> simp
    omega

/-- Text or a second final message after a final message is reported at its row. -/
theorem page_reports_after_final (hn : (runs.map (·.id)).Nodup)
    (h : run ∈ pageRuns workspaceId runs cursor limit)
    (hslice : slice stream workspaceId run.id =
      (a ++ ⟨i,.readable (.final run.id turn x)⟩ :: b) ++ e :: rest)
    (hb : ∀ y ∈ b, turnMark run.id turn y ≠ some false)
    (he : (∃ id y, e = ⟨id,.readable (.final run.id turn y)⟩) ∨
      ∃ id y, e = ⟨id,.readable (.delta run.id turn y)⟩) :
    reportedWithin (validateRunLogPage stream workspaceId runs cursor limit) run.id
      (a.length + 1 + b.length) (a.length + 1 + b.length) := by
  have hclosed : closed (a ++ ⟨i,.readable (.final run.id turn x)⟩ :: b) run.id turn :=
    closed_of_no_reset hb
  have hnot : ¬ fits (a ++ ⟨i,.readable (.final run.id turn x)⟩ :: b) [] e := by
    rcases he with ⟨id,y,rfl⟩ | ⟨id,y,rfl⟩ <;> exact fun hf => hf.2 hclosed
  obtain ⟨v,hv,hk⟩ := (scan_reports rest).mpr hnot
  rw [← hslice] at hv
  refine reportedWithin_of_scan hn h hv hk ?_ ?_ <;> simp
  all_goals omega

end Pages

/-- The nightly check is silent about a published run exactly when the run was uneventful, and it
reports every log with a step or another status after a terminal status, a second final message, or
text after a final message. -/
theorem nightly_check_silent_iff {p : Platform} (hp : ReachablePlatform p) {run : LiveRun}
    (hrun : run ∈ p.runs) {cursor : Option RunId} {limit : ℕ}
    (hpage : run.row ∈ pageRuns run.workspaceId (p.runs.map (·.row)) cursor limit) :
    ((∀ v, (run.id,v) ∉
        (validateRunLogPage p.stream run.workspaceId (p.runs.map (·.row)) cursor limit).violations) ↔
      Uneventful run (logOf p run)) ∧
    ∀ stream workspaceId runs cursor limit run, (runs.map RunRow.id).Nodup →
      run ∈ pageRuns workspaceId runs cursor limit → ∀ a i x b e rest,
      (∀ s : RunStatus, s.terminal = true →
        slice stream workspaceId run.id =
          (a ++ ⟨i,.readable (.status run.id x s)⟩ :: b) ++ e :: rest →
        ((∃ id y, e = ⟨id,.readable (.step run.id y)⟩) ∨
          ∃ id y s', e = ⟨id,.readable (.status run.id y s')⟩ ∧ s' ≠ s) →
        reportedWithin (validateRunLogPage stream workspaceId runs cursor limit) run.id
          (a.length + 1) (a.length + 1 + b.length)) ∧
      (∀ turn,
        slice stream workspaceId run.id =
          (a ++ ⟨i,.readable (.final run.id turn x)⟩ :: b) ++ e :: rest →
        (∀ y ∈ b, turnMark run.id turn y ≠ some false) →
        ((∃ id y, e = ⟨id,.readable (.final run.id turn y)⟩) ∨
          ∃ id y, e = ⟨id,.readable (.delta run.id turn y)⟩) →
        reportedWithin (validateRunLogPage stream workspaceId runs cursor limit) run.id
          (a.length + 1 + b.length) (a.length + 1 + b.length)) := by
  constructor
  · have hkeys : ((p.runs.map (·.row)).map (·.id)).Nodup := by
      simpa [LiveRun.row, Function.comp_def] using (logged hp).keys
    rw [← runViolations_eq_nil hp hrun, List.eq_nil_iff_forall_not_mem]
    exact forall_congr' fun v => not_congr (page_violations hkeys hpage)
  · intro stream workspaceId runs cursor limit run hn hpage a i x b e rest
    exact ⟨fun s hs hslice he => page_reports_after_terminal hn hpage hs hslice he,
      fun turn hslice hb he => page_reports_after_final hn hpage hslice hb he⟩

/-- One turn, answered. -/
def answeredRun : List (RunId × Publication) :=
  [("run",.createTurn "question" 1 1 0),("run",.runStarted),("run",.enterStep 0),("run",.flushDelta),
    ("run",.answered),("run",.finish .completed)]

/-- A turn whose first attempt failed after its answer, and its retry. -/
def retriedRun : List (RunId × Publication) :=
  [("run",.createTurn "question" 1 1 0),("run",.runStarted),("run",.enterStep 0),("run",.flushDelta),
    ("run",.answered),("run",.finish .error),("run",.retryTask),("run",.runStarted),
    ("run",.enterStep 0),("run",.flushDelta),("run",.answered),("run",.finish .completed)]

def platformOf (events : List (RunId × Publication)) : Platform :=
  (events.foldlM Platform.apply .empty).getD .empty

theorem nightly_check_silent_iff_answered :
    ∃ run ∈ (platformOf answeredRun).runs, Uneventful run (logOf (platformOf answeredRun) run) := by
  have hrun : Run Published .empty answeredRun (platformOf answeredRun) :=
    run_of_foldlM (by rfl)
  refine ⟨⟨"run",1,1,0,.completed,1,true,none,[]⟩,by decide,?_⟩
  have hpage : (⟨"run",1,1,0,.completed,1,true,none,[]⟩ : LiveRun).row ∈
      pageRuns 1 ((platformOf answeredRun).runs.map (·.row)) none 200 := by decide
  refine (nightly_check_silent_iff ⟨_,_,rfl,hrun⟩ (by decide) hpage).1.mp ?_
  have hnone : (validateRunLogPage (platformOf answeredRun).stream 1
      ((platformOf answeredRun).runs.map (·.row)) none 200).violations = [] := by decide
  intro v hv
  rw [hnone] at hv
  cases hv

/-- The check reports the retry of a correct run. -/
theorem retry_reported :
    ∃ p, ReachablePlatform p ∧ ∃ run ∈ p.runs,
      run.row ∈ pageRuns run.workspaceId (p.runs.map (·.row)) none 200 ∧
      ∃ v, (run.id,v) ∈
        (validateRunLogPage p.stream run.workspaceId (p.runs.map (·.row)) none 200).violations ∧
        v.rule = .statusAfterTerminal := by
  have hrun : Run Published .empty retriedRun (platformOf retriedRun) := run_of_foldlM (by rfl)
  refine ⟨_,⟨_,_,rfl,hrun⟩,⟨"run",1,1,0,.completed,2,true,none,[]⟩,by decide,
    by decide,⟨some 8,some 8,"run.status",.statusAfterTerminal,
      "status working after the terminal status error"⟩,by decide,rfl⟩

end Reported
end HermesEnterprise.RunLog
