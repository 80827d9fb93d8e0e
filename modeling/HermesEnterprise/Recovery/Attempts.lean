import HermesEnterprise.Recovery.System

/-! # Each attempt is admitted and started once

A step keeps every run in its attempt, or moves one run from a failed or stopped attempt
to the next. Only a retry that names the attempt moves it. Instances are created for
admitted attempts, one for each.
-/
namespace HermesEnterprise.Recovery
open Approvals hiding RunId
open RunLog Foundation.Tables Foundation.Runs

variable {c : Checks} {p p' q s : Platform} {run r r' : RunRow} {e : Event} {es : List Event}
variable {userId : UserId} {agentId : AgentId} {runId : RunId} {expectedAttempt : Option ℕ}
variable {automatic : Bool} {payload : RecoveryPayload}

/-- A write that leaves the attempt, and a terminal status, as they are. -/
structure Edited (r r' : RunRow) : Prop where
  id : r'.id = r.id
  attempt : r'.attempt = r.attempt
  history : r'.recoveryHistory = r.recoveryHistory
  terminal : r.status.terminal = true → r'.status = r.status

theorem Edited.refl (r : RunRow) : Edited r r := ⟨rfl,rfl,rfl,fun _ => rfl⟩

theorem Edited.trans {r'' : RunRow} (h : Edited r r') (h' : Edited r' r'') : Edited r r'' := by
  refine ⟨h'.id.trans h.id,h'.attempt.trans h.attempt,h'.history.trans h.history,fun ht => ?_⟩
  have hs := h.terminal ht
  exact (h'.terminal (hs ▸ ht)).trans hs

/-- Every run is edited in place. -/
def Kept (p p' : Platform) : Prop := ∃ f, (∀ r, Edited r (f r)) ∧ p'.runs = p.runs.map f

theorem Kept.refl (h : p'.runs = p.runs) : Kept p p' := ⟨id,Edited.refl,by rw [h, List.map_id]⟩

theorem Kept.trans (h : Kept p q) (h' : Kept q p') : Kept p p' := by
  obtain ⟨f,hf,hq⟩ := h
  obtain ⟨g,hg,hp⟩ := h'
  exact ⟨g ∘ f,fun r => (hf r).trans (hg (f r)),by rw [hp, hq, List.map_map]⟩

theorem kept_updateRuns {also : RunRow → Bool} {f : RunRow → RunRow}
    (hf : ∀ r, also r = true → Edited r (f r)) : Kept p (updateRuns p runId also f) := by
  refine ⟨fun r => if decide (r.id = runId) && also r then f r else r,fun r => ?_,rfl⟩
  dsimp only
  split
  · rename_i h
    exact hf r (Bool.and_eq_true_iff.mp h).2
  · exact .refl r

/-- What a run may be after a step: in its attempt, or in the next one. -/
inductive Advance (r r' : RunRow) : Prop
  | kept : Edited r r' → Advance r r'
  | retried : r'.id = r.id → r'.attempt = r.attempt + 1 → (r.status = .error ∨ r.status = .stopped) →
      r'.status = .working → r'.recoveryHistory.map (·.attempt) =
        r.recoveryHistory.map (·.attempt) ++ [r.attempt] → Advance r r'

theorem Advance.id (h : Advance r r') : r'.id = r.id := by
  cases h with
  | kept h => exact h.id
  | retried h => exact h

theorem Advance.attempt_le (h : Advance r r') : r.attempt ≤ r'.attempt := by
  cases h with
  | kept h => exact h.attempt.ge
  | retried _ h => omega

/-- The runs after a step: each advanced, and perhaps one more in its first attempt. -/
structure Moved (p p' : Platform) : Prop where
  rows : ∃ f, (∀ r ∈ p.runs, Advance r (f r)) ∧
    (p'.runs = p.runs.map f ∨ ∃ run : RunRow, p'.runs = p.runs.map f ++ [run] ∧
      (∀ r ∈ p.runs, r.id ≠ run.id) ∧ run.attempt = 1 ∧ run.recoveryHistory = [])

theorem Kept.moved (h : Kept p p') : Moved p p' := by
  obtain ⟨f,hf,hp⟩ := h
  exact ⟨f,fun r _ => .kept (hf r),Or.inl hp⟩

theorem moved_of_runs (h : p'.runs = p.runs) : Moved p p' := (Kept.refl h).moved

theorem Moved.row (h : Moved p p') (hr : r ∈ p.runs) : ∃ r' ∈ p'.runs, Advance r r' := by
  obtain ⟨f,hf,hp | ⟨run,hp,-⟩⟩ := h.rows
  · exact ⟨f r,hp ▸ List.mem_map_of_mem hr,hf r hr⟩
  · exact ⟨f r,hp ▸ List.mem_append_left _ (List.mem_map_of_mem hr),hf r hr⟩

/-- Why an automatic retry may start: the failed attempt of this run, as the locked row shows it. -/
structure AutomaticAuthority (p : Platform) (run : RunRow) : Prop where
  below : run.attempt < maxAutomaticAttempts
  notCancelled : run.recoveryCancelled = false
  notStopped : run.stopRequested = false
  backOff : ∃ ended, run.endedAt = some ended ∧
    ended + (if run.attempt = 1 then 60 else 300) * 1000 ≤ p.now
  deadline : ∀ t, run.recoveryNotBefore = some t → t ≤ p.now
  unblocked : (safetyOf p run).blockedReason = none
  responseOnly : (safetyOf p run).resumeInput = some responseOnlyRecoveryInput
  newest : ∀ r ∈ p.runs, r.sessionId = run.sessionId → r.id ≠ run.id → r.createdAt < run.createdAt

/-- What a started attempt had behind it. -/
structure Started (p : Platform) (runId : RunId) (expectedAttempt : Option ℕ) (automatic : Bool)
    (run : RunRow) (p' : Platform) : Prop where
  mem : run ∈ p.runs
  id : run.id = runId
  expected : ∀ e, expectedAttempt = some e → run.attempt = e
  ended : run.status = .error ∨ run.status = .stopped
  authority : automatic = true → AutomaticAuthority p run
  after : ∃ c model instanceId input, p' = enqueueLaunch
    (updateRuns p run.id (fun _ => true) (nextAttempt c run model instanceId input automatic))
    ⟨run.id,run.sessionId,run.attempt + 1,c.engineVersion,c.traceId⟩

section Retry

theorem automaticRetryAt_spec {due : ℕ} (h : automaticRetryAt run = some due) :
    run.attempt < maxAutomaticAttempts ∧ run.recoveryCancelled = false ∧
    (∃ ended, run.endedAt = some ended ∧
      ended + (if run.attempt = 1 then 60 else 300) * 1000 ≤ due) ∧
    ∀ t, run.recoveryNotBefore = some t → t ≤ due := by
  unfold automaticRetryAt at h
  split at h
  · rename_i ended error hended herror
    split at h
    · cases h
    · rename_i hguard
      simp only [Bool.or_eq_true, decide_eq_true_eq, not_or, Bool.not_eq_true, Bool.not_eq_eq_eq_not,
        Bool.not_true, not_le] at hguard
      cases h
      refine ⟨hguard.1.1.2,hguard.1.1.1,⟨ended,hended,Nat.le_max_left _ _⟩,?_⟩
      intro t ht
      rw [ht, Option.getD_some]
      exact Nat.le_max_right _ _
  · cases h

theorem retryStart_start (h : retryStart p run automatic expectedAttempt = .ok .start) :
    (∀ e, expectedAttempt = some e → run.attempt = e) ∧ (run.status = .error ∨ run.status = .stopped) ∧
    (automatic = true → newerRun p run = false ∧ run.stopRequested = false ∧
      ∃ due, automaticRetryAt run = some due ∧ due ≤ p.now) := by
  unfold retryStart at h
  dsimp only at h
  split at h
  · split at h
    · cases h
    · simp at h
  · rename_i hexpected
    split at h
    · simp at h
    · rename_i hterminal
      split at h
      · simp at h
      · rename_i hcompleted
        split at h
        · cases h
        · rename_i hnewer
          split at h
          · cases h
          · rename_i hallowed
            split at h
            · cases h
            · rename_i hdue
              refine ⟨?_,?_,?_⟩
              · rintro e rfl
                simpa using hexpected
              · cases hs : run.status <;> simp_all [RunStatus.terminal]
              · intro hauto
                simp only [hauto, Bool.true_and, Bool.not_eq_true, Bool.or_eq_false_iff] at hnewer hallowed hdue
                refine ⟨hnewer,hallowed.1.2,?_⟩
                cases hd : automaticRetryAt run with
                | none => rw [hd] at hallowed; simp at hallowed
                | some due =>
                  rw [hd] at hdue
                  exact ⟨due,rfl,by simpa using hdue⟩

theorem requireSafe_ok {u : Unit} (h : requireSafe c p run automatic = .ok u) :
    (safetyOf p run).blockedReason = none ∧
    (automatic = true → (safetyOf p run).resumeInput = some responseOnlyRecoveryInput) := by
  unfold requireSafe at h
  dsimp only at h
  split at h
  · simp at h
  · rename_i hnone
    obtain ⟨_,hresponse,-⟩ := Result.bind_eq_ok.mp h
    refine ⟨hnone,fun hauto => ?_⟩
    have hresponse := require_eq_ok.mp hresponse
    rw [hauto] at hresponse
    exact of_decide_eq_true hresponse

theorem requireAdmission_ok {model : ModelRow} (h : requireAdmission c p run automatic = .ok model) :
    ∃ u, requireSafe c p run automatic = .ok u := by
  obtain ⟨_,-,h⟩ := Result.bind_eq_ok.mp h
  obtain ⟨u,hsafe,-⟩ := Result.bind_eq_ok.mp h
  exact ⟨u,hsafe⟩

theorem loadRecoveryRun_ok (h : loadRecoveryRun p userId agentId runId = .ok run) :
    run ∈ p.runs ∧ run.id = runId := by
  unfold loadRecoveryRun at h
  split at h
  · rename_i run' hfind
    cases h
    have hkey := List.find?_some hfind
    rw [Bool.and_eq_true] at hkey
    exact ⟨List.mem_of_find?_eq_some hfind,of_decide_eq_true hkey.1⟩
  · simp at h

theorem newest_of_newerRun (h : newerRun p run = false) :
    ∀ r ∈ p.runs, r.sessionId = run.sessionId → r.id ≠ run.id → r.createdAt < run.createdAt := by
  intro r hr hs hid
  have hnot := List.any_eq_false.mp h r hr
  by_contra hle
  exact hnot (by simp [hs, hid, not_lt.mp hle])

/-- What the one admission path may do. -/
theorem retryTask_cases (h : retryTask c p userId agentId runId expectedAttempt automatic = .ok (p',r)) :
    p' = p ∨
    (p' = updateRuns p r.id (fun x => decide (x.attempt = r.attempt) &&
      (decide (x.status = .error) || decide (x.status = .stopped))) supersede) ∨
    ∃ run, Started p runId expectedAttempt automatic run p' := by
  unfold retryTask at h
  obtain ⟨_,-,h⟩ := Result.bind_eq_ok.mp h
  obtain ⟨run,hload,h⟩ := Result.bind_eq_ok.mp h
  obtain ⟨found,hstart,h⟩ := Result.bind_eq_ok.mp h
  obtain ⟨hmem,hid⟩ := loadRecoveryRun_ok hload
  cases found with
  | unchanged =>
    cases Result.pure_eq_ok.mp h
    exact Or.inl rfl
  | superseded =>
    cases Result.pure_eq_ok.mp h
    exact Or.inr (Or.inl rfl)
  | start =>
    obtain ⟨model,hchecks,h⟩ := Result.bind_eq_ok.mp h
    obtain ⟨hexpected,hended,hauto⟩ := retryStart_start hstart
    obtain ⟨_,hsafe⟩ := requireAdmission_ok hchecks
    obtain ⟨hblocked,hresponse⟩ := requireSafe_ok hsafe
    refine Or.inr (Or.inr ⟨run,hmem,hid,hexpected,hended,fun ha => ?_,?_⟩)
    · obtain ⟨hnewer,hstopped,due,hdue,hnow⟩ := hauto ha
      obtain ⟨hbelow,hcancelled,⟨ended,hend,hback⟩,hdeadline⟩ := automaticRetryAt_spec hdue
      exact ⟨hbelow,hcancelled,hstopped,⟨ended,hend,hback.trans hnow⟩,
        fun t ht => (hdeadline t ht).trans hnow,hblocked,hresponse ha,newest_of_newerRun hnewer⟩
    · unfold startAttempt at h
      obtain ⟨instanceId,-,h⟩ := Result.bind_eq_ok.mp h
      split at h
      · cases h
      · cases Result.pure_eq_ok.mp h
        exact ⟨c,model,instanceId,_,rfl⟩

theorem kept_supersede {r : RunRow} : Kept p (updateRuns p r.id
    (fun x => decide (x.attempt = r.attempt) &&
      (decide (x.status = .error) || decide (x.status = .stopped))) supersede) :=
  kept_updateRuns fun _ _ => ⟨rfl,rfl,rfl,fun _ => rfl⟩

theorem enqueueLaunch_runs (p : Platform) (params : RunInstanceParams) :
    (enqueueLaunch p params).runs = p.runs := by
  unfold enqueueLaunch
  split <;> rfl

/-- A started attempt moves its run, and no other. -/
theorem Started.advance (hn : (p.runs.map (·.id)).Nodup)
    (h : Started p runId expectedAttempt automatic run p') :
    ∃ f, p'.runs = p.runs.map f ∧ ∀ r ∈ p.runs, (r = run ∧ Advance r (f r) ∧
      (f r).attempt = r.attempt + 1) ∨ (r ≠ run ∧ f r = r) := by
  obtain ⟨c,model,instanceId,input,rfl⟩ := h.after
  refine ⟨fun r => if decide (r.id = run.id) && true then
    nextAttempt c run model instanceId input automatic r else r,by rw [enqueueLaunch_runs]; rfl,?_⟩
  intro r hr
  dsimp only
  by_cases hid : r.id = run.id
  · have heq : r = run := List.inj_on_of_nodup_map hn hr h.mem hid
    subst heq
    left
    rw [if_pos (by simp)]
    refine ⟨rfl,.retried rfl rfl h.ended rfl ?_,rfl⟩
    rw [nextAttempt, List.map_append]
    rfl
  · right
    rw [if_neg (by simp [hid])]
    exact ⟨fun heq => hid (heq ▸ rfl),rfl⟩

end Retry

section Invariant

/-- The launches that are queued, under way or done. -/
def launches (p : Platform) : List RunInstanceParams := p.launchJobs ++ p.starting ++ p.instances

/-- The attempt of a launch was admitted. -/
def Admitted (p : Platform) (j : RunInstanceParams) : Prop :=
  ∃ r ∈ p.runs, r.id = j.runId ∧ 1 ≤ j.attempt ∧ j.attempt ≤ r.attempt

/-- The run of a recovery worker failed in the attempt the worker read, or has left it. -/
def Awaited (p : Platform) (w : RecoveryPayload) : Prop :=
  ∃ r ∈ p.runs, r.id = w.runId ∧ w.expectedAttempt ≤ r.attempt ∧
    (r.attempt = w.expectedAttempt → r.status = .error)

structure Ordered (p : Platform) : Prop where
  ids : (p.runs.map (·.id)).Nodup
  positive : ∀ r ∈ p.runs, 1 ≤ r.attempt
  history : ∀ r ∈ p.runs, r.recoveryHistory.map (·.attempt) = List.range' 1 (r.attempt - 1)
  admitted : ∀ j ∈ launches p, Admitted p j
  once : (p.instances.map fun i => (i.runId,i.attempt)).Nodup
  awaited : ∀ w ∈ p.recovering, Awaited p w

theorem Admitted.moved {j : RunInstanceParams} (h : Admitted p j) (hm : Moved p p') : Admitted p' j := by
  obtain ⟨r,hr,hid,hpos,hle⟩ := h
  obtain ⟨r',hr',hadv⟩ := hm.row hr
  exact ⟨r',hr',hadv.id.trans hid,hpos,hle.trans hadv.attempt_le⟩

theorem Awaited.moved {w : RecoveryPayload} (h : Awaited p w) (hm : Moved p p') : Awaited p' w := by
  obtain ⟨r,hr,hid,hle,herror⟩ := h
  obtain ⟨r',hr',hadv⟩ := hm.row hr
  refine ⟨r',hr',hadv.id.trans hid,hle.trans hadv.attempt_le,fun heq => ?_⟩
  cases hadv with
  | kept hedit =>
    have hs := herror (hedit.attempt ▸ heq)
    exact (hedit.terminal (by rw [hs]; rfl)).trans hs
  | retried _ hattempt => omega

theorem advance_facts (hadv : Advance r r') (hpos : 1 ≤ r.attempt)
    (hh : r.recoveryHistory.map (·.attempt) = List.range' 1 (r.attempt - 1)) :
    1 ≤ r'.attempt ∧ r'.recoveryHistory.map (·.attempt) = List.range' 1 (r'.attempt - 1) := by
  cases hadv with
  | kept hedit =>
    rw [hedit.attempt, hedit.history]
    exact ⟨hpos,hh⟩
  | retried _ hattempt _ _ hhistory =>
    refine ⟨by omega,?_⟩
    rw [hhistory, hh, hattempt]
    have hsucc : r.attempt + 1 - 1 = (r.attempt - 1) + 1 := by omega
    have hlast : 1 + (r.attempt - 1) = r.attempt := by omega
    rw [hsucc, List.range'_1_concat, hlast]

theorem Ordered.moved (h : Ordered p) (hm : Moved p p')
    (hlaunch : ∀ j ∈ launches p', j ∈ launches p ∨ Admitted p' j)
    (hwait : ∀ w ∈ p'.recovering, w ∈ p.recovering ∨ Awaited p' w)
    (honce : (p'.instances.map fun i => (i.runId,i.attempt)).Nodup) : Ordered p' := by
  obtain ⟨f,hf,hruns⟩ := hm.rows
  have hmapped : (p.runs.map f).map (·.id) = p.runs.map (·.id) := by
    rw [List.map_map]
    exact List.map_congr_left fun r hr => (hf r hr).id
  have hrows : ∀ r' ∈ p'.runs, (∃ r ∈ p.runs, Advance r r') ∨
      (r'.attempt = 1 ∧ r'.recoveryHistory = []) := by
    intro r' hr'
    rcases hruns with hp | ⟨run,hp,-,hone,hempty⟩
    · obtain ⟨r,hr,rfl⟩ := List.mem_map.mp (hp ▸ hr')
      exact Or.inl ⟨r,hr,hf r hr⟩
    · rcases List.mem_append.mp (hp ▸ hr') with hr' | hr'
      · obtain ⟨r,hr,rfl⟩ := List.mem_map.mp hr'
        exact Or.inl ⟨r,hr,hf r hr⟩
      · cases List.mem_singleton.mp hr'
        exact Or.inr ⟨hone,hempty⟩
  have hfacts : ∀ r' ∈ p'.runs, 1 ≤ r'.attempt ∧
      r'.recoveryHistory.map (·.attempt) = List.range' 1 (r'.attempt - 1) := by
    intro r' hr'
    rcases hrows r' hr' with ⟨r,hr,hadv⟩ | ⟨hone,hempty⟩
    · exact advance_facts hadv (h.positive r hr) (h.history r hr)
    · rw [hone, hempty]
      exact ⟨le_refl 1,rfl⟩
  refine ⟨?_,fun r hr => (hfacts r hr).1,fun r hr => (hfacts r hr).2,fun j hj => ?_,honce,fun w hw => ?_⟩
  · rcases hruns with hp | ⟨run,hp,hfresh,-⟩
    · rw [hp, hmapped]
      exact h.ids
    · rw [hp, List.map_append, hmapped]
      refine h.ids.append (List.nodup_singleton _) ?_
      intro i hi hi'
      obtain ⟨r,hr,rfl⟩ := List.mem_map.mp hi
      exact hfresh r hr (List.mem_singleton.mp hi')
  · rcases hlaunch j hj with hj | hj
    · exact (h.admitted j hj).moved hm
    · exact hj
  · rcases hwait w hw with hw | hw
    · exact (h.awaited w hw).moved hm
    · exact hw

/-- The launches and the workers that a step does not touch. -/
structure SameWorkers (p p' : Platform) : Prop where
  launchJobs : p'.launchJobs = p.launchJobs
  starting : p'.starting = p.starting
  instances : p'.instances = p.instances
  recovering : p'.recovering = p.recovering

theorem Ordered.kept (h : Ordered p) (hk : Kept p p') (hs : SameWorkers p p') : Ordered p' := by
  obtain ⟨hl,hst,hi,hr⟩ := hs
  refine h.moved hk.moved (fun j hj => Or.inl ?_) (fun w hw => Or.inl (hr ▸ hw)) (hi ▸ h.once)
  unfold launches at hj ⊢
  rwa [hl, hst, hi] at hj

theorem sameWorkers_updateRuns (p : Platform) (runId : RunId) (also : RunRow → Bool)
    (f : RunRow → RunRow) : SameWorkers p (updateRuns p runId also f) := ⟨rfl,rfl,rfl,rfl⟩

theorem Started.moved (hn : (p.runs.map (·.id)).Nodup)
    (h : Started p runId expectedAttempt automatic run p') : Moved p p' := by
  obtain ⟨f,hp,hf⟩ := h.advance hn
  refine ⟨f,fun r hr => ?_,Or.inl hp⟩
  rcases hf r hr with ⟨-,hadv,-⟩ | ⟨-,heq⟩
  · exact hadv
  · rw [heq]
    exact .kept (.refl r)

/-- A started attempt queues one launch, of the attempt it admitted. -/
theorem Ordered.started (h : Ordered p) (hst : Started p runId expectedAttempt automatic run p') :
    Ordered p' := by
  have hm := hst.moved h.ids
  obtain ⟨f,hp,hf⟩ := hst.advance h.ids
  have hadmitted : ∃ r ∈ p'.runs, r.id = run.id ∧ r.attempt = run.attempt + 1 := by
    rcases hf run hst.mem with ⟨-,hadv,hattempt⟩ | ⟨hne,-⟩
    · exact ⟨f run,hp ▸ List.mem_map_of_mem hst.mem,hadv.id,hattempt⟩
    · exact absurd rfl hne
  obtain ⟨c,model,instanceId,input,rfl⟩ := hst.after
  unfold enqueueLaunch at *
  split
  · rename_i hqueued
    rw [if_pos hqueued] at hm
    exact h.moved hm (fun j hj => Or.inl hj) (fun w hw => Or.inl hw) h.once
  · rename_i hqueued
    rw [if_neg hqueued] at hm hadmitted
    refine h.moved hm (fun j hj => ?_) (fun w hw => Or.inl hw) h.once
    unfold launches at hj ⊢
    dsimp only at hj
    simp only [List.mem_append, List.mem_singleton] at hj ⊢
    rcases hj with ((hj | rfl) | hj) | hj
    · exact Or.inl (Or.inl (Or.inl hj))
    · obtain ⟨r,hr,hid,hattempt⟩ := hadmitted
      exact Or.inr ⟨r,hr,hid,by dsimp only; omega,hattempt.ge⟩
    · exact Or.inl (Or.inl (Or.inr hj))
    · exact Or.inl (Or.inr hj)

theorem Ordered.retryTask (h : Ordered p)
    (hr : retryTask c p userId agentId runId expectedAttempt automatic = .ok (p',r)) : Ordered p' := by
  rcases retryTask_cases hr with rfl | rfl | ⟨run,hst⟩
  · exact h
  · exact h.kept kept_supersede (sameWorkers_updateRuns ..)
  · exact h.started hst

/-- Dropping workers keeps the order. -/
theorem Ordered.fewer (h : Ordered p) {starting : List RunInstanceParams}
    {recovering : List RecoveryPayload} {failing : List (RecoveryPayload × String)}
    (hs : starting ⊆ p.starting) (hr : recovering ⊆ p.recovering) :
    Ordered { p with starting, recovering, failing } := by
  refine h.moved (moved_of_runs rfl) (fun j hj => Or.inl ?_) (fun w hw => Or.inl (hr hw)) h.once
  unfold launches at hj ⊢
  simp only [List.mem_append] at hj ⊢
  rcases hj with (hj | hj) | hj
  · exact Or.inl (Or.inl hj)
  · exact Or.inl (Or.inr (hs hj))
  · exact Or.inr hj

theorem Ordered.recoveryAdmit {attempts : ℕ} (h : Ordered p) :
    Ordered (recoveryAdmit c p payload attempts) := by
  have hrest : Ordered { p with recovering := p.recovering.erase payload } :=
    h.fewer (List.Subset.refl _) List.erase_subset
  unfold Recovery.recoveryAdmit
  dsimp only
  split
  · rename_i p' r hretry
    exact hrest.retryTask hretry
  · exact hrest.fewer (List.Subset.refl _) (List.Subset.refl _)
  · split
    · exact hrest
    · exact hrest.fewer (List.Subset.refl _) (List.Subset.refl _)

/-- A worker goes on only for a run that failed in the attempt it names. -/
theorem Ordered.recoveryRead {policy : Option String} (h : Ordered p) :
    Ordered (recoveryRead p payload policy) := by
  unfold Recovery.recoveryRead
  split
  · exact h.fewer (List.Subset.refl _) (List.Subset.refl _)
  · rename_i run hload
    obtain ⟨hmem,hid⟩ := loadRecoveryRun_ok hload
    split
    · exact h
    · rename_i hread
      simp only [not_or, not_not] at hread
      split
      · exact h.fewer (List.Subset.refl _) (List.Subset.refl _)
      · refine h.moved (moved_of_runs rfl) (fun j hj => Or.inl hj) (fun w hw => ?_) h.once
        rcases List.mem_append.mp hw with hw | hw
        · exact Or.inl hw
        · cases List.mem_singleton.mp hw
          exact Or.inr ⟨run,hmem,hid,hread.1.ge,fun _ => hread.2.1⟩

theorem kept_scheduleOne (policy : RunRow → Option String) (p : Platform) (run : RunRow) :
    Kept p (scheduleOne policy p run) ∧ SameWorkers p (scheduleOne policy p run) := by
  have hset : ∀ f : RunRow → RunRow, (∀ r, Edited r (f r)) →
      Kept p (updateRuns p run.id (fun _ => true) f) := fun f hf => kept_updateRuns fun r _ => hf r
  unfold scheduleOne
  dsimp only
  split
  · exact ⟨.refl rfl,rfl,rfl,rfl,rfl⟩
  · split
    · exact ⟨.refl rfl,rfl,rfl,rfl,rfl⟩
    · split
      · exact ⟨hset _ fun _ => ⟨rfl,rfl,rfl,fun _ => rfl⟩,rfl,rfl,rfl,rfl⟩
      · split
        · exact ⟨hset _ fun _ => ⟨rfl,rfl,rfl,fun _ => rfl⟩,rfl,rfl,rfl,rfl⟩
        · split
          · exact ⟨.refl rfl,rfl,rfl,rfl,rfl⟩
          · exact ⟨hset _ fun _ => ⟨rfl,rfl,rfl,fun _ => rfl⟩,rfl,rfl,rfl,rfl⟩

theorem kept_scan {rows : List RunRow} (policy : RunRow → Option String) (p : Platform) :
    Kept p (rows.foldl (scheduleOne policy) p) ∧ SameWorkers p (rows.foldl (scheduleOne policy) p) := by
  induction rows generalizing p with
  | nil => exact ⟨.refl rfl,rfl,rfl,rfl,rfl⟩
  | cons run rest ih =>
    obtain ⟨hk,h₁,h₂,h₃,h₄⟩ := kept_scheduleOne policy p run
    obtain ⟨hk',h₁',h₂',h₃',h₄'⟩ := ih (scheduleOne policy p run)
    exact ⟨hk.trans hk',h₁'.trans h₁,h₂'.trans h₂,h₃'.trans h₃,h₄'.trans h₄⟩

theorem admitted_paramsOf (h : Ordered p) (hr : run ∈ p.runs) : Admitted p (paramsOf run) :=
  ⟨run,hr,rfl,h.positive run hr,le_refl _⟩

theorem mem_starting_append {j params : RunInstanceParams} {launchJobs starting instances : List RunInstanceParams}
    (hj : j ∈ launchJobs ++ (starting ++ [params]) ++ instances) :
    j ∈ launchJobs ++ starting ++ instances ∨ j = params := by
  simp only [List.mem_append, List.mem_singleton] at hj ⊢
  tauto

/-- A creation under an id that exists adds nothing, so the instances stay one for each attempt. -/
theorem Ordered.create {params : RunInstanceParams} (h : Ordered p) (hmem : params ∈ p.starting)
    (hc : createRunInstance p params = .ok p') : Ordered p' := by
  have hrest : Ordered { p with starting := p.starting.erase params } :=
    h.fewer List.erase_subset (List.Subset.refl _)
  unfold createRunInstance at hc
  obtain ⟨id,hid,hc⟩ := Result.bind_eq_ok.mp hc
  dsimp only at hc
  split at hc
  · cases Result.pure_eq_ok.mp hc
    exact hrest
  · rename_i hfresh
    cases Result.pure_eq_ok.mp hc
    refine h.moved (moved_of_runs rfl) (fun j hj => ?_) (fun w hw => Or.inl hw) ?_
    · unfold launches at hj ⊢
      simp only [List.mem_append, List.mem_singleton] at hj ⊢
      rcases hj with (hj | hj) | hj | rfl
      · exact Or.inl (Or.inl (Or.inl hj))
      · exact Or.inl (Or.inl (Or.inr (List.mem_of_mem_erase hj)))
      · exact Or.inl (Or.inr hj)
      · exact Or.inl (Or.inl (Or.inr hmem))
    · rw [List.map_append]
      refine h.once.append (List.nodup_singleton _) ?_
      intro x hx hx'
      obtain ⟨i,hi,rfl⟩ := List.mem_map.mp hx
      obtain ⟨hrun,hattempt⟩ := Prod.mk.inj (List.mem_singleton.mp hx')
      refine hfresh (List.any_eq_true.mpr ⟨i,hi,decide_eq_true ?_⟩)
      rw [hrun, hattempt]
      exact hid

theorem Ordered.newTurn {turn : NewTurn} (h : Ordered p) (hn : newTurn p turn = .ok p') :
    Ordered p' ∧ ∃ run, p'.runs = p.runs ++ [run] := by
  unfold Recovery.newTurn at hn
  obtain ⟨instanceId,-,hn⟩ := Result.bind_eq_ok.mp hn
  obtain ⟨_,hfresh,hn⟩ := Result.bind_eq_ok.mp hn
  obtain ⟨_,-,hn⟩ := Result.bind_eq_ok.mp hn
  obtain ⟨_,-,hn⟩ := Result.bind_eq_ok.mp hn
  split at hn
  · simp at hn
  · cases Result.pure_eq_ok.mp hn
    have hids : ∀ r ∈ p.runs, r.id ≠ turn.runId := fun r hr =>
      of_decide_eq_true (List.all_eq_true.mp (require_eq_ok.mp hfresh) r hr)
    refine ⟨h.moved ⟨id,fun r _ => .kept (.refl r),Or.inr ⟨_,by rw [List.map_id],hids,rfl,rfl⟩⟩ (fun j hj => ?_) (fun w hw => Or.inl hw) h.once,_,rfl⟩
    rcases mem_starting_append hj with hj | rfl
    · exact Or.inl hj
    · exact Or.inr ⟨_,List.mem_append_right _ (List.mem_singleton_self _),rfl,le_refl _,le_refl _⟩

end Invariant

section Steps

/-- What a step does to the runs: edits, a new run, or one started attempt. -/
inductive Outcome (p : Platform) (e : Event) (p' : Platform) : Prop
  | kept : Kept p p' → Outcome p e p'
  | added (run : RunRow) : p'.runs = p.runs ++ [run] → Outcome p e p'
  | started (q : Platform) (run : RunRow) (runId : RunId) (expected : ℕ) : q.runs = p.runs →
      q.now = p.now → q.evidence = p.evidence → e.expectedAttempt = some expected →
      (e.automatic = true → run.status = .error) →
      Started q runId (some expected) e.automatic run p' → Outcome p e p'

theorem outcome_of_retryTask {expected : ℕ} (he : e.expectedAttempt = some expected)
    (ha : e.automatic = false)
    (hr : retryTask c p userId agentId runId (some expected) false = .ok (p',r)) : Outcome p e p' := by
  rcases retryTask_cases hr with rfl | rfl | ⟨run,hst⟩
  · exact .kept (.refl rfl)
  · exact .kept kept_supersede
  · refine .started p run runId expected rfl rfl rfl he (fun h => ?_) (ha ▸ hst)
    rw [ha] at h
    cases h

theorem retryRun_cases {access : Result Unit} {sessionId : SessionId} {expected : ℕ}
    (h : retryRun p c access userId sessionId runId expected = .ok p') :
    p' = p ∨ ∃ agentId r, retryTask c p userId agentId runId (some expected) false = .ok (p',r) := by
  unfold retryRun at h
  obtain ⟨_,-,h⟩ := Result.bind_eq_ok.mp h
  split at h
  · simp at h
  · rename_i session _
    obtain ⟨_,-,h⟩ := Result.bind_eq_ok.mp h
    split at h
    · simp at h
    · split at h
      · exact Or.inl (Result.pure_eq_ok.mp h).symm
      · obtain ⟨_,-,h⟩ := Result.bind_eq_ok.mp h
        obtain ⟨⟨q,r⟩,hretry,h⟩ := Result.bind_eq_ok.mp h
        obtain ⟨_,-,h⟩ := Result.bind_eq_ok.mp h
        cases Result.pure_eq_ok.mp h
        exact Or.inr ⟨session.agentId,r,hretry⟩

/-- The run that an automatic retry starts is still in the error its worker read. -/
theorem recoveryAdmit_outcome {attempts : ℕ} (h : Ordered p) (hw : payload ∈ p.recovering) :
    Outcome p (.recoveryAdmit c payload attempts) (recoveryAdmit c p payload attempts) := by
  unfold recoveryAdmit
  dsimp only
  split
  · rename_i p' r hretry
    rcases retryTask_cases hretry with rfl | rfl | ⟨run,hst⟩
    · exact .kept (.refl rfl)
    · exact .kept kept_supersede
    · refine .started { p with recovering := p.recovering.erase payload } run payload.runId
        payload.expectedAttempt rfl rfl rfl rfl (fun _ => ?_) hst
      obtain ⟨r',hr',hid,-,herror⟩ := h.awaited payload hw
      have heq : r' = run := List.inj_on_of_nodup_map h.ids hr' hst.mem (hid.trans hst.id.symm)
      exact heq ▸ herror (heq ▸ hst.expected _ rfl)
  · exact .kept (.refl rfl)
  · split
    · exact .kept (.refl rfl)
    · exact .kept (.refl rfl)

theorem kept_setRunStatus {status : RunStatus} {error : Option (Option RunError)} :
    Kept p (setRunStatus p runId status error) := by
  refine kept_updateRuns fun r hr => ⟨rfl,rfl,rfl,fun ht => ?_⟩
  rw [ht] at hr
  cases hr

theorem kept_requestRunStop : Kept p (requestRunStop p runId) := by
  refine kept_updateRuns fun r hr => ⟨rfl,rfl,rfl,fun ht => ?_⟩
  rw [ht] at hr
  cases hr

theorem kept_failAutomatic {attempt : ℕ} {error : RunError} :
    Kept p (failAutomaticRecoveryExecution p runId attempt error) := by
  refine kept_updateRuns fun r hr => ⟨rfl,rfl,rfl,fun ht => ?_⟩
  simp only [Bool.and_eq_true, decide_eq_true_eq] at hr
  rw [hr.1.2] at ht
  cases ht

theorem sweep_ok {seen : RunRow} {status : RunStatus} {error : Option RunError}
    (h : sweep p seen status error = .ok p') : Kept p p' ∧ SameWorkers p p' := by
  unfold sweep at h
  obtain ⟨_,hguard,h⟩ := Result.bind_eq_ok.mp h
  have hguard := require_eq_ok.mp hguard
  simp only [Bool.and_eq_true, Bool.not_eq_true'] at hguard
  cases Result.pure_eq_ok.mp h
  refine ⟨kept_updateRuns fun r hr => ⟨rfl,rfl,rfl,fun ht => ?_⟩,sameWorkers_updateRuns ..⟩
  rw [of_decide_eq_true hr, hguard.1.2] at ht
  cases ht

/-- Each step keeps the order, and is an edit, a new run or a started attempt. -/
theorem step_spec (h : Ordered p) (hstep : Step p e p') : Ordered p' ∧ Outcome p e p' := by
  cases e with
  | retryRun c access userId sessionId runId expected =>
    rcases retryRun_cases hstep with rfl | ⟨agentId,r,hretry⟩
    · exact ⟨h,.kept (.refl rfl)⟩
    · exact ⟨h.retryTask hretry,outcome_of_retryTask rfl rfl hretry⟩
  | wakeRetry c userId agentId runId expected =>
    have hstep : (retryTask c p userId agentId runId (some expected) false).map Prod.fst = .ok p' := hstep
    cases hretry : retryTask c p userId agentId runId (some expected) false with
    | error err => rw [hretry] at hstep; cases hstep
    | ok x =>
      rw [hretry] at hstep
      cases hstep
      exact ⟨h.retryTask hretry,outcome_of_retryTask rfl rfl hretry⟩
  | cancelRetry userId agentId runId expected =>
    obtain ⟨_,-,hstep⟩ := Result.bind_eq_ok.mp hstep
    obtain ⟨run,-,hstep⟩ := Result.bind_eq_ok.mp hstep
    obtain ⟨_,-,hstep⟩ := Result.bind_eq_ok.mp hstep
    cases Result.pure_eq_ok.mp hstep
    have hk : Kept p (updateRuns p run.id (fun _ => true) fun r =>
        { r with recoveryCancelled := true, recoveryNextAt := none }) :=
      kept_updateRuns fun _ _ => ⟨rfl,rfl,rfl,fun _ => rfl⟩
    exact ⟨h.kept hk (sameWorkers_updateRuns ..),.kept hk⟩
  | recoveryRead payload policy =>
    obtain ⟨_,-,hstep⟩ := Result.bind_eq_ok.mp hstep
    cases Result.pure_eq_ok.mp hstep
    refine ⟨h.recoveryRead,.kept (.refl ?_)⟩
    unfold recoveryRead
    split
    · rfl
    · split
      · rfl
      · split <;> rfl
  | recoveryAdmit c payload attempts =>
    obtain ⟨_,hw,hstep⟩ := Result.bind_eq_ok.mp hstep
    cases Result.pure_eq_ok.mp hstep
    exact ⟨h.recoveryAdmit,recoveryAdmit_outcome h (of_decide_eq_true (require_eq_ok.mp hw))⟩
  | recoveryRecord payload reason =>
    obtain ⟨_,-,hstep⟩ := Result.bind_eq_ok.mp hstep
    cases Result.pure_eq_ok.mp hstep
    have hk : Kept p (recoveryRecord p payload reason) := kept_updateRuns fun _ _ =>
      ⟨rfl,rfl,rfl,fun _ => rfl⟩
    exact ⟨h.kept hk ⟨rfl,rfl,rfl,rfl⟩,.kept hk⟩
  | scan includePartnerScreening skip policy =>
    cases hstep
    have hscan : Kept p (scheduleRunRecovery p includePartnerScreening skip policy) ∧
        SameWorkers p (scheduleRunRecovery p includePartnerScreening skip policy) := kept_scan policy p
    obtain ⟨hk,hs⟩ := hscan
    exact ⟨h.kept hk hs,.kept hk⟩
  | launch params publishDone =>
    obtain ⟨_,hj,hstep⟩ := Result.bind_eq_ok.mp hstep
    have hj : params ∈ p.launchJobs := of_decide_eq_true (require_eq_ok.mp hj)
    unfold runLaunchJob at hstep
    split at hstep
    · cases hstep
      exact ⟨h,.kept (.refl rfl)⟩
    · split at hstep
      · cases hstep
      · split at hstep
        · cases hstep
          refine ⟨h.moved (moved_of_runs rfl) (fun j hj' => Or.inl ?_) (fun w hw => Or.inl hw) h.once,
            .kept (.refl rfl)⟩
          rcases mem_starting_append hj' with hj' | rfl
          · exact hj'
          · exact List.mem_append_left _ (List.mem_append_left _ hj)
        · cases hstep
          exact ⟨h,.kept (.refl rfl)⟩
  | create params =>
    obtain ⟨_,hmem,hstep⟩ := Result.bind_eq_ok.mp hstep
    refine ⟨h.create (of_decide_eq_true (require_eq_ok.mp hmem)) hstep,.kept (.refl ?_)⟩
    obtain ⟨_,-,hstep⟩ := Result.bind_eq_ok.mp hstep
    dsimp only at hstep
    split at hstep <;> cases Result.pure_eq_ok.mp hstep <;> rfl
  | startAgain run =>
    obtain ⟨_,hmem,hstep⟩ := Result.bind_eq_ok.mp hstep
    cases Result.pure_eq_ok.mp hstep
    refine ⟨h.moved (moved_of_runs rfl) (fun j hj => ?_) (fun w hw => Or.inl hw) h.once,.kept (.refl rfl)⟩
    rcases mem_starting_append hj with hj | rfl
    · exact Or.inl hj
    · exact Or.inr ((admitted_paramsOf h (of_decide_eq_true (require_eq_ok.mp hmem))).moved (moved_of_runs rfl))
  | newTurn turn =>
    obtain ⟨hordered,run,hrun⟩ := h.newTurn hstep
    exact ⟨hordered,.added run hrun⟩
  | stop runId =>
    cases hstep
    exact ⟨h.kept kept_requestRunStop (sameWorkers_updateRuns ..),.kept kept_requestRunStop⟩
  | flagStop runId =>
    cases hstep
    have hk : Kept p (flagStop p runId) := kept_updateRuns fun _ _ => ⟨rfl,rfl,rfl,fun _ => rfl⟩
    exact ⟨h.kept hk (sameWorkers_updateRuns ..),.kept hk⟩
  | sweep seen status error =>
    obtain ⟨hk,hs⟩ := sweep_ok hstep
    exact ⟨h.kept hk hs,.kept hk⟩
  | setRunStatus runId status error =>
    cases hstep
    exact ⟨h.kept kept_setRunStatus (sameWorkers_updateRuns ..),.kept kept_setRunStatus⟩
  | failAutomatic runId attempt error =>
    cases hstep
    exact ⟨h.kept kept_failAutomatic (sameWorkers_updateRuns ..),.kept kept_failAutomatic⟩
  | providerDelay runId attempt notBefore blockedReason =>
    cases hstep
    have hk : Kept p (recordProviderDelay p runId attempt notBefore blockedReason) :=
      kept_updateRuns fun _ _ => ⟨rfl,rfl,rfl,fun _ => rfl⟩
    exact ⟨h.kept hk (sameWorkers_updateRuns ..),.kept hk⟩
  | bindRuntime runId attempt runtimeRunId authority =>
    cases hstep
    have hk : Kept p (bindRuntime p runId attempt runtimeRunId authority) :=
      kept_updateRuns fun _ _ => ⟨rfl,rfl,rfl,fun _ => rfl⟩
    exact ⟨h.kept hk (sameWorkers_updateRuns ..),.kept hk⟩
  | surroundings next =>
    cases hstep
    exact ⟨h.kept (.refl rfl) ⟨rfl,rfl,rfl,rfl⟩,.kept (.refl rfl)⟩
  | dropStart params =>
    cases hstep
    exact ⟨h.fewer List.erase_subset (List.Subset.refl _),.kept (.refl rfl)⟩
  | dropRecovery payload =>
    cases hstep
    exact ⟨h.fewer (List.Subset.refl _) List.erase_subset,.kept (.refl rfl)⟩
  | tick elapsed =>
    cases hstep
    exact ⟨h.kept (.refl rfl) ⟨rfl,rfl,rfl,rfl⟩,.kept (.refl rfl)⟩

theorem ordered_initial (h : Initial p) : Ordered p := by
  obtain ⟨hr,hl,-,hst,hw,-,hi⟩ := h
  constructor <;> simp [hr, hl, hst, hw, hi, launches]

theorem ordered (h : ReachablePlatform p) : Ordered p :=
  h.invariant (fun _ => ordered_initial) fun _ _ _ hp hstep => (step_spec hp hstep).1

/-- Along every run of the system: each attempt has at most one instance and was admitted, each
attempt that ended is in the history once, and a step takes a run to another attempt only as a retry
of the ended attempt it names, with authority where no person asked. -/
theorem each_attempt_started_once (h : ReachablePlatform p) :
    (p.instances.map fun i => (i.runId,i.attempt)).Nodup ∧
    (∀ i ∈ p.instances, Admitted p i) ∧
    (∀ r ∈ p.runs, r.recoveryHistory.map (·.attempt) = List.range' 1 (r.attempt - 1)) ∧
    ∀ e p', Step p e p' → (p'.runs.map (·.id)).Nodup ∧ ∀ r ∈ p.runs, ∃ r' ∈ p'.runs, r'.id = r.id ∧
      (r'.attempt = r.attempt ∨
        (r'.attempt = r.attempt + 1 ∧ (r.status = .error ∨ r.status = .stopped) ∧
          r'.status = .working ∧ e.expectedAttempt = some r.attempt ∧
          (e.automatic = true → r.status = .error ∧ AutomaticAuthority p r))) := by
  have ho := ordered h
  refine ⟨ho.once,fun i hi => ho.admitted i (List.mem_append_right _ hi),ho.history,?_⟩
  intro e p' hstep
  obtain ⟨ho',houtcome⟩ := step_spec ho hstep
  refine ⟨ho'.ids,fun r hr => ?_⟩
  cases houtcome with
  | kept hk =>
    obtain ⟨f,hf,hp⟩ := hk
    exact ⟨f r,hp ▸ List.mem_map_of_mem hr,(hf r).id,Or.inl (hf r).attempt⟩
  | added run hp => exact ⟨r,hp ▸ List.mem_append_left _ hr,rfl,Or.inl rfl⟩
  | started q run runId expected hq hnow hev he herror hst =>
    obtain ⟨f,hp,hf⟩ := hst.advance (hq ▸ ho.ids)
    have hmem : f r ∈ p'.runs := hp ▸ List.mem_map_of_mem (hq ▸ hr)
    rcases hf r (hq ▸ hr) with ⟨rfl,hadv,hattempt⟩ | ⟨-,heq⟩
    · refine ⟨f r,hmem,hadv.id,Or.inr ⟨hattempt,hst.ended,?_,?_,?_⟩⟩
      · cases hadv with
        | kept hedit => have := hedit.attempt; omega
        | retried _ _ _ hworking => exact hworking
      · rw [he, hst.expected expected rfl]
      · intro ha
        obtain ⟨h₁,h₂,h₃,h₄,h₅,h₆,h₇,h₈⟩ := hst.authority ha
        unfold safetyOf at h₆ h₇
        rw [hev] at h₆ h₇
        exact ⟨herror ha,h₁,h₂,h₃,hnow ▸ h₄,hnow ▸ h₅,h₆,h₇,hq ▸ h₈⟩
    · exact ⟨f r,hmem,by rw [heq],Or.inl (by rw [heq])⟩

end Steps

section Replay

def openPlatform : Platform where
  now := 0
  agents := [1]
  activeMembers := [7]
  owners := [(1,7)]
  sessions := [⟨3,1,7,false,false⟩]
  evidence := ⟨[],[],[],[],[("r","fetch_url")],[]⟩
  runs := []
  launchJobs := []
  recoveryJobs := []
  starting := []
  recovering := []
  failing := []
  instances := []

def attestedChecks : Checks where
  enginePaused := false
  hermesRuntime := true
  modelScripted := false
  approvalBlock := none
  model := some ⟨"m",false,true,[]⟩
  provider := .ok ()
  keyStatus := some "verified"
  binding := .ok .tokenDigest
  capabilities := .ok ()
  capsReason := none
  rate := .ok ()
  capacity := .ok ()
  engineVersion := 2
  traceId := "t2"

/-- The job and the launch are both delivered twice. -/
def replayedRecovery : List Event :=
  let job : RecoveryPayload := ⟨"r",1,7,1⟩
  let next : RunInstanceParams := ⟨"r",3,2,2,"t2"⟩
  [.newTurn ⟨"r",3,"m",none,0,"turn",1,"t1"⟩, .create ⟨"r",3,1,1,"t1"⟩,
    .setRunStatus "r" .error (some (some ⟨some "hermes_provider_unavailable",true⟩)),
    .scan false (fun _ => false) (fun _ => none), .tick 60000,
    .recoveryRead job none, .recoveryRead job none, .recoveryAdmit attestedChecks job 1,
    .recoveryAdmit attestedChecks job 1, .launch next true, .launch next true, .create next, .create next]

set_option maxRecDepth 8000 in
theorem each_attempt_started_once_replayed :
    (afterAll apply openPlatform replayedRecovery).instances.map (fun i => (i.runId,i.attempt)) =
      [("r",1),("r",2)] ∧
    ((afterAll apply openPlatform replayedRecovery).instances.map fun i => (i.runId,i.attempt)).Nodup :=
  ⟨by decide,(each_attempt_started_once ⟨openPlatform,replayedRecovery,
    ⟨rfl,rfl,rfl,rfl,rfl,rfl,rfl⟩,run_afterAll (by decide)⟩).1⟩

end Replay
end HermesEnterprise.Recovery
