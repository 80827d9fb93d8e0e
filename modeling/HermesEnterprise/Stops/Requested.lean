import Mathlib.Order.Nat
import HermesEnterprise.Stops.Controls

/-! # What a step does to the requests of Stop

An event requests a Stop on the attempt of the row, admits the next attempt or leaves both alone. The flag of
the row is taken back by a Retry alone, so that no Stop is forgotten while its attempt is the row's.
-/
namespace HermesEnterprise.Stops
open Foundation.Runs

variable {s t : System} {i : ℕ} {x : Instance} {e : Event} {status : RunStatus} {a : ℕ}

/-- A Stop was requested on the attempt of the row. -/
def System.pressed (s : System) : Prop := s.row.attempt ∈ s.requested

/-- No Stop is forgotten: the flag of the row stands for it until the next attempt. -/
structure Remembered (s : System) : Prop where
  bound : ∀ a ∈ s.requested, a ≤ s.row.attempt
  flag : s.pressed → s.row.stopRequested = true

theorem live_eq_some (h : s.live i = some x) : s.instances[i]? = some x ∧ x.running = true := by
  obtain ⟨h₁,h₂⟩ := Option.filter_eq_some_iff.1 h
  exact ⟨h₁,(Bool.and_eq_true _ _ ▸ h₂).1⟩

theorem onLive_eq_ok {f : Instance → Except Refusal System} (h : s.onLive i f = .ok t) :
    ∃ x, s.instances[i]? = some x ∧ x.running = true ∧ f x = .ok t := by
  unfold System.onLive at h
  split at h
  · cases h
  next x hx => exact ⟨x,(live_eq_some hx).1,(live_eq_some hx).2,h⟩

@[simp] theorem setRunStatus_instances : (s.setRunStatus status).instances = s.instances := by
  unfold System.setRunStatus
  split <;> rfl

@[simp] theorem finalizeRuntime_instances : (s.finalizeRuntime a status).instances = s.instances := by
  unfold System.finalizeRuntime
  split
  · exact setRunStatus_instances
  · rfl

@[simp] theorem setRunStatus_requested : (s.setRunStatus status).requested = s.requested := by
  unfold System.setRunStatus
  split <;> rfl

@[simp] theorem finalizeRuntime_requested : (s.finalizeRuntime a status).requested = s.requested := by
  unfold System.finalizeRuntime
  split
  · exact setRunStatus_requested
  · rfl

@[simp] theorem setRunStatus_attempt : (s.setRunStatus status).row.attempt = s.row.attempt := by
  unfold System.setRunStatus
  split <;> rfl

@[simp] theorem setRunStatus_flag : (s.setRunStatus status).row.stopRequested = s.row.stopRequested := by
  unfold System.setRunStatus
  split <;> rfl

theorem retryTask_cases {engine : Engine} {expectedAttempt : Option ℕ} {automatic : Bool}
    (h : retryTask s engine expectedAttempt automatic = .ok t) : t = s ∨ t = s.admitNext engine := by
  unfold retryTask at h
  split at h
  · split at h
    · exact .inl (Except.ok.inj h).symm
    · cases h
  split at h
  · cases h
  split at h
  · cases h
  split at h
  · exact .inl (Except.ok.inj h).symm
  · exact .inr (Except.ok.inj h).symm

/-- What a step leaves, unless it requests a Stop or admits an attempt. -/
structure Quiet (s t : System) : Prop where
  attempt : t.row.attempt = s.row.attempt
  requested : t.requested = s.requested
  flag : s.row.stopRequested = true → t.row.stopRequested = true

theorem Quiet.refl (s : System) : Quiet s s := ⟨rfl,rfl,id⟩

theorem Quiet.setRunStatus (s : System) (status : RunStatus) : Quiet s (s.setRunStatus status) :=
  ⟨setRunStatus_attempt,setRunStatus_requested,fun h => setRunStatus_flag.trans h⟩

theorem Quiet.finalizeRuntime (s : System) (a : ℕ) (status : RunStatus) :
    Quiet s (s.finalizeRuntime a status) := by
  unfold System.finalizeRuntime
  split
  · exact .setRunStatus s status
  · exact .refl s

theorem Quiet.setInstance (h : Quiet s t) (i : ℕ) (y : Instance) : Quiet s (t.setInstance i y) :=
  ⟨h.attempt,h.requested,h.flag⟩

theorem Quiet.abort (h : Quiet s t) (a : ℕ) : Quiet s (t.abort a) := ⟨h.attempt,h.requested,h.flag⟩

theorem Quiet.start (he : start s i x = .ok t) : Quiet s t := by
  unfold Stops.start at he
  split at he
  · cases he
    exact (Quiet.refl s).setInstance i _
  split at he
  · cases he
    split
    · exact ((Quiet.refl s).setInstance i _).abort _
    · exact (Quiet.refl s).setInstance i _
  · cases he

theorem Quiet.submit (s : System) (i : ℕ) (x : Instance) : Quiet s (submit s i x) := by
  have hg := (Quiet.finalizeRuntime s x.attempt .error).setInstance i { x with running := false }
  unfold Stops.submit
  split
  · exact (Quiet.refl s).setInstance i _
  · dsimp only
    split
    · exact hg.abort _
    · exact hg

theorem Quiet.forward (s : System) (i : ℕ) (x : Instance) (lost : Bool) : Quiet s (forward s i x lost) := by
  unfold Stops.forward
  split
  · by_cases hc : (if lost then s.row.stopRequested else s.hub) = true
    · rw [if_pos hc]
      exact ((Quiet.refl s).setInstance i _).abort _
    · rw [if_neg hc]
      exact .refl s
  · split
    · exact .refl s
    · exact (Quiet.refl s).setInstance i _

theorem Quiet.poll (s : System) (i : ℕ) (x : Instance) : Quiet s (poll s i x) := by
  unfold Stops.poll
  split
  · split
    · exact (Quiet.refl s).setInstance i _
    · exact .refl s
  · split
    · exact ((Quiet.refl s).setInstance i _).abort _
    · exact .refl s

theorem Quiet.finish {outcome : Outcome} (he : finish s i x outcome = .ok t) : Quiet s t := by
  unfold Stops.finish at he
  dsimp only at he
  split at he
  · cases he
    exact (Quiet.setRunStatus s _).setInstance i _
  split at he
  · cases he
    exact (Quiet.finalizeRuntime s x.attempt _).setInstance i _
  · cases he

/-- A Stop committed on the attempt of the row. -/
structure Requests (s t : System) : Prop where
  attempt : t.row.attempt = s.row.attempt
  requested : t.requested = s.requested ++ [s.row.attempt]
  flag : t.row.stopRequested = true

/-- An event requests a Stop, admits the next attempt or leaves both alone. -/
theorem step_cases (he : apply s e = .ok t) :
    Quiet s t ∨ Requests s t ∨ ∃ engine, t = s.admitNext engine := by
  cases e with
  | stopRun =>
    cases he
    unfold stopRun
    split
    · exact .inr (.inl ⟨rfl,rfl,rfl⟩)
    · exact .inl (.refl s)
  | cancelWatch =>
    cases he
    split
    · exact .inr (.inl ⟨rfl,rfl,rfl⟩)
    · exact .inl (.refl s)
  | requestStops =>
    cases he
    unfold requestStops
    split
    · exact .inr (.inl ⟨rfl,rfl,rfl⟩)
    · exact .inl (.refl s)
  | interrupt k =>
    left
    simp only [apply] at he
    split at he
    · split at he
      · cases he
        exact ⟨rfl,rfl,id⟩
      · cases he
    · cases he
  | requestStop k =>
    left
    simp only [apply] at he
    split at he
    · cases he
      exact ⟨rfl,rfl,id⟩
    · cases he
  | dropped k =>
    cases he
    exact .inl ⟨rfl,rfl,id⟩
  | start i =>
    left
    simp only [apply] at he
    split at he
    · cases he
    · exact .start he
  | setWorking i =>
    left
    obtain ⟨x,-,-,he⟩ := onLive_eq_ok he
    split at he
    · cases he
    · cases he
      exact .setRunStatus s _
  | park i =>
    left
    obtain ⟨x,-,-,he⟩ := onLive_eq_ok he
    split at he
    · cases he
    · cases he
      exact .setRunStatus s _
  | submit i =>
    left
    obtain ⟨x,-,-,he⟩ := onLive_eq_ok he
    split at he
    · cases he
      exact .submit s i x
    · cases he
  | forward i lost =>
    left
    obtain ⟨x,-,-,he⟩ := onLive_eq_ok he
    cases he
    exact .forward s i x lost
  | poll i =>
    left
    obtain ⟨x,-,-,he⟩ := onLive_eq_ok he
    cases he
    exact .poll s i x
  | finish i outcome =>
    left
    obtain ⟨x,-,-,he⟩ := onLive_eq_ok he
    exact .finish he
  | stopUnsubmitted i =>
    left
    obtain ⟨x,-,-,he⟩ := onLive_eq_ok he
    split at he
    · cases he
      exact (Quiet.setRunStatus s _).setInstance i _
    · cases he
  | giveUp i =>
    left
    obtain ⟨x,-,-,he⟩ := onLive_eq_ok he
    split at he
    · cases he
      exact (Quiet.finalizeRuntime s x.attempt _).setInstance i _
    · cases he
  | crash i =>
    left
    simp only [apply] at he
    split at he
    · cases he
    · cases he
      exact (Quiet.refl s).setInstance i _
  | sweep =>
    left
    simp only [apply] at he
    split at he
    · cases he
      exact ⟨setRunStatus_attempt,setRunStatus_requested,fun _ => rfl⟩
    · cases he
  | retryTask engine expectedAttempt automatic =>
    rcases retryTask_cases he with rfl | rfl
    · exact .inl (.refl _)
    · exact .inr (.inr ⟨engine,rfl⟩)

theorem Remembered.step (h : Remembered s) (he : apply s e = .ok t) : Remembered t := by
  rcases step_cases he with hq | hq | ⟨engine,rfl⟩
  · constructor
    · rw [hq.requested,hq.attempt]
      exact h.bound
    · intro hp
      unfold System.pressed at hp
      rw [hq.requested,hq.attempt] at hp
      exact hq.flag (h.flag hp)
  · constructor
    · rw [hq.requested,hq.attempt]
      intro b hb
      rcases List.mem_append.1 hb with hb | hb
      · exact h.bound b hb
      · exact (List.mem_singleton.1 hb).le
    · exact fun _ => hq.flag
  · constructor
    · exact fun b hb => (h.bound b hb).trans (Nat.le_succ _)
    · intro hp
      exact absurd (h.bound _ hp) (Nat.not_succ_le_self _)

end HermesEnterprise.Stops
