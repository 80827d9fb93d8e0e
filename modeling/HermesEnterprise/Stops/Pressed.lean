import HermesEnterprise.Stops.Requested

/-! # A Stop and the attempt it was pressed on

What the hub keeps has no attempt, and the native engine writes the status of whatever attempt the row is at.
Both stay with the attempt on which Stop was pressed while no attempt is admitted after a Stop that the hub
holds or is still to be told, nor beside an instance at work.
-/
namespace HermesEnterprise.Stops
open Foundation.Runs

variable {s t : System} {i : ℕ} {x y : Instance} {e : Event} {status : RunStatus} {a : ℕ}

/-- No instance is at work. -/
def System.idle (s : System) : Bool := s.instances.all fun x => !x.running

/-- A Retry is asked for when no instance is at work, the hub holds no Stop and no call of a Stop is to come.
The sweep takes no instance for dead that is at work. -/
def calm (s : System) : Event → Bool
  | .retryTask .. => s.idle && !s.hub && s.calls.isEmpty
  | .sweep => s.row.stopRequested || s.idle
  | _ => true

/-- Whatever says stop, a Stop of the attempt is behind it. -/
structure Own (s : System) : Prop where
  told : s.hub = true ∨ s.calls ≠ [] → s.pressed
  calls : ∀ c ∈ s.calls, c.attempt ∈ s.requested
  flag : s.row.stopRequested = true → s.pressed ∨ (s.row.status.active = false ∧ s.idle = true)
  status : s.row.status = .stopping ∨ s.row.status = .stopped → s.pressed
  attempt : ∀ x ∈ s.instances, x.running = true → x.attempt = s.row.attempt
  stopped : ∀ x ∈ s.instances, x.running = true → x.stopped = true ∨ x.stopFromForward = true → s.pressed
  ended : ∀ a, (a,RunStatus.stopped) ∈ s.ended → a ∈ s.requested
  aborted : ∀ a ∈ s.aborted, a ∈ s.requested

theorem idle_iff : s.idle = true ↔ ∀ x ∈ s.instances, x.running = false := by
  simp [System.idle]

/-- Where an instance is at work, the flag of the row is a Stop of its attempt. -/
theorem Own.of_flag (h : Own s) (hx : s.instances[i]? = some x) (hr : x.running = true)
    (hf : s.row.stopRequested = true) : s.pressed := by
  rcases h.flag hf with hp | ⟨-,hi⟩
  · exact hp
  · rw [idle_iff.1 hi x (List.mem_of_getElem? hx)] at hr
    cases hr

theorem Own.of_active (h : Own s) (ha : s.row.status.active = true) (hf : s.row.stopRequested = true) :
    s.pressed := by
  rcases h.flag hf with hp | ⟨hi,-⟩
  · exact hp
  · rw [ha] at hi
    cases hi

theorem idle_set (hx : s.instances[i]? = some x) (hr : y.running = true → x.running = true)
    (hi : s.idle = true) : (s.setInstance i y).idle = true := by
  refine idle_iff.2 fun z hz => ?_
  rcases List.mem_or_eq_of_mem_set hz with hz | rfl
  · exact idle_iff.1 hi z hz
  · have hx' := idle_iff.1 hi x (List.mem_of_getElem? hx)
    cases hy : z.running with
    | false => rfl
    | true =>
      rw [hr hy] at hx'
      cases hx'

/-- An instance at work writes what it keeps in memory. -/
theorem Own.setInstance (h : Own s) (hx : s.instances[i]? = some x) (hr : y.running = true → x.running = true)
    (ha : y.attempt = x.attempt)
    (hs : y.running = true → y.stopped = true ∨ y.stopFromForward = true → s.pressed) :
    Own (s.setInstance i y) := by
  refine ⟨h.told,h.calls,?_,h.status,?_,?_,h.ended,h.aborted⟩
  · intro hf
    rcases h.flag hf with hp | ⟨hq,hi⟩
    · exact .inl hp
    · exact .inr ⟨hq,idle_set hx hr hi⟩
  · intro z hz hz'
    rcases List.mem_or_eq_of_mem_set hz with hz | rfl
    · exact h.attempt z hz hz'
    · rw [ha]
      exact h.attempt x (List.mem_of_getElem? hx) (hr hz')
  · intro z hz hz'
    rcases List.mem_or_eq_of_mem_set hz with hz | rfl
    · exact h.stopped z hz hz'
    · exact hs hz'

/-- An instance is over. -/
theorem Own.over (h : Own s) (hx : s.instances[i]? = some x) :
    Own (s.setInstance i { x with running := false }) :=
  h.setInstance hx (fun hr => nomatch hr) rfl fun hr => nomatch hr

theorem Own.abort (h : Own s) (ha : a ∈ s.requested) : Own (s.abort a) := by
  refine ⟨h.told,h.calls,h.flag,h.status,h.attempt,h.stopped,h.ended,?_⟩
  intro b hb
  rcases List.mem_append.1 hb with hb | hb
  · exact h.aborted b hb
  · rw [List.mem_singleton.1 hb]
    exact ha

/-- A status is written that a Stop of the attempt of the row is behind, if it says so. -/
theorem Own.setRunStatus (h : Own s) (hs : status = .stopping ∨ status = .stopped → s.pressed) :
    Own (s.setRunStatus status) := by
  unfold System.setRunStatus
  split
  next hq =>
    refine ⟨h.told,h.calls,fun hf => .inl (h.of_active hq hf),hs,h.attempt,h.stopped,?_,h.aborted⟩
    intro b hb
    dsimp only at hb
    split at hb
    · exact h.ended b hb
    · rcases List.mem_append.1 hb with hb | hb
      · exact h.ended b hb
      · obtain ⟨rfl,rfl⟩ := Prod.mk.inj (List.mem_singleton.1 hb)
        exact hs (.inr rfl)
  next => exact h

theorem Own.finalizeRuntime (h : Own s) (hs : status = .stopping ∨ status = .stopped → s.pressed) :
    Own (s.finalizeRuntime a status) := by
  unfold System.finalizeRuntime
  split
  · exact h.setRunStatus hs
  · exact h

/-- A Stop commits on an active attempt. -/
theorem Own.request (h : Own s) (status : RunStatus) :
    Own { s with
      row := { s.row with status := status, stopRequested := true }
      requested := s.requested ++ [s.row.attempt] } := by
  have hp : s.row.attempt ∈ s.requested ++ [s.row.attempt] := List.mem_append_right _ (List.mem_singleton_self _)
  have hm : ∀ b ∈ s.requested, b ∈ s.requested ++ [s.row.attempt] := fun b hb => List.mem_append_left _ hb
  exact ⟨fun _ => hp,fun c hc => hm _ (h.calls c hc),fun _ => .inl hp,fun _ => hp,h.attempt,fun _ _ _ _ => hp,
    fun b hb => hm _ (h.ended b hb),fun b hb => hm _ (h.aborted b hb)⟩

/-- The Hermes run or the provider stream of an instance at work is aborted. -/
theorem Own.abort_of (h : Own s) (hx : s.instances[i]? = some x) (hr : x.running = true) (hp : s.pressed)
    {t : System} (ht : Own t) (hq : t.requested = s.requested) : Own (t.abort x.attempt) := by
  refine ht.abort ?_
  rw [hq,h.attempt x (List.mem_of_getElem? hx) hr]
  exact hp

theorem Own.start (h : Own s) (hx : s.instances[i]? = some x) (hr : x.running = true)
    (he : start s i x = .ok t) : Own t := by
  have hf := h.of_flag hx hr
  have hm := h.stopped x (List.mem_of_getElem? hx) hr
  unfold Stops.start at he
  split at he
  next =>
    cases he
    refine h.setInstance hx (fun _ => hr) rfl fun _ hs => ?_
    rcases hs with hs | hs
    · simp only [Bool.or_eq_true, beq_iff_eq] at hs
      rcases hs with (hs | hs) | hs
      · exact hf hs
      · exact h.status (.inl hs)
      · exact h.status (.inr hs)
    · exact hm (.inr hs)
  next =>
    split at he
    next =>
      have ht : Own (s.setInstance i { x with
          started := true, stopped := s.row.stopRequested, stopFromForward := false }) :=
        h.setInstance hx (fun _ => hr) rfl fun _ hs => hs.elim hf fun hs => nomatch hs
      cases he
      split
      next hc => exact h.abort_of hx hr (hf (Bool.and_eq_true _ _ ▸ hc).1) ht rfl
      next => exact ht
    next => cases he

theorem Own.submit (h : Own s) (hx : s.instances[i]? = some x) (hr : x.running = true) :
    Own (submit s i x) := by
  unfold Stops.submit
  split
  next => exact h.setInstance hx (fun _ => hr) rfl fun _ hs => h.stopped x (List.mem_of_getElem? hx) hr hs
  next =>
    have ht : Own ((s.finalizeRuntime x.attempt .error).setInstance i { x with running := false }) :=
      (h.finalizeRuntime (by simp)).over (by rw [finalizeRuntime_instances]; exact hx)
    dsimp only
    split
    next hc => exact h.abort_of hx hr (h.of_flag hx hr hc.2) ht finalizeRuntime_requested
    next => exact ht

theorem Own.forward (h : Own s) (hx : s.instances[i]? = some x) (hr : x.running = true) (lost : Bool) :
    Own (forward s i x lost) := by
  unfold Stops.forward
  split
  next =>
    have hp : (if lost then s.row.stopRequested else s.hub) = true → s.pressed := by
      intro hc
      cases lost with
      | true => exact h.of_flag hx hr hc
      | false => exact h.told (.inl hc)
    by_cases hc : (if lost then s.row.stopRequested else s.hub) = true
    · rw [if_pos hc]
      exact h.abort_of hx hr (hp hc) (h.setInstance hx (fun _ => hr) rfl fun _ _ => hp hc) rfl
    · rw [if_neg hc]
      exact h
  next =>
    split
    next => exact h
    next =>
      refine h.setInstance hx (fun _ => hr) rfl fun _ hs => ?_
      simp only [Bool.or_eq_true] at hs
      rcases hs with hs | hs | hs
      · exact h.stopped x (List.mem_of_getElem? hx) hr (.inl hs)
      · exact h.stopped x (List.mem_of_getElem? hx) hr (.inr hs)
      · exact h.told (.inl hs)

theorem Own.poll (h : Own s) (hx : s.instances[i]? = some x) (hr : x.running = true) : Own (poll s i x) := by
  unfold Stops.poll
  split
  next =>
    split
    next hc => exact h.setInstance hx (fun _ => hr) rfl fun _ _ => h.of_flag hx hr hc
    next => exact h
  next =>
    split
    next hc =>
      have hp : s.pressed := by
        simp only [Bool.and_eq_true, Bool.or_eq_true] at hc
        rcases hc.2 with hc | hc
        · exact h.stopped x (List.mem_of_getElem? hx) hr (.inr hc)
        · exact h.of_flag hx hr hc
      exact h.abort_of hx hr hp (h.setInstance hx (fun _ => hr) rfl fun _ _ => hp) rfl
    next => exact h

/-- An instance at work ends as stopped by a Stop of its attempt. -/
theorem Own.of_finalStatus (h : Own s) (hx : s.instances[i]? = some x) (hr : x.running = true) {outcome : Outcome}
    (hc : outcome = .cancelled → x.engine = .hermes → x.attempt ∈ s.aborted)
    (hs : finalStatus s x outcome = .stopping ∨ finalStatus s x outcome = .stopped) : s.pressed := by
  have hm := h.stopped x (List.mem_of_getElem? hx) hr
  have ha := h.attempt x (List.mem_of_getElem? hx) hr
  cases he : x.engine with
  | native =>
    cases outcome with
    | failed => simp [finalStatus, he] at hs
    | completed | cancelled =>
      by_cases hx' : x.stopped = true
      · exact hm (.inl hx')
      · simp [finalStatus, he, hx'] at hs
  | hermes =>
    cases outcome with
    | completed => simp [finalStatus, he] at hs
    | cancelled =>
      have hb := h.aborted _ (hc rfl he)
      rw [ha] at hb
      exact hb
    | failed =>
      by_cases hx' : x.stopped = true
      · exact hm (.inl hx')
      by_cases hf : s.row.stopRequested = true
      · exact h.of_flag hx hr hf
      · simp [finalStatus, he, hx', hf] at hs

theorem Own.finish (h : Own s) (hx : s.instances[i]? = some x) (hr : x.running = true) {outcome : Outcome}
    (he : finish s i x outcome = .ok t) : Own t := by
  unfold Stops.finish at he
  dsimp only at he
  split at he
  next hn =>
    cases he
    exact (h.setRunStatus (h.of_finalStatus hx hr fun _ hh => by rw [hn] at hh; cases hh)).over
      (by rw [setRunStatus_instances]; exact hx)
  next =>
    split at he
    next hc =>
      cases he
      simp only [Bool.and_eq_true, Bool.or_eq_true, bne_iff_ne, List.contains_iff_mem] at hc
      exact (h.finalizeRuntime (h.of_finalStatus hx hr fun ho _ => hc.2.resolve_left fun hn => hn ho)).over
        (by rw [finalizeRuntime_instances]; exact hx)
    next => cases he

theorem Own.flagged (h : Own s) (hf : s.pressed ∨ (s.row.status.active = false ∧ s.idle = true)) :
    Own { s with row := { s.row with stopRequested := true } } :=
  ⟨h.told,h.calls,fun _ => hf,h.status,h.attempt,h.stopped,h.ended,h.aborted⟩

theorem setRunStatus_status (h : s.row.status.active = true) : (s.setRunStatus status).row.status = status := by
  unfold System.setRunStatus
  rw [if_pos h]

theorem Own.sweep (h : Own s) (ha : s.row.status.active = true) (hc : s.row.stopRequested = true ∨ s.idle = true) :
    Own (sweep s) := by
  have hp := h.of_active ha
  have ht : Own (s.setRunStatus (if s.row.stopRequested then .stopped else .error)) := by
    refine h.setRunStatus fun hs => ?_
    by_cases hf : s.row.stopRequested = true
    · exact hp hf
    · simp [hf] at hs
  refine ht.flagged ?_
  rcases hc with hf | hi
  · left
    have hq := hp hf
    simpa only [System.pressed, setRunStatus_attempt, setRunStatus_requested] using hq
  · right
    constructor
    · rw [setRunStatus_status ha]
      split <;> rfl
    · simpa only [System.idle, setRunStatus_instances] using hi

theorem Own.admitNext (h : Own s) (hi : s.idle = true) (hh : s.hub = false) (hc : s.calls = [])
    (engine : Engine) : Own (s.admitNext engine) := by
  refine ⟨?_,h.calls,(nomatch ·),?_,?_,?_,h.ended,h.aborted⟩
  · rintro (ht | ht)
    · exact absurd (hh.symm.trans ht) (by decide)
    · exact absurd hc ht
  · rintro (hs | hs) <;> cases hs
  · intro z hz hz'
    rcases List.mem_append.1 hz with hz | hz
    · rw [idle_iff.1 hi z hz] at hz'
      cases hz'
    · rw [List.mem_singleton.1 hz]
      rfl
  · intro z hz hz' hs
    rcases List.mem_append.1 hz with hz | hz
    · rw [idle_iff.1 hi z hz] at hz'
      cases hz'
    · rw [List.mem_singleton.1 hz] at hs
      rcases hs with hs | hs <;> cases hs

/-- The calls of the route are for attempts on which a Stop was requested. -/
theorem Own.withCalls (h : Own s) {calls : List Call} (hc : ∀ c ∈ calls, c.attempt ∈ s.requested)
    (hp : calls ≠ [] → s.pressed) : Own { s with calls := calls } :=
  ⟨fun ht => ht.elim (fun ht => h.told (.inl ht)) hp,hc,h.flag,h.status,h.attempt,h.stopped,h.ended,h.aborted⟩

theorem Own.pressed_of_call (h : Own s) {k : ℕ} {c : Call} (hk : s.calls[k]? = some c) : s.pressed :=
  h.told (.inr (List.ne_nil_of_mem (List.mem_of_getElem? hk)))

theorem Own.step (h : Own s) (hc : calm s e = true) (he : apply s e = .ok t) : Own t := by
  cases e with
  | stopRun =>
    cases he
    unfold stopRun
    split
    next =>
      have hr : Own (requestRunStop s) := h.request .stopping
      have hp : (requestRunStop s).pressed := List.mem_append_right _ (List.mem_singleton_self _)
      refine hr.withCalls ?_ fun _ => hp
      intro c hc
      rcases List.mem_append.1 hc with hc | hc
      · exact hr.calls c hc
      · rw [List.mem_singleton.1 hc]
        exact hp
    next => exact h
  | cancelWatch =>
    cases he
    split
    · exact h.request .stopping
    · exact h
  | requestStops =>
    cases he
    unfold requestStops
    split
    · exact h.request s.row.status
    · exact h
  | interrupt k =>
    simp only [apply] at he
    split at he
    next c hk =>
      have hm := h.calls c (List.mem_of_getElem? hk)
      split at he
      · cases he
        refine (h.withCalls (fun d hd => ?_) fun _ => h.pressed_of_call hk).abort hm
        rcases List.mem_or_eq_of_mem_set hd with hd | rfl
        · exact h.calls d hd
        · exact hm
      · cases he
    · cases he
  | requestStop k =>
    simp only [apply] at he
    split at he
    next c hk =>
      cases he
      have hp := h.pressed_of_call hk
      exact ⟨fun _ => hp,fun d hd => h.calls d (List.mem_of_mem_eraseIdx hd),h.flag,h.status,h.attempt,h.stopped,
        h.ended,h.aborted⟩
    · cases he
  | dropped k =>
    cases he
    refine h.withCalls (fun d hd => h.calls d (List.mem_of_mem_eraseIdx hd)) fun hn => h.told (.inr ?_)
    rintro hnil
    rw [hnil] at hn
    exact hn rfl
  | start i =>
    simp only [apply] at he
    split at he
    · cases he
    next x hx =>
      obtain ⟨hx,hr⟩ := Option.filter_eq_some_iff.1 hx
      exact h.start hx hr he
  | setWorking i =>
    obtain ⟨x,hx,hr,he⟩ := onLive_eq_ok he
    split at he
    · cases he
    · cases he
      exact h.setRunStatus (by simp)
  | park i =>
    obtain ⟨x,hx,hr,he⟩ := onLive_eq_ok he
    split at he
    · cases he
    · cases he
      exact h.setRunStatus (by simp)
  | submit i =>
    obtain ⟨x,hx,hr,he⟩ := onLive_eq_ok he
    split at he
    · cases he
      exact h.submit hx hr
    · cases he
  | forward i lost =>
    obtain ⟨x,hx,hr,he⟩ := onLive_eq_ok he
    cases he
    exact h.forward hx hr lost
  | poll i =>
    obtain ⟨x,hx,hr,he⟩ := onLive_eq_ok he
    cases he
    exact h.poll hx hr
  | finish i outcome =>
    obtain ⟨x,hx,hr,he⟩ := onLive_eq_ok he
    exact h.finish hx hr he
  | stopUnsubmitted i =>
    obtain ⟨x,hx,hr,he⟩ := onLive_eq_ok he
    split at he
    next hu =>
      cases he
      simp only [Bool.and_eq_true] at hu
      exact (h.setRunStatus fun _ => h.stopped x (List.mem_of_getElem? hx) hr (.inl hu.1.2)).over
        (by rw [setRunStatus_instances]; exact hx)
    · cases he
  | giveUp i =>
    obtain ⟨x,hx,hr,he⟩ := onLive_eq_ok he
    split at he
    · cases he
      exact (h.finalizeRuntime (by simp)).over (by rw [finalizeRuntime_instances]; exact hx)
    · cases he
  | crash i =>
    simp only [apply] at he
    split at he
    · cases he
    next x hx =>
      cases he
      exact h.over hx
  | sweep =>
    simp only [apply] at he
    split at he
    next ha =>
      cases he
      simp only [calm, Bool.or_eq_true] at hc
      exact h.sweep ha hc
    · cases he
  | retryTask engine expectedAttempt automatic =>
    simp only [calm, Bool.and_eq_true, Bool.not_eq_true', List.isEmpty_iff] at hc
    rcases retryTask_cases he with rfl | rfl
    · exact h
    · exact h.admitNext hc.1.1 hc.1.2 hc.2 engine

/-- The row of the next attempt, with its one new instance. -/
def System.next (s : System) (x : Instance) : System :=
  { s with row := { attempt := s.row.attempt + 1 }, instances := s.instances ++ [x] }

theorem next_getElem? : (s.next x).instances[s.instances.length]? = some x := by
  simp [System.next]

theorem next_setInstance : (s.next x).setInstance s.instances.length y = s.next y := by
  simp [System.next, System.setInstance]

theorem next_live (h : x.running = true) (h' : x.started = true) :
    (s.next x).live s.instances.length = some x := by
  rw [System.live,next_getElem?,Option.filter_some,h,h']
  rfl

/-- A Stop that the hub holds can end every attempt that a Retry admits: the first answer stops it. -/
theorem stopped_by_old_stop (hh : s.hub = true) (hs : s.row.status = .error ∨ s.row.status = .stopped) :
    ∃ es t, Run (Applied apply) s es t ∧ (s.row.attempt + 1,RunStatus.stopped) ∈ t.ended ∧
      t.requested = s.requested := by
  let x : Instance := { attempt := s.row.attempt + 1, engine := .native };
  let y : Instance := { x with started := true };
  let z : Instance := { y with stopped := true };
  let n := s.instances.length;
  let u := (s.next z).abort z.attempt;
  have h₁ : apply s (.retryTask .native none false) = .ok (s.next x) := by
    rcases hs with hs | hs <;> simp [apply, retryTask, hs, RunStatus.active, System.admitNext, System.next, x]
  have h₂ : apply (s.next x) (.start n) = .ok (s.next y) := by
    have hx : ((s.next x).instances[n]?).filter (·.running) = some x := by
      rw [next_getElem?]
      rfl
    simp only [apply, hx]
    exact congrArg Except.ok next_setInstance
  have h₃ : apply (s.next y) (.forward n false) = .ok u := by
    have hy : (s.next y).live n = some y := next_live rfl rfl
    simp only [apply, System.onLive, hy]
    have hf : forward (s.next y) n y false = ((s.next y).setInstance n z).abort z.attempt := if_pos hh
    rw [hf,next_setInstance]
  have h₄ : apply u (.finish n .cancelled) =
      .ok ((u.setRunStatus .stopped).setInstance n { z with running := false }) := by
    have hz : u.live n = some z := (next_live rfl rfl : (s.next z).live n = some z)
    simp only [apply, System.onLive, hz]
    rfl
  refine ⟨_,_,.cons h₁ (.cons h₂ (.cons h₃ (.single h₄))),?_,?_⟩
  · exact List.mem_append_right _ (List.mem_singleton_self _)
  · exact setRunStatus_requested

end HermesEnterprise.Stops
