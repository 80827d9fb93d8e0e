import HermesEnterprise.Calls.Answered

/-! # What a waiting run waits for

The calls of an attempt that are parked, beside the one key that the run's row names and the clock
of its waits. The dispatchers park and resume by that key; which calls are parked, and when the run
waited, is kept here to compare with it.
-/
namespace HermesEnterprise.Calls.Waits
open Foundation.Runs

/-- `runtime_wait_started_at` and `runtime_wait_ms`, over times in microseconds. -/
structure Clock where
  startedAt : Option ℕ
  waitMs : ℕ
  deriving DecidableEq, Repr

def startRuntimeWait (now : ℕ) (clock : Clock) : Clock :=
  if clock.startedAt.isSome then clock else { clock with startedAt := some now }

def endRuntimeWait (now : ℕ) (clock : Clock) : Clock :=
  match clock.startedAt with
  | some started => ⟨none,clock.waitMs + (now - started) / 1000⟩
  | none => clock

/-- How a delivery that is carried out ends for its call: with a pending reply, with the answer to a
question, or with the tool's own result. -/
inductive Ending
  | parks (key : String)
  | answers
  | finishes
  deriving DecidableEq, Repr

def endingOf : Outcome → Ending
  | .parks key => .parks key
  | .asks key none => .parks key
  | .asks _ (some _) => .answers
  | .finishes .. => .finishes

/-- A proposal parks for an operation approval only. -/
def proposalEnding : Outcome → Ending
  | .parks key => .parks key
  | .asks .. => .finishes
  | .finishes .. => .finishes

def isApproval (key : String) : Bool := "operation_approval:".isPrefixOf key

/-- An approval is known by its key, and no context field has such a key. -/
def Outcome.keyed : Outcome → Bool
  | .parks key => isApproval key
  | .asks key _ => !isApproval key
  | .finishes .. => true

/-- What the row names after a call's ending. -/
def waitAfter (waitingFor : Option String) : Ending → Option String
  | .parks key => some (waitingFor.getD key)
  | .answers => none
  | .finishes => if waitingFor.any isApproval then none else waitingFor

def clockAfter (now : ℕ) (waitingFor : Option String) (clock : Clock) : Ending → Clock
  | .parks _ => startRuntimeWait now clock
  | .answers => endRuntimeWait now clock
  | .finishes => if waitingFor.any isApproval then endRuntimeWait now clock else clock

/-- The waits that are over, each with its two ends, and the start of the one that is not. -/
structure Intervals where
  since : Option ℕ
  closed : List (ℕ × ℕ)
  deriving DecidableEq, Repr

def Intervals.follow (now : ℕ) (waits : Intervals) : Option String → Option String → Intervals
  | none, some _ => ⟨some now,waits.closed⟩
  | some _, none => ⟨none,waits.closed ++ waits.since.toList.map fun started => (started,now)⟩
  | _, _ => waits

def Intervals.milliseconds (waits : Intervals) : ℕ := (waits.closed.map fun wait => (wait.2 - wait.1) / 1000).sum

structure State where
  world : World
  ended : Bool
  now : ℕ
  clock : Clock
  parked : List (CallId × String)
  intervals : Intervals

def State.waitingFor (s : State) : Option String := s.world.run.waitingFor

inductive Event
  | calls (event : Calls.Event)
  /-- What else is written to the run's row: its stop, its tools, its watch. -/
  | status (run : RunState)
  /-- The run completes, fails or is stopped. -/
  | ends
  /-- The next attempt of a run that ended. -/
  | attempt (runtimeRunId : String)
  | passes (now : ℕ)

section Steps
variable (digest : String → String) (w : World)

/-- The call that a delivery is carried out for, and how it ends. A stored answer is not carried out again. -/
def settles : Calls.Event → Option (CallId × Ending)
  | .dispatch call outcome =>
    match begin digest w call with
    | .ok (.goes callId _ _ _) => some (callId,endingOf outcome)
    | _ => none
  | .finish flight =>
    match w.flights.find? fun f => decide (f.id = flight) with
    | some f =>
      match (runtimeCall w.rows f.callId).bind (·.result) with
      | some _ => none
      | none => f.outcome.map fun outcome => (f.callId,proposalEnding outcome)
    | none => none
  | _ => none

def keyed : Calls.Event → Bool
  | .dispatch _ outcome => Outcome.keyed outcome
  | .execute _ outcome => Outcome.keyed outcome
  | .setRun _ => false
  | _ => true

/-- The parked calls but this one. -/
def others (callId : CallId) (parked : List (CallId × String)) : List (CallId × String) :=
  parked.filter fun p => p.1 ≠ callId

def parkedAfter (callId : CallId) (parked : List (CallId × String)) : Ending → List (CallId × String)
  | .parks key => (callId,key) :: others callId parked
  | .answers => others callId parked
  | .finishes => others callId parked

/-- The state after a call's event that leaves this world. -/
def settled (s : State) (w : World) : Option (CallId × Ending) → State
  | none => { s with world := w }
  | some (callId,ending) => { s with
      world := w,
      clock := clockAfter s.now s.waitingFor s.clock ending,
      parked := parkedAfter callId s.parked ending,
      intervals := s.intervals.follow s.now s.waitingFor w.run.waitingFor }

def apply (s : State) : Event → Except Refusal State
  | .calls event =>
    if keyed event then do
      let w ← Calls.apply digest s.world event
      return settled s w (settles digest s.world event)
    else .error .callConflict
  | .status run =>
    if s.ended || run.waitingFor ≠ s.waitingFor || run.runtimeRunId ≠ s.world.run.runtimeRunId then .error .runInactive
    else do
      let w ← Calls.apply digest s.world (.setRun run)
      return { s with world := w }
  | .ends => do
    let w ← Calls.apply digest s.world (.setRun { s.world.run with active := false, waitingFor := none })
    return { s with world := w, ended := true }
  | .attempt runtimeRunId =>
    if s.ended then do
      let w ← Calls.apply digest s.world
        (.setRun { s.world.run with runtimeRunId := some runtimeRunId, active := true, waitingFor := none })
      return { s with world := w, ended := false, clock := ⟨none,0⟩, parked := [], intervals := ⟨none,[]⟩ }
    else .error .runInactive
  | .passes now => .ok { s with now := now }

def Step : State → Event → State → Prop := Applied (apply digest)

/-- The first attempt begins. -/
def Initial (s : State) : Prop :=
  Calls.Initial digest s.world ∧ s.waitingFor = none ∧ s.ended = false ∧
    s.clock = ⟨none,0⟩ ∧ s.parked = [] ∧ s.intervals = ⟨none,[]⟩

end Steps

section Promises

/-- While a call is parked the run waits, for a key that a parked call has; and a run that waits has a
parked call with its key. -/
def Named (waitingFor : Option String) (parked : List (CallId × String)) : Prop :=
  match waitingFor with
  | none => parked = []
  | some key => ∃ p ∈ parked, p.2 = key

def Truthful (s : State) : Prop := s.ended = false → Named s.waitingFor s.parked

/-- A call that completes takes the run from waiting to working only if the run waits for it. -/
def Resumes (digest : String → String) (s : State) (e : Event) (t : State) : Prop :=
  ∀ event callId ending key, e = .calls event → settles digest s.world event = some (callId,ending) →
    s.waitingFor = some key → t.waitingFor = none → (callId,key) ∈ s.parked

/-- The clock has the start of the open wait, and has added each wait that is over once. -/
def ClockKept (s : State) : Prop :=
  s.ended = false → s.clock = ⟨s.intervals.since,s.intervals.milliseconds⟩ ∧ s.intervals.since.isSome = s.waitingFor.isSome

/-- Whether the ending of this call leaves a parked call behind the key that the run waits for. -/
def Admits (parked : List (CallId × String)) (waitingFor : Option String) (callId : CallId) : Ending → Prop
  | .parks key => ∀ waited, waitingFor = some waited → waited = key ∨ ∃ p ∈ others callId parked, p.2 = waited
  | .answers => others callId parked = []
  | .finishes => ∀ waited, waitingFor = some waited →
      if isApproval waited then others callId parked = [] else ∃ p ∈ others callId parked, p.2 = waited

/-- The condition on a delivery, in the state before it. -/
def AdmitsStep (digest : String → String) (s : State) : Event → Prop
  | .calls event => ∀ callId ending, settles digest s.world event = some (callId,ending) →
      Admits s.parked s.waitingFor callId ending
  | _ => True

end Promises

section Deliveries
variable {digest : String → String} {w w' : World} {event : Calls.Event}

theorem begin_active {call : Call} {b : Begun} (h : begin digest w call = .ok b) : w.run.active = true := by
  unfold begin at h
  split at h
  next => cases h
  next =>
    split at h
    next => cases h
    next hactive => simpa using hactive

theorem resume_run (w : World) : (resume w).run = { w.run with waitingFor := waitAfter w.run.waitingFor .finishes } := by
  unfold resume waitAfter
  change (if w.run.waitingFor.any isApproval then { w with run := { w.run with waitingFor := none } } else w).run = _
  split <;> rfl

/-- The reply of a delivery that is carried out: pending when it parks, else a result. -/
def Replies (w w' : World) (ending : Ending) : Prop :=
  ∃ call reply, w'.replies = w.replies ++ [(call,reply)] ∧ (reply = .pending ↔ ∃ key, ending = .parks key)

theorem replies_pending {call : Call} {key : String} (h : w'.replies = w.replies ++ [(call,.pending)]) :
    Replies w w' (.parks key) := ⟨call,.pending,h,⟨fun _ => ⟨key,rfl⟩,fun _ => rfl⟩⟩

theorem replies_content {call : Call} {ok : Bool} {content : String} {ending : Ending}
    (h : w'.replies = w.replies ++ [(call,.content ok content)]) (hending : ∀ key, ending ≠ .parks key) :
    Replies w w' ending := ⟨call,.content ok content,h,⟨nofun,fun ⟨key,hkey⟩ => absurd hkey (hending key)⟩⟩

theorem resume_replies (w : World) : (resume w).replies = w.replies := by
  unfold resume
  split <;> rfl

/-- What a call's event leaves: a delivery that is carried out what its ending says of the run's row, and its
reply; any other event the row as it was. -/
def Leaves (w w' : World) : Option (CallId × Ending) → Prop
  | none => w'.run = w.run
  | some (_,ending) => w.run.active = true ∧
      w'.run = { w.run with waitingFor := waitAfter w.run.waitingFor ending } ∧ Replies w w' ending

theorem apply_run (hkeyed : keyed event = true) (h : Calls.apply digest w event = .ok w') :
    Leaves w w' (settles digest w event) := by
  cases event with
  | dispatch call outcome =>
    simp only [Calls.apply, dispatch] at h
    unfold settles
    split at h
    next => cases h
    next =>
      cases hb : begin digest w call with
      | error e => rw [hb] at h; cases h
      | ok b =>
        have hactive := begin_active hb
        rw [hb] at h
        simp only [hb]
        cases b with
        | answered ok content =>
          cases h
          exact rfl
        | goes callId turn seq rows =>
          refine ⟨hactive,?_⟩
          cases outcome with
          | parks key =>
            cases h
            exact ⟨rfl,replies_pending rfl⟩
          | asks key answer =>
            cases answer with
            | none =>
              cases h
              exact ⟨rfl,replies_pending rfl⟩
            | some content =>
              cases h
              exact ⟨rfl,replies_content rfl (by rintro _ ⟨⟩)⟩
          | finishes ok content =>
            cases h
            exact ⟨resume_run _,replies_content (congrArg (· ++ _) (resume_replies _)) (by rintro _ ⟨⟩)⟩
  | prepare flight call =>
    simp only [Calls.apply, prepare] at h
    split at h
    next => cases h
    next =>
      cases hb : begin digest w call with
      | error e => rw [hb] at h; cases h
      | ok b =>
        rw [hb] at h
        cases b with
        | answered ok content => cases h; exact rfl
        | goes callId turn seq rows => cases h; exact rfl
  | execute flight outcome =>
    simp only [Calls.apply] at h
    split at h
    next f hf =>
      split at h
      next => cases h
      next => cases h; exact rfl
    next => cases h
  | finish flight =>
    simp only [Calls.apply] at h
    unfold settles
    cases hf : w.flights.find? fun f => decide (f.id = flight) with
    | none => simp only [hf] at h; cases h
    | some f =>
      simp only [hf] at h
      cases ho : f.outcome with
      | none => simp only [ho] at h; cases h
      | some outcome =>
        simp only [ho] at h
        unfold Calls.finish at h
        split at h
        next => cases h
        next hrun =>
          have hactive : w.run.active = true := by
            simp only [Bool.or_eq_true, Bool.not_eq_true', not_or, Bool.not_eq_false] at hrun
            exact hrun.2
          cases hr : (runtimeCall w.rows f.callId).bind (·.result) with
          | some stored =>
            simp only [hr] at h
            simp only [hf, hr]
            cases h
            exact rfl
          | none =>
            simp only [hr] at h
            simp only [hf, hr, ho, Option.map_some]
            refine ⟨hactive,?_⟩
            cases outcome with
            | parks key =>
              cases h
              exact ⟨rfl,replies_pending rfl⟩
            | asks key answer =>
              cases h
              exact ⟨resume_run _,replies_content (congrArg (· ++ _) (resume_replies _)) (by rintro _ ⟨⟩)⟩
            | finishes ok content =>
              cases h
              exact ⟨resume_run _,replies_content (congrArg (· ++ _) (resume_replies _)) (by rintro _ ⟨⟩)⟩
  | crash flight =>
    cases h
    exact rfl
  | setRun run => cases hkeyed
  | finalize maxTurns attempt =>
    simp only [Calls.apply] at h
    split at h
    next => cases h
    next => cases h; exact rfl

theorem settles_active (hkeyed : keyed event = true) (h : Calls.apply digest w event = .ok w') {p : CallId × Ending}
    (hp : settles digest w event = some p) : w.run.active = true := by
  have hrun := apply_run hkeyed h
  rw [hp] at hrun
  exact hrun.1

end Deliveries

section Parked
variable {parked : List (CallId × String)} {waitingFor : Option String} {callId : CallId} {ending : Ending} {key : String}

theorem mem_of_others_nil (h : others callId parked = []) (hp : ∃ p ∈ parked, p.2 = key) : (callId,key) ∈ parked := by
  obtain ⟨p,hmem,rfl⟩ := hp
  have hid : p.1 = callId := by simpa using List.filter_eq_nil_iff.mp h p hmem
  rw [← hid]
  exact hmem

/-- A call that ends with no other parked leaves nothing, and the wait was its own. -/
theorem named_none_iff (h : ∃ p ∈ parked, p.2 = key) :
    Named none (others callId parked) ∧ (∀ waited, some key = some waited → none = (none : Option String) → (callId,waited) ∈ parked) ↔
      others callId parked = [] := by
  constructor
  · exact fun ⟨hnone,_⟩ => hnone
  · intro hnone
    refine ⟨hnone,fun waited hwaited _ => ?_⟩
    cases hwaited
    exact mem_of_others_nil hnone h

/-- The condition decides that the row names a parked call afterwards, and that the run resumed for its own call. -/
theorem admits_iff (h : Named waitingFor parked) :
    Named (waitAfter waitingFor ending) (parkedAfter callId parked ending) ∧
        (∀ waited, waitingFor = some waited → waitAfter waitingFor ending = none → (callId,waited) ∈ parked) ↔
      Admits parked waitingFor callId ending := by
  cases waitingFor with
  | none =>
    have hnil : parked = [] := h
    subst hnil
    cases ending with
    | parks key => exact ⟨fun _ _ => nofun,fun _ => ⟨⟨(callId,key),List.mem_cons_self,rfl⟩,fun _ => nofun⟩⟩
    | answers => exact ⟨fun _ => rfl,fun _ => ⟨rfl,fun _ => nofun⟩⟩
    | finishes => exact ⟨fun _ _ => nofun,fun _ => ⟨rfl,fun _ => nofun⟩⟩
  | some waited =>
    cases ending with
    | parks key =>
      constructor
      · rintro ⟨⟨p,hp,hkey⟩,_⟩ _ ⟨⟩
        rcases List.mem_cons.mp hp with rfl | hp
        · exact Or.inl hkey.symm
        · exact Or.inr ⟨p,hp,hkey⟩
      · intro hadmits
        refine ⟨?_,fun _ _ => nofun⟩
        rcases hadmits waited rfl with rfl | ⟨p,hp,hkey⟩
        · exact ⟨(callId,waited),List.mem_cons_self,rfl⟩
        · exact ⟨p,List.mem_cons_of_mem _ hp,hkey⟩
    | answers => exact named_none_iff h
    | finishes =>
      by_cases happroval : isApproval waited = true
      · have hafter : waitAfter (some waited) .finishes = none := if_pos happroval
        rw [hafter]
        refine (named_none_iff h).trans ⟨?_,?_⟩
        · rintro hnone _ ⟨⟩
          rwa [if_pos happroval]
        · intro hadmits
          have hnone := hadmits waited rfl
          rwa [if_pos happroval] at hnone
      · have hafter : waitAfter (some waited) .finishes = some waited := if_neg happroval
        rw [hafter]
        constructor
        · rintro ⟨hnamed,-⟩ _ ⟨⟩
          rw [if_neg happroval]
          exact hnamed
        · intro hadmits
          have hnamed := hadmits waited rfl
          rw [if_neg happroval] at hnamed
          exact ⟨hnamed,fun _ _ => nofun⟩

end Parked

section Runs
variable {digest : String → String} {s t : State} {e : Event}

theorem step_calls {event : Calls.Event} (h : Step digest s (.calls event) t) : keyed event = true ∧
    ∃ w, Calls.apply digest s.world event = .ok w ∧ t = settled s w (settles digest s.world event) := by
  unfold Step Applied apply at h
  simp only at h
  split at h
  next hkeyed =>
    cases hw : Calls.apply digest s.world event with
    | error e => rw [hw] at h; cases h
    | ok w =>
      rw [hw] at h
      cases h
      exact ⟨hkeyed,w,rfl,rfl⟩
  next => cases h

/-- A step that is no delivery: the run ends, begins again with nothing parked, or keeps its wait. -/
def Quiet (s t : State) : Prop :=
  (t.ended = true ∧ t.world.run.active = false) ∨
    (t.ended = false ∧ t.waitingFor = none ∧ t.parked = [] ∧ t.clock = ⟨none,0⟩ ∧ t.intervals = ⟨none,[]⟩) ∨
    ((s.ended = true → s.world.run.active = false → t.world.run.active = false) ∧ t.ended = s.ended ∧
      t.waitingFor = s.waitingFor ∧ t.parked = s.parked ∧ t.clock = s.clock ∧ t.intervals = s.intervals)

theorem setRun_ok {w w' : World} {run : RunState} (h : Calls.apply digest w (.setRun run) = .ok w') :
    w' = { w with run := run } := by
  simp only [Calls.apply] at h
  split at h
  next => cases h; rfl
  next => cases h

theorem step_quiet (h : Step digest s e t) (hcalls : ∀ event, e ≠ .calls event) : Quiet s t := by
  unfold Step Applied apply at h
  cases e with
  | calls event => exact absurd rfl (hcalls event)
  | status run =>
    simp only at h
    split at h
    next => cases h
    next hkept =>
      simp only [Bool.or_eq_true, decide_eq_true_eq, not_or, Bool.not_eq_true, ne_eq, not_not] at hkept
      cases hw : Calls.apply digest s.world (.setRun run) with
      | error e => rw [hw] at h; cases h
      | ok w =>
        rw [hw] at h
        cases h
        rw [setRun_ok hw]
        exact Or.inr (Or.inr ⟨fun hended => absurd (hkept.1.1.symm.trans hended) nofun,rfl,hkept.1.2,rfl,rfl,rfl⟩)
  | ends =>
    simp only at h
    cases hw : Calls.apply digest s.world (.setRun { s.world.run with active := false, waitingFor := none }) with
    | error e => rw [hw] at h; cases h
    | ok w =>
      rw [hw] at h
      cases h
      rw [setRun_ok hw]
      exact Or.inl ⟨rfl,rfl⟩
  | attempt runtimeRunId =>
    simp only at h
    split at h
    next =>
      cases hw : Calls.apply digest s.world
          (.setRun { s.world.run with runtimeRunId := some runtimeRunId, active := true, waitingFor := none }) with
      | error e => rw [hw] at h; cases h
      | ok w =>
        rw [hw] at h
        cases h
        rw [setRun_ok hw]
        exact Or.inr (Or.inl ⟨rfl,rfl,rfl,rfl,rfl⟩)
    next => cases h
  | passes now =>
    cases h
    exact Or.inr (Or.inr ⟨fun _ hactive => hactive,rfl,rfl,rfl,rfl,rfl⟩)

/-- What the condition keeps: the row tells the truth, and a run that ended takes no delivery. -/
def Sound (s : State) : Prop := Truthful s ∧ (s.ended = true → s.world.run.active = false)

theorem Sound.quiet (h : Sound s) (hq : Quiet s t) : Sound t := by
  rcases hq with ⟨hended,hactive⟩ | ⟨hended,hwaiting,hparked,-⟩ | ⟨hactive,hended,hwaiting,hparked,-⟩
  · exact ⟨fun hnot => absurd (hended.symm.trans hnot) nofun,fun _ => hactive⟩
  · refine ⟨fun _ => ?_,fun hnot => absurd (hended.symm.trans hnot) nofun⟩
    rw [hwaiting, hparked]
    rfl
  · refine ⟨fun hnot => ?_,fun htrue => ?_⟩
    · rw [hwaiting, hparked]
      exact h.1 (hended.symm.trans hnot)
    · exact hactive (hended.symm.trans htrue) (h.2 (hended.symm.trans htrue))

/-- A delivery that is carried out is to a run that has not ended. -/
theorem Sound.delivery {event : Calls.Event} {w : World} {p : CallId × Ending} (h : Sound s) (hkeyed : keyed event = true)
    (hw : Calls.apply digest s.world event = .ok w) (hp : settles digest s.world event = some p) : s.ended = false := by
  cases hended : s.ended with
  | false => rfl
  | true => exact absurd ((h.2 hended).symm.trans (settles_active hkeyed hw hp)) nofun

theorem settled_waitingFor {event : Calls.Event} {w : World} {callId : CallId} {ending : Ending} (hkeyed : keyed event = true)
    (hw : Calls.apply digest s.world event = .ok w) (hp : settles digest s.world event = some (callId,ending)) :
    (settled s w (some (callId,ending))).waitingFor = waitAfter s.waitingFor ending := by
  have hrun := apply_run hkeyed hw
  rw [hp] at hrun
  exact congrArg RunState.waitingFor hrun.2.1

theorem step_iff (h : Sound s) (hs : Step digest s e t) :
    Truthful t ∧ Resumes digest s e t ↔ AdmitsStep digest s e := by
  by_cases hcalls : ∃ event, e = .calls event
  swap
  · have hsound := h.quiet (step_quiet hs fun event he => hcalls ⟨event,he⟩)
    refine ⟨fun _ => ?_,fun _ => ⟨hsound.1,fun event _ _ _ he => absurd ⟨event,he⟩ hcalls⟩⟩
    cases e with
    | calls event => exact absurd ⟨event,rfl⟩ hcalls
    | _ => trivial
  · obtain ⟨event,rfl⟩ := hcalls
    obtain ⟨hkeyed,w,hw,rfl⟩ := step_calls hs
    cases hp : settles digest s.world event with
    | none =>
      have hrun := apply_run hkeyed hw
      rw [hp] at hrun
      refine ⟨fun _ callId ending hsettles => ?_,fun _ => ⟨?_,fun _ callId ending key he hsettles => ?_⟩⟩
      · cases hp.symm.trans hsettles
      · intro hended
        have hwaiting : (settled s w none).waitingFor = s.waitingFor := congrArg RunState.waitingFor hrun
        rw [hwaiting]
        exact h.1 hended
      · cases he
        cases hp.symm.trans hsettles
    | some p =>
      obtain ⟨callId,ending⟩ := p
      have hended := h.delivery hkeyed hw hp
      have hwaiting := settled_waitingFor hkeyed hw hp
      have hiff : _ ↔ Admits s.parked s.waitingFor callId ending := admits_iff (h.1 hended)
      constructor
      · rintro ⟨htruthful,hresumes⟩ callId' ending' hsettles
        cases hp.symm.trans hsettles
        refine hiff.mp ⟨?_,fun waited hwaited hnone => hresumes event callId ending waited rfl hp hwaited (hwaiting.trans hnone)⟩
        have hnamed := htruthful hended
        rwa [hwaiting] at hnamed
      · intro hadmits
        obtain ⟨hnamed,hown⟩ := hiff.mpr (hadmits callId ending hp)
        refine ⟨fun _ => ?_,?_⟩
        · rw [hwaiting]
          exact hnamed
        · rintro event' callId' ending' key he hsettles hkey hnone
          cases he
          cases hp.symm.trans hsettles
          exact hown key hkey (hwaiting.symm.trans hnone)

theorem Sound.step (h : Sound s) (hs : Step digest s e t) (hadmits : AdmitsStep digest s e) : Sound t := by
  refine ⟨((step_iff h hs).mpr hadmits).1,?_⟩
  by_cases hcalls : ∃ event, e = .calls event
  swap
  · exact (h.quiet (step_quiet hs fun event he => hcalls ⟨event,he⟩)).2
  · obtain ⟨event,rfl⟩ := hcalls
    obtain ⟨hkeyed,w,hw,rfl⟩ := step_calls hs
    intro hended
    cases hp : settles digest s.world event with
    | none =>
      have hrun := apply_run hkeyed hw
      rw [hp] at hrun hended
      exact (congrArg RunState.active hrun).trans (h.2 hended)
    | some p =>
      rw [hp] at hended
      exact absurd ((h.delivery hkeyed hw hp).symm.trans hended) nofun

/-- A delivery that is carried out parks its call exactly when its reply is pending. -/
theorem step_parked {event : Calls.Event} {callId : CallId} {ending : Ending} (h : Step digest s (.calls event) t)
    (hp : settles digest s.world event = some (callId,ending)) : ∃ call reply,
      t.world.replies = s.world.replies ++ [(call,reply)] ∧ (reply = .pending ↔ ∃ key, (callId,key) ∈ t.parked) := by
  obtain ⟨hkeyed,w,hw,rfl⟩ := step_calls h
  have hleaves := apply_run hkeyed hw
  rw [hp] at hleaves ⊢
  obtain ⟨-,-,call,reply,hreplies,hpending⟩ := hleaves
  have hothers : ∀ key, (callId,key) ∉ others callId s.parked := by
    intro key hmem
    simpa using (List.mem_filter.mp hmem).2
  refine ⟨call,reply,hreplies,hpending.trans ?_⟩
  cases ending with
  | parks key => exact ⟨fun _ => ⟨key,List.mem_cons_self⟩,fun _ => ⟨key,rfl⟩⟩
  | answers => exact ⟨nofun,fun ⟨key,hkey⟩ => absurd hkey (hothers key)⟩
  | finishes => exact ⟨nofun,fun ⟨key,hkey⟩ => absurd hkey (hothers key)⟩

theorem milliseconds_close (waits : Intervals) (started now : ℕ) :
    (Intervals.mk none (waits.closed ++ [(started,now)])).milliseconds = waits.milliseconds + (now - started) / 1000 := by
  simp [Intervals.milliseconds]

/-- One start and one end for each wait, whatever calls come between them. -/
theorem clock_follow (now : ℕ) {waitingFor : Option String} {clock : Clock} {waits : Intervals} (ending : Ending)
    (hclock : clock = ⟨waits.since,waits.milliseconds⟩) (hsince : waits.since.isSome = waitingFor.isSome) :
    clockAfter now waitingFor clock ending =
        ⟨(waits.follow now waitingFor (waitAfter waitingFor ending)).since,
          (waits.follow now waitingFor (waitAfter waitingFor ending)).milliseconds⟩ ∧
      (waits.follow now waitingFor (waitAfter waitingFor ending)).since.isSome = (waitAfter waitingFor ending).isSome := by
  obtain ⟨since,closed⟩ := waits
  subst hclock
  cases waitingFor with
  | none =>
    cases since with
    | some started => cases hsince
    | none =>
      cases ending with
      | parks key => exact ⟨rfl,rfl⟩
      | answers => exact ⟨rfl,rfl⟩
      | finishes => exact ⟨rfl,rfl⟩
  | some waited =>
    cases since with
    | none => cases hsince
    | some started =>
      have hended : endRuntimeWait now ⟨some started,(Intervals.mk (some started) closed).milliseconds⟩ =
          ⟨none,(Intervals.mk none (closed ++ [(started,now)])).milliseconds⟩ := by
        rw [milliseconds_close ⟨some started,closed⟩]
        rfl
      cases ending with
      | parks key => exact ⟨rfl,rfl⟩
      | answers => exact ⟨hended,rfl⟩
      | finishes =>
        by_cases happroval : isApproval waited = true
        · have hafter : waitAfter (some waited) .finishes = none := if_pos happroval
          rw [hafter]
          exact ⟨(if_pos happroval).trans hended,rfl⟩
        · have hafter : waitAfter (some waited) .finishes = some waited := if_neg happroval
          rw [hafter]
          exact ⟨if_neg happroval,rfl⟩

theorem ClockKept.step (h : ClockKept s) (hs : Step digest s e t) : ClockKept t := by
  intro hended
  by_cases hcalls : ∃ event, e = .calls event
  swap
  · rcases step_quiet hs fun event he => hcalls ⟨event,he⟩ with
      ⟨htrue,-⟩ | ⟨-,hwaiting,-,hclock,hwaits⟩ | ⟨-,hsame,hwaiting,-,hclock,hwaits⟩
    · exact absurd (htrue.symm.trans hended) nofun
    · rw [hwaiting, hclock, hwaits]
      exact ⟨rfl,rfl⟩
    · rw [hwaiting, hclock, hwaits]
      exact h (hsame.symm.trans hended)
  · obtain ⟨event,rfl⟩ := hcalls
    obtain ⟨hkeyed,w,hw,rfl⟩ := step_calls hs
    cases hp : settles digest s.world event with
    | none =>
      have hrun := apply_run hkeyed hw
      rw [hp] at hrun hended
      have hwaiting : (settled s w none).waitingFor = s.waitingFor := congrArg RunState.waitingFor hrun
      rw [hwaiting]
      exact h hended
    | some p =>
      obtain ⟨callId,ending⟩ := p
      have hwaiting := settled_waitingFor hkeyed hw hp
      rw [hp] at hended
      rw [hwaiting]
      obtain ⟨hclock,hsince⟩ := h hended
      have hfollow := clock_follow s.now ending hclock hsince
      rw [← hwaiting] at hfollow ⊢
      exact hfollow

/-- The row tells the truth after every step of a run, and only the call that a run waits for resumes it, exactly
when each delivery leaves a parked call behind the key that the run waits for; and in every run the clock has
added each wait once. -/
theorem waits_truthful_iff {es : List Event} (h : Initial digest s) :
    (Run (fun s e t => Step digest s e t ∧ Truthful t ∧ Resumes digest s e t) s es t ↔
        Run (Guarded (Step digest) (AdmitsStep digest)) s es t) ∧
      (Run (Step digest) s es t → ClockKept t) := by
  obtain ⟨-,hwaiting,hended,hclock,hparked,hwaits⟩ := h
  have hsound : Sound s := by
    refine ⟨fun _ => ?_,fun htrue => absurd (hended.symm.trans htrue) nofun⟩
    rw [hwaiting, hparked]
    rfl
  have hkept : ClockKept s := by
    intro _
    rw [hwaiting, hclock, hwaits]
    exact ⟨rfl,rfl⟩
  refine ⟨Run.guarded_iff hsound (fun _ _ _ => step_iff) (fun _ _ _ => Sound.step),fun hrun => ?_⟩
  exact hrun.invariant hkept fun _ _ _ => ClockKept.step

end Runs

section Examples

def begun : State :=
  ⟨⟨[⟨0,0,.other none⟩],bound "r" ["propose_approval","propose_instruction"],[],[],[]⟩,false,0,⟨none,0⟩,[],⟨none,[]⟩⟩

theorem begun_initial : Initial id begun := by
  refine ⟨⟨by decide,fun row hrow => ⟨none,?_,fun _ _ _ => nofun⟩,by decide,rfl,rfl,rfl⟩,rfl,rfl,rfl,rfl,rfl⟩
  rw [List.mem_singleton.mp hrow]

def instruction : Call := ⟨"r","a","propose_instruction",.null⟩

def proposal : Call := ⟨"r","p","propose_approval",.null⟩

/-- A call parks for an approval, and finishes five milliseconds later. -/
def approved : List Event :=
  [.calls (.dispatch instruction (.parks "operation_approval:1")),.passes 5000,
    .calls (.dispatch instruction (.finishes true "done"))]

theorem waits_truthful_approved :
    Run (fun s e t => Step id s e t ∧ Truthful t ∧ Resumes id s e t) begun approved
        (afterAll (apply id) begun approved) ∧
      ClockKept (afterAll (apply id) begun approved) := by
  refine ⟨(waits_truthful_iff begun_initial).1.mpr (.cons ⟨?_,step_after (by decide +kernel)⟩
    (.cons ⟨trivial,step_after (by decide +kernel)⟩ (.cons ⟨?_,step_after (by decide +kernel)⟩ (.nil _)))),
    (waits_truthful_iff begun_initial).2 (run_afterAll (by decide +kernel))⟩
  · intro callId ending h
    have hsettles : settles id begun.world (.dispatch instruction (.parks "operation_approval:1")) =
        some (durableCallId id "r" "a" 0,.parks "operation_approval:1") := by decide +kernel
    cases hsettles.symm.trans h
    exact fun _ => nofun
  · intro callId ending h
    have hsettles : settles id (afterAll (apply id) begun (approved.take 2)).world
        (.dispatch instruction (.finishes true "done")) =
          some (durableCallId id "r" "a" 0,.finishes) := by decide +kernel
    cases hsettles.symm.trans h
    intro waited hwaited
    have happroval : isApproval waited = true := by
      have hkey : (afterAll (apply id) begun (approved.take 2)).waitingFor = some "operation_approval:1" := by
        decide +kernel
      cases hkey.symm.trans hwaited
      decide +kernel
    rw [if_pos happroval]
    decide +kernel

/-- Before the call parks a proposal is reserved, and it finishes while the call waits. -/
def overtaken : List Event :=
  [.calls (.prepare 0 proposal),.calls (.dispatch instruction (.parks "operation_approval:1")),
    .calls (.execute 0 (.finishes true "proposed"))]

def waiting : State := afterAll (apply id) begun overtaken

def resumed : State := after (apply id) waiting (.calls (.finish 0))

/-- The proposal takes the run to working, and the call that the run waited for is parked still. -/
theorem wait_forgotten : ∃ s es t e u, Initial id s ∧ Run (Step id) s es t ∧ Truthful t ∧
    Step id t e u ∧ ¬ Truthful u ∧ ¬ Resumes id t e u := by
  have hparked : waiting.parked = [(durableCallId id "r" "a" 0,"operation_approval:1")] := by decide +kernel
  have hwaiting : waiting.waitingFor = some "operation_approval:1" := by decide +kernel
  have hafter : resumed.waitingFor = none := by decide +kernel
  refine ⟨begun,overtaken,waiting,.calls (.finish 0),resumed,begun_initial,run_afterAll (by decide +kernel),fun _ => ?_,
    step_after (by decide +kernel),fun htruthful => ?_,fun hresumes => ?_⟩
  · rw [hwaiting, hparked]
    exact ⟨_,List.mem_cons_self,rfl⟩
  · have hended : resumed.ended = false := by decide +kernel
    have hstill : resumed.parked ≠ [] := by decide +kernel
    have hnamed := htruthful hended
    rw [hafter] at hnamed
    exact hstill hnamed
  · have hsettles : settles id waiting.world (.finish 0) = some (durableCallId id "r" "p" 0,.finishes) := by
      decide +kernel
    have hmem := hresumes (.finish 0) _ _ _ rfl hsettles hwaiting hafter
    rw [hparked] at hmem
    revert hmem
    decide +kernel

end Examples

end HermesEnterprise.Calls.Waits
