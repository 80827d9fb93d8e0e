import HermesEnterprise.Runtime.StreamBuffer

/-! # What a stream buffer delivers

The frames that were sent, the one that is queued and the pending text make up
the appended text. At most one frame is under way, so a drain that returns has
nothing left to send.
-/
namespace HermesEnterprise.Runtime.Lane
open Foundation.Runs Foundation.Utf16

variable {windowMs : ℤ} {b b' : StreamBuffer} {flight : Flight} {clock : Clock} {i : ℕ}

/-- The text of the frames handed to `send`, in order. -/
def sentText (frames : List Frame) : Text := frames.flatMap Frame.delta

/-- The text of the frames whose send is still queued. -/
def queuedText (flights : List Flight) : Text :=
  (flights.filter fun f => f.phase = .queued).flatMap Flight.delta

/-- A frame is not empty, not too long, and splits no surrogate pair. -/
structure Fits (delta : Text) : Prop where
  nonempty : delta ≠ []
  bounded : delta.length ≤ maxFrame
  whole : wellFormed delta = true

/-- Each frame starts where the one before it ended. -/
def Contiguous : ℕ → List Frame → Prop
  | _, [] => True
  | start, f :: rest => f.offset = start ∧ Contiguous (start + f.delta.length) rest

@[simp] theorem sentText_append (frames : List Frame) (f : Frame) :
    sentText (frames ++ [f]) = sentText frames ++ f.delta := by
  simp [sentText]

theorem contiguous_append {start : ℕ} {frames : List Frame} {f : Frame} (h : Contiguous start frames)
    (hf : f.offset = start + (sentText frames).length) : Contiguous start (frames ++ [f]) := by
  induction frames generalizing start with
  | nil => exact ⟨by simpa [sentText] using hf,trivial⟩
  | cons g rest ih =>
    refine ⟨h.1,ih h.2 ?_⟩
    rw [hf]
    simp [sentText, Nat.add_assoc]

/-- At most one frame is under way, and nothing of the appended text is lost or repeated. -/
structure Sound (b : StreamBuffer) : Prop where
  idle : b.inFlight = none → b.flights = []
  busy : ∀ k, b.inFlight = some k → ∃ f, b.flights = [f] ∧ f.id = k
  text : ∃ tail, b.appended = sentText b.frames ++ queuedText b.flights ++ tail ∧
    (b.discarded = false → tail = b.pending)
  pending : wellFormed b.pending = true
  offset : b.discarded = false →
    b.offset = (sentText b.frames).length + (queuedText b.flights).length
  queued : ∀ f ∈ b.flights, f.phase = .queued → f.offset = (sentText b.frames).length ∧ Fits f.delta
  frames : ∀ f ∈ b.frames, Fits f.delta
  contiguous : Contiguous 0 b.frames
  drains : Drain.spinning ∉ b.drains

theorem sound_created : Sound created := by
  refine ⟨fun _ => rfl,?_,⟨[],rfl,fun _ => rfl⟩,rfl,fun _ => rfl,?_,?_,trivial,?_⟩ <;>
    simp [created]

/-- The flight of an event is the only one. -/
theorem Sound.only (h : Sound b) (hf : flight ∈ b.flights) :
    b.flights = [flight] ∧ b.inFlight = some flight.id := by
  cases hi : b.inFlight with
  | none => simp [h.idle hi] at hf
  | some k =>
    obtain ⟨f,hfs,rfl⟩ := h.busy k hi
    rw [hfs, List.mem_singleton] at hf
    exact ⟨hf ▸ hfs,by rw [hf]⟩

theorem Sound.cut (h : Sound b) (hidle : b.inFlight = none) (hne : b.pending ≠ [])
    (hlive : b.discarded = false) (later : ℤ) : Sound (b.cut later) := by
  have hnone := h.idle hidle
  obtain ⟨tail,htext,htail⟩ := h.text
  have hcut := wellFormed_cut h.pending hne (show 2 ≤ maxFrame by decide)
  have hpos := cutAt_pos hne (show 2 ≤ maxFrame by decide)
  have hoffset := h.offset hlive
  simp only [hnone, queuedText, List.filter_nil, List.flatMap_nil, List.length_nil, Nat.add_zero]
    at hoffset
  have hqueued : queuedText (b.cut later).flights = b.pending.take (cutAt maxFrame b.pending) := by
    simp [StreamBuffer.cut, hnone, queuedText]
  refine ⟨fun hi => ?_,fun k hk => ?_,⟨b.pending.drop (cutAt maxFrame b.pending),?_,fun _ => rfl⟩,
    hcut.2,fun _ => ?_,?_,h.frames,h.contiguous,h.drains⟩
  · simp [StreamBuffer.cut] at hi
  · simp only [StreamBuffer.cut, Option.some.injEq] at hk
    exact ⟨_,by rw [StreamBuffer.cut, hnone]; rfl,hk⟩
  · rw [hqueued]
    change b.appended = sentText b.frames ++ _ ++ _
    rw [htext, htail hlive, hnone, List.append_assoc (sentText b.frames) (List.take _ _),
      List.take_append_drop]
    simp [queuedText]
  · rw [hqueued]
    change b.offset + _ = (sentText b.frames).length + _
    rw [hoffset]
  · intro f hf hq
    have hf' : f = ⟨b.nextFlight,b.pending.take (cutAt maxFrame b.pending),b.offset,.queued⟩ := by
      simpa [StreamBuffer.cut, hnone] using hf
    subst hf'
    refine ⟨hoffset,?_,?_,hcut.1⟩
    · rw [ne_eq, List.take_eq_nil_iff]
      rintro (h0 | hnil)
      · exact hpos.ne' h0
      · exact hne hnil
    · exact (List.length_take_le _ _).trans cutAt_le

/-- What a flush does: nothing, start the timer, or cut a frame while none is under way. -/
theorem flush_cases (b : StreamBuffer) (force : Bool) (clock : Clock) :
    b.flush windowMs force clock = b ∨ b.flush windowMs force clock = { b with timer := true } ∨
    (b.discarded = false ∧ b.failed = false ∧ b.inFlight = none ∧ b.pending ≠ [] ∧
      b.flush windowMs force clock = b.cut clock.later) := by
  unfold StreamBuffer.flush
  split
  · exact Or.inl rfl
  next h =>
    simp only [Bool.or_eq_true, not_or, Bool.not_eq_true, Option.isSome_eq_false_iff,
      Option.isNone_iff_eq_none, List.isEmpty_eq_false_iff] at h
    split
    · exact Or.inr (Or.inl rfl)
    · exact Or.inr (Or.inr ⟨h.1.1.1,h.1.1.2,h.1.2,h.2,rfl⟩)

theorem Sound.flush (h : Sound b) (force : Bool) (clock : Clock) :
    Sound (b.flush windowMs force clock) := by
  rcases flush_cases b force clock with he | he | ⟨hlive,-,hidle,hne,he⟩
  · rw [he]
    exact h
  · rw [he]
    exact ⟨h.idle,h.busy,h.text,h.pending,h.offset,h.queued,h.frames,h.contiguous,h.drains⟩
  · rw [he]
    exact h.cut hidle hne hlive clock.later

theorem flush_frame (b : StreamBuffer) (force : Bool) (clock : Clock) :
    (b.flush windowMs force clock).drains = b.drains ∧
    (b.flush windowMs force clock).appended = b.appended ∧
    (b.flush windowMs force clock).discarded = b.discarded := by
  rcases flush_cases b force clock with he | he | ⟨-,-,-,-,he⟩ <;> rw [he] <;> exact ⟨rfl,rfl,rfl⟩

/-- A forced flush of a live buffer with text left has a frame under way. -/
theorem flush_forced (hlive : b.discarded = false) (hfine : b.failed = false)
    (hleft : b.pending ≠ [] ∨ b.inFlight.isSome = true) (clock : Clock) :
    (b.flush windowMs true clock).inFlight.isSome = true := by
  unfold StreamBuffer.flush
  split
  next h =>
    simp only [hlive, hfine, Bool.false_or, Bool.or_eq_true, List.isEmpty_iff] at h
    rcases h with h | h
    · exact h
    · exact hleft.resolve_left fun hne => hne h
  next => rfl

theorem Sound.append (h : Sound b) {delta : Text} (hd : wellFormed delta = true) (clock : Clock) :
    Sound (b.append windowMs delta clock) := by
  obtain ⟨tail,htext,htail⟩ := h.text
  unfold StreamBuffer.append
  dsimp only
  split
  next hdead =>
    refine ⟨h.idle,h.busy,⟨tail ++ delta,?_,fun hl => ?_⟩,h.pending,h.offset,h.queued,h.frames,
      h.contiguous,h.drains⟩
    · simp only [htext, List.append_assoc]
    · simp [hdead] at hl
  next hlive =>
    apply Sound.flush
    refine ⟨h.idle,h.busy,⟨tail ++ delta,?_,fun hl => ?_⟩,wellFormed_append h.pending hd,h.offset,
      h.queued,h.frames,h.contiguous,h.drains⟩
    · simp only [htext, List.append_assoc]
    · dsimp only at hl ⊢
      rw [htail hl]

theorem Sound.discard (h : Sound b) : Sound b.discard := by
  obtain ⟨tail,htext,-⟩ := h.text
  refine ⟨h.idle,h.busy,⟨tail,htext,?_⟩,rfl,?_,h.queued,h.frames,h.contiguous,h.drains⟩ <;>
    exact fun hl => by cases hl

theorem setPhase_flights (hf : b.flights = [flight]) (phase : Phase) :
    (b.setPhase flight.id phase).flights = [{ flight with phase := phase }] := by
  simp [StreamBuffer.setPhase, hf]

/-- A chain past its `then` callback moves on. -/
theorem Sound.setPhase (h : Sound b) (hf : flight ∈ b.flights) {phase : Phase}
    (hq : flight.phase ≠ .queued) (hp : phase ≠ .queued) : Sound (b.setPhase flight.id phase) := by
  obtain ⟨honly,hbusy⟩ := h.only hf
  have hset := setPhase_flights honly phase
  have hold : queuedText b.flights = [] := by simp [queuedText, honly, hq]
  have hnew : queuedText (b.setPhase flight.id phase).flights = [] := by
    simp [queuedText, hset, hp]
  obtain ⟨tail,htext,htail⟩ := h.text
  refine ⟨fun hi => ?_,fun k hk => ⟨_,hset,?_⟩,⟨tail,?_,htail⟩,h.pending,fun hl => ?_,?_,h.frames,
    h.contiguous,h.drains⟩
  · cases hbusy.symm.trans hi
  · exact Option.some.inj (hbusy.symm.trans hk)
  · rw [hnew, ← hold]
    exact htext
  · rw [hnew, ← hold]
    exact h.offset hl
  · intro f hfs hfq
    rw [hset, List.mem_singleton] at hfs
    subst hfs
    exact absurd hfq hp

theorem Sound.start (h : Sound b) (hf : flight ∈ b.flights) (hq : flight.phase = .queued) :
    Sound (b.start flight) := by
  obtain ⟨honly,hbusy⟩ := h.only hf
  have hold : queuedText b.flights = flight.delta := by simp [queuedText, honly, hq]
  obtain ⟨hoffset,hfits⟩ := h.queued flight hf hq
  obtain ⟨tail,htext,htail⟩ := h.text
  unfold StreamBuffer.start
  split
  next hdead =>
    have hset := setPhase_flights honly .settled
    have hnew : queuedText (b.setPhase flight.id .settled).flights = [] := by
      simp [queuedText, hset]
    refine ⟨fun hi => ?_,fun k hk => ⟨_,hset,?_⟩,⟨flight.delta ++ tail,?_,fun hl => ?_⟩,h.pending,
      fun hl => ?_,?_,h.frames,h.contiguous,h.drains⟩
    · cases hbusy.symm.trans hi
    · exact Option.some.inj (hbusy.symm.trans hk)
    · rw [hnew, List.append_nil, ← List.append_assoc, ← hold]
      exact htext
    · cases hdead.symm.trans hl
    · cases hdead.symm.trans hl
    · intro f hfs hfq
      rw [hset, List.mem_singleton] at hfs
      subst hfs
      cases hfq
  next hlive =>
    have hset := setPhase_flights honly .sending
    have hnew : queuedText (b.setPhase flight.id .sending).flights = [] := by
      simp [queuedText, hset]
    refine ⟨fun hi => ?_,fun k hk => ⟨_,hset,?_⟩,⟨tail,?_,htail⟩,h.pending,fun hl => ?_,?_,?_,
      contiguous_append h.contiguous (by simpa using hoffset),h.drains⟩
    · cases hbusy.symm.trans hi
    · exact Option.some.inj (hbusy.symm.trans hk)
    · dsimp only
      rw [hnew, sentText_append, List.append_nil, ← hold]
      exact htext
    · dsimp only
      rw [hnew, sentText_append, List.length_append, List.length_nil, ← hold]
      exact h.offset hl
    · intro f hfs hfq
      rw [hset, List.mem_singleton] at hfs
      subst hfs
      cases hfq
    · intro f hfs
      rcases List.mem_append.mp hfs with hfs | hfs
      · exact h.frames f hfs
      · rw [List.mem_singleton.mp hfs]
        exact hfits

theorem Sound.caught (h : Sound b) (hf : flight ∈ b.flights) {error : Thrown}
    (hq : flight.phase = .rejected error) : Sound (b.caught flight error) := by
  have hset : Sound (b.setPhase flight.id .settled) := h.setPhase hf (by simp [hq]) (by simp)
  exact ⟨hset.idle,hset.busy,hset.text,hset.pending,hset.offset,hset.queued,hset.frames,
    hset.contiguous,hset.drains⟩

theorem Sound.finished (h : Sound b) (hf : flight ∈ b.flights) (hq : flight.phase = .settled)
    (clock : Clock) : Sound (b.finished windowMs flight clock) := by
  obtain ⟨honly,-⟩ := h.only hf
  have hold : queuedText b.flights = [] := by simp [queuedText, honly, hq]
  have hnone : (b.flights.filter fun f => f.id ≠ flight.id) = [] := by simp [honly]
  obtain ⟨tail,htext,htail⟩ := h.text
  apply Sound.flush
  rw [hnone]
  refine ⟨fun _ => rfl,fun k hk => ?_,⟨tail,?_,htail⟩,h.pending,fun hl => ?_,?_,h.frames,
    h.contiguous,h.drains⟩
  · cases hk
  · rw [hold] at htext
    exact htext
  · have hoffset := h.offset hl
    rw [hold] at hoffset
    exact hoffset
  · exact fun f hfs => absurd hfs List.not_mem_nil

/-- The loop of `drain`: it keeps the buffer sound, never spins, and returns with nothing left to
send unless the buffer was discarded. -/
theorem Sound.drainLoop (windowMs : ℤ) (h : Sound b) (clock : Clock) :
    Sound (b.drainLoop windowMs clock).1 ∧ (b.drainLoop windowMs clock).2 ≠ .spinning ∧
    (b.drainLoop windowMs clock).1.drains = b.drains ∧
    ((b.drainLoop windowMs clock).2 = .resolved → (b.drainLoop windowMs clock).1.discarded = false →
      (b.drainLoop windowMs clock).1.pending = [] ∧
      (b.drainLoop windowMs clock).1.inFlight = none) := by
  have hended : b.failure.filter Thrown.truthy = none → b.failed = false := by
    intro he
    cases hf : b.failure with
    | none => simp [StreamBuffer.failed, hf]
    | some error =>
      rw [hf] at he
      simpa [StreamBuffer.failed, hf, Option.filter_some] using he
  unfold StreamBuffer.drainLoop
  dsimp only
  split
  next hleft =>
    simp only [Bool.and_eq_true, Bool.not_eq_true', Bool.or_eq_true] at hleft
    split
    next hfail =>
      split
      next error he => exact ⟨h,by simp,rfl,fun hr => by cases hr⟩
      next he =>
        refine ⟨h,by simp,rfl,fun _ => ?_⟩
        rw [hended he] at hfail
        cases hfail
    next hfine =>
      have hflight : (b.flush windowMs true clock).inFlight.isSome = true :=
        flush_forced hleft.1 (by simpa using hfine)
        (hleft.2.imp_left (by simp)) clock
      obtain ⟨k,hk⟩ := Option.isSome_iff_exists.mp hflight
      rw [hk]
      exact ⟨h.flush true clock,by simp,(flush_frame b true clock).1,fun hr => by cases hr⟩
  next hdone =>
    refine ⟨h,?_,rfl,fun _ hl => ?_⟩
    · split <;> simp
    have hlive : b.discarded = false := hl
    simpa [hlive] using hdone

theorem Sound.draining (h : Sound b) : Sound { b with draining := true, timer := false } :=
  ⟨h.idle,h.busy,h.text,h.pending,h.offset,h.queued,h.frames,h.contiguous,h.drains⟩

theorem drain_drains : (b.drain windowMs clock).drains =
    ({ b with draining := true, timer := false }.drainLoop windowMs clock).1.drains ++
      [({ b with draining := true, timer := false }.drainLoop windowMs clock).2] := rfl

theorem resume_drains : (b.resume windowMs i clock).drains =
    (b.drainLoop windowMs clock).1.drains.set i (b.drainLoop windowMs clock).2 := rfl

/-- A drain goes on only after the promise it awaits is fulfilled. -/
theorem perform_resume (hp : perform windowMs b (.resume i clock) = some b') :
    ∃ flight, b.drains[i]? = some (.awaiting flight) ∧ (∀ f ∈ b.flights, f.id ≠ flight) ∧
      b.resume windowMs i clock = b' := by
  simp only [perform] at hp
  split at hp
  next flight hd =>
    split at hp
    next hall => exact ⟨flight,hd,by simpa using hall,Option.some.inj hp⟩
    next => cases hp
  next => cases hp

/-- One event keeps the buffer sound. -/
theorem Sound.step (h : Sound b) {e : Event} (he : admits e = true)
    (hp : perform windowMs b e = some b') : Sound b' := by
  cases e with
  | append delta clock => cases hp; exact h.append he clock
  | flush force clock => cases hp; exact h.flush force clock
  | discard => cases hp; exact h.discard
  | expire clock =>
    simp only [perform, Option.ite_none_right_eq_some, Option.some.injEq] at hp
    obtain ⟨-,rfl⟩ := hp
    apply Sound.flush
    exact ⟨h.idle,h.busy,h.text,h.pending,h.offset,h.queued,h.frames,h.contiguous,h.drains⟩
  | start flight =>
    simp only [perform, Option.ite_none_right_eq_some, Option.some.injEq] at hp
    obtain ⟨⟨hf,hq⟩,rfl⟩ := hp
    exact h.start hf hq
  | sent flight =>
    simp only [perform, Option.ite_none_right_eq_some, Option.some.injEq] at hp
    obtain ⟨⟨hf,hq⟩,rfl⟩ := hp
    exact h.setPhase hf (by simp [hq]) (by simp)
  | refused flight error =>
    simp only [perform, Option.ite_none_right_eq_some, Option.some.injEq] at hp
    obtain ⟨⟨hf,hq⟩,rfl⟩ := hp
    exact h.setPhase hf (by simp [hq]) (by simp)
  | caught flight error =>
    simp only [perform, Option.ite_none_right_eq_some, Option.some.injEq] at hp
    obtain ⟨⟨hf,hq⟩,rfl⟩ := hp
    exact h.caught hf hq
  | finished flight clock =>
    simp only [perform, Option.ite_none_right_eq_some, Option.some.injEq] at hp
    obtain ⟨⟨hf,hq⟩,rfl⟩ := hp
    exact h.finished hf hq clock
  | drain clock =>
    cases hp
    obtain ⟨hs,hspin,-⟩ := (h.draining).drainLoop windowMs clock
    refine ⟨hs.idle,hs.busy,hs.text,hs.pending,hs.offset,hs.queued,hs.frames,hs.contiguous,?_⟩
    rw [drain_drains, List.mem_append, List.mem_singleton, not_or]
    exact ⟨hs.drains,fun he => hspin he.symm⟩
  | resume i clock =>
    obtain ⟨flight,-,-,rfl⟩ := perform_resume hp
    obtain ⟨hs,hspin,-⟩ := h.drainLoop windowMs clock
    refine ⟨hs.idle,hs.busy,hs.text,hs.pending,hs.offset,hs.queued,hs.frames,hs.contiguous,fun hm => ?_⟩
    rcases List.mem_or_eq_of_mem_set hm with hm | he
    · exact hs.drains hm
    · exact hspin he.symm

/-- A drain that returned in this step, with nothing discarded, left nothing to send. -/
theorem Sound.returns (h : Sound b) {e : Event} (hp : perform windowMs b e = some b')
    (hr : b'.drains[i]? = some Drain.resolved) (hn : b.drains[i]? ≠ some Drain.resolved)
    (hlive : b'.discarded = false) : b'.pending = [] ∧ b'.inFlight = none := by
  have hkept : b'.drains = b.drains → b'.pending = [] ∧ b'.inFlight = none :=
    fun he => absurd (he ▸ hr) hn
  cases e with
  | append delta clock =>
    cases hp
    refine hkept ?_
    unfold StreamBuffer.append
    dsimp only
    split
    · rfl
    · exact (flush_frame _ _ _).1
  | flush force clock => cases hp; exact hkept (flush_frame _ _ _).1
  | discard => cases hp; exact hkept rfl
  | expire clock =>
    simp only [perform, Option.ite_none_right_eq_some, Option.some.injEq] at hp
    obtain ⟨-,rfl⟩ := hp
    exact hkept (flush_frame _ _ _).1
  | start flight =>
    simp only [perform, Option.ite_none_right_eq_some, Option.some.injEq] at hp
    obtain ⟨-,rfl⟩ := hp
    refine hkept ?_
    unfold StreamBuffer.start
    split <;> rfl
  | sent flight =>
    simp only [perform, Option.ite_none_right_eq_some, Option.some.injEq] at hp
    obtain ⟨-,rfl⟩ := hp
    exact hkept rfl
  | refused flight error =>
    simp only [perform, Option.ite_none_right_eq_some, Option.some.injEq] at hp
    obtain ⟨-,rfl⟩ := hp
    exact hkept rfl
  | caught flight error =>
    simp only [perform, Option.ite_none_right_eq_some, Option.some.injEq] at hp
    obtain ⟨-,rfl⟩ := hp
    exact hkept rfl
  | finished flight clock =>
    simp only [perform, Option.ite_none_right_eq_some, Option.some.injEq] at hp
    obtain ⟨-,rfl⟩ := hp
    exact hkept (flush_frame _ _ _).1
  | drain clock =>
    cases hp
    obtain ⟨-,-,hdrains,hdone⟩ := h.draining.drainLoop windowMs clock
    refine hdone ?_ hlive
    rw [drain_drains, hdrains] at hr
    have hi : i = b.drains.length := by
      by_contra hne
      rcases Nat.lt_or_gt_of_ne hne with hlt | hgt
      · exact hn (by rwa [List.getElem?_append_left hlt] at hr)
      · rw [List.getElem?_eq_none (by simp; omega)] at hr
        cases hr
    subst hi
    simpa using hr
  | resume j clock =>
    obtain ⟨flight,hawait,-,rfl⟩ := perform_resume hp
    obtain ⟨-,-,hdrains,hdone⟩ := h.drainLoop windowMs clock
    refine hdone ?_ hlive
    rw [resume_drains, hdrains] at hr
    by_cases hij : j = i
    · subst hij
      rw [List.getElem?_set_self (List.getElem?_eq_some_iff.mp hawait).1] at hr
      exact Option.some.inj hr
    · rw [List.getElem?_set_ne hij] at hr
      exact absurd hr hn

/-- What was handed to `send`: whole frames, one at a time, each from where the last one ended, in
the order of the appended text. -/
structure Delivers (b : StreamBuffer) : Prop where
  frames : ∀ f ∈ b.frames, Fits f.delta
  alone : (b.flights.filter fun f => f.phase = .sending).length ≤ 1
  contiguous : Contiguous 0 b.frames
  ordered : sentText b.frames <+: b.appended

theorem Sound.delivers (h : Sound b) : Delivers b := by
  obtain ⟨tail,htext,-⟩ := h.text
  refine ⟨h.frames,?_,h.contiguous,⟨queuedText b.flights ++ tail,?_⟩⟩
  · refine (List.length_filter_le _ _).trans ?_
    cases hi : b.inFlight with
    | none => simp [h.idle hi]
    | some k =>
      obtain ⟨f,hf,-⟩ := h.busy k hi
      simp [hf]
  · rw [htext, List.append_assoc]

/-- With nothing pending and nothing under way, everything was sent. -/
theorem Sound.whole (h : Sound b) (hlive : b.discarded = false) (hp : b.pending = [])
    (hi : b.inFlight = none) : sentText b.frames = b.appended := by
  obtain ⟨tail,htext,htail⟩ := h.text
  rw [htext, htail hlive, hp, h.idle hi]
  simp [queuedText]

theorem ReachableBuffer.sound (h : ReachableBuffer windowMs b) : Sound b :=
  h.invariant (fun _ hi => hi ▸ sound_created) fun _ _ _ hs hst => hs.step hst.1 hst.2

/-- In every run with well-formed deltas, what was sent is a prefix of what was appended, in whole
contiguous frames sent one at a time; and when a drain returns and nothing was discarded, it is the
whole of it. -/
theorem stream_buffer_delivers (windowMs : ℤ) (b : StreamBuffer) (h : ReachableBuffer windowMs b) :
    Delivers b ∧ ∀ (e : Event) (b' : StreamBuffer), BufferStep windowMs b e b' →
      ∀ i : ℕ, b'.drains[i]? = some Drain.resolved → b.drains[i]? ≠ some Drain.resolved →
        b'.discarded = false → sentText b'.frames = b'.appended := by
  refine ⟨h.sound.delivers,fun e b' hst i hr hn hlive => ?_⟩
  obtain ⟨hp,hi⟩ := h.sound.returns hst.2 hr hn hlive
  exact (h.sound.step hst.1 hst.2).whole hlive hp hi

section Sample

/-- Two deltas, the second appended while the frame of the first is on its way. -/
def sampleEvents : List Event :=
  [.append [0x48,0x69] ⟨0,0⟩,.start ⟨0,[0x48,0x69],0,.queued⟩,.append [0xD83D,0xDE00] ⟨5,5⟩,
    .sent ⟨0,[0x48,0x69],0,.sending⟩,.finished ⟨0,[0x48,0x69],0,.settled⟩ ⟨90,90⟩,
    .start ⟨1,[0xD83D,0xDE00],2,.queued⟩,.sent ⟨1,[0xD83D,0xDE00],2,.sending⟩,
    .finished ⟨1,[0xD83D,0xDE00],2,.settled⟩ ⟨95,95⟩]

def sampleBuffer : StreamBuffer := (sampleEvents.foldlM (perform 40) created).getD created

theorem reachable_sampleBuffer : ReachableBuffer 40 sampleBuffer := by
  have hrun : Run (fun b e b' => perform 40 b e = some b') created sampleEvents sampleBuffer :=
    run_of_foldlM (by decide)
  refine ⟨created,sampleEvents,rfl,?_⟩
  have hadmits : ∀ e ∈ sampleEvents, admits e = true := by decide
  exact hrun.guard fun e he _ => hadmits e he

/-- A drain after that returns with both deltas sent. -/
theorem stream_buffer_delivers_sample :
    sentText (sampleBuffer.drain 40 ⟨96,96⟩).frames = [0x48,0x69,0xD83D,0xDE00] :=
  (stream_buffer_delivers 40 sampleBuffer reachable_sampleBuffer).2 (.drain ⟨96,96⟩) _
    ⟨rfl,rfl⟩ 0 (by decide) (by decide) (by decide)

end Sample

end HermesEnterprise.Runtime.Lane
