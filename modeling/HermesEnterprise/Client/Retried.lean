import HermesEnterprise.Client.Events
import HermesEnterprise.Client.Forward

/-! # A retried run streams

The first event of a higher attempt clears the accumulator, and what follows builds it up, unless a fence of the run
turns it away. Fences are kept by run, not by attempt.
-/
namespace HermesEnterprise.Client
open HermesEnterprise.Inbound
variable {v : View} {r : Run} {event first : Event} {frame : Frame} {attempt seq : ℕ} {delta : Text}

section Events

theorem reduce_cursorAdvance {id : ℕ} (h : v.cursor < id) : reduce v (.cursorAdvance id) = { v with cursor := id } :=
  if_neg (not_le.mpr h)

/-- A session action, and then the cursor. -/
theorem reduce_session_cursorAdvance {id : ℕ} (session : Session) (h : v.cursor < id) :
    reduce { v with session := session } (.cursorAdvance id) = { v with session := session, cursor := id } :=
  if_neg (not_le.mpr h)

theorem bodyActions_runStarted {runId clientTurnId : Id} {title : Option Text} {steps : List RunStep} {at' : ℤ} :
    bodyActions v at' (.runStarted runId attempt clientTurnId title steps) = if v.agentId.isNone then []
      else [.runStart (startedRun runId attempt title steps at') (some clientTurnId)] := rfl

/-- An event of the displayed attempt, or one that carries a higher attempt itself. -/
theorem applyEvent_own (hrun : v.session.run = some r) (hid : r.id = event.body.runId) (hcursor : v.cursor < event.id)
    (hattempt : r.attempt = event.body.attempt ∨ r.attempt < event.body.attempt ∧ event.body.carriesAttempt = true) :
    applyEvent v event = (bodyActions v event.at' event.body ++ [Action.cursorAdvance event.id]).foldl reduce v := by
  have hfilter : v.session.run.filter (fun current => decide (current.id = event.body.runId)) = some r := by
    rw [hrun, Option.filter_some, if_pos (decide_eq_true hid)]
  have hlow : ¬event.body.attempt < r.attempt := by omega
  have hcarried : (decide (r.attempt < event.body.attempt) && !event.body.carriesAttempt) = false := by
    rcases hattempt with heq | ⟨-,hcarries⟩
    · simp [heq]
    · simp [hcarries]
  unfold applyEvent actionsFor
  rw [if_neg (not_le.mpr hcursor)]
  dsimp only
  rw [hfilter]
  dsimp only
  rw [if_neg hlow, hcarried, if_neg Bool.false_ne_true]

theorem applyEvent_higher (hrun : v.session.run = some r) (hid : r.id = event.body.runId) (hcursor : v.cursor < event.id)
    (hattempt : r.attempt < event.body.attempt) (hcarries : event.body.carriesAttempt = false) :
    applyEvent v event = (Action.runStart (restarted r event.body.attempt event.at') none :: bodyActions v event.at' event.body ++
      [Action.cursorAdvance event.id]).foldl reduce v := by
  have hfilter : v.session.run.filter (fun current => decide (current.id = event.body.runId)) = some r := by
    rw [hrun, Option.filter_some, if_pos (decide_eq_true hid)]
  have hlow : ¬event.body.attempt < r.attempt := by omega
  unfold applyEvent actionsFor
  rw [if_neg (not_le.mpr hcursor)]
  dsimp only
  rw [hfilter]
  dsimp only
  rw [if_neg hlow, hcarries, if_pos (by simpa using hattempt)]

/-- A higher attempt replaces the record and clears the accumulator. -/
theorem runStart_higher {s : Session} {incoming : Run} {clientTurnId : Option Id} (hrun : s.run = some r)
    (h : r.attempt < incoming.attempt) : ∃ status pending,
    runStart s incoming clientTurnId = { s with run := some incoming, stream := none, status := status, pendingTurn := pending } := by
  have hmerge : ∀ sameTurn, mergeRun (some r) incoming sameTurn = incoming := by
    intro sameTurn
    unfold mergeRun
    dsimp only
    rw [if_pos (by simp [h])]
  have hother : sameRun (some r) (some incoming) = false := by
    unfold sameRun
    simp [h.ne]
  unfold runStart
  dsimp only
  rw [hrun, hmerge, hother, if_neg Bool.false_ne_true]
  exact ⟨_,_,rfl⟩

theorem runStatus_higher {s : Session} {status : RunStatus} {patch : RunPatch} (hrun : s.run = some r)
    (hpatch : patch.attempt = some attempt) (h : r.attempt < attempt) : ∃ run label, run.id = r.id ∧ run.attempt = attempt ∧
      run.status = status ∧ runStatus s r.id status patch = { s with run := some run, stream := none, status := label } := by
  have hnewer : decide (r.attempt < patch.attempt.getD r.attempt) = true := by
    rw [hpatch]
    exact decide_eq_true h
  have hmerge : mergeRun (some r) (patchedRun r true status patch) false = patchedRun r true status patch := by
    unfold mergeRun patchedRun
    dsimp only
    rw [hpatch, if_pos (by simp [h])]
  unfold runStatus
  rw [hrun]
  dsimp only
  rw [if_neg (not_not_intro rfl), hnewer, hmerge, if_pos rfl]
  refine ⟨patchedRun r true status patch,_,rfl,?_,rfl,rfl⟩
  unfold patchedRun
  rw [hpatch]
  rfl

end Events

section Retry

def EventBody.status : EventBody → RunStatus
  | .runStatus _ _ status _ _ _ _ => status
  | _ => .working

/-- Either the attempt is on display with nothing streamed, or its frames will start it. -/
structure Waiting (v : View) (frame : Frame) (attempt : ℕ) (ended : Bool) : Prop where
  run : ∃ r, v.session.run = some r ∧ r.id = frame.runId ∧
    (r.attempt = attempt ∧ terminalRun r.status = ended ∧ v.session.stream = none ∨ r.attempt < attempt ∧ ended = false)

/-- The first event of the attempt. -/
theorem waiting_first (hrun : v.session.run = some r) (hframe : frame.runId = r.id) (hid : first.body.runId = r.id)
    (hcarries : first.body.carriesAttempt = true) (hattempt : r.attempt < first.body.attempt) (hcursor : v.cursor < first.id) :
    Waiting (applyEvent v first) frame first.body.attempt (terminalRun first.body.status) ∧
      (applyEvent v first).session.streamFences = v.session.streamFences ∧ (applyEvent v first).cursor = first.id := by
  rw [applyEvent_own hrun hid.symm hcursor (Or.inr ⟨hattempt,hcarries⟩)]
  cases hbody : first.body with
  | runStarted runId higher clientTurnId title steps =>
    rw [hbody] at hid hattempt
    rw [bodyActions_runStarted]
    split
    · rw [List.nil_append, List.foldl_cons, List.foldl_nil, reduce_cursorAdvance hcursor]
      exact ⟨⟨r,hrun,hframe.symm,Or.inr ⟨hattempt,rfl⟩⟩,rfl,rfl⟩
    · obtain ⟨status,pending,heq⟩ := @runStart_higher r v.session (startedRun runId higher title steps first.at')
        (some clientTurnId) hrun hattempt
      have hreduce : reduce v (.runStart (startedRun runId higher title steps first.at') (some clientTurnId)) =
          { v with session := runStart v.session (startedRun runId higher title steps first.at') (some clientTurnId) } := rfl
      rw [List.singleton_append, List.foldl_cons, List.foldl_cons, List.foldl_nil, hreduce, heq,
        reduce_session_cursorAdvance _ hcursor]
      exact ⟨⟨_,rfl,hid.trans hframe.symm,Or.inl ⟨rfl,rfl,rfl⟩⟩,rfl,rfl⟩
  | runStatus runId higher status waitingFor waitingLabel activeMs error =>
    rw [hbody] at hid hattempt
    have hid' : runId = r.id := hid
    subst hid'
    have hreduce : ∀ patch, reduce v (.runStatus r.id status patch) =
        { v with session := runStatus v.session r.id status patch } := fun _ => rfl
    unfold bodyActions
    obtain ⟨run,label,hrunid,hrunattempt,hstatus,heq⟩ := @runStatus_higher r higher v.session status
      ⟨some higher,if v.session.run.map (·.attempt) = some higher then none else some first.at',
        some waitingFor,some waitingLabel,some activeMs,some error⟩ hrun rfl hattempt
    rw [List.singleton_append, List.foldl_cons, List.foldl_cons, List.foldl_nil, hreduce, heq, reduce_session_cursorAdvance _ hcursor]
    exact ⟨⟨run,rfl,hrunid.trans hframe.symm,Or.inl ⟨hrunattempt,congrArg terminalRun hstatus,rfl⟩⟩,rfl,rfl⟩
  | messageReset => rw [hbody] at hcarries; cases hcarries
  | messageDelta => rw [hbody] at hcarries; cases hcarries
  | messageFinal => rw [hbody] at hcarries; cases hcarries

/-- The attempt is on display, with this text streamed. -/
structure Following (v : View) (frame : Frame) (attempt : ℕ) (ended : Bool) (stream : Option StreamAccumulator) : Prop where
  run : ∃ r, v.session.run = some r ∧ r.id = frame.runId ∧ r.attempt = attempt ∧ terminalRun r.status = ended
  stream : v.session.stream = stream

/-- What a reset leaves where nothing was streamed. -/
def resetStream (s : Session) (frame : Frame) (ended : Bool) : Option StreamAccumulator :=
  if fenced s frame.runId frame.turn || ended then none else some (opened frame [] [] (some (-1)))

theorem otherOrEnded_eq {s : Session} {runId : Id} {ended : Bool} (hrun : s.run = some r) (hid : r.id = runId)
    (hended : terminalRun r.status = ended) : otherOrEnded s runId = ended := by
  unfold otherOrEnded
  rw [hrun, Option.any_some, hid, hended]
  simp

theorem streamReset_none {s : Session} {ended : Bool} (hrun : s.run = some r) (hid : r.id = frame.runId)
    (hended : terminalRun r.status = ended) (hstream : s.stream = none) :
    streamReset s frame = { s with stream := resetStream s frame ended } := by
  unfold streamReset resetStream
  rw [otherOrEnded_eq hrun hid hended]
  split
  · rw [← hstream]
  · rw [hstream, Option.any_none, if_neg Bool.false_ne_true]

theorem following_reset {ended : Bool} (h : Waiting v frame attempt ended) (hcursor : v.cursor < event.id)
    (hbody : event.body = .messageReset frame attempt) :
    Following (applyEvent v event) frame attempt ended (resetStream v.session frame ended) ∧
      (applyEvent v event).session.streamFences = v.session.streamFences ∧ (applyEvent v event).cursor = event.id := by
  obtain ⟨r,hrun,hid,⟨hattempt,hended,hstream⟩ | ⟨hattempt,rfl⟩⟩ := h.run
  · have hactions : applyEvent v event = [Action.streamReset frame,Action.cursorAdvance event.id].foldl reduce v := by
      rw [applyEvent_own hrun (by rw [hbody]; exact hid) hcursor (Or.inl (by rw [hbody]; exact hattempt)), hbody]
      rfl
    have hreduce : reduce v (.streamReset frame) = { v with session := streamReset v.session frame } := rfl
    rw [hactions, List.foldl_cons, List.foldl_cons, List.foldl_nil, hreduce, streamReset_none hrun hid hended hstream,
      reduce_session_cursorAdvance _ hcursor]
    exact ⟨⟨⟨r,hrun,hid,hattempt,hended⟩,rfl⟩,rfl,rfl⟩
  · have hactions : applyEvent v event = [Action.runStart (restarted r attempt event.at') none,Action.streamReset frame,
        Action.cursorAdvance event.id].foldl reduce v := by
      rw [applyEvent_higher hrun (by rw [hbody]; exact hid) hcursor (by rw [hbody]; exact hattempt) (by rw [hbody]; rfl), hbody]
      rfl
    obtain ⟨status,pending,heq⟩ := @runStart_higher r v.session (restarted r attempt event.at') none hrun hattempt
    have hstart : reduce v (.runStart (restarted r attempt event.at') none) =
        { v with session := runStart v.session (restarted r attempt event.at') none } := rfl
    rw [hactions, List.foldl_cons, List.foldl_cons, List.foldl_cons, List.foldl_nil, hstart, heq]
    have hreduce : ∀ v : View, reduce v (.streamReset frame) = { v with session := streamReset v.session frame } := fun _ => rfl
    rw [hreduce, @streamReset_none (restarted r attempt event.at') frame _ false rfl hid rfl rfl]
    dsimp only
    rw [reduce_session_cursorAdvance _ hcursor]
    exact ⟨⟨⟨_,rfl,hid,rfl,rfl⟩,rfl⟩,rfl,rfl⟩

/-- The accumulator after the deltas so far. -/
def builtUp (frame : Frame) (words : Text) (seq : ℕ) : StreamAccumulator := opened frame words words (some ((seq : ℤ) - 1))

theorem streamDelta_none {s : Session} {ended : Bool} (hrun : s.run = some r) (hid : r.id = frame.runId)
    (hended : terminalRun r.status = ended) (h : (fenced s frame.runId frame.turn || ended) = true) :
    streamDelta s frame delta (some seq) = s := by
  unfold streamDelta
  rw [otherOrEnded_eq hrun hid hended, h, Bool.true_or, if_pos rfl]

theorem streamDelta_builtUp {s : Session} {words : Text} (hrun : s.run = some r) (hid : r.id = frame.runId)
    (hended : terminalRun r.status = false) (hfence : fenced s frame.runId frame.turn = false)
    (hstream : s.stream = some (builtUp frame words seq)) :
    streamDelta s frame delta (some seq) = { s with stream := some (builtUp frame (words ++ delta) (seq + 1)) } := by
  have hlater : laterTurn s frame = false := by
    unfold laterTurn
    rw [hstream]
    simp [builtUp, opened]
  have hopens : opens s frame = false := by
    unfold opens
    rw [hstream]
    simp [builtUp, opened]
  have hseq : ((some seq).any fun x => decide ((x : ℤ) ≠ (builtUp frame words seq).seq.getD (-1) + 1)) = false := by
    simp [builtUp, opened]
  have hstep : (decide (frame.stepAttempt < (builtUp frame words seq).stepAttempt) ||
      decide ((builtUp frame words seq).status ≠ .streaming)) = false := by
    simp [builtUp, opened]
  have happend : appendDelta (builtUp frame words seq) delta (some seq) = builtUp frame (words ++ delta) (seq + 1) := by
    have htext : (if (words ++ delta).isPrefixOf words then words else words ++ delta) = words ++ delta := by
      split
      next h =>
        have hlength := (List.isPrefixOf_iff_prefix.mp h).length_le
        rw [List.length_append] at hlength
        have hnil : delta = [] := List.eq_nil_of_length_eq_zero (by omega)
        rw [hnil, List.append_nil]
      next => rfl
    unfold appendDelta builtUp opened
    dsimp only
    rw [htext]
    simp
  unfold streamDelta
  rw [otherOrEnded_eq hrun hid hended, hfence, hlater, hopens, Bool.false_or, Bool.false_or, if_neg Bool.false_ne_true,
    if_neg Bool.false_ne_true, hstream]
  dsimp only
  rw [hstep, hseq, if_neg Bool.false_ne_true, if_neg Bool.false_ne_true, happend]

def deltaBodies (frame : Frame) (attempt : ℕ) : ℕ → List Text → List EventBody
  | _, [] => []
  | seq, delta :: deltas => .messageDelta frame attempt seq delta :: deltaBodies frame attempt (seq + 1) deltas

/-- What one delta of the attempt leaves: more text, or nothing where frames are turned away. -/
theorem following_delta {ended away : Bool} {words : Text} (haway : (fenced v.session frame.runId frame.turn || ended) = away)
    (h : Following v frame attempt ended (if away then none else some (builtUp frame words seq)))
    (hcursor : v.cursor < event.id) (hbody : event.body = .messageDelta frame attempt seq delta) :
    Following (applyEvent v event) frame attempt ended
        (if away then none else some (builtUp frame (words ++ delta) (seq + 1))) ∧
      (applyEvent v event).session.streamFences = v.session.streamFences ∧ (applyEvent v event).cursor = event.id := by
  obtain ⟨r,hrun,hid,hattempt,hended⟩ := h.run
  have hactions : applyEvent v event = [Action.streamDelta frame delta (some seq),Action.cursorAdvance event.id].foldl reduce v := by
    rw [applyEvent_own hrun (by rw [hbody]; exact hid) hcursor (Or.inl (by rw [hbody]; exact hattempt)), hbody]
    rfl
  have hreduce : reduce v (.streamDelta frame delta (some seq)) =
      { v with session := streamDelta v.session frame delta (some seq) } := rfl
  rw [hactions, List.foldl_cons, List.foldl_cons, List.foldl_nil, hreduce, reduce_session_cursorAdvance _ hcursor]
  cases away with
  | true =>
    rw [streamDelta_none hrun hid hended haway]
    exact ⟨⟨⟨r,hrun,hid,hattempt,hended⟩,h.stream⟩,rfl,rfl⟩
  | false =>
    obtain ⟨hfence,rfl⟩ := Bool.or_eq_false_iff.mp haway
    rw [streamDelta_builtUp hrun hid hended hfence h.stream]
    exact ⟨⟨⟨r,hrun,hid,hattempt,hended⟩,rfl⟩,rfl,rfl⟩

theorem following_deltas {ended away : Bool} {words : Text} {events : List Event} {deltas : List Text}
    (haway : (fenced v.session frame.runId frame.turn || ended) = away)
    (h : Following v frame attempt ended (if away then none else some (builtUp frame words seq)))
    (hbodies : events.map (·.body) = deltaBodies frame attempt seq deltas)
    (hids : (v.cursor :: events.map (·.id)).Pairwise (· < ·)) :
    Following (events.foldl applyEvent v) frame attempt ended
      (if away then none else some (builtUp frame (words ++ deltas.flatten) (seq + deltas.length))) := by
  induction deltas generalizing v events words seq with
  | nil =>
    cases events with
    | nil => simpa using h
    | cons event events => cases hbodies
  | cons delta deltas ih =>
    cases events with
    | nil => cases hbodies
    | cons event events =>
      obtain ⟨hbody,hrest⟩ := List.cons.inj hbodies
      obtain ⟨hlow,hpairs⟩ := List.pairwise_cons.mp hids
      obtain ⟨hnext,hfences,hcursor⟩ := following_delta haway h (hlow _ List.mem_cons_self) hbody
      have haway' : (fenced (applyEvent v event).session frame.runId frame.turn || ended) = away := by
        rw [← haway]
        unfold fenced
        rw [hfences]
      have hlater := ih haway' hnext hrest (by rw [hcursor]; exact hpairs)
      rw [List.foldl_cons, List.flatten_cons, ← List.append_assoc, List.length_cons, Nat.add_comm deltas.length 1, ← Nat.add_assoc]
      exact hlater

/-- The accumulator holds the text of these deltas, and streams. -/
def Shows (v : View) (frame : Frame) (deltas : List Text) : Prop :=
  ∃ current, v.session.stream = some current ∧ current.runId = frame.runId ∧ current.turn = frame.turn ∧
    current.stepAttempt = frame.stepAttempt ∧ current.text = deltas.flatten ∧ current.durableText = deltas.flatten ∧
      current.status = .streaming

/-- The events of a higher attempt leave its text, or nothing. -/
theorem stream_retried {reset : Event} {deltaEvents : List Event} {deltas : List Text} (hrun : v.session.run = some r)
    (hframe : frame.runId = r.id) (hid : first.body.runId = r.id) (hcarries : first.body.carriesAttempt = true)
    (hattempt : r.attempt < first.body.attempt) (hreset : reset.body = .messageReset frame first.body.attempt)
    (hdeltas : deltaEvents.map (·.body) = deltaBodies frame first.body.attempt 0 deltas)
    (hids : (v.cursor :: (first :: reset :: deltaEvents).map (·.id)).Pairwise (· < ·)) :
    ((first :: reset :: deltaEvents).foldl applyEvent v).session.stream =
      if fenced v.session frame.runId frame.turn || terminalRun first.body.status then none
      else some (builtUp frame deltas.flatten deltas.length) := by
  obtain ⟨hlow,hpairs⟩ := List.pairwise_cons.mp hids
  obtain ⟨hlow',hpairs'⟩ := List.pairwise_cons.mp hpairs
  obtain ⟨hwaiting,hfences,hcursor⟩ := waiting_first hrun hframe hid hcarries hattempt (hlow _ List.mem_cons_self)
  obtain ⟨hfollowing,hfences',hcursor'⟩ := following_reset hwaiting (by rw [hcursor]; exact hlow' _ List.mem_cons_self) hreset
  have hfenced : ∀ s : Session, s.streamFences = v.session.streamFences →
      fenced s frame.runId frame.turn = fenced v.session frame.runId frame.turn := by
    intro s hs
    unfold fenced
    rw [hs]
  have hopened : opened frame [] [] (some (-1)) = builtUp frame [] 0 := rfl
  unfold resetStream at hfollowing
  rw [hfenced _ hfences, hopened] at hfollowing
  have hall := following_deltas (by rw [hfenced _ (hfences'.trans hfences)]) hfollowing hdeltas
    (by rw [hcursor']; exact hpairs')
  rw [List.foldl_cons, List.foldl_cons, hall.stream, List.nil_append, Nat.zero_add]

def displays (s : Session) (runId : Id) (attempt : ℕ) : Bool :=
  s.run.any fun run => decide (run.id = runId) && decide (run.attempt = attempt)

theorem displays_iff {s : Session} {runId : Id} :
    displays s runId attempt = true ↔ ∃ r, s.run = some r ∧ r.id = runId ∧ r.attempt = attempt := by
  unfold displays
  simp only [Option.any_eq_true, Bool.and_eq_true, decide_eq_true_eq]

/-- The events of an attempt that is on display keep it there. -/
theorem displays_applyEvent (h : displays v.session event.body.runId event.body.attempt = true) :
    displays (applyEvent v event).session event.body.runId event.body.attempt = true := by
  by_cases hcursor : event.id ≤ v.cursor
  · have hnone : applyEvent v event = v := by
      unfold applyEvent actionsFor
      rw [if_pos hcursor]
      rfl
    rw [hnone]
    exact h
  · obtain ⟨r,hrun,hid,hattempt⟩ := displays_iff.mp h
    have hcursor' : v.cursor < event.id := not_le.mp hcursor
    have hkept : ∀ session : Session, session.run = v.session.run → displays session event.body.runId event.body.attempt = true := by
      intro session hsame
      unfold displays
      rw [hsame]
      exact h
    have hadvance : ∀ action : Action, (∀ v : View, reduce v action = { v with session := reduceSession v.session action }) →
        [action,Action.cursorAdvance event.id].foldl reduce v =
          { v with session := reduceSession v.session action, cursor := event.id } := by
      intro action haction
      rw [List.foldl_cons, List.foldl_cons, List.foldl_nil, haction, reduce_session_cursorAdvance _ hcursor']
    rw [applyEvent_own hrun hid hcursor' (Or.inl hattempt)]
    cases hbody : event.body with
    | runStarted runId attempt clientTurnId title steps =>
      rw [hbody] at hid hattempt hkept
      rw [bodyActions_runStarted]
      split
      · rw [List.nil_append, List.foldl_cons, List.foldl_nil, reduce_cursorAdvance hcursor']
        exact hkept _ rfl
      · rw [List.singleton_append, hadvance _ fun _ => rfl]
        have hmerged := @mergeRun_attempt r (startedRun runId attempt title steps event.at')
          ((some clientTurnId).any fun id => !id.isEmpty && pendingIs v.session id) hid hattempt
        refine displays_iff.mpr ⟨_,?_,hmerged.1.trans hid,hmerged.2.trans hattempt⟩
        unfold reduceSession runStart
        dsimp only
        rw [hrun]
    | runStatus runId attempt status waitingFor waitingLabel activeMs error =>
      rw [hbody] at hid hattempt
      have hid' : r.id = runId := hid
      have hattempt' : r.attempt = attempt := hattempt
      subst hid' hattempt'
      unfold bodyActions
      rw [List.singleton_append, hadvance _ fun _ => rfl]
      unfold reduceSession runStatus
      rw [hrun]
      dsimp only
      rw [if_neg (not_not_intro rfl)]
      have hmerged := fun newer patch => @mergeRun_attempt r (patchedRun r newer status patch) false rfl
      refine displays_iff.mpr ⟨_,rfl,(hmerged _ _ rfl).1,(hmerged _ _ rfl).2⟩
    | messageReset frame attempt =>
      rw [hbody] at hkept
      obtain ⟨stream,heq⟩ := streamReset_eq v.session frame
      unfold bodyActions
      rw [List.singleton_append, hadvance _ fun _ => rfl]
      have hsame := congrArg Session.run heq
      exact hkept _ hsame
    | messageDelta frame attempt seq delta =>
      rw [hbody] at hkept
      obtain ⟨stream,heq⟩ := streamDelta_eq v.session frame delta (some seq)
      unfold bodyActions
      rw [List.singleton_append, hadvance _ fun _ => rfl]
      have hsame := congrArg Session.run heq
      exact hkept _ hsame
    | messageFinal messageId runId attempt turn words incomplete =>
      rw [hbody] at hkept
      obtain ⟨stream,fences,messages,heq⟩ := streamFinal_eq v.session (finalMessage messageId runId words incomplete) (some turn)
      unfold bodyActions
      rw [List.singleton_append, hadvance _ fun _ => rfl]
      have hsame := congrArg Session.run heq
      exact hkept _ hsame

theorem displays_foldl {runId : Id} {events : List Event} (h : displays v.session runId attempt = true)
    (hevents : ∀ event ∈ events, event.body.runId = runId ∧ event.body.attempt = attempt) :
    displays (events.foldl applyEvent v).session runId attempt = true := by
  induction events generalizing v with
  | nil => exact h
  | cons event events ih =>
    obtain ⟨hid,hattempt⟩ := hevents event List.mem_cons_self
    subst hid hattempt
    exact ih (displays_applyEvent h) fun e he => hevents e (List.mem_cons_of_mem _ he)

theorem retried_shows_iff (v : View) (r : Run) (frame : Frame) (first reset : Event) (deltaEvents : List Event)
    (deltas : List Text) (hrun : v.session.run = some r) (hframe : frame.runId = r.id) (hid : first.body.runId = r.id)
    (hcarries : first.body.carriesAttempt = true) (hattempt : r.attempt < first.body.attempt)
    (hreset : reset.body = .messageReset frame first.body.attempt)
    (hdeltas : deltaEvents.map (·.body) = deltaBodies frame first.body.attempt 0 deltas)
    (hids : (v.cursor :: (first :: reset :: deltaEvents).map (·.id)).Pairwise (· < ·)) :
    Shows ((first :: reset :: deltaEvents).foldl applyEvent v) frame deltas ↔
      fenced v.session frame.runId frame.turn = false ∧ terminalRun first.body.status = false := by
  have hstream := stream_retried hrun hframe hid hcarries hattempt hreset hdeltas hids
  unfold Shows
  rw [hstream, ← Bool.or_eq_false_iff]
  cases fenced v.session frame.runId frame.turn || terminalRun first.body.status with
  | true => simp
  | false =>
    refine iff_of_true ⟨_,rfl,rfl,rfl,rfl,rfl,rfl,rfl⟩ rfl

def answered : View := [⟨1,0,.runStarted (text "r") 1 (text "t") none []⟩,⟨2,0,.messageReset ⟨text "r",0,1⟩ 1⟩,
  ⟨3,0,.messageDelta ⟨text "r",0,1⟩ 1 0 (text "Draft")⟩,⟨4,0,.messageFinal (text "m") (text "r") 1 0 (text "Draft") true⟩,
  ⟨5,0,.runStatus (text "r") 1 .error none none none none⟩].foldl applyEvent freshView

/-- The retry of a run that answered turn 0 writes turn 1. -/
theorem retried_shows_iff_next_turn : Shows ([⟨6,0,.runStatus (text "r") 2 .working none none none none⟩,
    ⟨7,0,.messageReset ⟨text "r",1,1⟩ 2⟩,⟨8,0,.messageDelta ⟨text "r",1,1⟩ 2 0 (text "New")⟩].foldl applyEvent answered)
    ⟨text "r",1,1⟩ [text "New"] :=
  (retried_shows_iff answered ((answered.session.run).getD (workingRun [] 0 0)) _ _ _ _ _ (by decide) (by decide) (by decide)
    (by decide) (by decide) (by decide) (by decide) (by decide)).mpr (by decide)

/-- The retry writes turn 0 again, as the attempt before it did. -/
theorem final_suppresses_retry : ¬∀ (v : View) (r : Run) (frame : Frame) (first reset : Event) (deltaEvents : List Event)
    (deltas : List Text), v.session.run = some r → frame.runId = r.id → first.body.runId = r.id →
    first.body.carriesAttempt = true → r.attempt < first.body.attempt → reset.body = .messageReset frame first.body.attempt →
    deltaEvents.map (·.body) = deltaBodies frame first.body.attempt 0 deltas →
    (v.cursor :: (first :: reset :: deltaEvents).map (·.id)).Pairwise (· < ·) → terminalRun first.body.status = false →
    Shows ((first :: reset :: deltaEvents).foldl applyEvent v) frame deltas := by
  intro h
  obtain ⟨current,hcurrent,-⟩ := h answered ((answered.session.run).getD (workingRun [] 0 0)) ⟨text "r",0,1⟩
    ⟨6,0,.runStatus (text "r") 2 .working none none none none⟩ ⟨7,0,.messageReset ⟨text "r",0,1⟩ 2⟩
    [⟨8,0,.messageDelta ⟨text "r",0,1⟩ 2 0 (text "New")⟩] [text "New"] (by decide) (by decide) (by decide) (by decide)
    (by decide) (by decide) (by decide) (by decide) (by decide)
  exact absurd (Option.isSome_iff_exists.mpr ⟨current,hcurrent⟩) (by decide)

end Retry
end HermesEnterprise.Client
