import HermesEnterprise.Client.Reducer
import HermesEnterprise.Client.Forward

/-! # The text on screen

Each attempt of a run commits the text of a step as a list of deltas. What streams is a prefix of that text which the
committed deltas begin, and its place only moves on, unless a frame of another attempt is let in or a frame comes late
for a place that is gone from the screen.
-/
namespace HermesEnterprise.Client
open HermesEnterprise.Inbound HermesEnterprise.Foundation.Runs
variable {s : Session} {v : View} {deltas : List Text} {frame : Frame} {current : StreamAccumulator}

section Text

/-- The accumulator's texts, against the deltas that its step commits. -/
structure Good (deltas : List Text) (current : StreamAccumulator) : Prop where
  low : -1 ≤ current.seq.getD (-1)
  high : current.seq.getD (-1) < deltas.length
  durable : current.durableText = (deltas.take (current.seq.getD (-1) + 1).toNat).flatten
  begins : current.durableText <+: current.text
  text : current.text <+: deltas.flatten

theorem take_flatten_prefix (n : ℕ) : (deltas.take n).flatten <+: deltas.flatten :=
  ⟨(deltas.drop n).flatten,by rw [← List.flatten_append, List.take_append_drop]⟩

theorem good_reset : Good deltas (opened frame [] [] (some (-1))) where
  low := le_rfl
  high := by
    change (-1 : ℤ) < deltas.length
    omega
  durable := rfl
  begins := List.nil_prefix
  text := List.nil_prefix

theorem good_firstDelta {delta : Text} (h : deltas[0]? = some delta) : Good deltas (opened frame delta delta (some 0)) := by
  cases deltas with
  | nil => cases h
  | cons first rest =>
    cases h
    refine ⟨?_,?_,?_,List.prefix_rfl,List.prefix_append _ _⟩
    · change (-1 : ℤ) ≤ 0
      decide
    · change (0 : ℤ) < (delta :: rest).length
      rw [List.length_cons]
      omega
    · exact (List.append_nil delta).symm

theorem good_firstPreview {delta : Text} (h : delta <+: deltas.flatten) : Good deltas (opened frame delta [] (some (-1))) where
  low := le_rfl
  high := by
    change (-1 : ℤ) < deltas.length
    omega
  durable := rfl
  begins := List.nil_prefix
  text := h

/-- The next delta keeps a longer preview, or replaces it. -/
theorem Good.appendDelta {delta : Text} {n : ℕ} (h : Good deltas current) (hdelta : deltas[n]? = some delta)
    (hseq : (n : ℤ) = current.seq.getD (-1) + 1) : Good deltas (appendDelta current delta (some n)) := by
  have hn : n < deltas.length := (List.getElem?_eq_some_iff.mp hdelta).1
  have hdurable : current.durableText ++ delta = (deltas.take (n + 1)).flatten := by
    rw [h.durable, ← hseq, Int.toNat_natCast, List.take_add_one, hdelta, Option.toList_some, List.flatten_append,
      List.flatten_singleton]
  refine ⟨?_,?_,?_,?_,?_⟩
  · change -1 ≤ (n : ℤ)
    omega
  · change (n : ℤ) < deltas.length
    omega
  · exact hdurable
  · unfold Client.appendDelta
    dsimp only
    split
    next hbegin => exact List.isPrefixOf_iff_prefix.mp hbegin
    next => exact List.prefix_rfl
  · unfold Client.appendDelta
    dsimp only
    split
    · exact h.text
    · rw [hdurable]
      exact take_flatten_prefix _

/-- What a preview adds behind the text is what comes there. -/
theorem Good.appendPreview {delta : Text} {offset : ℕ} (h : Good deltas current)
    (hdelta : delta <+: deltas.flatten.drop offset) (hoffset : offset ≤ current.text.length)
    (hover : overlap current offset delta ≠ delta.length) :
    Good deltas { current with text := current.text ++ delta.drop (overlap current offset delta) } := by
  obtain ⟨rest,hrest⟩ := hdelta
  obtain ⟨tail,htail⟩ := h.text
  have hlength : overlap current offset delta = current.text.length - offset := by
    unfold overlap at hover ⊢
    omega
  have hshort : current.text.length - offset < delta.length := by
    unfold overlap at hover
    omega
  refine ⟨h.low,h.high,h.durable,h.begins.trans (List.prefix_append _ _),?_⟩
  rw [hlength]
  have hdrop : tail = delta.drop (current.text.length - offset) ++ rest := by
    have hall : deltas.flatten.drop current.text.length = (delta ++ rest).drop (current.text.length - offset) := by
      rw [hrest, List.drop_drop, Nat.add_sub_cancel' hoffset]
    rw [← htail, List.drop_left, List.drop_append_of_le_length hshort.le] at hall
    exact hall
  refine ⟨rest,?_⟩
  rw [List.append_assoc, ← hdrop, htail]

end Text

section Frames

/-- A frame that neither a fence nor the run on display turns away. -/
def heard (s : Session) (frame : Frame) : Bool := !(fenced s frame.runId frame.turn || otherOrEnded s frame.runId)

/-- The place `(turn, stepAttempt)` is below the other. -/
def Below (a b : ℕ × ℕ) : Prop := a.1 < b.1 ∨ a.1 = b.1 ∧ a.2 < b.2

def AtMost (a b : ℕ × ℕ) : Prop := a.1 < b.1 ∨ a.1 = b.1 ∧ a.2 ≤ b.2

instance : DecidableRel Below := fun a b => by
  unfold Below
  infer_instance

instance : DecidableRel AtMost := fun a b => by
  unfold AtMost
  infer_instance

theorem atMost_refl (a : ℕ × ℕ) : AtMost a a := Or.inr ⟨rfl,le_rfl⟩

theorem AtMost.trans_below {a b c : ℕ × ℕ} (h : AtMost a b) (h' : Below b c) : AtMost a c := by
  unfold AtMost Below at *
  omega

theorem AtMost.trans {a b c : ℕ × ℕ} (h : AtMost a b) (h' : AtMost b c) : AtMost a c := by
  unfold AtMost at *
  omega

theorem not_below_iff {a b : ℕ × ℕ} : ¬Below a b ↔ AtMost b a := by
  unfold AtMost Below
  omega

def place (current : StreamAccumulator) : ℕ × ℕ := (current.turn,current.stepAttempt)

def Frame.place (frame : Frame) : ℕ × ℕ := (frame.turn,frame.stepAttempt)

/-- What a frame does to the accumulator. -/
inductive Framed (deltas : List Text) (s : Session) (frame : Frame) (starts : Bool) (stream : Option StreamAccumulator) : Prop
  | kept (h : stream = s.stream)
  | opened (next : StreamAccumulator) (h : stream = some next) (hheard : heard s frame = true) (hstarts : starts = true)
      (hrun : next.runId = frame.runId) (hplace : Client.place next = frame.place) (hgood : Good deltas next)
      (habove : ∀ current ∈ s.stream, current.runId = frame.runId → Below (Client.place current) frame.place)
  | continued (current next : StreamAccumulator) (hcurrent : s.stream = some current) (h : stream = some next)
      (hheard : heard s frame = true) (hrun : current.runId = frame.runId) (hplace : Client.place current = frame.place)
      (hrun' : next.runId = frame.runId) (hplace' : Client.place next = frame.place) (hstreaming : current.status = .streaming)
      (hgood : Good deltas current → Good deltas next)

theorem below_of_opens (hopens : opens s frame = true) (hlater : laterTurn s frame = false) :
    ∀ current ∈ s.stream, current.runId = frame.runId → Below (place current) frame.place := by
  intro current hcurrent hrun
  unfold opens at hopens
  unfold laterTurn at hlater
  rw [hcurrent] at hopens hlater
  simp only [Option.all_some, Option.any_some, Bool.or_eq_true, Bool.and_eq_false_iff, decide_eq_true_eq,
    decide_eq_false_iff_not, hrun, ne_eq, not_true_eq_false, false_or] at hopens hlater
  unfold Below place Frame.place
  dsimp only
  omega

/-- A frame of the step that streams. -/
theorem place_of_not_opens (hopens : ¬opens s frame = true) (hcurrent : s.stream = some current)
    (hstep : ¬frame.stepAttempt < current.stepAttempt) : current.runId = frame.runId ∧ place current = frame.place := by
  unfold opens at hopens
  rw [hcurrent] at hopens
  simp only [Option.all_some, Bool.or_eq_true, decide_eq_true_eq, not_or, not_not] at hopens
  obtain ⟨⟨hrun,hturn⟩,hstep'⟩ := hopens
  refine ⟨hrun,?_⟩
  unfold place Frame.place
  rw [hturn, show current.stepAttempt = frame.stepAttempt by omega]

theorem framed_streamReset : Framed deltas s frame true (streamReset s frame).stream := by
  unfold streamReset
  split
  next => exact .kept rfl
  next hheard =>
    split
    next => exact .kept rfl
    next habove =>
      refine .opened _ rfl (by unfold heard; simpa using hheard) rfl rfl rfl good_reset fun current hcurrent hrun => ?_
      rw [hcurrent] at habove
      simp only [Option.any_some, Bool.and_eq_true, Bool.or_eq_true, decide_eq_true_eq, hrun, true_and, not_or, not_and,
        not_lt, not_le] at habove
      unfold Below place Frame.place
      dsimp only
      omega

theorem framed_streamDelta {delta : Text} {n : ℕ} (hdelta : deltas[n]? = some delta) :
    Framed deltas s frame (decide (n = 0)) (streamDelta s frame delta (some n)).stream := by
  unfold streamDelta
  split
  next => exact .kept rfl
  next hturned =>
    rw [Bool.or_eq_true, not_or] at hturned
    obtain ⟨hheard,hlater⟩ := hturned
    have hheard' : heard s frame = true := by
      unfold heard
      simpa using hheard
    split
    next hopens =>
      split
      next => exact .kept rfl
      next hzero =>
        have hn : n = 0 := by simpa using hzero
        subst hn
        exact .opened _ rfl hheard' rfl rfl rfl (good_firstDelta hdelta) (below_of_opens hopens (by simpa using hlater))
    next hopens =>
      split
      next => exact .kept rfl
      next current hcurrent =>
        split
        next => exact .kept rfl
        next hstep =>
          split
          next => exact .kept rfl
          next hseq =>
            rw [Bool.or_eq_true, not_or, decide_eq_true_eq, decide_eq_true_eq, not_not] at hstep
            have hplace := place_of_not_opens hopens hcurrent hstep.1
            have hnext : (n : ℤ) = current.seq.getD (-1) + 1 := by simpa using hseq
            exact .continued current _ hcurrent rfl hheard' hplace.1 hplace.2 hplace.1 hplace.2 hstep.2
              fun h => h.appendDelta hdelta hnext

theorem framed_streamPreview {delta : Text} {offset : ℕ} (hdelta : delta <+: deltas.flatten.drop offset) :
    Framed deltas s frame (decide (offset = 0) && !savedFinal s frame) (streamPreview s frame offset delta).stream := by
  unfold streamPreview
  split
  next => exact .kept rfl
  next hturned =>
    simp only [Bool.or_eq_true, not_or] at hturned
    obtain ⟨⟨hheard,hsaved⟩,hlater⟩ := hturned
    have hheard' : heard s frame = true := by
      unfold heard
      simpa using hheard
    split
    next hopens =>
      split
      next => exact .kept rfl
      next hzero =>
        have hoffset : offset = 0 := by simpa using hzero
        subst hoffset
        rw [List.drop_zero] at hdelta
        exact .opened _ rfl hheard' (by simpa using hsaved) rfl rfl (good_firstPreview hdelta)
          (below_of_opens hopens (by simpa using hlater))
    next hopens =>
      split
      next => exact .kept rfl
      next current hcurrent =>
        split
        next => exact .kept rfl
        next hstep =>
          dsimp only
          split
          next => exact .kept rfl
          next hover =>
            simp only [Bool.or_eq_true, not_or, decide_eq_true_eq, not_not, not_lt] at hstep hover
            obtain ⟨⟨hstep,hoffset⟩,hstreaming⟩ := hstep
            have hplace := place_of_not_opens hopens hcurrent hstep.not_gt
            exact .continued current _ hcurrent rfl hheard' hplace.1 hplace.2 hplace.1 hplace.2 hstreaming
              fun h => h.appendPreview hdelta hoffset hover.2

end Frames

section Screen

/-- An action with the attempt of the run that sent it. -/
structure Delivery where
  attempt : ℕ
  action : Action
  deriving DecidableEq, Repr

structure Position where
  runId : Id
  attempt : ℕ
  turn : ℕ
  stepAttempt : ℕ
  deriving DecidableEq, Repr

/-- A view, the attempt whose text it streams, and the places that were on screen, newest first. -/
structure Screen where
  view : View
  source : ℕ
  shown : List Position
  deriving DecidableEq, Repr

def frameOf : Action → Option Frame
  | .streamReset frame => some frame
  | .streamDelta frame _ _ => some frame
  | .streamPreview frame _ _ => some frame
  | _ => none

/-- The attempt on display. Without a run it is the attempt of the frame that last changed the text. -/
def sourceAfter (screen : Screen) (delivery : Delivery) (view : View) : ℕ :=
  match view.session.run with
  | some run => run.attempt
  | none =>
    if (frameOf delivery.action).isSome && decide (view.session.stream ≠ screen.view.session.stream) then delivery.attempt
    else screen.source

def positionOf (source : ℕ) (current : StreamAccumulator) : Position := ⟨current.runId,source,current.turn,current.stepAttempt⟩

def deliver (screen : Screen) (delivery : Delivery) : Screen :=
  let view := reduce screen.view delivery.action
  let source := sourceAfter screen delivery view
  ⟨view,source,(view.session.stream.map (positionOf source)).toList ++ screen.shown⟩

/-- The deltas that a step of an attempt commits. -/
abbrev Committed := Id → ℕ → ℕ → ℕ → List Text

/-- Deltas, previews and snapshots of the committed texts. A turn of one's own is no transport. -/
def genuine (committed : Committed) (delivery : Delivery) : Bool :=
  match delivery.action with
  | .streamDelta frame delta seq =>
    seq.any fun n => decide ((committed frame.runId delivery.attempt frame.turn frame.stepAttempt)[n]? = some delta)
  | .streamPreview frame offset delta =>
    delta.isPrefixOf ((committed frame.runId delivery.attempt frame.turn frame.stepAttempt).flatten.drop offset)
  | .sessionSnapshot snapshot => snapshot.stream.all fun incoming =>
      (snapshot.run.any fun run => decide (run.id = incoming.runId) && decide (run.attempt = incoming.attempt)) &&
        (decide (incoming.status = .final) ||
          let deltas := committed incoming.runId incoming.attempt incoming.turn incoming.stepAttempt
          decide (-1 ≤ incoming.seq) && decide (incoming.seq < (deltas.length : ℤ)) &&
            decide (incoming.text = (deltas.take (incoming.seq + 1).toNat).flatten))
  | .turnOptimistic _ _ _ => false
  | .turnAccepted _ _ _ _ => false
  | .turnRejected _ => false
  | .cursorAdvance _ => false
  | _ => true

def beyond (screen : Screen) (runId : Id) (attempt : ℕ) (place : ℕ × ℕ) : Bool :=
  screen.shown.any fun p => decide (p.runId = runId) && decide (p.attempt = attempt) && decide (Below place (p.turn,p.stepAttempt))

/-- A frame is let in that another attempt sent than the one on screen. -/
def strayed (screen : Screen) (frame : Frame) (attempt : ℕ) : Bool :=
  heard screen.view.session frame && match screen.view.session.run with
    | some run => decide (run.attempt ≠ attempt)
    | none => (screen.view.session.stream.any fun current => decide (current.runId = frame.runId)) && decide (screen.source ≠ attempt)

/-- Nothing of the run is on screen, and a frame opens a place below one that was. -/
def late (screen : Screen) (frame : Frame) (attempt : ℕ) (starts : Bool) : Bool :=
  heard screen.view.session frame && starts &&
    !(screen.view.session.stream.any fun current => decide (current.runId = frame.runId)) &&
      beyond screen frame.runId attempt frame.place

/-- The accumulator that a snapshot is merged into. -/
def knownStream (s : Session) (snapshot : SessionSnapshot) : Option StreamAccumulator :=
  if sameRun s.run (mergedRun s snapshot) then s.stream else none

/-- A snapshot that streams what a final has completed, or opens a place below one that was on screen. -/
def staleSnapshot (screen : Screen) (snapshot : SessionSnapshot) : Bool :=
  let known := knownStream screen.view.session snapshot
  !outdated screen.view snapshot && !pendingNewer screen.view.session snapshot && snapshot.stream.any fun incoming =>
    decide (incoming.status = .streaming) &&
      ((sameStream known incoming).any (fun current => decide (current.status ≠ .streaming)) ||
        (!(known.any fun current => decide (current.runId = incoming.runId)) &&
          beyond screen incoming.runId incoming.attempt (incoming.turn,incoming.stepAttempt)))

/-- No frame of another attempt is let in, and nothing reopens a place that was passed. -/
def steady (screen : Screen) (delivery : Delivery) : Bool :=
  match delivery.action with
  | .streamReset frame => !strayed screen frame delivery.attempt && !late screen frame delivery.attempt true
  | .streamDelta frame _ seq =>
    !strayed screen frame delivery.attempt && !late screen frame delivery.attempt (seq.all fun n => decide (n = 0))
  | .streamPreview frame offset _ => !strayed screen frame delivery.attempt &&
      !late screen frame delivery.attempt (decide (offset = 0) && !savedFinal screen.view.session frame)
  | .sessionSnapshot snapshot => !staleSnapshot screen snapshot
  | _ => true

/-- Of one attempt, the places on screen only move on. -/
def NotBefore (earlier later : Position) : Prop :=
  earlier.runId = later.runId → earlier.attempt = later.attempt →
    AtMost (earlier.turn,earlier.stepAttempt) (later.turn,later.stepAttempt)

instance : DecidableRel NotBefore := fun earlier later => by
  unfold NotBefore
  infer_instance

/-- What streams is the committed text so far, and its place never went back. -/
structure OnScreen (committed : Committed) (screen : Screen) : Prop where
  good : ∀ current ∈ screen.view.session.stream, current.status = .streaming →
    Good (committed current.runId screen.source current.turn current.stepAttempt) current
  ordered : screen.shown.Pairwise fun later earlier => NotBefore earlier later

end Screen

section Steps
variable {committed : Committed} {screen : Screen}

/-- The accumulator is of the attempt on display, at the last of its places. -/
structure Steady (committed : Committed) (screen : Screen) : Prop extends OnScreen committed screen where
  displayed : ∀ run ∈ screen.view.session.run,
    screen.source = run.attempt ∧ ∀ current ∈ screen.view.session.stream, current.runId = run.id
  top : ∀ current ∈ screen.view.session.stream, ∀ p ∈ screen.shown, NotBefore p (positionOf screen.source current)

theorem notBefore_refl (p : Position) : NotBefore p p := fun _ _ => atMost_refl _

theorem Steady.next {view : View} {source : ℕ} (h : Steady committed screen)
    (hgood : ∀ current ∈ view.session.stream, current.status = .streaming →
      Good (committed current.runId source current.turn current.stepAttempt) current)
    (hdisplayed : ∀ run ∈ view.session.run, source = run.attempt ∧ ∀ current ∈ view.session.stream, current.runId = run.id)
    (htop : ∀ current ∈ view.session.stream, ∀ p ∈ screen.shown, NotBefore p (positionOf source current)) :
    Steady committed ⟨view,source,(view.session.stream.map (positionOf source)).toList ++ screen.shown⟩ := by
  cases hview : view.session.stream with
  | none =>
    have hempty : ∀ {P : StreamAccumulator → Prop}, ∀ current ∈ view.session.stream, P current := by
      intro P current hcurrent
      rw [hview] at hcurrent
      cases hcurrent
    exact ⟨⟨hgood,h.ordered⟩,hdisplayed,hempty⟩
  | some current =>
    have hnew := htop current hview
    refine ⟨⟨hgood,List.pairwise_cons.mpr ⟨hnew,h.ordered⟩⟩,hdisplayed,fun x hx p hp => ?_⟩
    cases hview.symm.trans hx
    rcases List.mem_cons.mp hp with rfl | hp
    · exact notBefore_refl _
    · exact hnew p hp

/-- What is left on screen stands where it stood, and what streams there is as it was. -/
theorem Steady.kept {view : View} {source : ℕ} (h : Steady committed screen)
    (hstream : ∀ next ∈ view.session.stream, source = screen.source ∧ ∃ current ∈ screen.view.session.stream,
      positionOf source next = positionOf source current ∧ (next.status = .streaming → next = current))
    (hdisplayed : ∀ run ∈ view.session.run, source = run.attempt ∧ ∀ current ∈ view.session.stream, current.runId = run.id) :
    Steady committed ⟨view,source,(view.session.stream.map (positionOf source)).toList ++ screen.shown⟩ := by
  refine h.next (fun next hnext hstreaming => ?_) hdisplayed fun next hnext p hp => ?_
  · obtain ⟨rfl,current,hcurrent,-,hsame⟩ := hstream next hnext
    obtain rfl := hsame hstreaming
    exact h.good next hcurrent hstreaming
  · obtain ⟨rfl,current,hcurrent,hplace,-⟩ := hstream next hnext
    rw [hplace]
    exact h.top current hcurrent p hp

theorem frames_run {delivery : Delivery} (hframe : frameOf delivery.action = some frame) :
    ∃ stream, reduce screen.view delivery.action =
      { screen.view with session := { screen.view.session with stream := stream } } := by
  cases haction : delivery.action with
  | streamReset f =>
    obtain ⟨stream,heq⟩ := streamReset_eq screen.view.session f
    exact ⟨stream,congrArg (fun session => ({ screen.view with session := session } : View)) heq⟩
  | streamDelta f delta seq =>
    obtain ⟨stream,heq⟩ := streamDelta_eq screen.view.session f delta seq
    exact ⟨stream,congrArg (fun session => ({ screen.view with session := session } : View)) heq⟩
  | streamPreview f offset delta =>
    obtain ⟨stream,heq⟩ := streamPreview_eq screen.view.session f offset delta
    exact ⟨stream,congrArg (fun session => ({ screen.view with session := session } : View)) heq⟩
  | turnOptimistic => rw [haction] at hframe; cases hframe
  | turnAccepted => rw [haction] at hframe; cases hframe
  | turnRejected => rw [haction] at hframe; cases hframe
  | runStart => rw [haction] at hframe; cases hframe
  | runStatus => rw [haction] at hframe; cases hframe
  | streamFinal => rw [haction] at hframe; cases hframe
  | streamRevealComplete => rw [haction] at hframe; cases hframe
  | sessionSnapshot => rw [haction] at hframe; cases hframe
  | cursorAdvance => rw [haction] at hframe; cases hframe

/-- What is heard and has not strayed is of the attempt on display. -/
theorem attempt_of_not_strayed {attempt : ℕ} (hheard : heard screen.view.session frame = true)
    (hstrayed : strayed screen frame attempt = false) : (∀ run ∈ screen.view.session.run, run.attempt = attempt) ∧
      (screen.view.session.run = none → ∀ current ∈ screen.view.session.stream, current.runId = frame.runId →
        screen.source = attempt) := by
  unfold strayed at hstrayed
  rw [hheard, Bool.true_and] at hstrayed
  constructor
  · intro run hrun
    rw [hrun] at hstrayed
    simpa using hstrayed
  · intro hrun current hcurrent hid
    rw [hrun, hcurrent] at hstrayed
    simpa [hid] using hstrayed

theorem runId_of_heard (hheard : heard s frame = true) : ∀ run ∈ s.run, run.id = frame.runId := by
  intro run hrun
  unfold heard otherOrEnded at hheard
  rw [hrun] at hheard
  simp only [Option.any_some, Bool.not_or, Bool.and_eq_true, Bool.not_eq_true', decide_eq_false_iff_not, not_not] at hheard
  exact hheard.2.1

theorem atMost_of_not_beyond {runId : Id} {attempt : ℕ} {place : ℕ × ℕ} (h : beyond screen runId attempt place = false) :
    ∀ p ∈ screen.shown, p.runId = runId → p.attempt = attempt → AtMost (p.turn,p.stepAttempt) place := by
  intro p hp hrun hattempt
  unfold beyond at h
  rw [List.any_eq_false] at h
  have hp' := h p hp
  simp only [hrun, hattempt, decide_true, Bool.true_and, decide_eq_true_eq] at hp'
  exact not_below_iff.mp hp'

theorem Steady.framed {delivery : Delivery} {starts : Bool} (h : Steady committed screen)
    (hframe : frameOf delivery.action = some frame)
    (hframed : Framed (committed frame.runId delivery.attempt frame.turn frame.stepAttempt) screen.view.session frame starts
      (reduce screen.view delivery.action).session.stream)
    (hstrayed : strayed screen frame delivery.attempt = false) (hlate : late screen frame delivery.attempt starts = false) :
    Steady committed (deliver screen delivery) := by
  obtain ⟨stream,hreduce⟩ := @frames_run frame screen delivery hframe
  have hrun : (reduce screen.view delivery.action).session.run = screen.view.session.run := by rw [hreduce]
  -- The source is the run's attempt, or of a frame that changed the text.
  have hsource : sourceAfter screen delivery (reduce screen.view delivery.action) = match screen.view.session.run with
      | some run => run.attempt
      | none => if (reduce screen.view delivery.action).session.stream ≠ screen.view.session.stream then delivery.attempt
          else screen.source := by
    unfold sourceAfter
    rw [hrun, hframe]
    simp
  cases hframed with
  | kept hsame =>
    have hkept : sourceAfter screen delivery (reduce screen.view delivery.action) = screen.source := by
      rw [hsource]
      cases hnone : screen.view.session.run with
      | none => exact if_neg (not_not_intro hsame)
      | some run => exact ((h.displayed run hnone).1).symm
    refine h.kept (fun next hnext => ⟨hkept,next,hsame ▸ hnext,rfl,fun _ => rfl⟩) fun run hin => ?_
    rw [hrun] at hin
    refine ⟨hkept.trans (h.displayed run hin).1,fun current hcurrent => ?_⟩
    exact (h.displayed run hin).2 current (hsame ▸ hcurrent)
  | opened next hnext hheard hstarts hid hplace hgood habove =>
    obtain ⟨hown,hother⟩ := attempt_of_not_strayed hheard hstrayed
    have hattempt : sourceAfter screen delivery (reduce screen.view delivery.action) = delivery.attempt := by
      rw [hsource]
      cases hnone : screen.view.session.run with
      | some run => exact hown run hnone
      | none =>
        refine if_pos fun hsame => ?_
        have hbelow := habove next (hsame.symm.trans hnext) hid
        rw [hplace] at hbelow
        exact absurd (atMost_refl frame.place) (mt not_below_iff.mpr (not_not_intro hbelow))
    have hplaces : ∀ p ∈ screen.shown, p.runId = frame.runId → p.attempt = delivery.attempt →
        AtMost (p.turn,p.stepAttempt) frame.place := by
      intro p hp hprun hpattempt
      by_cases hany : ∃ current ∈ screen.view.session.stream, current.runId = frame.runId
      · obtain ⟨current,hcurrent,hcurrentId⟩ := hany
        have hcurrentSource : screen.source = delivery.attempt := by
          cases hnone : screen.view.session.run with
          | some run => exact (h.displayed run hnone).1.trans (hown run hnone)
          | none => exact hother hnone current hcurrent hcurrentId
        have htop := h.top current hcurrent p hp (hprun.trans hcurrentId.symm) (hpattempt.trans hcurrentSource.symm)
        exact htop.trans_below (habove current hcurrent hcurrentId)
      · have hnot : (screen.view.session.stream.any fun current => decide (current.runId = frame.runId)) = false := by
          rw [Option.any_eq_false]
          intro current hcurrent
          simpa using fun hid => hany ⟨current,hcurrent,hid⟩
        unfold late at hlate
        rw [hheard, hstarts, hnot] at hlate
        exact atMost_of_not_beyond (by simpa using hlate) p hp hprun hpattempt
    refine h.next (fun current hcurrent _ => ?_) (fun run hin => ?_) fun current hcurrent p hp hprun hpattempt => ?_
    · cases hnext.symm.trans hcurrent
      rw [hattempt, hid, show next.turn = frame.turn from congrArg Prod.fst hplace,
        show next.stepAttempt = frame.stepAttempt from congrArg Prod.snd hplace]
      exact hgood
    · rw [hrun] at hin
      refine ⟨hattempt.trans (hown run hin).symm,fun current hcurrent => ?_⟩
      cases hnext.symm.trans hcurrent
      exact hid.trans (runId_of_heard hheard run hin).symm
    · cases hnext.symm.trans hcurrent
      rw [hattempt] at hpattempt
      have hmost := hplaces p hp (hprun.trans hid) hpattempt
      rw [← hplace] at hmost
      exact hmost
  | continued current next hcurrent hnext hheard hid hplace hid' hplace' hstreaming hgood =>
    obtain ⟨hown,hother⟩ := attempt_of_not_strayed hheard hstrayed
    have hcurrentSource : screen.source = delivery.attempt := by
      cases hnone : screen.view.session.run with
      | some run => exact (h.displayed run hnone).1.trans (hown run hnone)
      | none => exact hother hnone current hcurrent hid
    have hattempt : sourceAfter screen delivery (reduce screen.view delivery.action) = delivery.attempt := by
      rw [hsource]
      cases hnone : screen.view.session.run with
      | some run => exact hown run hnone
      | none =>
        dsimp only
        split
        · rfl
        · exact hcurrentSource
    have hsamePlace : positionOf (sourceAfter screen delivery (reduce screen.view delivery.action)) next =
        positionOf screen.source current := by
      unfold positionOf
      rw [hattempt, hcurrentSource, hid, hid', show next.turn = current.turn from congrArg Prod.fst (hplace'.trans hplace.symm),
        show next.stepAttempt = current.stepAttempt from congrArg Prod.snd (hplace'.trans hplace.symm)]
    refine h.next (fun x hx _ => ?_) (fun run hin => ?_) fun x hx p hp => ?_
    · cases hnext.symm.trans hx
      have hbefore := h.good current hcurrent hstreaming
      rw [hcurrentSource, hid, show current.turn = frame.turn from congrArg Prod.fst hplace,
        show current.stepAttempt = frame.stepAttempt from congrArg Prod.snd hplace] at hbefore
      rw [hattempt, hid', show next.turn = frame.turn from congrArg Prod.fst hplace',
        show next.stepAttempt = frame.stepAttempt from congrArg Prod.snd hplace']
      exact hgood hbefore
    · rw [hrun] at hin
      refine ⟨hattempt.trans (hown run hin).symm,fun x hx => ?_⟩
      cases hnext.symm.trans hx
      exact hid'.trans (runId_of_heard hheard run hin).symm
    · cases hnext.symm.trans hx
      rw [hsamePlace]
      exact h.top current hcurrent p hp

theorem sourceAfter_of_no_frame {delivery : Delivery} {view : View} (h : frameOf delivery.action = none) :
    sourceAfter screen delivery view = view.session.run.elim screen.source (·.attempt) := by
  unfold sourceAfter
  rw [h]
  cases view.session.run with
  | none => rfl
  | some run => rfl

/-- A step that is no frame and keeps the run, or clears the text as it changes it. -/
theorem Steady.no_frame {delivery : Delivery} (h : Steady committed screen) (hframe : frameOf delivery.action = none)
    (hstream : ∀ next ∈ (reduce screen.view delivery.action).session.stream, ∃ current ∈ screen.view.session.stream,
      next.runId = current.runId ∧ place next = place current ∧ (next.status = .streaming → next = current))
    (hrun : ∀ run ∈ (reduce screen.view delivery.action).session.run, (∃ old ∈ screen.view.session.run,
      old.id = run.id ∧ old.attempt = run.attempt) ∨ (reduce screen.view delivery.action).session.stream = none) :
    Steady committed (deliver screen delivery) := by
  have hsource : ∀ next ∈ (reduce screen.view delivery.action).session.stream,
      sourceAfter screen delivery (reduce screen.view delivery.action) = screen.source := by
    intro next hnext
    rw [sourceAfter_of_no_frame hframe]
    cases hafter : (reduce screen.view delivery.action).session.run with
    | none => rfl
    | some run =>
      rcases hrun run hafter with ⟨old,hold,-,hattempt⟩ | hnone
      · exact hattempt.symm.trans (h.displayed old hold).1.symm
      · cases hnone.symm.trans hnext
  refine h.kept (fun next hnext => ?_) fun run hin => ⟨?_,fun next hnext => ?_⟩
  · obtain ⟨current,hcurrent,hid,hplace,hstreaming⟩ := hstream next hnext
    refine ⟨hsource next hnext,current,hcurrent,?_,hstreaming⟩
    unfold positionOf
    rw [hid, show next.turn = current.turn from congrArg Prod.fst hplace,
      show next.stepAttempt = current.stepAttempt from congrArg Prod.snd hplace]
  · rw [sourceAfter_of_no_frame hframe, hin]
    rfl
  · obtain ⟨current,hcurrent,hid,-,-⟩ := hstream next hnext
    rcases hrun run hin with ⟨old,hold,hsame,-⟩ | hnone
    · exact hid.trans (((h.displayed old hold).2 current hcurrent).trans hsame)
    · cases hnone.symm.trans hnext

theorem sameRun_iff {a b : Option Run} : sameRun a b = true ↔ a.map (fun r => (r.id,r.attempt)) = b.map fun r => (r.id,r.attempt) :=
  decide_eq_true_iff

theorem run_of_sameRun {a : Option Run} {run : Run} (h : sameRun a (some run) = true) :
    ∃ old ∈ a, old.id = run.id ∧ old.attempt = run.attempt := by
  obtain ⟨old,hold,hpair⟩ := Option.map_eq_some_iff.mp (sameRun_iff.mp h)
  exact ⟨old,hold,Prod.mk.inj hpair⟩

/-- A run that starts keeps the text of its own attempt only. -/
theorem runStart_stream {incoming : Run} {clientTurnId : Option Id} : ∃ run, (runStart s incoming clientTurnId).run = some run ∧
    ((runStart s incoming clientTurnId).stream = none ∨ (runStart s incoming clientTurnId).stream = s.stream ∧
      ∃ old ∈ s.run, old.id = run.id ∧ old.attempt = run.attempt) := by
  refine ⟨_,rfl,?_⟩
  unfold runStart
  dsimp only
  split
  next hsame => exact Or.inr ⟨rfl,run_of_sameRun hsame⟩
  next => exact Or.inl rfl

theorem runStatus_stream {runId : Id} {status : RunStatus} {patch : RunPatch} : runStatus s runId status patch = s ∨
    ∃ old run, s.run = some old ∧ (runStatus s runId status patch).run = some run ∧ ((runStatus s runId status patch).stream = none ∨
      (runStatus s runId status patch).stream = s.stream ∧ old.id = run.id ∧ old.attempt = run.attempt) := by
  unfold runStatus
  cases hs : s.run with
  | none => exact Or.inl rfl
  | some current =>
    dsimp only
    split
    · exact Or.inl rfl
    · refine Or.inr ⟨current,_,rfl,rfl,?_⟩
      by_cases hnewer : current.attempt < patch.attempt.getD current.attempt
      · exact Or.inl (if_pos (decide_eq_true hnewer))
      · refine Or.inr ⟨if_neg (by simpa using hnewer),?_⟩
        rcases Nat.lt_or_eq_of_le (not_lt.mp hnewer) with hlower | hequal
        · have hkept := @mergeRun_of_lt current (patchedRun current (decide (current.attempt < patch.attempt.getD current.attempt))
            status patch) false hlower (Or.inr rfl)
          rw [hkept]
          exact ⟨rfl,rfl⟩
        · have hmerged := @mergeRun_attempt current (patchedRun current (decide (current.attempt < patch.attempt.getD
            current.attempt)) status patch) false rfl hequal.symm
          exact ⟨hmerged.1.symm,hmerged.2.symm⟩

theorem streamFinal_stream {message : Message} {turn : Option ℕ} : ∀ next ∈ (streamFinal s message turn).stream,
    ∃ current ∈ s.stream, next.runId = current.runId ∧ place next = place current ∧ (next.status = .streaming → next = current) := by
  unfold streamFinal
  split
  · exact fun next hnext => ⟨next,hnext,rfl,rfl,fun _ => rfl⟩
  · intro next hnext
    obtain ⟨current,hcurrent,hmap⟩ := Option.map_eq_some_iff.mp hnext
    refine ⟨current,hcurrent,?_⟩
    split at hmap
    · subst hmap
      refine ⟨rfl,rfl,fun hstreaming => ?_⟩
      unfold finished at hstreaming
      dsimp only at hstreaming
      split at hstreaming <;> cases hstreaming
    · subst hmap
      exact ⟨rfl,rfl,fun _ => rfl⟩

theorem streamRevealComplete_stream {runId : Id} : ∀ next ∈ (streamRevealComplete s runId).stream, next ∈ s.stream := by
  unfold streamRevealComplete
  split
  · intro next hnext
    cases hnext
  · exact fun next hnext => hnext

end Steps

section Snapshots
variable {incoming : SnapshotStream}

/-- Both texts are committed: the merge has the longer of each. -/
theorem Good.merged (h : Good deltas current) (hlow : -1 ≤ incoming.seq) (hhigh : incoming.seq < deltas.length)
    (htext : incoming.text = (deltas.take (incoming.seq + 1).toNat).flatten)
    (hsame : sameStream (some current) incoming = some current) : Good deltas (streamedText (some current) incoming) := by
  have hincoming : incoming.text <+: deltas.flatten := htext ▸ take_flatten_prefix _
  have htake : ∀ {i j : ℤ}, i ≤ j → (deltas.take (i + 1).toNat).flatten <+: (deltas.take (j + 1).toNat).flatten := by
    intro i j hij
    have hmin : min (i + 1).toNat (j + 1).toNat = (i + 1).toNat := by omega
    rw [← hmin, ← List.take_take]
    exact take_flatten_prefix _
  have hlow' := h.low
  have hhigh' := h.high
  have hbegins := h.begins
  unfold streamedText
  rw [hsame]
  dsimp only
  refine ⟨?_,?_,?_,?_,?_⟩
  · change -1 ≤ max (current.seq.getD (-1)) incoming.seq
    omega
  · change max (current.seq.getD (-1)) incoming.seq < deltas.length
    omega
  · change _ = (deltas.take (max (current.seq.getD (-1)) incoming.seq + 1).toNat).flatten
    rcases le_total incoming.seq (current.seq.getD (-1)) with hle | hle
    · have hbegin : incoming.text <+: current.durableText := by
        rw [htext, h.durable]
        exact htake hle
      rw [max_eq_left hle, ← h.durable]
      exact if_pos (List.isPrefixOf_iff_prefix.mpr hbegin)
    · rw [max_eq_right hle, ← htext]
      change (if incoming.text.isPrefixOf current.durableText then current.durableText else incoming.text) = incoming.text
      split
      next hbegin =>
        have hback : current.durableText <+: incoming.text := by
          rw [htext, h.durable]
          exact htake hle
        exact hback.eq_of_length_le (List.isPrefixOf_iff_prefix.mp hbegin).length_le
      next => rfl
  · dsimp only
    by_cases hbegin : incoming.text <+: current.text
    · rw [if_pos (List.isPrefixOf_iff_prefix.mpr hbegin)]
      split
      · exact hbegins
      · exact hbegin
    · have hshort : ¬incoming.text <+: current.durableText := fun hin => hbegin (hin.trans hbegins)
      rewrite [if_neg (mt List.isPrefixOf_iff_prefix.mp hbegin), if_neg (mt List.isPrefixOf_iff_prefix.mp hshort)]
      exact List.prefix_rfl
  · dsimp only
    split
    · exact h.text
    · exact hincoming

/-- What a snapshot leaves in the accumulator of its attempt. -/
theorem snapshotStream_cases {known : Option StreamAccumulator} {run : Run} {stream : Option SnapshotStream}
    {messages : List Message} : (∀ next ∈ snapshotStream known (some run) stream messages, ∃ current ∈ known,
      next.runId = current.runId ∧ place next = place current ∧ (next.status = .streaming → next = current)) ∨
    ∃ incoming ∈ stream, incoming.status = .streaming ∧ furtherOn known incoming = false ∧
      snapshotStream known (some run) stream messages = some (streamedText known incoming) := by
  have hknown : ∀ next ∈ known, ∃ current ∈ known, next.runId = current.runId ∧ place next = place current ∧
      (next.status = .streaming → next = current) := fun next hnext => ⟨next,hnext,rfl,rfl,fun _ => rfl⟩
  have hnone : ∀ next ∈ (none : Option StreamAccumulator), ∃ current ∈ known, next.runId = current.runId ∧
      place next = place current ∧ (next.status = .streaming → next = current) := fun next hnext => by cases hnext
  unfold snapshotStream
  dsimp only
  cases stream with
  | none =>
    refine Or.inl ?_
    dsimp only
    split
    · exact hnone
    · exact hknown
  | some incoming =>
    dsimp only
    cases hstatus : incoming.status with
    | streaming =>
      dsimp only
      split
      · exact Or.inl hnone
      · split
        · exact Or.inl hknown
        next hfurther => exact Or.inr ⟨incoming,rfl,hstatus,by simpa using hfurther,rfl⟩
    | final =>
      refine Or.inl ?_
      dsimp only
      split
      · exact hknown
      · intro next hnext
        unfold finalText at hnext
        obtain ⟨current,hcurrent,hmap⟩ := Option.map_eq_some_iff.mp hnext
        refine ⟨current,hcurrent,?_⟩
        split at hmap
        · subst hmap
          refine ⟨rfl,rfl,fun hstreaming => ?_⟩
          dsimp only at hstreaming
          split at hstreaming <;> cases hstreaming
        · subst hmap
          exact ⟨rfl,rfl,fun _ => rfl⟩

/-- A snapshot that is taken up sets its run and its attempt. -/
theorem mergedRun_of_taken {snapshot : SessionSnapshot} {incoming : Run} (houtdated : outdated v snapshot = false)
    (hpending : pendingNewer v.session snapshot = false) (hrun : snapshot.run = some incoming) :
    ∃ run, mergedRun v.session snapshot = some run ∧ run.id = incoming.id ∧ run.attempt = incoming.attempt := by
  unfold mergedRun
  rw [hpending, if_neg Bool.false_ne_true, hrun]
  refine ⟨_,rfl,?_⟩
  cases hs : v.session.run with
  | none => exact ⟨rfl,rfl⟩
  | some current =>
    by_cases hid : current.id = incoming.id
    · have hle : current.attempt ≤ incoming.attempt := by
        unfold outdated supersededRun at houtdated
        rw [hs, hrun] at houtdated
        simp only [Bool.or_eq_false_iff, Option.any_some, hid, decide_true, Bool.true_and, decide_eq_false_iff_not,
          not_lt] at houtdated
        exact houtdated.2
      rcases Nat.lt_or_eq_of_le hle with hlt | heq
      · have hincoming : mergeRun (some current) incoming false = incoming := by
          unfold mergeRun
          dsimp only
          rw [if_pos (by simp [hlt])]
        rw [hincoming]
        exact ⟨rfl,rfl⟩
      · have hmerged := @mergeRun_attempt current incoming false hid heq
        exact ⟨hmerged.1.trans hid,hmerged.2.trans heq⟩
    · have hincoming : mergeRun (some current) incoming false = incoming := by
        unfold mergeRun
        dsimp only
        rw [if_pos (by simp [hid])]
      rw [hincoming]
      exact ⟨rfl,rfl⟩

variable {committed : Committed} {screen : Screen}

theorem place_sameStream {known : Option StreamAccumulator} (h : sameStream known incoming = some current) :
    known = some current ∧ current.runId = incoming.runId ∧ place current = (incoming.turn,incoming.stepAttempt) := by
  unfold sameStream at h
  obtain ⟨hknown,hsame⟩ := Option.filter_eq_some_iff.mp h
  simp only [Bool.and_eq_true, decide_eq_true_eq] at hsame
  exact ⟨hknown,hsame.1.1,Prod.ext hsame.1.2 hsame.2⟩

theorem place_streamedText {known : Option StreamAccumulator} :
    (streamedText known incoming).runId = incoming.runId ∧ place (streamedText known incoming) = (incoming.turn,incoming.stepAttempt) ∧
      (streamedText known incoming).turn = incoming.turn ∧ (streamedText known incoming).stepAttempt = incoming.stepAttempt := by
  unfold streamedText
  split
  · exact ⟨rfl,rfl,rfl,rfl⟩
  · exact ⟨rfl,rfl,rfl,rfl⟩

theorem below_of_not_furtherOn {known : Option StreamAccumulator} (h : furtherOn known incoming = false) :
    ∀ current ∈ known, current.runId = incoming.runId → AtMost (place current) (incoming.turn,incoming.stepAttempt) := by
  intro current hcurrent hid
  unfold furtherOn at h
  rw [hcurrent] at h
  simp only [Option.any_some, hid, decide_true, Bool.true_and, Bool.or_eq_false_iff, Bool.and_eq_false_iff,
    decide_eq_false_iff_not] at h
  unfold AtMost place
  dsimp only
  omega

/-- The text of a snapshot that is taken up, where its attempt is the one that is known. -/
theorem good_streamedText {known : Option StreamAccumulator} (hknown : ∀ current ∈ known, current.status = .streaming →
      current.runId = incoming.runId → place current = (incoming.turn,incoming.stepAttempt) → Good deltas current)
    (hstreaming : (sameStream known incoming).any (fun current => decide (current.status ≠ .streaming)) = false)
    (hlow : -1 ≤ incoming.seq) (hhigh : incoming.seq < deltas.length)
    (htext : incoming.text = (deltas.take (incoming.seq + 1).toNat).flatten) : Good deltas (streamedText known incoming) := by
  cases hsame : sameStream known incoming with
  | some current =>
    obtain ⟨rfl,hid,hplace⟩ := place_sameStream hsame
    rw [hsame] at hstreaming
    exact (hknown current rfl (by simpa using hstreaming) hid hplace).merged hlow hhigh htext hsame
  | none =>
    unfold streamedText
    rw [hsame]
    refine ⟨hlow,hhigh,htext,List.prefix_rfl,?_⟩
    rw [htext]
    exact take_flatten_prefix _

theorem pair_guidedRun {snapshot : SessionSnapshot} {messages : List Message} :
    (guidedRun s snapshot messages).1.map (fun r => (r.id,r.attempt)) = (mergedRun s snapshot).map fun r => (r.id,r.attempt) := by
  rcases @guidedRun_run s snapshot messages with hsame | ⟨run,guidance,hmerged,hguided⟩
  · rw [hsame]
  · rw [hmerged, hguided]
    rfl

theorem mergeSnapshot_stream {snapshot : SessionSnapshot} : (mergeSnapshot s snapshot).stream =
    if !pendingNewer s snapshot && decide ((mergedRun s snapshot).map (·.id) = snapshot.run.map (·.id)) then
      snapshotStream (knownStream s snapshot) (mergedRun s snapshot) snapshot.stream
        (guidedRun s snapshot (mergedMessages s snapshot.messages)).2
    else s.stream := rfl

/-- The run that a snapshot leaves is the one that was merged, up to its guidance. -/
theorem mergeSnapshot_run {snapshot : SessionSnapshot} {run : Run} (h : run ∈ (mergeSnapshot s snapshot).run) :
    ∃ merged, mergedRun s snapshot = some merged ∧ merged.id = run.id ∧ merged.attempt = run.attempt := by
  have hpair := @pair_guidedRun s snapshot (mergedMessages s snapshot.messages)
  have hrun : (guidedRun s snapshot (mergedMessages s snapshot.messages)).1 = some run := h
  rw [hrun] at hpair
  obtain ⟨merged,hmerged,heq⟩ := Option.map_eq_some_iff.mp hpair.symm
  exact ⟨merged,hmerged,Prod.mk.inj heq⟩

theorem mem_knownStream {snapshot : SessionSnapshot} {merged : Run} (hmerged : mergedRun s snapshot = some merged)
    (h : current ∈ knownStream s snapshot) : current ∈ s.stream ∧ ∃ old ∈ s.run, old.id = merged.id ∧ old.attempt = merged.attempt := by
  unfold knownStream at h
  rw [hmerged] at h
  split at h
  next hsame => exact ⟨h,run_of_sameRun hsame⟩
  next => cases h

theorem Steady.taken {delivery : Delivery} {snapshot : SessionSnapshot} {run merged : Run} (h : Steady committed screen)
    (haction : delivery.action = .sessionSnapshot snapshot) (hgenuine : genuine committed delivery = true)
    (hsteady : staleSnapshot screen snapshot = false) (houtdated : outdated screen.view snapshot = false)
    (hpending : pendingNewer screen.view.session snapshot = false) (hrun : snapshot.run = some run)
    (hmerged : mergedRun screen.view.session snapshot = some merged) (hid : merged.id = run.id)
    (hattempt : merged.attempt = run.attempt) : Steady committed (deliver screen delivery) := by
  have hreduce : (reduce screen.view delivery.action).session = mergeSnapshot screen.view.session snapshot := by
    rw [haction]
    unfold reduce sessionSnapshot
    dsimp only
    rw [houtdated]
    rfl
  have hframe : frameOf delivery.action = none := by rw [haction]; rfl
  have hstream := @mergeSnapshot_stream screen.view.session snapshot
  rw [hpending, hmerged, hrun] at hstream
  have hsameId : decide ((some merged).map (·.id) = (some run).map (·.id)) = true := by
    rw [Option.map_some, Option.map_some, hid]
    exact decide_eq_true rfl
  rw [hsameId, Bool.not_false, Bool.true_and, if_pos rfl] at hstream
  have hpair : ∀ r ∈ (reduce screen.view delivery.action).session.run, merged.id = r.id ∧ merged.attempt = r.attempt := by
    intro r hr
    rw [hreduce] at hr
    obtain ⟨merged',hmerged',hpair⟩ := mergeSnapshot_run hr
    cases hmerged.symm.trans hmerged'
    exact hpair
  rcases @snapshotStream_cases (knownStream screen.view.session snapshot) merged snapshot.stream
    (guidedRun screen.view.session snapshot (mergedMessages screen.view.session snapshot.messages)).2 with
      hkept | ⟨incoming,hincoming,hstreaming,hfurther,hnext⟩
  · refine h.no_frame hframe (fun next hnext => ?_) fun r hr => ?_
    · rw [hreduce, hstream] at hnext
      obtain ⟨current,hcurrent,hplace⟩ := hkept next hnext
      exact ⟨current,(mem_knownStream hmerged hcurrent).1,hplace⟩
    · cases hafter : (reduce screen.view delivery.action).session.stream with
      | none => exact Or.inr rfl
      | some next =>
        rw [hreduce, hstream] at hafter
        obtain ⟨current,hcurrent,-⟩ := hkept next hafter
        obtain ⟨-,old,hold,holdId,holdAttempt⟩ := mem_knownStream hmerged hcurrent
        exact Or.inl ⟨old,hold,holdId.trans (hpair r hr).1,holdAttempt.trans (hpair r hr).2⟩
  · rw [hnext] at hstream
    unfold genuine at hgenuine
    rw [haction] at hgenuine
    dsimp only at hgenuine
    rw [hincoming, Option.all_some, hrun, Option.any_some, hstreaming] at hgenuine
    simp only [Bool.and_eq_true, Bool.or_eq_true, decide_eq_true_eq, reduceCtorEq, false_or] at hgenuine
    obtain ⟨⟨hgId,hgAttempt⟩,⟨hlow,hhigh⟩,htext⟩ := hgenuine
    unfold staleSnapshot at hsteady
    dsimp only at hsteady
    rw [houtdated, hpending, hincoming, Option.any_some, hstreaming] at hsteady
    simp only [Bool.not_false, Bool.true_and, decide_true, Bool.or_eq_false_iff] at hsteady
    obtain ⟨hreopened,hlate⟩ := hsteady
    -- What is known is of the attempt that the snapshot names.
    have hknown : ∀ current ∈ knownStream screen.view.session snapshot, current ∈ screen.view.session.stream ∧
        screen.source = incoming.attempt ∧ current.runId = incoming.runId := by
      intro current hcurrent
      obtain ⟨hin,old,hold,holdId,holdAttempt⟩ := mem_knownStream hmerged hcurrent
      obtain ⟨hsource,hown⟩ := h.displayed old hold
      exact ⟨hin,hsource.trans (holdAttempt.trans (hattempt.trans hgAttempt)),
        (hown current hin).trans (holdId.trans (hid.trans hgId))⟩
    obtain ⟨hrunId,hplace,hturn,hstep⟩ := @place_streamedText incoming (knownStream screen.view.session snapshot)
    have hsource : ∀ view : View, view.session.run.map (fun r => (r.id,r.attempt)) = some (merged.id,merged.attempt) →
        sourceAfter screen delivery view = incoming.attempt := by
      intro view hview
      rw [sourceAfter_of_no_frame hframe]
      obtain ⟨r,hr,heq⟩ := Option.map_eq_some_iff.mp hview
      rw [hr]
      exact (Prod.mk.inj heq).2.trans (hattempt.trans hgAttempt)
    have hafter : (reduce screen.view delivery.action).session.run.map (fun r => (r.id,r.attempt)) =
        some (merged.id,merged.attempt) := by
      rw [hreduce]
      have hguided := @pair_guidedRun screen.view.session snapshot (mergedMessages screen.view.session snapshot.messages)
      rw [hmerged] at hguided
      exact hguided
    have hsource' := hsource _ hafter
    refine h.next (fun next hin _ => ?_) (fun r hr => ⟨?_,fun next hin => ?_⟩) fun next hin p hp hprun hpattempt => ?_
    · rw [hreduce, hstream] at hin
      cases hin
      rw [hsource', hrunId, hturn, hstep]
      refine good_streamedText (fun current hcurrent hcurrentStreaming hcurrentId hcurrentPlace => ?_) hreopened hlow hhigh htext
      obtain ⟨hin,hcurrentSource,-⟩ := hknown current hcurrent
      have hgood := h.good current hin hcurrentStreaming
      rw [hcurrentSource, hcurrentId, show current.turn = incoming.turn from congrArg Prod.fst hcurrentPlace,
        show current.stepAttempt = incoming.stepAttempt from congrArg Prod.snd hcurrentPlace] at hgood
      exact hgood
    · rw [sourceAfter_of_no_frame hframe, hr]
      rfl
    · rw [hreduce, hstream] at hin
      cases hin
      exact hrunId.trans (hgId.symm.trans (hid.symm.trans (hpair r hr).1))
    · rw [hreduce, hstream] at hin
      cases hin
      have hpId : p.runId = incoming.runId := hprun.trans hrunId
      have hpAttempt : p.attempt = incoming.attempt := hpattempt.trans hsource'
      change AtMost (p.turn,p.stepAttempt) (place (streamedText (knownStream screen.view.session snapshot) incoming))
      rw [hplace]
      cases hcase : knownStream screen.view.session snapshot with
      | some current =>
        obtain ⟨hin,hcurrentSource,hcurrentId⟩ := hknown current hcase
        have htop := h.top current hin p hp (hpId.trans hcurrentId.symm) (hpAttempt.trans hcurrentSource.symm)
        exact AtMost.trans htop (below_of_not_furtherOn hfurther current hcase hcurrentId)
      | none =>
        rw [hcase] at hlate
        exact atMost_of_not_beyond (by simpa using hlate) p hp hpId hpAttempt

/-- A step that leaves the run and the text. -/
theorem Steady.unchanged {delivery : Delivery} (h : Steady committed screen) (hframe : frameOf delivery.action = none)
    (hrun : (reduce screen.view delivery.action).session.run.map (fun r => (r.id,r.attempt)) =
      screen.view.session.run.map fun r => (r.id,r.attempt))
    (hstream : ∀ next ∈ (reduce screen.view delivery.action).session.stream, next ∈ screen.view.session.stream) :
    Steady committed (deliver screen delivery) := by
  refine h.no_frame hframe (fun next hnext => ⟨next,hstream next hnext,rfl,rfl,fun _ => rfl⟩) fun run hin => Or.inl ?_
  rw [hin] at hrun
  obtain ⟨old,hold,hpair⟩ := Option.map_eq_some_iff.mp hrun.symm
  exact ⟨old,hold,Prod.mk.inj hpair⟩

theorem Steady.snapshot {delivery : Delivery} {snapshot : SessionSnapshot} (h : Steady committed screen)
    (haction : delivery.action = .sessionSnapshot snapshot) (hgenuine : genuine committed delivery = true)
    (hsteady : staleSnapshot screen snapshot = false) : Steady committed (deliver screen delivery) := by
  have hframe : frameOf delivery.action = none := by rw [haction]; rfl
  have hreduce : reduce screen.view delivery.action = if outdated screen.view snapshot then screen.view
      else { screen.view with session := mergeSnapshot screen.view.session snapshot, cursor := snapshot.watermark } := by
    rw [haction]
    rfl
  cases houtdated : outdated screen.view snapshot with
  | true =>
    rw [houtdated, if_pos rfl] at hreduce
    exact h.unchanged hframe (by rw [hreduce]) fun next hnext => by rw [hreduce] at hnext; exact hnext
  | false =>
    rw [houtdated, if_neg Bool.false_ne_true] at hreduce
    have hpair := @pair_guidedRun screen.view.session snapshot (mergedMessages screen.view.session snapshot.messages)
    have hstream := @mergeSnapshot_stream screen.view.session snapshot
    cases hpending : pendingNewer screen.view.session snapshot with
    | true =>
      have hmerged : mergedRun screen.view.session snapshot = screen.view.session.run := by
        unfold mergedRun
        rw [if_pos hpending]
      rw [hmerged] at hpair
      rw [hpending] at hstream
      refine h.unchanged hframe (by rw [hreduce]; exact hpair) fun next hnext => ?_
      rw [hreduce] at hnext
      exact hstream.symm.trans hnext
    | false =>
      cases hrun : snapshot.run with
      | some run =>
        obtain ⟨merged,hmerged,hid,hattempt⟩ := mergedRun_of_taken houtdated hpending hrun
        exact h.taken haction hgenuine hsteady houtdated hpending hrun hmerged hid hattempt
      | none =>
        have hmerged : mergedRun screen.view.session snapshot = screen.view.session.run := by
          unfold mergedRun
          rw [if_neg (by rw [hpending]; exact Bool.false_ne_true), hrun]
        have hnone : snapshot.stream = none := by
          cases hs : snapshot.stream with
          | none => rfl
          | some incoming =>
            unfold genuine at hgenuine
            rw [haction] at hgenuine
            dsimp only at hgenuine
            rw [hs, hrun] at hgenuine
            simp at hgenuine
        have hknown : knownStream screen.view.session snapshot = screen.view.session.stream := by
          unfold knownStream
          rw [hmerged]
          exact if_pos (sameRun_iff.mpr rfl)
        rw [hmerged] at hpair
        rw [hmerged, hknown, hnone] at hstream
        refine h.unchanged hframe (by rw [hreduce]; exact hpair) fun next hnext => ?_
        rw [hreduce] at hnext
        have hnext' := hstream.symm.trans hnext
        split at hnext'
        · unfold snapshotStream at hnext'
          dsimp only at hnext'
          split at hnext'
          · cases hnext'
          · exact hnext'
        · exact hnext'

end Snapshots

section Runs
variable {committed : Committed} {screen : Screen}

theorem Steady.deliver {delivery : Delivery} (h : Steady committed screen) (hgenuine : genuine committed delivery = true)
    (hsteady : steady screen delivery = true) : Steady committed (deliver screen delivery) := by
  obtain ⟨attempt,action⟩ := delivery
  cases action with
  | streamReset frame =>
    simp only [steady, Bool.and_eq_true, Bool.not_eq_true'] at hsteady
    exact h.framed rfl framed_streamReset hsteady.1 hsteady.2
  | streamDelta frame delta seq =>
    cases seq with
    | none => cases hgenuine
    | some n =>
      have hdelta : (committed frame.runId attempt frame.turn frame.stepAttempt)[n]? = some delta := by
        simpa [genuine] using hgenuine
      simp only [steady, Bool.and_eq_true, Bool.not_eq_true'] at hsteady
      exact h.framed rfl (framed_streamDelta hdelta) hsteady.1 hsteady.2
  | streamPreview frame offset delta =>
    simp only [steady, Bool.and_eq_true, Bool.not_eq_true'] at hsteady
    exact h.framed rfl (framed_streamPreview (List.isPrefixOf_iff_prefix.mp hgenuine)) hsteady.1 hsteady.2
  | sessionSnapshot snapshot =>
    simp only [steady, Bool.not_eq_true'] at hsteady
    exact h.snapshot rfl hgenuine hsteady
  | runStart incoming clientTurnId =>
    obtain ⟨run,hrun,hstream⟩ := @runStart_stream screen.view.session incoming clientTurnId
    refine h.no_frame rfl (fun next hnext => ?_) fun r hr => ?_
    · rcases hstream with hnone | ⟨hsame,-⟩
      · cases hnone.symm.trans hnext
      · exact ⟨next,hsame.symm.trans hnext,rfl,rfl,fun _ => rfl⟩
    · cases hrun.symm.trans hr
      rcases hstream with hnone | ⟨-,hold⟩
      · exact Or.inr hnone
      · exact Or.inl hold
  | runStatus runId status patch =>
    rcases @runStatus_stream screen.view.session runId status patch with hsame | ⟨old,run,hold,hrun,hstream⟩
    · have hview : reduce screen.view (.runStatus runId status patch) = screen.view :=
        congrArg (fun session => ({ screen.view with session := session } : View)) hsame
      exact h.unchanged rfl (by dsimp only; rw [hview]) fun next hnext => by dsimp only at hnext; rw [hview] at hnext; exact hnext
    · refine h.no_frame rfl (fun next hnext => ?_) fun r hr => ?_
      · rcases hstream with hnone | ⟨hsame,-⟩
        · cases hnone.symm.trans hnext
        · exact ⟨next,hsame.symm.trans hnext,rfl,rfl,fun _ => rfl⟩
      · cases hrun.symm.trans hr
        rcases hstream with hnone | ⟨-,hpair⟩
        · exact Or.inr hnone
        · exact Or.inl ⟨old,hold,hpair⟩
  | streamFinal message turn =>
    obtain ⟨stream,fences,messages,heq⟩ := streamFinal_eq screen.view.session message turn
    have hrun := congrArg Session.run heq
    refine h.no_frame rfl streamFinal_stream fun r hr => Or.inl ⟨r,?_,rfl,rfl⟩
    exact hrun.symm.trans hr
  | streamRevealComplete runId =>
    obtain ⟨stream,heq⟩ := streamRevealComplete_eq screen.view.session runId
    have hrun := congrArg (fun session : Session => session.run.map fun r => (r.id,r.attempt)) heq
    exact h.unchanged rfl hrun streamRevealComplete_stream
  | turnOptimistic => cases hgenuine
  | turnAccepted => cases hgenuine
  | turnRejected => cases hgenuine
  | cursorAdvance => cases hgenuine

/-- A screen on which nothing streams yet. -/
def blank (view : View) : Screen := ⟨view,view.session.run.elim 0 (·.attempt),[]⟩

theorem steady_blank (hstream : v.session.stream = none) : Steady committed (blank v) := by
  refine ⟨⟨fun current hcurrent => ?_,List.Pairwise.nil⟩,fun run hrun => ⟨?_,fun current hcurrent => ?_⟩,fun current hcurrent => ?_⟩
  · cases hstream.symm.trans hcurrent
  · have hrun' : v.session.run = some run := hrun
    unfold blank
    dsimp only
    rw [hrun']
    rfl
  · cases hstream.symm.trans hcurrent
  · cases hstream.symm.trans hcurrent

def delivered (screen : Screen) (delivery : Delivery) : Except Empty Screen := .ok (deliver screen delivery)

theorem run_onScreen (committed : Committed) (view : View) (hstream : view.session.stream = none) (screen : Screen)
    (deliveries : List Delivery) (hrun : Foundation.Runs.Run (Guarded (Applied delivered) fun screen delivery =>
      (genuine committed delivery && steady screen delivery) = true) (blank view) deliveries screen) :
    OnScreen committed screen := by
  have hsteady : Steady committed screen := by
    refine hrun.invariant (steady_blank hstream) fun screen delivery next h hstep => ?_
    cases hstep.2
    obtain ⟨hgenuine,hsteady⟩ := Bool.and_eq_true_iff.mp hstep.1
    exact h.deliver hgenuine hsteady
  exact hsteady.toOnScreen

def hello : Committed := fun _ _ _ _ => [text "Hel",text "lo"]

def turnFrame (turn : ℕ) : Frame := ⟨text "r",turn,1⟩

/-- A preview runs ahead of the first delta, and the second one catches up. -/
theorem run_onScreen_preview : OnScreen hello (afterAll delivered (blank freshView)
    [⟨1,.runStart (workingRun (text "r") 1 0) none⟩,⟨1,.streamReset (turnFrame 0)⟩,⟨1,.streamPreview (turnFrame 0) 0 (text "Hell")⟩,
      ⟨1,.streamDelta (turnFrame 0) (text "Hel") (some 0)⟩,⟨1,.streamDelta (turnFrame 0) (text "lo") (some 1)⟩]) :=
  run_onScreen hello freshView rfl _ _ (run_admittedAll (by decide))

/-- What a snapshot says of a turn that it knows to be final. -/
def finalSnapshot : SessionSnapshot :=
  ⟨text "w",text "working",[],some (workingRun (text "r") 1 0),
    some ⟨text "r",1,1,1,none,text "Hello",1,.final⟩,0⟩

/-- A final that comes by snapshot leaves no fence, and a late reset opens an earlier turn. -/
theorem final_by_snapshot_unfenced : ¬∀ (committed : Committed) (view : View) (deliveries : List Delivery),
    view.session.stream = none → deliveries.all (genuine committed) = true →
      OnScreen committed (deliveries.foldl deliver (blank view)) := by
  intro h
  have hscreen := h hello freshView [⟨1,.runStart (workingRun (text "r") 1 0) none⟩,⟨1,.streamReset (turnFrame 1)⟩,
    ⟨1,.sessionSnapshot finalSnapshot⟩,⟨1,.streamRevealComplete (text "r")⟩,⟨1,.streamReset (turnFrame 0)⟩] rfl (by decide)
  exact absurd hscreen.ordered (by decide)

end Runs
end HermesEnterprise.Client
