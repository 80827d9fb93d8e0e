import HermesEnterprise.Client.Session

/-! # The reducer of a session

Turns are admitted, runs start and change, text streams in by committed deltas, by previews and by snapshots. An
action that finds nothing to do leaves the session as it is.
-/
namespace HermesEnterprise.Client
open HermesEnterprise.Inbound

section Actions

/-- What addresses a piece of streamed text. -/
structure Frame where
  runId : Id
  turn : ℕ
  stepAttempt : ℕ
  deriving DecidableEq, Repr

/-- The fields a status brings along. Of the nullable ones the outer option tells whether the field is there. -/
structure RunPatch where
  attempt : Option ℕ
  startedAt : Option ℤ
  waitingFor : Option (Option Text)
  waitingLabel : Option (Option Text)
  activeMs : Option (Option ℕ)
  error : Option (Option RunError)
  deriving DecidableEq, Repr

inductive SnapshotStatus
  | streaming | final
  deriving DecidableEq, Repr

structure SnapshotStream where
  runId : Id
  attempt : ℕ
  turn : ℕ
  stepAttempt : ℕ
  messageId : Option Id
  text : Text
  seq : ℤ
  status : SnapshotStatus
  deriving DecidableEq, Repr

structure SessionSnapshot where
  workspaceId : Id
  sessionStatus : Text
  messages : List Message
  run : Option Run
  stream : Option SnapshotStream
  watermark : ℕ
  deriving DecidableEq, Repr

inductive Action
  | turnOptimistic (clientTurnId : Id) (message : Message) (run : Run)
  | turnAccepted (clientTurnId runId : Id) (status : RunStatus) (attempt : ℕ)
  | turnRejected (clientTurnId : Id)
  | runStart (run : Run) (clientTurnId : Option Id)
  | runStatus (runId : Id) (status : RunStatus) (patch : RunPatch)
  | streamReset (frame : Frame)
  | streamDelta (frame : Frame) (delta : Text) (seq : Option ℕ)
  | streamPreview (frame : Frame) (offset : ℕ) (delta : Text)
  | streamFinal (message : Message) (turn : Option ℕ)
  | streamRevealComplete (runId : Id)
  | sessionSnapshot (snapshot : SessionSnapshot)
  | cursorAdvance (id : ℕ)
  deriving DecidableEq, Repr

end Actions

section Turns
variable (s : Session)

def turnOptimistic (clientTurnId : Id) (message : Message) (run : Run) : Session :=
  { s with pendingTurn := some ⟨clientTurnId,none,message,s.status,s.run⟩, run := some run, status := text "Working" }

def pendingIs (clientTurnId : Id) : Bool := s.pendingTurn.any fun pending => decide (pending.clientTurnId = clientTurnId)

def turnAccepted (clientTurnId runId : Id) (status : RunStatus) (attempt : ℕ) : Session :=
  if !pendingIs s clientTurnId then s
  else { s with
    pendingTurn := admitPendingTurn s runId
    run := s.run.map fun run =>
      if run.id = clientTurnId then { run with id := runId, status := status, attempt := attempt } else run }

def turnRejected (clientTurnId : Id) : Session :=
  match s.pendingTurn with
  | none => s
  | some pending =>
    if pending.clientTurnId ≠ clientTurnId then s
    else
      let optimisticRun := s.run.any fun run => decide (run.id = clientTurnId) || decide (some run.id = pending.runId)
      { s with
        pendingTurn := none
        run := if optimisticRun then pending.previousRun else s.run
        status := if optimisticRun then pending.previousStatus else s.status }

end Turns

section Runs
variable (s : Session)

def sameRun (a b : Option Run) : Bool := decide (a.map (fun r => (r.id,r.attempt)) = b.map fun r => (r.id,r.attempt))

def runStart (incoming : Run) (clientTurnId : Option Id) : Session :=
  let sameTurn := clientTurnId.any fun id => !id.isEmpty && pendingIs s id
  let run := mergeRun s.run incoming sameTurn
  { s with
    pendingTurn := if sameTurn then admitPendingTurn s run.id else s.pendingTurn
    run := some run
    status := run.status.word
    stream := if sameRun s.run (some run) then s.stream else none }

/-- `{ ...run, status, ...patch }`, with a fresh record for a newer attempt. -/
def patchedRun (current : Run) (newer : Bool) (status : RunStatus) (patch : RunPatch) : Run :=
  { current with
    steps := if newer then [] else current.steps
    queue := if newer then [] else current.queue
    error := patch.error.getD (if newer then none else current.error)
    startedAt := if patch.startedAt.isSome then patch.startedAt else if newer then none else current.startedAt
    status := status
    attempt := patch.attempt.getD current.attempt
    waitingFor := patch.waitingFor.getD current.waitingFor
    waitingLabel := patch.waitingLabel.getD current.waitingLabel
    activeMs := patch.activeMs.getD current.activeMs }

def runStatus (runId : Id) (status : RunStatus) (patch : RunPatch) : Session :=
  match s.run with
  | none => s
  | some current =>
    if current.id ≠ runId then s
    else
      let newer := decide (current.attempt < patch.attempt.getD current.attempt)
      let run := mergeRun (some current) (patchedRun current newer status patch) false
      { s with status := run.status.word, run := some run, stream := if newer then none else s.stream }

end Runs

section Streams
variable (s : Session)

/-- The run on display is another one, or has ended. -/
def otherOrEnded (runId : Id) : Bool := s.run.any fun run => decide (run.id ≠ runId) || terminalRun run.status

def opened (frame : Frame) (shown durable : Text) (seq : Option ℤ) : StreamAccumulator :=
  ⟨frame.runId,frame.turn,frame.stepAttempt,shown,durable,seq,.streaming⟩

def streamReset (frame : Frame) : Session :=
  if fenced s frame.runId frame.turn || otherOrEnded s frame.runId then s
  else if s.stream.any fun current => decide (current.runId = frame.runId) &&
      (decide (frame.turn < current.turn) || (decide (current.turn = frame.turn) && decide (frame.stepAttempt ≤ current.stepAttempt)))
    then s
  else { s with stream := some (opened frame [] [] (some (-1))) }

/-- Nothing of this frame's run, turn and step attempt is there yet. -/
def opens (frame : Frame) : Bool :=
  s.stream.all fun current => decide (current.runId ≠ frame.runId) || decide (current.turn ≠ frame.turn) ||
    decide (current.stepAttempt < frame.stepAttempt)

def laterTurn (frame : Frame) : Bool :=
  s.stream.any fun current => decide (current.runId = frame.runId) && decide (frame.turn < current.turn)

/-- Previews stay where the committed text does not contradict them. -/
def appendDelta (current : StreamAccumulator) (delta : Text) (seq : Option ℕ) : StreamAccumulator :=
  let durableText := current.durableText ++ delta
  { current with
    text := if durableText.isPrefixOf current.text then current.text else durableText
    durableText := durableText
    seq := (seq.map Int.ofNat).or current.seq }

def streamDelta (frame : Frame) (delta : Text) (seq : Option ℕ) : Session :=
  if fenced s frame.runId frame.turn || otherOrEnded s frame.runId || laterTurn s frame then s
  else if opens s frame then
    if seq.any fun seq => decide (seq ≠ 0) then s
    else { s with stream := some (opened frame delta delta (seq.map Int.ofNat)) }
  else match s.stream with
    | none => s
    | some current =>
      if frame.stepAttempt < current.stepAttempt || decide (current.status ≠ .streaming) then s
      else if seq.any fun seq => decide ((seq : ℤ) ≠ current.seq.getD (-1) + 1) then s
      else { s with stream := some (appendDelta current delta seq) }

/-- A reply of the run was saved, and its text is not what streams. -/
def savedFinal (frame : Frame) : Bool :=
  (s.messages.any fun message => decide (message.runId = some frame.runId) && decide (message.role = .iris) &&
    decide (message.status ≠ .streaming)) &&
  !(s.stream.any fun current => decide (current.runId = frame.runId) && decide (current.turn = frame.turn) &&
    decide (current.status = .streaming))

def overlap (current : StreamAccumulator) (offset : ℕ) (delta : Text) : ℕ := min delta.length (current.text.length - offset)

def streamPreview (frame : Frame) (offset : ℕ) (delta : Text) : Session :=
  if fenced s frame.runId frame.turn || otherOrEnded s frame.runId || savedFinal s frame || laterTurn s frame then s
  else if opens s frame then
    if offset ≠ 0 then s else { s with stream := some (opened frame delta [] (some (-1))) }
  else match s.stream with
    | none => s
    | some current =>
      if frame.stepAttempt < current.stepAttempt || decide (current.text.length < offset) ||
          decide (current.status ≠ .streaming) then s
      else
        let overlap := overlap current offset delta
        if (current.text.drop offset).take overlap ≠ delta.take overlap || decide (overlap = delta.length) then s
        else { s with stream := some { current with text := current.text ++ delta.drop overlap } }

def ofRun (stream : Option StreamAccumulator) (runId : Option Id) : Bool := stream.any fun current => decide (some current.runId = runId)

def finished (message : Message) : StreamStatus :=
  if message.status = .incomplete || message.incomplete then .incomplete else .complete

def streamFinal (message : Message) (turn : Option ℕ) : Session :=
  if message.status = .streaming then s
  else
    { s with
      stream := s.stream.map fun current =>
        if some current.runId = message.runId then
          { current with text := message.text, durableText := message.text, status := finished message }
        else current
      streamFences := match message.runId with
        | none => s.streamFences
        | some runId => addStreamFence s.streamFences runId
            (turn.getD ((s.stream.filter fun current => decide (current.runId = runId)).elim 0 (·.turn)))
      messages := if s.messages.any fun m => decide (m.id = message.id) then
          s.messages.map fun m => if m.id = message.id then message else m
        else s.messages ++ [message] }

def streamRevealComplete (runId : Id) : Session :=
  if s.stream.any fun current => decide (current.runId = runId) && decide (current.status ≠ .streaming)
  then { s with stream := none } else s

/-- Frames touch the accumulator only. -/
theorem streamReset_eq (frame : Frame) : ∃ stream, streamReset s frame = { s with stream := stream } := by
  unfold streamReset
  split
  · exact ⟨s.stream,rfl⟩
  · split
    · exact ⟨s.stream,rfl⟩
    · exact ⟨_,rfl⟩

theorem streamDelta_eq (frame : Frame) (delta : Text) (seq : Option ℕ) :
    ∃ stream, streamDelta s frame delta seq = { s with stream := stream } := by
  have hsame : ∃ stream, s = { s with stream := stream } := ⟨s.stream,rfl⟩
  unfold streamDelta
  split
  · exact hsame
  · split
    · split
      · exact hsame
      · exact ⟨_,rfl⟩
    · split
      · exact hsame
      · split
        · exact hsame
        · split
          · exact hsame
          · exact ⟨_,rfl⟩

theorem streamPreview_eq (frame : Frame) (offset : ℕ) (delta : Text) :
    ∃ stream, streamPreview s frame offset delta = { s with stream := stream } := by
  have hsame : ∃ stream, s = { s with stream := stream } := ⟨s.stream,rfl⟩
  unfold streamPreview
  split
  · exact hsame
  · split
    · split
      · exact hsame
      · exact ⟨_,rfl⟩
    · split
      · exact hsame
      · split
        · exact hsame
        · dsimp only
          split
          · exact hsame
          · exact ⟨_,rfl⟩

theorem streamRevealComplete_eq (runId : Id) : ∃ stream, streamRevealComplete s runId = { s with stream := stream } := by
  unfold streamRevealComplete
  split
  · exact ⟨none,rfl⟩
  · exact ⟨s.stream,rfl⟩

theorem streamFinal_eq (message : Message) (turn : Option ℕ) : ∃ stream fences messages,
    streamFinal s message turn = { s with stream := stream, streamFences := fences, messages := messages } := by
  unfold streamFinal
  split
  · exact ⟨s.stream,s.streamFences,s.messages,rfl⟩
  · exact ⟨_,_,_,rfl⟩

end Streams

section Snapshots

/-- `Map.set`, in insertion order. -/
def setMessage (messages : List Message) (message : Message) : List Message :=
  if messages.any fun m => decide (m.id = message.id) then messages.map fun m => if m.id = message.id then message else m
  else messages ++ [message]

/-- A complete message keeps its text. The assistant's placeholder is left to the accumulator. -/
def mergeMessage (messages : List Message) (message : Message) : List Message :=
  let kept := (messages.find? fun m => m.id = message.id).any fun previous => decide (previous.status = .complete) &&
    (decide (message.status ≠ .complete) || decide (message.text.length < previous.text.length))
  if kept || (decide (message.role = .iris) && decide (message.status = .streaming)) then messages
  else setMessage messages (if message.status = .incomplete then { message with incomplete := true } else message)

def mergedMessages (s : Session) (items : List Message) : List Message :=
  items.foldl mergeMessage (s.messages.foldl setMessage [])

def isGuidance (message : Message) : Bool := decide (message.role = .user) && decide (message.kind = some (text "guidance"))

/-- The last guidance in the transcript, for a response without the projection. -/
def latestGuidance (messages : List Message) (run : Run) : Option Guidance :=
  let latest := (messages.filter fun m => isGuidance m && decide (m.runId = some run.id)).foldl (fun best m =>
    match best with
    | none => some m
    | some b => if b.seq < m.seq then some m else some b) (none : Option Message)
  latest.map fun m => ⟨m.id,m.text,if m.status = .complete then .applied else .pending⟩

/-- The guidance that a snapshot leaves, and the transcript with what it applied. -/
def projectGuidance (s : Session) (run incoming : Run) (messages : List Message) : Option Guidance × List Message :=
  let current : Option Guidance := if sameRun s.run (some run) then (s.run.bind (·.guidance)).join else none
  let guidance := match incoming.guidance with
    | none => latestGuidance messages run
    | some guidance => guidance
  let guidance := if guidance.isNone && current.any (fun g => (text "pending-").isPrefixOf g.id) then current else guidance
  let guidance := guidance.map fun g =>
    if (messages.find? fun m => m.id = g.id).any (fun m => decide (m.status = .complete)) ||
        current.any (fun c => decide (c.id = g.id) && decide (c.status = .applied)) then { g with status := .applied } else g
  let messages := match guidance with
    | some g => if g.status = .applied then messages.map fun m =>
        if m.id = g.id && isGuidance m then { m with status := .complete, runId := some run.id } else m
      else messages
    | none => messages
  (guidance,messages)

/-- The accumulator is further on than the snapshot's text. -/
def furtherOn (stream : Option StreamAccumulator) (incoming : SnapshotStream) : Bool :=
  stream.any fun current => decide (current.runId = incoming.runId) && (decide (incoming.turn < current.turn) ||
    (decide (current.turn = incoming.turn) && decide (incoming.stepAttempt < current.stepAttempt)))

def sameStream (stream : Option StreamAccumulator) (incoming : SnapshotStream) : Option StreamAccumulator :=
  stream.filter fun current => decide (current.runId = incoming.runId) && decide (current.turn = incoming.turn) &&
    decide (current.stepAttempt = incoming.stepAttempt)

/-- The longer of what is shown and what the snapshot brings. -/
def streamedText (stream : Option StreamAccumulator) (incoming : SnapshotStream) : StreamAccumulator :=
  match sameStream stream incoming with
  | some current =>
    ⟨incoming.runId,incoming.turn,incoming.stepAttempt,
      if incoming.text.isPrefixOf current.text then current.text else incoming.text,
      if incoming.text.isPrefixOf current.durableText then current.durableText else incoming.text,
      some (max (current.seq.getD (-1)) incoming.seq),.streaming⟩
  | none =>
    ⟨incoming.runId,incoming.turn,incoming.stepAttempt,incoming.text,incoming.text,some incoming.seq,.streaming⟩

/-- The authoritative row wins over the text in the snapshot. -/
def finalText (stream : Option StreamAccumulator) (incoming : SnapshotStream) (messages : List Message) :
    Option StreamAccumulator :=
  let message := incoming.messageId.bind fun id => messages.find? fun m => m.id = id
  let words := (message.filter fun m => m.status = .complete).elim incoming.text (·.text)
  let status := if message.any fun m => decide (m.status = .incomplete) then StreamStatus.incomplete else .complete
  stream.map fun current =>
    if current.runId = incoming.runId then { current with text := words, durableText := words, status := status } else current

/-- `run` is the run after the merge, and `known` the accumulator of the same attempt. -/
def snapshotStream (known : Option StreamAccumulator) (run : Option Run) (incoming : Option SnapshotStream)
    (messages : List Message) : Option StreamAccumulator :=
  let ended := run.all fun run => terminalRun run.status
  match incoming with
  | none => if ended then none else known
  | some incoming =>
    match incoming.status with
    | .streaming => if ended then none else if furtherOn known incoming then known else some (streamedText known incoming)
    | .final => if furtherOn known incoming then known else finalText known incoming messages

def maxSafeInteger : ℕ := 9007199254740991

/-- A row without a number comes half a place after the message its run answers. -/
def order (messages : List Message) (message : Message) : ℕ :=
  if message.seq < maxSafeInteger then 2 * message.seq
  else 2 * ((messages.find? fun m => decide (m.role = .user) && decide (m.runId = message.runId)).elim
    (maxSafeInteger - 1) (·.seq)) + 1

/-- An admission in flight may postdate the snapshot. -/
def pendingNewer (s : Session) (snapshot : SessionSnapshot) : Bool :=
  s.pendingTurn.any fun pending => pending.runId.all fun runId => decide (some runId ≠ snapshot.run.map (·.id))

/-- The run that a snapshot leaves, before its guidance. -/
def mergedRun (s : Session) (snapshot : SessionSnapshot) : Option Run :=
  if pendingNewer s snapshot then s.run
  else match snapshot.run with
    | some incoming => some (mergeRun s.run incoming false)
    | none => s.run

def guidedRun (s : Session) (snapshot : SessionSnapshot) (messages : List Message) : Option Run × List Message :=
  match snapshot.run,mergedRun s snapshot with
  | some incoming,some run =>
    if pendingNewer s snapshot then (some run,messages)
    else
      let guidance := projectGuidance s run incoming messages
      (some { run with guidance := some guidance.1 },guidance.2)
  | _,run => (run,messages)

/-- The session that a snapshot leaves. Its row sets the status where there is no run. -/
def mergeSnapshot (s : Session) (snapshot : SessionSnapshot) : Session :=
  let run := mergedRun s snapshot
  let guided := guidedRun s snapshot (mergedMessages s snapshot.messages)
  let ordered := guided.2.insertionSort fun a b => order guided.2 a ≤ order guided.2 b
  { s with
    messages := ordered
    run := guided.1
    stream := if !pendingNewer s snapshot && decide (run.map (·.id) = snapshot.run.map (·.id)) then
        snapshotStream (if sameRun s.run run then s.stream else none) run snapshot.stream guided.2
      else s.stream
    pendingTurn := if ordered.any fun message => confirmsPendingTurn s.pendingTurn message none then none else s.pendingTurn
    status := run.elim snapshot.sessionStatus (·.status.word) }

end Snapshots

section View

/-- One session, its agent as far as it is known, and how far its stream was read. -/
structure View where
  workspaceId : Id
  agentId : Option Id
  session : Session
  cursor : ℕ
  deriving DecidableEq, Repr

def supersededRun (current incoming : Option Run) : Bool :=
  current.any fun current => incoming.any fun incoming => decide (current.id = incoming.id) && decide (incoming.attempt < current.attempt)

/-- A snapshot of another workspace, of an earlier point of the stream or of a superseded attempt. -/
def outdated (v : View) (snapshot : SessionSnapshot) : Bool :=
  decide (snapshot.workspaceId ≠ v.workspaceId) || decide (snapshot.watermark < v.cursor) ||
    supersededRun v.session.run snapshot.run

def sessionSnapshot (v : View) (snapshot : SessionSnapshot) : View :=
  if outdated v snapshot then v
  else { v with session := mergeSnapshot v.session snapshot, cursor := snapshot.watermark }

def reduceSession (s : Session) : Action → Session
  | .turnOptimistic clientTurnId message run => turnOptimistic s clientTurnId message run
  | .turnAccepted clientTurnId runId status attempt => turnAccepted s clientTurnId runId status attempt
  | .turnRejected clientTurnId => turnRejected s clientTurnId
  | .runStart run clientTurnId => runStart s run clientTurnId
  | .runStatus runId status patch => runStatus s runId status patch
  | .streamReset frame => streamReset s frame
  | .streamDelta frame delta seq => streamDelta s frame delta seq
  | .streamPreview frame offset delta => streamPreview s frame offset delta
  | .streamFinal message turn => streamFinal s message turn
  | .streamRevealComplete runId => streamRevealComplete s runId
  | .sessionSnapshot _ => s
  | .cursorAdvance _ => s

def reduce (v : View) : Action → View
  | .sessionSnapshot snapshot => sessionSnapshot v snapshot
  | .cursorAdvance id => if id ≤ v.cursor then v else { v with cursor := id }
  | action => { v with session := reduceSession v.session action }

end View
end HermesEnterprise.Client
