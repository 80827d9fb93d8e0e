import HermesEnterprise.Foundation.Runs
import HermesEnterprise.Foundation.Tables
import HermesEnterprise.Prompts.SystemPrompt
import HermesEnterprise.RunLog.Validator
import Mathlib.Order.WellFounded

/-! # Guidance

A person's message to a run is stored as streaming. A provider step loads the streaming messages, prints
those that are queued, and marks those that are queued.
-/
namespace HermesEnterprise.Guidance
open Inbound Prompts Foundation Foundation.Runs Foundation.Tables
open RunLog (RunStatus)

/-- What `messages.status` may hold. -/
inductive MessageStatus
  | streaming
  | complete
  | incomplete
  deriving DecidableEq

def MessageStatus.print : MessageStatus → Text
  | .streaming => text "streaming"
  | .complete => text "complete"
  | .incomplete => text "incomplete"

/-- A row of `messages` of the kind `guidance`. -/
structure Message where
  id : ℕ
  seq : ℕ
  body : Text
  status : MessageStatus
  runId : Option ℕ
  turn : Option ℕ
  createdAt : ℕ
  deriving DecidableEq

/-- A run, with the clock at its start. -/
structure RunRow where
  id : ℕ
  status : RunStatus
  createdAt : ℕ
  started : ℕ
  deriving DecidableEq

inductive Outcome
  | running
  | failed
  | succeeded
  deriving DecidableEq

/-- An execution of a provider step: when it began, what it has loaded and printed, and the rows that it
still has to go through, the first of which may already be marked. -/
structure ProviderStep where
  began : ℕ
  runId : ℕ
  turn : ℕ
  guidance : List GuidanceRow
  prompt : List Part
  pending : List GuidanceRow
  marked : Bool
  outcome : Outcome
  deriving DecidableEq

structure Accepted where
  id : ℕ
  runId : ℕ
  committed : ℕ
  deriving DecidableEq

structure AppliedEvent where
  runId : ℕ
  guidanceId : ℕ
  turn : ℕ
  deriving DecidableEq

/-- A session. `clock` counts what has happened. -/
structure World where
  clock : ℕ
  nextSeq : ℕ
  messages : List Message
  runs : List RunRow
  steps : List ProviderStep
  accepted : List Accepted
  applied : List AppliedEvent
  deriving DecidableEq

def World.empty : World := ⟨0,0,[],[],[],[],[]⟩

inductive Failure
  | emptyGuidance
  | runMissing
  | runInFlight
  | stepMissing
  | stepUnfinished
  deriving DecidableEq

def findRun (w : World) (runId : ℕ) : Option RunRow := w.runs.find? fun r => decide (r.id = runId)

/-- The guidance of a run, and what was left for the next run of the session. -/
def loadGuidance (w : World) (run : RunRow) : List GuidanceRow :=
  (w.messages.filter fun m => decide (m.status = .streaming) &&
    (decide (m.runId = some run.id) || (decide (m.runId = none) && decide (m.createdAt ≤ run.createdAt)))).map
    fun m => ⟨m.id,m.body,m.status.print⟩

def markGuidanceApplied (w : World) (runId guidanceId turn : ℕ) : List Message :=
  updateWhere (fun m => decide (m.id = guidanceId) && (decide (m.runId = some runId) || decide (m.runId = none)))
    (fun m => { m with status := .complete, turn := some turn, runId := some runId }) w.messages

/-- A message to a run. When the run has ended, it is left for the next one. -/
def guideRun (w : World) (runId : ℕ) (body : Text) (now : ℕ) : Except Failure World :=
  let body := (trim body).take 4000
  if body.isEmpty then .error .emptyGuidance
  else match findRun w runId with
    | none => .error .runMissing
    | some run =>
      .ok { w with
        nextSeq := w.nextSeq + 1
        messages := w.messages ++
          [⟨w.nextSeq,w.nextSeq,body,.streaming,if run.status.terminal then none else some runId,none,now⟩]
        accepted := w.accepted ++ [⟨w.nextSeq,runId,w.clock⟩] }

def startRun (w : World) (runId now : ℕ) : Except Failure World :=
  if w.runs.any fun r => !r.status.terminal || decide (r.id = runId) then .error .runInFlight
  else .ok { w with runs := w.runs ++ [⟨runId,.working,now,w.clock⟩] }

/-- A provider step up to the answer of the provider. -/
def beginStep (w : World) (runId turn : ℕ) (setup : PromptSetup) (context : List ContextField) : Except Failure World :=
  match findRun w runId with
  | none => .error .runMissing
  | some run =>
    let guidance := loadGuidance w run
    .ok { w with
      steps := w.steps ++
        [⟨w.clock,runId,turn,guidance,buildSystemPrompt setup context guidance,guidance,false,.running⟩] }

def findStep (w : World) (began : ℕ) : Option ProviderStep :=
  w.steps.find? fun s => decide (s.began = began ∧ s.outcome = .running)

def setStep (w : World) (began : ℕ) (f : ProviderStep → ProviderStep) : World :=
  { w with steps := updateWhere (fun s => decide (s.began = began ∧ s.outcome = .running)) f w.steps }

/-- The next row of a step that was answered: one that is not queued is passed over, another is marked, and
then its event is emitted. -/
def nextRow (w : World) (began : ℕ) : Except Failure World :=
  match findStep w began with
  | none => .error .stepMissing
  | some step => match step.pending with
    | [] => .error .stepMissing
    | row :: _ =>
      if row.status ≠ text "queued" then .ok (setStep w began fun s => { s with pending := s.pending.tail })
      else if step.marked then
        .ok { setStep w began (fun s => { s with pending := s.pending.tail, marked := false }) with
          applied := w.applied ++ [⟨step.runId,row.id,step.turn⟩] }
      else .ok { setStep w began (fun s => { s with marked := true }) with
        messages := markGuidanceApplied w step.runId row.id step.turn }

def finishStep (w : World) (began : ℕ) : Except Failure World :=
  match findStep w began with
  | none => .error .stepMissing
  | some step =>
    if step.pending.isEmpty then .ok (setStep w began fun s => { s with outcome := .succeeded })
    else .error .stepUnfinished

inductive Event
  | guideRun (runId : ℕ) (body : Text) (now : ℕ)
  | startRun (runId now : ℕ)
  | setRunStatus (runId : ℕ) (status : RunStatus)
  | beginStep (runId turn : ℕ) (setup : PromptSetup) (context : List ContextField)
  | nextRow (began : ℕ)
  | finishStep (began : ℕ)
  | failStep (began : ℕ)

def tick (result : Except Failure World) : Except Failure World := result.map fun w => { w with clock := w.clock + 1 }

def apply (w : World) : Event → Except Failure World
  | .guideRun runId body now => tick (guideRun w runId body now)
  | .startRun runId now => tick (startRun w runId now)
  | .setRunStatus runId status =>
    tick (.ok { w with runs := updateWhere (fun r => decide (r.id = runId)) (fun r => { r with status := status }) w.runs })
  | .beginStep runId turn setup context => tick (beginStep w runId turn setup context)
  | .nextRow began => tick (nextRow w began)
  | .finishStep began => tick (finishStep w began)
  | .failStep began => tick (.ok (setStep w began fun s => { s with outcome := .failed }))

/-- A provider step that has to apply a message: it succeeded, it began after the message committed, and it
belongs to the run of the message or to a run of the session that started later. -/
def Due (w : World) (message : Accepted) (step : ProviderStep) : Prop :=
  step ∈ w.steps ∧ step.outcome = .succeeded ∧ message.committed < step.began ∧
    (step.runId = message.runId ∨ ∃ run ∈ w.runs, run.id = step.runId ∧ message.committed < run.started)

def FirstDue (w : World) (message : Accepted) (step : ProviderStep) : Prop :=
  Due w message step ∧ ∀ other, Due w message other → step.began ≤ other.began

/-- The first step that has to prints the message and applies it with one event, and no later step prints it. -/
def AppliedOnce (w : World) (message : Accepted) : Prop :=
  ∀ step, FirstDue w message step →
    PrintedAsGuidance step.prompt message.id ∧
      w.applied.filter (fun e => e.guidanceId = message.id) = [⟨step.runId,message.id,step.turn⟩] ∧
      ∀ later ∈ w.steps, step.began < later.began → ¬ PrintedAsGuidance later.prompt message.id

section Steps
variable {w w' : World} {e : Event} {message : Accepted} {reader : ProviderStep}

/-- What is loaded is streaming, so it is not queued. -/
theorem loadGuidance_streaming {run : RunRow} {row : GuidanceRow} (h : row ∈ loadGuidance w run) :
    row.status ≠ text "queued" := by
  obtain ⟨m,hm,rfl⟩ := List.mem_map.mp h
  have hstatus : m.status = .streaming := by
    have hfilter := (List.mem_filter.mp hm).2
    simp only [Bool.and_eq_true, decide_eq_true_eq] at hfilter
    exact hfilter.1
  simp only [hstatus]
  decide

/-- No step has printed or marked a message, or will mark one. -/
structure Unread (w : World) : Prop where
  steps : ∀ step ∈ w.steps, (∀ id, ¬ PrintedAsGuidance step.prompt id) ∧ ∀ row ∈ step.pending, row.status ≠ text "queued"
  applied : w.applied = []

theorem unread_empty : Unread .empty where
  steps _ h := by cases h
  applied := rfl

/-- A change of a step that keeps its prompt and adds no row to go through. -/
theorem Unread.setStep (h : Unread w) (began : ℕ) {f : ProviderStep → ProviderStep}
    (hf : ∀ s, (f s).prompt = s.prompt ∧ ∀ row ∈ (f s).pending, row ∈ s.pending) : Unread (setStep w began f) where
  steps step hstep := by
    obtain ⟨old,hold,-,rfl⟩ | ⟨hold,-⟩ := mem_updateWhere.mp hstep
    · obtain ⟨hprompt,hpending⟩ := hf old
      obtain ⟨hnone,hrows⟩ := h.steps old hold
      rw [hprompt]
      exact ⟨hnone,fun row hrow => hrows row (hpending row hrow)⟩
    · exact h.steps step hold
  applied := h.applied

theorem Unread.beginStep (h : Unread w) {runId turn : ℕ} {setup : PromptSetup} {context : List ContextField}
    (hstep : beginStep w runId turn setup context = .ok w') : Unread w' := by
  unfold Guidance.beginStep at hstep
  split at hstep
  · cases hstep
  · rename_i run _
    cases hstep
    refine ⟨fun step hmem => ?_,h.applied⟩
    obtain hold | hnew := List.mem_append.mp hmem
    · exact h.steps step hold
    · rw [List.mem_singleton.mp hnew]
      refine ⟨fun id hprinted => ?_,fun row hrow => loadGuidance_streaming hrow⟩
      obtain ⟨row,hrow,-⟩ := printedAsGuidance_iff.mp hprinted
      obtain ⟨hloaded,hqueued⟩ := List.mem_filter.mp hrow
      exact loadGuidance_streaming hloaded (of_decide_eq_true hqueued)

theorem Unread.nextRow (h : Unread w) {began : ℕ} (hstep : nextRow w began = .ok w') : Unread w' := by
  unfold Guidance.nextRow at hstep
  split at hstep
  · cases hstep
  · rename_i step hfind
    split at hstep
    · cases hstep
    · rename_i row rest hpending
      have hrow := (h.steps step (List.mem_of_find?_eq_some hfind)).2 row (by rw [hpending]; exact List.mem_cons_self)
      rw [if_pos hrow] at hstep
      cases hstep
      exact h.setStep began fun s => ⟨rfl,fun row hmem => List.mem_of_mem_tail hmem⟩

theorem Unread.finishStep (h : Unread w) {began : ℕ} (hstep : finishStep w began = .ok w') : Unread w' := by
  unfold Guidance.finishStep at hstep
  split at hstep
  · cases hstep
  · split at hstep
    · cases hstep
      exact h.setStep began fun s => ⟨rfl,fun row hmem => hmem⟩
    · cases hstep

theorem Unread.guideRun (h : Unread w) {runId now : ℕ} {body : Text} (hstep : guideRun w runId body now = .ok w') :
    Unread w' := by
  simp only [Guidance.guideRun] at hstep
  split at hstep
  · cases hstep
  · split at hstep
    · cases hstep
    · cases hstep
      exact ⟨h.steps,h.applied⟩

theorem Unread.startRun (h : Unread w) {runId now : ℕ} (hstep : startRun w runId now = .ok w') : Unread w' := by
  unfold Guidance.startRun at hstep
  split at hstep
  · cases hstep
  · cases hstep
    exact ⟨h.steps,h.applied⟩

theorem Unread.tick {result : Except Failure World} (hstep : tick result = .ok w')
    (h : ∀ t, result = .ok t → Unread t) : Unread w' := by
  cases hresult : result with
  | error failure =>
    rw [hresult] at hstep
    cases hstep
  | ok t =>
    rw [hresult] at hstep
    cases hstep
    exact ⟨(h t hresult).steps,(h t hresult).applied⟩

theorem Unread.step (h : Unread w) (hstep : apply w e = .ok w') : Unread w' := by
  cases e with
  | guideRun runId body now => exact .tick hstep fun _ => h.guideRun
  | startRun runId now => exact .tick hstep fun _ => h.startRun
  | setRunStatus runId status =>
    refine .tick hstep fun t ht => ?_
    cases ht
    exact ⟨h.steps,h.applied⟩
  | beginStep runId turn setup context => exact .tick hstep fun _ => h.beginStep
  | nextRow began => exact .tick hstep fun _ => h.nextRow
  | finishStep began => exact .tick hstep fun _ => h.finishStep
  | failStep began =>
    refine .tick hstep fun t ht => ?_
    cases ht
    exact h.setStep began fun s => ⟨rfl,fun row hmem => hmem⟩

theorem exists_firstDue (h : Due w message reader) : ∃ first, FirstDue w message first := by
  obtain ⟨first,hfirst,hmin⟩ := (measure ProviderStep.began).wf.has_min {s | Due w message s} ⟨reader,h⟩
  exact ⟨first,hfirst,fun other hother => Nat.le_of_not_lt (hmin other hother)⟩

/-- A step that has to apply a message does not print it. -/
theorem Unread.not_appliedOnce (h : Unread w) (hdue : Due w message reader) : ¬ AppliedOnce w message := by
  intro honce
  obtain ⟨first,hfirst⟩ := exists_firstDue hdue
  exact (h.steps first hfirst.1.1).1 message.id (honce first hfirst).1

theorem unread {events : List Event} (h : Run (Applied apply) .empty events w) : Unread w :=
  h.invariant unread_empty fun _ _ _ hw hst => hw.step hst

/-- A message is applied as promised exactly when no step has to apply it. -/
theorem appliedOnce_iff {events : List Event} (h : Run (Applied apply) .empty events w) (message : Accepted) :
    AppliedOnce w message ↔ ∀ reader ∈ w.steps, ¬ Due w message reader := by
  constructor
  · exact fun honce reader _ hdue => (unread h).not_appliedOnce hdue honce
  · exact fun hnone reader hfirst => absurd hfirst.1 (hnone reader hfirst.1.1)

end Steps

section Sample

def sampleSetup : PromptSetup := ⟨text "You are Iris.",[],[],none⟩

/-- A message to a working run, and the run's next provider step. -/
def sampleEvents : List Event :=
  [.startRun 1 0,.guideRun 1 (text "Weight the references higher.") 1,.beginStep 1 0 sampleSetup [],.nextRow 2,.finishStep 2]

/-- Before the step ends, nothing is due. -/
theorem appliedOnce_sample :
    AppliedOnce (afterAll apply .empty (sampleEvents.take 4)) ⟨0,1,1⟩ ↔
      ∀ reader ∈ (afterAll apply .empty (sampleEvents.take 4)).steps,
        ¬ Due (afterAll apply .empty (sampleEvents.take 4)) ⟨0,1,1⟩ reader :=
  appliedOnce_iff (run_afterAll (by decide)) _

def sampleReader : ProviderStep :=
  let guidance : List GuidanceRow := [⟨0,text "Weight the references higher.",text "streaming"⟩]
  ⟨2,1,0,guidance,buildSystemPrompt sampleSetup [] guidance,[],false,.succeeded⟩

/-- The next provider step passes the message over. -/
theorem guidance_lost : ∃ w, Run (Applied apply) .empty sampleEvents w ∧
    ∃ message ∈ w.accepted, ¬ AppliedOnce w message := by
  have hrun : Run (Applied apply) .empty sampleEvents (afterAll apply .empty sampleEvents) := run_afterAll (by decide)
  have hdue : Due (afterAll apply .empty sampleEvents) ⟨0,1,1⟩ sampleReader := ⟨by decide,rfl,by decide,.inl rfl⟩
  exact ⟨_,hrun,⟨0,1,1⟩,by decide,(unread hrun).not_appliedOnce hdue⟩

end Sample

end HermesEnterprise.Guidance
