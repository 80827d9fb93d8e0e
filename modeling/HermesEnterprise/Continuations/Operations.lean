import HermesEnterprise.Continuations.Admission

/-! # The continuation transactions

The intent of a proposal, the delivery of the follow-on job, and the retry of a
run. Each commits its writes or changes nothing; a blocked or refused admission
commits where it moved the continuation.
-/
namespace HermesEnterprise.Continuations
open Approvals Budgets Foundation.Tables Jobs

section Moves
variable (w : World)

/-- `slice(0, 1000)`. -/
def clip (reason : String) : String := String.ofList (reason.toList.take 1000)

def workAfter : ContinuationState → WorkStatus
  | .blockedProfile | .blockedDependencies | .ready => .waiting
  | _ => .cancelled

/-- Move a continuation that is not admitted, and its approval at the same revision. -/
def move (intent : Intent) (o : Obstacle) : World :=
  let c := intent.row
  (w.setIntent (fun i => decide (i.row.id = c.id) && decide (i.row.state ≠ .admitted)) fun k =>
      { k with state := o.state, blockedReason := some (clip o.reason) }).setApproval c.requestId fun ar =>
    if ar.authorizationRevision = c.authorizationRevision then
      ApprovalRow.rework ar (workAfter o.state) (some (clip o.reason)) (some c.id)
    else ar

/-- A blocked admission is delivered again, a refused one is over. -/
def moved (intent : Intent) (o : Obstacle) : World × ContinuationAdmission :=
  (move w intent o,
    if o.state = .blockedProfile ∨ o.state = .blockedDependencies then .blocked intent.row.id o.reason
    else .refused intent.row.id o.reason)

end Moves

section Admit
variable (rt : Runtime) (w : World) (hook : ContinueHook) (view : ApprovalView) (intent : Intent)

/-- The caps of the inserted budget, with the checks of their columns. -/
def reviewedCaps (b : RunPlanBudget) (rest : BudgetRest) : Result BudgetCaps := do
  raiseIf (10 ^ 14 ≤ b.capMinor * 10 ^ 6) "numeric field overflow"
  raiseIf (2 ^ 31 ≤ b.maxOutputTokensPerCall) "integer out of range"
  if h : 0 < b.totalTokenCap ∧ 0 < b.callCap ∧ 0 < b.maxOutputTokensPerCall ∧ 0 < b.maxParallelCalls then
    return {
      costCap := b.capMinor * 10 ^ 6
      totalTokenCap := b.totalTokenCap
      callCap := b.callCap
      maxOutputTokensPerCall := b.maxOutputTokensPerCall
      maxParallelCalls := min 1 b.maxParallelCalls
      retryCap := rest.retriesIncluded
      costCap_nonneg := by positivity
      totalTokenCap_pos := by exact_mod_cast h.1
      callCap_pos := h.2.1
      maxOutputTokensPerCall_pos := by exact_mod_cast h.2.2.1
      maxParallelCalls_pos := lt_min Nat.one_pos h.2.2.2 }
  else .error (.error "approval_runtime_budgets_check")

def insertBudget (s : AdmissionSession) (b : RunPlanBudget) (rest : BudgetRest) : Result World := do
  let caps ← reviewedCaps b rest
  let opened ← openBudget w.budgetDb ⟨intent.row.id,hook.requestId,hook.authorizationRevision,
    hook.authorizationHash,s.modelId,caps⟩
  return w.withBudgets opened

def continuationTurn : ClientTurn := .continuation intent.row.id hook.authorizationRevision

/-- The run `ON CONFLICT (session_id, client_turn_id)` finds. -/
def priorRun : Option Run :=
  w.runs.find? fun r => decide (r.row.sessionId = intent.row.sessionId) &&
    decide (r.clientTurn = continuationTurn hook intent)

def continuedRun (s : AdmissionSession) (b : RunPlanBudget) : Run where
  id := w.nextId
  clientTurn := continuationTurn hook intent
  maxTurns := min defaultMaxTurns b.callCap
  row :=
    { status := .working
      stopRequested := false
      runtimeKind := .hermes
      agentId := intent.row.agentId
      sessionId := intent.row.sessionId
      runtimeProfile := some intent.row.runtimeProfile
      modelId := s.modelId
      attempt := 1 }

/-- The reviewed payload, not model-authored hidden instructions, seeds the new run. -/
def reviewedContinuationMessage : ReviewedMessage where
  requestId := view.requestId
  authorization := view.payload.authorization
  proposal := view.payload.toApprovalProposal
  resourceBindings := view.payload.resourceBindings

def insertRun (s : AdmissionSession) (b : RunPlanBudget) : World :=
  { w with
    nextId := w.nextId + 1
    runs := w.runs ++ [continuedRun w hook intent s b]
    messages := w.messages ++
      [⟨w.nextId,intent.row.sessionId,reviewedContinuationMessage view⟩] }

/-- The approval still authorizes what was admitted, at the same revision and hash. -/
def authorizedRow (ar : ApprovalRow) : Bool :=
  ar.authorizationRevision = hook.authorizationRevision && ar.authorizationHash = hook.authorizationHash &&
    ar.status = .approved

/-- Link the run to the continuation, and the continuation to the approval. -/
def finish (runId : RunId) (created : Bool) : Result World := do
  raiseIf (w.intents.any fun i => decide (i.row.id ≠ intent.row.id) && decide (i.row.admittedRunId = some runId))
    "approval_continuations_admitted_run_key"
  raiseIf (!((w.db.requests hook.requestId).any (authorizedRow hook))) "approval_continuation_projection_stale"
  let retryCap := ((budgetOf w.budgetDb intent.row.id).map fun b => b.caps.retryCap).getD 0
  let linked := (w.setIntent (fun i => decide (i.row.id = intent.row.id) && decide (i.row.state ≠ .admitted))
      fun k => { k with state := .admitted, admittedRunId := some runId, blockedReason := none }).setApproval
    hook.requestId fun ar =>
      if authorizedRow hook ar then ApprovalRow.rework ar .admitted none (some intent.row.id) else ar
  return { linked with
    admissions := w.admissions ++ [⟨intent.row.id,hook.requestId,hook.authorizationRevision,
      hook.authorizationHash,runId,retryCap,created⟩] }

/-- The run of an admission: the one with its key, or a new one where the session is free. -/
def startContinuation (s : AdmissionSession) (b : RunPlanBudget) :
    Result (World × ContinuationAdmission) :=
  match priorRun w hook intent with
  | some r => do
    let next ← finish w hook intent r.id false
    return (next,.alreadyAdmitted intent.row.id r.id 1)
  | none =>
    if w.liveInSession intent.row.sessionId w.nextId then
      .ok (moved w intent ⟨.blockedDependencies,"session_run_in_flight"⟩)
    else do
      let next ← finish (insertRun w hook view intent s b) hook intent w.nextId true
      return (next,.admitted intent.row.id w.nextId)

/-- The final states, in which no delivery starts anything. -/
def ended : ContinuationState → Bool
  | .completed | .declined | .changesRequested | .expired | .superseded | .cancelled | .failed => true
  | .pendingAuthorization | .blockedProfile | .blockedDependencies | .ready | .admitted => false

/-- An approval without a continuation is complete. -/
def completeWithout : World × ContinuationAdmission :=
  match currentHookBinding hook view with
  | some reason => (w,.noIntent reason)
  | none =>
    (w.setApproval hook.requestId fun ar =>
      if authorizedRow hook ar then
        { ar with workStatus := .completed, workReason := some "no_runtime_continuation_requested" }
      else ar,.noIntent "approval has no continuation intent")

def admitApprovalContinuation (c : Conditions) : Result (World × ContinuationAdmission) :=
  match w.intents.find? fun i => decide (i.row.requestId = hook.requestId) &&
      decide (i.row.authorizationRevision = hook.authorizationRevision) with
  | none => .ok (completeWithout w hook view)
  | some intent =>
    match (if intent.row.state = .admitted then intent.row.admittedRunId else none) with
    | some runId =>
      match w.run runId with
      | some r => .ok (w,.alreadyAdmitted intent.row.id r.id r.row.attempt)
      | none => .ok (moved w intent ⟨.failed,"admitted_run_missing"⟩)
    | none =>
      if ended intent.row.state then
        .ok (w,.refused intent.row.id ("continuation_" ++ intent.row.state.text))
      else match admissible rt w hook view intent c with
        | .error o => .ok (moved w intent o)
        | .ok (s,b,rest) => do
          let next ← insertBudget w hook intent s b rest
          startContinuation next hook view intent s b

/-- One delivery of the follow-on job. A blocked one fails afterwards, and is delivered again. -/
def runApprovalContinue (c : Conditions) : Result (World × ContinuationAdmission) := do
  let current ← loadApprovalView w.db hook.requestId none
  admitApprovalContinuation rt w hook current c

end Admit

section Propose
variable (rt : Runtime) (w : World)

/-- The continuation an agent asks for with its proposal, and what the target session is. -/
structure ContinuationRequest where
  runId : RunId
  toolCallId : String
  requesterAgentId : AgentId
  sourceSessionId : SessionId
  targetAgentId : AgentId
  targetSessionId : SessionId
  /-- The agent of the target session and whether it is read-only. -/
  targetSession : Option (Option AgentId × Bool)
  watchRun : Bool
  deriving DecidableEq, Repr

def newIntent (input : ContinuationRequest) (view : ApprovalView) : Intent where
  row :=
    { id := w.nextId
      requestId := view.requestId
      authorizationRevision := view.payload.authorization.revision
      authorizationHash := view.payload.authorization.hash
      agentId := input.targetAgentId
      sessionId := input.targetSessionId
      runtimeProfile := "agent-" ++ rt.platform.uuidText input.targetAgentId
      state := .pendingAuthorization
      expiresAt := view.payload.authorization.expiresAt
      admittedRunId := none
      blockedReason := none }
  sourceRunId := some input.runId
  sourceToolCallId := some input.toolCallId
  dependencyRequestIds := view.payload.context.dependentRequestIds

/-- Record a revision-bound intent, or find the one this call recorded. -/
def persistApprovalContinuation (input : ContinuationRequest) (view : ApprovalView) : Result World :=
  match w.intents.find? fun i => decide (i.sourceRunId = some input.runId) &&
      decide (i.sourceToolCallId = some input.toolCallId) with
  | some prior => do
    raiseIf (prior.row.requestId ≠ view.requestId ||
        prior.row.authorizationRevision ≠ view.payload.authorization.revision ||
        prior.row.agentId ≠ input.targetAgentId || prior.row.sessionId ≠ input.targetSessionId)
      "approval_continuation_replay_conflict"
    return w
  | none => do
    raiseIf (view.status ≠ .pending || view.payload.context.requester.agentId ≠ input.requesterAgentId ||
        view.payload.context.runId ≠ some input.runId ||
        view.payload.context.sessionId ≠ some input.sourceSessionId)
      "approval_continuation_source_mismatch"
    raiseIf (input.targetAgentId ≠ input.requesterAgentId &&
        input.targetAgentId ∉ view.payload.context.targetAgentIds)
      "approval_continuation_target_not_authorized"
    raiseIf (input.targetSession ≠ some (some input.targetAgentId,false))
      "approval_continuation_target_session_invalid"
    raiseIf (w.intents.any fun i => decide (i.row.requestId = view.requestId) &&
        decide (i.row.authorizationRevision = view.payload.authorization.revision))
      "approval_continuations_revision"
    return { w with nextId := w.nextId + 1, intents := w.intents ++ [newIntent rt w input view] }

/-- A proposal of an agent, with the continuation it asks for. -/
def proposeWithContinuation (context : ApprovalProposerContext) (input : ProposeApprovalInput)
    (continuation : ContinuationRequest) : Result World := do
  raiseIf continuation.watchRun "invalid_partner_watch_review: A partner watch cannot create another run."
  let (db,view) ← proposeApproval rt.platform w.db context input
  persistApprovalContinuation rt { w with db := db } continuation view

end Propose

section Retry
variable (w : World)

/-- The continuation a run was admitted for, where its approval is still at the same revision and hash. -/
def linkedContinuation (runId : RunId) : Option (Intent × ApprovalRow) :=
  w.intents.findSome? fun i =>
    if i.row.admittedRunId = some runId then
      ((w.db.requests i.row.requestId).filter fun ar =>
        ar.authorizationRevision = i.row.authorizationRevision &&
          ar.authorizationHash = i.row.authorizationHash).map fun ar => (i,ar)
    else none

/-- Why an approved run may not start this attempt. -/
def approvalContinuationRetryBlock (runId : RunId) (nextAttempt : ℕ) : World × Option String :=
  match linkedContinuation w runId with
  | none => (w,none)
  | some (i,ar) =>
    let budget := budgetOf w.budgetDb i.row.id
    if i.row.state ≠ .admitted ∨ ar.status ≠ .approved ∨ ar.workStatus ≠ .admitted then
      (w,some "approval_retry_authorization_stale")
    else if i.row.expiresAt ≤ w.db.now then (w,some "approval_retry_authorization_expired")
    else match budget with
      | none => (w,some "approval_retry_budget_exhausted")
      | some b =>
        if b.state ≠ .active then (w,some "approval_retry_budget_exhausted")
        else if b.caps.retryCap + 1 < nextAttempt then (w,some "approval_retry_limit")
        else (w.setApproval i.row.requestId fun row => { row with workReason := none },none)

/-- Another attempt of a run. `other` is a refusal by one of the checks that read nothing of this world. -/
def retryTask (runId : RunId) (expectedAttempt : Option ℕ) (other : Option String) : Result World := do
  let r ← found (w.run runId) "unknown_run"
  if expectedAttempt.any fun e => r.row.attempt = e + 1 then return w
  else
    raiseIf (expectedAttempt.any fun e => r.row.attempt ≠ e) "stale_attempt"
    raiseIf (live r.row.status) "run_active"
    raiseIf (r.row.status = .completed) "run_completed"
    raiseIf other.isSome (other.getD "")
    let (next,block) := approvalContinuationRetryBlock w runId (r.row.attempt + 1)
    raiseIf block.isSome (block.getD "")
    raiseIf (next.busyBut r.row.agentId runId) "runtime_profile_busy"
    raiseIf (next.liveInSession r.row.sessionId runId) "runs_one_active_per_session"
    return next.setRun runId fun row =>
      { row with attempt := r.row.attempt + 1, status := .working, stopRequested := false }

end Retry

section Runs
variable (w : World)

/-- A run that other code starts: a turn, a triggered task, a triage. -/
structure NewRun where
  clientTurn : ClientTurn
  maxTurns : ℕ
  agentId : AgentId
  sessionId : SessionId
  modelId : ModelId
  runtimeKind : RuntimeKind
  runtimeProfile : Option String
  deriving DecidableEq, Repr

def NewRun.run (new : NewRun) (id : RunId) : Run where
  id := id
  clientTurn := new.clientTurn
  maxTurns := new.maxTurns
  row :=
    { status := .working
      stopRequested := false
      runtimeKind := new.runtimeKind
      agentId := new.agentId
      sessionId := new.sessionId
      runtimeProfile := new.runtimeProfile
      modelId := new.modelId
      attempt := 1 }

/-- The insert of a run, which two unique indexes guard. -/
def startRun (new : NewRun) : Result World := do
  raiseIf (w.runs.any fun r => decide (r.row.sessionId = new.sessionId) && decide (r.clientTurn = new.clientTurn))
    "runs_client_turn_key"
  raiseIf (w.liveInSession new.sessionId w.nextId) "runs_one_active_per_session"
  return { w with nextId := w.nextId + 1, runs := w.runs ++ [new.run w.nextId] }

/-- A change of the status or of the stop flag of a run. -/
def setRunStatus (runId : RunId) (status : RunStatus) (stopRequested : Bool) : Result World := do
  let r ← found (w.run runId) "unknown_run"
  raiseIf (live status && w.liveInSession r.row.sessionId runId) "runs_one_active_per_session"
  return w.setRun runId fun row => { row with status := status, stopRequested := stopRequested }

end Runs

end HermesEnterprise.Continuations
