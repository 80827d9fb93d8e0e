import HermesEnterprise.Continuations.Tables
import HermesEnterprise.Foundation.Rewritten

/-! # Admitting a continuation

The checks run in a fixed order, and the first that fails moves the continuation
and its approval. What passes them all gets its budget and one run, whose text
key makes a second one impossible. The hook of the job is never authorization:
everything it says is compared with the approval as it stands.
-/
namespace HermesEnterprise.Continuations
open Approvals Budgets Foundation.Tables Jobs

def defaultMaxTurns : ℕ := 12

/-- The hook of an `approval_continue` job, with the rest of its budget. -/
structure ContinueHook extends ApprovalFinalizedHook where
  budgetRest : Option BudgetRest
  deriving DecidableEq, Repr

/-- The session joined with its agent, its model and the responsible member. -/
structure AdmissionSession where
  readOnly : Bool
  agentStarted : Bool
  responsibleMemberActive : Bool
  modelId : ModelId
  provider : String
  transport : String
  modelDisabled : Bool
  supportsTools : Bool
  deriving DecidableEq, Repr

/-- What admission reads of the deployment and of tables that are not followed here. -/
structure Conditions where
  enginePaused : Bool
  /-- The reason of a refusal by the workspace caps, if any. -/
  capsReason : Option (Option String)
  /-- Requests of other kinds, by their status. -/
  otherRequests : RequestId → Option String
  session : Option AdmissionSession
  providerAllowed : Bool
  modelScripted : Bool
  keyStatus : Option String
  profile : Option String
  capacity : Bool

/-- Where the first failed check moves the continuation. -/
structure Obstacle where
  state : ContinuationState
  reason : String
  deriving DecidableEq, Repr

inductive ContinuationAdmission
  | noIntent (reason : String)
  | blocked (continuationId : Uuid) (reason : String)
  | refused (continuationId : Uuid) (reason : String)
  | admitted (continuationId : Uuid) (runId : RunId)
  | alreadyAdmitted (continuationId : Uuid) (runId : RunId) (attempt : ℕ)
  deriving DecidableEq, Repr

/-- An identity text in the order of `sort`; only equality of the sorted lists is asked. -/
def sortedIds (ids : List RequestId) : List RequestId := ids.insertionSort (· ≤ ·)

def terminalState : ApprovalStatus → ContinuationState
  | .declined => .declined
  | .changesRequested => .changesRequested
  | .expired => .expired
  | .withdrawn => .cancelled
  | .pending | .approved => .superseded

/-- How the hook differs from the approval as it stands. -/
def currentHookBinding (hook : ContinueHook) (view : ApprovalView) : Option String :=
  let context := view.payload.context
  let authorization := view.payload.authorization
  if view.requestId ≠ hook.requestId then some "approval_identity_changed"
  else if view.status ≠ .approved then some ("authorization_" ++ statusText view.status)
  else if view.payload.approvalType ≠ hook.approvalType then some "approval_type_changed"
  else if authorization.revision ≠ hook.authorizationRevision ∨ authorization.hash ≠ hook.authorizationHash ∨
      authorization.expiresAt ≠ hook.expiresAt then some "authorization_revision_changed"
  else if context.requester.agentId ≠ hook.requesterAgentId ∨
      context.requester.memberId ≠ hook.requesterMemberId ∨ context.sessionId ≠ hook.sourceSessionId ∨
      context.runId ≠ hook.sourceRunId then some "approval_source_changed"
  else if view.finalizedAt ≠ some hook.finalizedAt then some "approval_finalization_changed"
  else if sortedIds hook.dependentRequestIds ≠ sortedIds context.dependentRequestIds then
    some "approval_dependencies_changed"
  else none

/-- How the hook differs from the approval or from the intent. -/
def exactBinding (hook : ContinueHook) (view : ApprovalView) (intent : Intent) : Option String :=
  match currentHookBinding hook view with
  | some reason => some reason
  | none =>
    if intent.row.authorizationRevision ≠ hook.authorizationRevision ∨
        intent.row.authorizationHash ≠ hook.authorizationHash ∨ intent.row.expiresAt ≠ hook.expiresAt then
      some "continuation_revision_changed"
    else if intent.sourceRunId ≠ hook.sourceRunId then some "continuation_source_changed"
    else if intent.row.agentId ≠ hook.requesterAgentId ∧
        intent.row.agentId ∉ view.payload.context.targetAgentIds then
      some "continuation_target_not_authorized"
    else if sortedIds hook.dependentRequestIds ≠ sortedIds intent.dependencyRequestIds then
      some "continuation_dependencies_changed"
    else none

def stopIf (condition : Bool) (state : ContinuationState) (reason : String) : Option Obstacle :=
  if condition then some ⟨state,reason⟩ else none

section Checks
variable (rt : Runtime) (w : World) (hook : ContinueHook) (view : ApprovalView) (intent : Intent)
variable (c : Conditions)

def bindingKey (b : ApprovalResourceBinding) : String := b.kind.text ++ ":" ++ b.id

/-- The bindings by their key, in the order of `localeCompare`. -/
def sortedBindings (bindings : List ApprovalResourceBinding) : List ApprovalResourceBinding :=
  bindings.insertionSort fun a b => !rt.platform.localeBefore (bindingKey b) (bindingKey a)

/-- The approval is the one the continuation was proposed under, and its resources are unchanged. -/
def bindingObstacle : Option Obstacle :=
  (exactBinding hook view intent).map (fun reason => ⟨terminalState view.status,reason⟩) <|>
  stopIf (hook.expiresAt ≤ w.db.now) .expired "authorization_expired" <|>
  stopIf (hook.approvalType ≠ .runPlan) .failed "approval_type_has_no_runtime_executor" <|>
  stopIf (view.payload.resourceBindings.any fun b => !b.immutable) .failed "reviewed_resource_is_mutable" <|>
  stopIf (sortedBindings rt hook.resourceBindings ≠ sortedBindings rt view.payload.resourceBindings)
    .superseded "resource_binding_hook_changed" <|>
  (resourceBindingDrift rt.platform w.db.directory view.payload).map (fun reason => ⟨.failed,reason⟩)

def sourceStopped : Bool :=
  intent.sourceRunId.any fun id =>
    match w.run id with
    | none => true
    | some r => r.row.stopRequested || r.row.status = .stopped

def acceptedDependencyStatuses : List String := ["approved","admitted","created","drafted"]

def dependencyStatus (id : RequestId) : String :=
  match w.db.requests id with
  | some row => statusText row.requestStatus
  | none => (c.otherRequests id).getD "missing"

def dependencyReady (id : RequestId) : Bool := dependencyStatus w c id ∈ acceptedDependencyStatuses

/-- The deployment, the caps, the run that asked, and the requests this one waits for. -/
def environmentObstacle : Option Obstacle :=
  stopIf c.enginePaused .blockedProfile "engine_paused" <|>
  c.capsReason.map (fun reason =>
    ⟨.blockedDependencies,"workspace_" ++ reason.getD "cap_exceeded"⟩) <|>
  stopIf (sourceStopped w intent) .cancelled "source_run_stopped" <|>
  (hook.dependentRequestIds.find? fun id => !dependencyReady w c id).map fun id =>
    ⟨.blockedDependencies,"dependency_not_ready:" ++ rt.platform.uuidText id⟩

def runtimeModel (s : AdmissionSession) : Bool :=
  (s.provider = "openrouter" && s.transport = "openrouter_chat") ||
    (s.provider = "nous_portal" && s.transport = "nous_chat")

/-- The session, its agent and its model, the key, the runtime profile, and a free agent. -/
def sessionObstacle (s : AdmissionSession) : Option Obstacle :=
  stopIf (s.readOnly || !s.agentStarted || !s.responsibleMemberActive) .failed
    "agent_or_session_not_available" <|>
  stopIf (!runtimeModel s || s.modelDisabled || !s.supportsTools || !c.providerAllowed) .failed
    "approved_model_not_runtime_supported" <|>
  stopIf (!c.modelScripted && !(c.keyStatus.any fun k => k ∈ ["verified","verified_scoped"]))
    .blockedProfile "provider_key_not_verified" <|>
  stopIf c.profile.isNone .blockedProfile "runtime_profile_not_configured" <|>
  stopIf (c.profile ≠ some intent.row.runtimeProfile) .failed "runtime_profile_binding_changed" <|>
  stopIf (w.busy intent.row.agentId) .blockedDependencies "runtime_profile_busy"

/-- The budget that was reviewed, of a run plan. -/
def reviewedBudget (payload : ApprovalPayload) : Option (RunPlanBudget × BudgetRest) :=
  match payload.details with
  | .runPlan _ budget => some (budget,rt.budgetRest payload)
  | _ => none

def enforceable (s : AdmissionSession) (b : RunPlanBudget × BudgetRest) : Bool :=
  !view.payload.illustrative && !b.2.illustrative && b.1.currency = "USD" &&
    b.2.retriesIncluded < b.1.callCap && s.modelId ∈ b.1.modelIds

def budgetObstacle (s : AdmissionSession) : Option Obstacle :=
  let reviewed := reviewedBudget rt view.payload
  stopIf (hook.runPlanBudget ≠ reviewed.map Prod.fst ∨ hook.budgetRest ≠ reviewed.map Prod.snd)
    .superseded "run_plan_budget_hook_changed" <|>
  stopIf (!(reviewed.any (enforceable view s))) .failed "approved_budget_not_enforceable" <|>
  stopIf (!c.capacity) .blockedDependencies "platform_capacity" <|>
  stopIf ((budgetOf w.budgetDb intent.row.id).any fun b => b.modelId ≠ s.modelId ||
      b.authorizationHash ≠ hook.authorizationHash ||
      b.authorizationRevision ≠ hook.authorizationRevision) .failed "budget_binding_conflict"

/-- The session and the budget of an admission that nothing prevents. -/
def admissible : Except Obstacle (AdmissionSession × RunPlanBudget × BudgetRest) := do
  let clear (o : Option Obstacle) : Except Obstacle Unit := o.elim (.ok ()) .error
  clear (bindingObstacle rt w hook view intent)
  clear (environmentObstacle rt w hook intent c)
  let s ← c.session.elim (.error ⟨.failed,"agent_or_session_not_available"⟩) .ok
  clear (sessionObstacle w intent c s)
  clear (budgetObstacle rt w hook view intent c s)
  let b ← (reviewedBudget rt view.payload).elim (.error ⟨.failed,"approved_budget_not_enforceable"⟩) .ok
  return (s,b)

end Checks

end HermesEnterprise.Continuations
