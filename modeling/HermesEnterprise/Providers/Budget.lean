import HermesEnterprise.Providers.Json

/-! # The request of a budgeted model call

The proxy copies the fields that it knows from a request, narrows the tools, and checks what it forwards
against the reviewed budget before it reserves the call.
-/
namespace HermesEnterprise.Providers
open Inbound

section Context

/-- The states of a continuation, and what a check of a watch answers instead. -/
inductive AuthorizationState
  | pendingAuthorization
  | blockedProfile
  | blockedDependencies
  | ready
  | admitted
  | completed
  | declined
  | changesRequested
  | expired
  | superseded
  | cancelled
  | failed
  | stale
  deriving DecidableEq

inductive BudgetState
  | active
  | exhausted
  | closed
  | cancelled
  deriving DecidableEq

structure Pricing where
  input : Option ℚ
  output : Option ℚ
  cachedInput : Option ℚ

structure RuntimeBudgetContext where
  /-- The kind: a watch, or the continuation of an approval. -/
  partnerWatch : Bool
  budgetId : Option Text
  authorizationState : AuthorizationState
  state : Option BudgetState
  modelId : Option Text
  maxOutputTokensPerCall : Option ℕ
  contextLength : Option ℕ
  pricingVerifiedOn : Option Text
  pricing : Option Pricing

inductive BudgetReason
  | authorizationStale
  | missing
  | exhausted
  | modelMismatch
  | storeUnavailable
  | outputBoundRequired
  | outputBoundExceeded
  | contextBoundUnknown
  | priceUnknown
  deriving DecidableEq

structure RuntimeBudgetError where
  partnerWatch : Bool
  reason : BudgetReason
  deriving DecidableEq

def BudgetReason.text : BudgetReason → String
  | .authorizationStale => "authorization_stale"
  | .missing => "missing"
  | .exhausted => "exhausted"
  | .modelMismatch => "model_mismatch"
  | .storeUnavailable => "store_unavailable"
  | .outputBoundRequired => "output_bound_required"
  | .outputBoundExceeded => "output_bound_exceeded"
  | .contextBoundUnknown => "context_bound_unknown"
  | .priceUnknown => "price_unknown"

def RuntimeBudgetError.text (e : RuntimeBudgetError) : String :=
  (if e.partnerWatch then "partner_watch" else "approval") ++ "_budget_" ++ e.reason.text

def budgetFailure {α : Type} (context : RuntimeBudgetContext) (reason : BudgetReason) :
    Except RuntimeBudgetError α := .error ⟨context.partnerWatch,reason⟩

def finiteNonNegative (value : Option ℚ) : Option ℚ := value.filter fun q => 0 ≤ q

structure CheckedPricing where
  input : ℚ
  output : ℚ
  cachedInput : ℚ

def checkedPricing (context : RuntimeBudgetContext) : Except RuntimeBudgetError CheckedPricing :=
  match context.pricing with
  | none => budgetFailure context .priceUnknown
  | some pricing =>
    if (context.pricingVerifiedOn.getD []).isEmpty then budgetFailure context .priceUnknown
    else match finiteNonNegative pricing.input, finiteNonNegative pricing.output with
      | some input, some output => .ok ⟨input,output,(finiteNonNegative pricing.cachedInput).getD input⟩
      | _, _ => budgetFailure context .priceUnknown

end Context

section Bounds

def maxTokens : Text := text "max_tokens"

def maxCompletionTokens : Text := text "max_completion_tokens"

/-- The larger of the two spellings, where it is a positive integer. -/
def requestedOutputBound (value : Fields) : Option ℕ :=
  ([requiredPositiveInt (get value maxTokens),requiredPositiveInt (get value maxCompletionTokens)].filterMap id).max?

def itemCount (value : Option Json) : ℕ := ((value.bind Json.items?).getD []).length

def inputTokenUpperBound (P : Platform) (value : Fields) : ℕ :=
  byteLength (stringify P (.object value)) +
    128 * (itemCount (get value (text "messages")) + itemCount (get value (text "tools")) + 1)

/-- A streamed call reports its usage. -/
def includeUsage (forwarded : Fields) : Fields :=
  if ((get forwarded (text "stream")).map Json.isTrue).getD false then
    let existing := ((get forwarded (text "stream_options")).bind Json.fields?).getD []
    setEntry forwarded (text "stream_options") (.object (setEntry existing (text "include_usage") (.bool true)))
  else forwarded

def tokens (n : ℕ) : Json := .number (.finite n)

structure PreparedRuntimeBudget where
  context : RuntimeBudgetContext
  inputTokenBound : ℕ
  outputTokenBound : ℕ

/-- The bound of a call, and the request after the reviewed limit stands in one that asks for none. -/
def boundOutput (reviewed : ℕ) (forwarded : Fields) : ℕ × Fields :=
  match requestedOutputBound forwarded with
  | some bound => (bound,forwarded)
  | none => (reviewed,setEntry forwarded maxTokens (tokens reviewed))

/-- The last checks: against the reviewed maximum, the context of the model and the price list. -/
def admitBound (P : Platform) (context : RuntimeBudgetContext) (reviewed bound : ℕ) (forwarded : Fields) :
    Except RuntimeBudgetError PreparedRuntimeBudget :=
  if bound > reviewed then budgetFailure context .outputBoundExceeded
  else
    let estimated := inputTokenUpperBound P forwarded
    let contextLength := context.contextLength.getD 0
    if contextLength = 0 ∨ estimated + bound > contextLength then budgetFailure context .contextBoundUnknown
    else match checkedPricing context with
      | .error failure => .error failure
      | .ok _ => .ok ⟨context,if context.partnerWatch then contextLength - bound else estimated,bound⟩

/-- None for an ordinary run. Otherwise what to reserve, with the request as it will be sent. -/
def prepareRuntimeBudget (P : Platform) (store : Bool) (found : Option RuntimeBudgetContext) (modelId : Text)
    (forwarded : Fields) : Except RuntimeBudgetError (Option PreparedRuntimeBudget × Fields) :=
  match found with
  | none => .ok (none,forwarded)
  | some context =>
    if context.authorizationState ≠ .admitted then budgetFailure context .authorizationStale
    else if (context.budgetId.getD []).isEmpty then budgetFailure context .missing
    else if context.state ≠ some .active then budgetFailure context .exhausted
    else if context.modelId ≠ some modelId then budgetFailure context .modelMismatch
    else if !store then budgetFailure context .storeUnavailable
    else if context.maxOutputTokensPerCall.getD 0 = 0 then budgetFailure context .outputBoundRequired
    else
      let reviewed := context.maxOutputTokensPerCall.getD 0
      let bounded := boundOutput reviewed (includeUsage forwarded)
      match admitBound P context reviewed bounded.1 bounded.2 with
      | .error failure => .error failure
      | .ok prepared => .ok (some prepared,bounded.2)

end Bounds

section Forwarding

/-- The run that calls, as the proxy reads it: whether it is this agent's, working and not asked to stop;
its model and the name under which the catalog and the environment let it be called; whether it may only
respond, reads an untrusted message, or is a watch. -/
structure ActiveRun where
  callable : Bool
  modelId : Text
  wireId : Option Text
  responseOnly : Bool
  intake : Bool
  watch : Bool

def emailIntakeToolNames : List Text := [text "suggest_reply",text "suggest_handoff",text "get_workspace_context"]

def partnerWatchToolNames : List Text :=
  [text "get_workspace_context",text "list_partner_candidates",text "get_partner_candidate",text "propose_approval"]

def nameOf (tool : Json) : Option Text := do
  let tool ← tool.fields?
  let function := ((get tool (text "function")).bind Json.fields?).getD tool
  (← get function (text "name")).text?

def named (names : List Text) (tool : Json) : Bool := (nameOf tool).any fun name => name ∈ names

def toolFields : List Text := [text "tools",text "tool_choice",text "parallel_tool_calls"]

/-- The tools of some names only. -/
def restrictTools (names : List Text) (forwarded : Fields) : Fields :=
  let forwarded := match (get forwarded (text "tools")).bind Json.items? with
    | none => forwarded
    | some tools =>
      let kept := tools.filter (named names)
      if kept.isEmpty then forwarded.filter fun e => e.1 ∉ toolFields
      else setEntry forwarded (text "tools") (.array kept)
  match get forwarded (text "tool_choice") with
  | some (.object choice) =>
    if named names (.object choice) then forwarded
    else setEntry forwarded (text "tool_choice") (.string (text "auto"))
  | _ => forwarded

def restrictToIntakeTools (forwarded : Fields) : Fields := restrictTools emailIntakeToolNames forwarded

def restrictToWatchTools (forwarded : Fields) : Fields := restrictTools partnerWatchToolNames forwarded

/-- The fields that a request may set besides its model and messages. -/
def forwardedFields (responseOnly : Bool) : List Text :=
  (["temperature","top_p","max_tokens","max_completion_tokens","stream","stream_options","reasoning",
    "response_format","stop","seed","frequency_penalty","presence_penalty"].map text) ++
    if responseOnly then [] else toolFields

def copyField (value forwarded : Fields) (key : Text) : Fields :=
  match get value key with
  | some v => setEntry forwarded key v
  | none => forwarded

/-- `reasoning_effort`, where nothing else is said about reasoning. -/
def addReasoning (value forwarded : Fields) : Fields :=
  match get forwarded (text "reasoning"), (get value (text "reasoning_effort")).bind Json.text? with
  | none, some effort => setEntry forwarded (text "reasoning") (.object [(text "effort",.string effort)])
  | _, _ => forwarded

def forward (run : ActiveRun) (value : Fields) (model : Text) (messages : List Json) : Fields :=
  let copied := (forwardedFields run.responseOnly).foldl (copyField value)
    [(text "model",.string model),(text "messages",.array messages)]
  let narrowed := if run.intake then restrictToIntakeTools copied else copied
  let narrowed := if run.watch then restrictToWatchTools narrowed else narrowed
  includeUsage (addReasoning value narrowed)

inductive Refusal
  | badBody
  | runInactive
  | modelForbidden
  | budget (error : RuntimeBudgetError)
  deriving DecidableEq

/-- The call up to its reservation. -/
def prepare (P : Platform) (store : Bool) (run : Option ActiveRun) (found : Option RuntimeBudgetContext)
    (body : Fields) : Except Refusal (Option PreparedRuntimeBudget × Fields) :=
  match (get body (text "model")).bind Json.text?, (get body (text "messages")).bind Json.items? with
  | some model, some messages =>
    match run with
    | none => .error .runInactive
    | some run =>
      if !run.callable then .error .runInactive
      else if run.wireId ≠ some model then .error .modelForbidden
      else match prepareRuntimeBudget P store found run.modelId (forward run body model messages) with
        | .error failure => .error (.budget failure)
        | .ok prepared => .ok prepared
  | _, _ => .error .badBody

end Forwarding

end HermesEnterprise.Providers
