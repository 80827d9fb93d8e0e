import HermesEnterprise.Approvals.Policy
import HermesEnterprise.RunLog.Validator
import Mathlib.Data.List.Sort

/-! # What a failed attempt left behind

Before an attempt is added, the stored work of the run is inspected: paid work, requests
and tool calls that may have changed something block it. What is left to do is given to
the next attempt as its input.
-/
namespace HermesEnterprise.Recovery
open Approvals hiding RunId
open RunLog

/-- Compared as the database compares ids: letter case is ignored. -/
abbrev ScreeningId := String

structure ScreeningRow where
  id : ScreeningId
  agentId : AgentId
  source : String
  status : String
  apiRequestsUsed : ℕ
  agentcashToolCallId : Option String
  runtimeRunId : Option String
  /-- `config_snapshot.minimum_priority`, when it is a number. -/
  minimumPriority : Option ℤ
  deriving DecidableEq, Repr

structure EnrichmentRow where
  agentId : AgentId
  runId : RunId
  pendingKind : Option String
  pendingToolCallId : Option String
  deriving DecidableEq, Repr

structure CandidateRow where
  screeningId : ScreeningId
  candidateId : String
  deterministicPriority : ℤ
  deriving DecidableEq, Repr

/-- The rows that tell what a run has done. `turnCalls` has one entry for each tool call of an
assistant turn, `stepCalls` one for each step of a tool call. -/
structure Evidence where
  screenings : List ScreeningRow
  enrichments : List EnrichmentRow
  requests : List (RunId × String)
  turnCalls : List (RunId × Option String)
  stepCalls : List (RunId × String)
  candidates : List CandidateRow
  deriving DecidableEq, Repr

structure RecoverySafety where
  blockedReason : Option String
  message : Option String
  resumeInput : Option String
  deriving DecidableEq, Repr

/-- Reads, and the focus, which is not kept. -/
def replaySafeTools : List String :=
  ["list_requests","get_request","get_approval_status","get_document_text","get_workspace_context",
    "get_history","list_members","list_partner_candidates","get_partner_candidate","fetch_url",
    "set_focus","skill_view"]

def block (blockedReason message : String) : RecoverySafety := ⟨some blockedReason,some message,none⟩

def responseOnlyRecoveryInput : String := " ".intercalate
  ["Continue the interrupted task using the completed tool results already stored in this session.",
    "Do not repeat completed tool calls or ask for the same approval again.",
    "Finish only the remaining response. If a required result is missing, explain the gap instead of repeating a tool call."]

def isResponseOnlyRecoveryInput (input : Option String) : Bool := input = some responseOnlyRecoveryInput

/-- `/^partner-screening:([0-9a-f-]{36})$/i` -/
def screeningIdOf (clientTurnId : String) : Option ScreeningId :=
  let chars := clientTurnId.toList.map Char.toLower
  let start := "partner-screening:".toList
  let rest := chars.drop start.length
  if start.isPrefixOf chars && rest.length = 36 &&
      rest.all fun c => c.isDigit || ('a' ≤ c && c ≤ 'f') || c = '-' then
    some (String.ofList rest)
  else none

section Inspection
variable (ev : Evidence) (agentId : AgentId) (runId : RunId)

/-- Paid calls of this agent whose results are still due. -/
def pendingPayments : Bool :=
  (ev.screenings.any fun s => decide (s.agentId = agentId) &&
    decide (s.source ∈ ["agentcash_people","agentcash_creators"]) && decide (s.status ≠ "completed") &&
    (decide (0 < s.apiRequestsUsed) || s.agentcashToolCallId.isSome)) ||
  ev.enrichments.any fun e => decide (e.agentId = agentId) &&
    (e.pendingKind.isSome || e.pendingToolCallId.isSome)

/-- What the requests of the run forbid, a pending one first. -/
def requestsBlock : Option RecoverySafety :=
  let statuses := (ev.requests.filter fun r => r.1 = runId).map (·.2)
  if "pending" ∈ statuses then
    some (block "review_pending"
      "This task already created a request. Review it in Inbox before continuing.")
  else if statuses ≠ [] then
    some (block "side_effects_present"
      "This task already created reviewed work. Open its trace to continue without duplicating it.")
  else none

/-- The screening a run works on, when its turn names one. -/
def screeningOf (clientTurnId : String) : Except RecoverySafety (Option ScreeningRow) :=
  match screeningIdOf clientTurnId with
  | none => .ok none
  | some id =>
    match ev.screenings.find? fun s => s.agentId = agentId ∧ s.id = id with
    | none => .error (block "screening_missing" "The stored screening evidence is no longer available.")
    | some s =>
      if s.status ≠ "completed" ∧ s.source ≠ "agentcash_people" then
        .error (block "screening_incomplete"
          "Source discovery needs to finish before Iris can retry its assessment.")
      else if s.status = "failed" then
        .error (block "screening_incomplete"
          "Source discovery needs attention before Iris can retry its assessment.")
      else .ok (some s)

/-- Creator searches and contact results that were already paid for. -/
def otherPaidWork (runtimeRunId : Option String) (screening : Option ScreeningRow) : Bool :=
  let creators := ev.screenings.any fun s => decide (s.agentId = agentId) &&
    decide (s.source = "agentcash_creators") && runtimeRunId.isSome && decide (s.runtimeRunId = runtimeRunId)
  let contacts := ev.enrichments.any fun e => decide (e.agentId = agentId) && decide (e.runId = runId)
  creators || (screening.isNone && contacts)

/-- The tools the run reached, a call without a name among them. -/
def toolCalls : List (Option String) :=
  ((ev.turnCalls.filter fun c => c.1 = runId).map (·.2)) ++
    (ev.stepCalls.filter fun c => c.1 = runId).map fun c => some c.2

def mayHaveChanged (screening : Option ScreeningRow) (name : Option String) : Bool :=
  let completedPaidScreening := screening.any fun s =>
    decide (s.source = "agentcash_people") && decide (s.status = "completed")
  !(name.any (· ∈ replaySafeTools)) &&
    !(decide (name = some "mcp__agentcash__fetch") && completedPaidScreening)

/-- The stored candidates above the threshold, the best first. -/
def candidateIds (screening : ScreeningRow) : List String :=
  ((ev.candidates.filter fun c => decide (c.screeningId = screening.id) &&
      decide (screening.minimumPriority.getD 0 ≤ c.deterministicPriority)).insertionSort
    fun a b => b.deterministicPriority < a.deterministicPriority ∨
      (a.deterministicPriority = b.deterministicPriority ∧ a.candidateId ≤ b.candidateId)).map
    (·.candidateId)

def screeningResumeInput (screening : ScreeningRow) : String := "\n\n".intercalate
  ["Resume the existing authorized partner-screening task " ++ screening.id ++
      ". Source discovery is already completed and its evidence is stored.",
    "Do not repeat source discovery, completed contact enrichment, creator search, or any other paid call. Do not reset payment allowances.",
    if candidateIds ev screening ≠ [] then
      "Use list_partner_candidates and get_partner_candidate to review only these stored candidates: " ++
        ", ".intercalate (candidateIds ev screening) ++ "."
    else "No stored candidate meets the original discovery-priority threshold. Report that result and the evidence gaps; do not start another search.",
    "Apply the configured Partner Program criteria and finish only the remaining authorized assessment using stored evidence and contact results. Cite stored artifact ids and state evidence gaps. Check existing requests before proposing work; reuse existing drafts rather than creating duplicates.",
    "Do not contact anyone, claim a prospect applied, or create an application request for a discovered prospect. Any authorized outreach remains a draft for human review."]

/-- A run in the rows it is inspected by. -/
def inspectRecoverySafety (clientTurnId : String) (runtimeRunId : Option String) : RecoverySafety :=
  if pendingPayments ev agentId then
    block "payment_result_pending"
      "A paid search or contact result still needs recovery. Retry is paused to prevent another charge."
  else
    match requestsBlock ev runId with
    | some blocked => blocked
    | none =>
      match screeningOf ev agentId clientTurnId with
      | .error blocked => blocked
      | .ok screening =>
        if otherPaidWork ev agentId runId runtimeRunId screening then
          block "side_effects_present"
            "This task already performed paid work. Review its stored results before starting another attempt."
        else if (toolCalls ev runId).any (mayHaveChanged screening) then
          block "side_effects_uncertain"
            "This task reached a tool that may have changed something. Review its trace before starting another attempt."
        else
          match screening with
          | some s =>
            if s.status = "completed" then ⟨none,none,some (screeningResumeInput ev s)⟩
            else ⟨none,none,none⟩
          | none =>
            ⟨none,none,if toolCalls ev runId = [] then none else some responseOnlyRecoveryInput⟩

end Inspection
end HermesEnterprise.Recovery
