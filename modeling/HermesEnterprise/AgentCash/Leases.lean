import HermesEnterprise.AgentCash.Policy
import HermesEnterprise.Foundation.Tables

/-! # Leases of paid calls

Before a call is paid, a row reserves it for one tool call; when its response is imported, the row
records that. A screening row holds the lease of one search, the contact row of a run holds one
contact call at a time. Each function is one transaction, under the lock of the rows it reads.
-/
namespace HermesEnterprise.AgentCash
open Approvals hiding RunId
open Foundation.CanonicalJson Foundation.Tables RunLog Recovery

abbrev ToolCallId := String
abbrev RuntimeRunId := String
abbrev CandidateId := String

/-- A run and its one user turn, in its stored text. -/
structure RunRow where
  id : RunId
  agentId : AgentId
  ownerId : UserId
  clientTurnId : String
  intake : Bool
  prompt : Option String
  status : RunStatus
  attempt : ℕ
  stopRequested : Bool
  runtimeRunId : Option RuntimeRunId
  runtimeAttempt : Option ℕ
  recoveryInput : Option String
  deriving DecidableEq, Repr

inductive ScreeningStatus
  | running | completed | failed
  deriving DecidableEq, Repr

def ScreeningStatus.text : ScreeningStatus → String
  | running => "running"
  | completed => "completed"
  | failed => "failed"

inductive ConfigSnapshot
  | agent (config : PartnerAgentConfig)
  | creators (runtimeRunId : RuntimeRunId) (kind : CreatorKind)
  deriving DecidableEq, Repr

def ConfigSnapshot.runtimeRunId : ConfigSnapshot → Option RuntimeRunId
  | agent _ => none
  | creators runtimeRunId _ => some runtimeRunId

def ConfigSnapshot.minimumPriority : ConfigSnapshot → ℤ
  | agent config => config.minimumPriority
  | creators .. => 0

structure ScreeningRow where
  id : ScreeningId
  agentId : AgentId
  createdBy : UserId
  idempotencyKey : String
  status : ScreeningStatus
  source : Source
  config : ConfigSnapshot
  apiRequestsUsed : ℕ
  agentcashToolCallId : Option ToolCallId
  deriving DecidableEq, Repr

structure CandidateRow where
  id : CandidateId
  agentId : AgentId
  source : Source
  sourceKey : String
  profileUrl : String
  deriving DecidableEq, Repr

inductive ContactStatus
  | enrichmentReserved | enriched | verificationReserved | verificationPending | completed | failed
  deriving DecidableEq, Repr

def ContactCallKind.text : ContactCallKind → String
  | enrichment => "enrichment"
  | verification => "verification"
  | verificationPoll => "verification_poll"

/-- A run has one of these. -/
structure ContactLeaseRow where
  agentId : AgentId
  candidateId : CandidateId
  runId : RunId
  runtimeRunId : RuntimeRunId
  status : ContactStatus
  pendingKind : Option ContactCallKind
  pendingToolCallId : Option ToolCallId
  preferredEmail : Option String
  verificationPollUrl : Option String
  verificationPollCount : ℕ
  deriving DecidableEq, Repr

/-- `watches` are the runs of a watch. -/
structure Db where
  runs : List RunRow
  screenings : List ScreeningRow
  candidates : List CandidateRow
  runCandidates : List Recovery.CandidateRow
  contacts : List ContactLeaseRow
  watches : List RunId
  requests : List (RunId × String)
  turnCalls : List (RunId × Option String)
  stepCalls : List (RunId × String)

/-- The row that a lease is held in. -/
inductive Subject
  | screening (id : ScreeningId)
  | contact (runId : RunId)
  deriving DecidableEq, Repr

inductive PaidCall
  | peopleSearch (screeningId : ScreeningId)
  | creatorSearch (runId : RunId) (kind : CreatorKind)
  | contact (runId : RunId) (kind : ContactCallKind) (candidateId : CandidateId)
  deriving DecidableEq, Repr

structure Lease where
  subject : Subject
  call : PaidCall
  toolCallId : ToolCallId
  arguments : Json

/-- What happened to a lease. -/
inductive Entry
  | leased (lease : Lease)
  | imported (subject : Subject) (toolCallId : ToolCallId)

def Entry.subject : Entry → Subject
  | leased lease => lease.subject
  | imported subject _ => subject

structure Input where
  runtimeRunId : RuntimeRunId
  toolCallId : ToolCallId
  arguments : Json

/-- A candidate that a source returned, with the id of its row if it is new. -/
structure Discovered where
  newId : CandidateId
  sourceKey : String
  profileUrl : String
  deterministicPriority : ℤ
  deriving DecidableEq, Repr

structure EmailVerification where
  pending : Bool
  pollUrl : Option String
  deriving DecidableEq, Repr

/-- The tables after a transaction, and what it did to a lease, if anything. -/
structure Outcome where
  db : Db
  entry : Option Entry

section Screenings

/-- `partner_screening_runs_agentcash_lease_check`. -/
def leaseCheck (s : ScreeningRow) : Bool :=
  match s.source with
  | .github => s.agentcashToolCallId.isNone
  | _ => (s.apiRequestsUsed = 0 && s.agentcashToolCallId.isNone) || (s.apiRequestsUsed = 1 && s.agentcashToolCallId.isSome)

/-- A candidate is stored under its key in the source. -/
def storeCandidate (agentId : AgentId) (source : Source) (rows : List CandidateRow) (d : Discovered) :
    Result (List CandidateRow × CandidateId) :=
  match rows.find? fun c => c.agentId = agentId && c.source = source && c.sourceKey = d.sourceKey with
  | some c => .ok (updateWhere (fun c' => c'.id = c.id) (fun c' => { c' with profileUrl := d.profileUrl }) rows,c.id)
  | none => do
    require (rows.all fun c => c.id ≠ d.newId) "" "partner_candidates_pkey" 500
    return (rows ++ [⟨d.newId,agentId,source,d.sourceKey,d.profileUrl⟩],d.newId)

def storeCandidates (agentId : AgentId) (source : Source) (screeningId : ScreeningId) :
    List CandidateRow → List Recovery.CandidateRow → List Discovered →
      Result (List CandidateRow × List Recovery.CandidateRow)
  | rows, found, [] => .ok (rows,found)
  | rows, found, d :: rest => do
    let (rows',id) ← storeCandidate agentId source rows d
    let known := found.any fun c => c.screeningId = screeningId && c.candidateId = id
    storeCandidates agentId source screeningId rows'
      (if known then found else found ++ [⟨screeningId,id,d.deterministicPriority⟩]) rest

variable (db : Db)

def setScreening (id : ScreeningId) (f : ScreeningRow → ScreeningRow) : Db :=
  { db with screenings := updateWhere (fun s => s.id = id) f db.screenings }

/-- The row, whether it was made or taken up again, and the tables. -/
def beginPartnerScreening (userId : UserId) (agentId : AgentId) (idempotencyKey : String)
    (config : PartnerAgentConfig) (newId : ScreeningId) : Result (ScreeningRow × Bool × Db) :=
  match db.screenings.find? fun s => s.agentId = agentId && s.idempotencyKey = idempotencyKey with
  | none => do
    require (db.screenings.all fun s => s.id ≠ newId) "" "partner_screening_runs_pkey" 500
    let row : ScreeningRow := ⟨newId,agentId,userId,idempotencyKey,.running,config.source.source,.agent config,0,none⟩
    return (row,true,{ db with screenings := db.screenings ++ [row] })
  | some run =>
    if run.createdBy ≠ userId then
      refuse "the idempotency key belongs to another screening run" "partner_screening_conflict" 409
    else if run.status ≠ .failed then return (run,false,db)
    else if run.source = .agentcashPeople ∧ 0 < run.apiRequestsUsed then
      refuse "This AgentCash run already reserved its payment allowance and cannot be retried automatically."
        "partner_source_budget_exhausted" 409
    else
      let resume := fun s : ScreeningRow =>
        { s with status := .running, config := .agent config, apiRequestsUsed := 0, agentcashToolCallId := none }
      return (resume run,true,setScreening db run.id resume)

def completePartnerScreening (userId : UserId) (screeningId : ScreeningId) (agentId : AgentId)
    (candidates : List Discovered) (apiRequestsUsed : ℕ) : Result Db :=
  match db.screenings.find? fun s => s.id = screeningId && s.agentId = agentId && s.createdBy = userId with
  | none => refuse "no such partner screening run" "unknown_partner_screening_run" 404
  | some run =>
    if run.status = .completed then return db
    else if run.status ≠ .running then refuse "partner screening run is not active" "partner_screening_conflict" 409
    else do
      let complete := fun s : ScreeningRow => { s with status := .completed, apiRequestsUsed := apiRequestsUsed }
      let (rows,found) ← storeCandidates agentId run.source screeningId db.candidates db.runCandidates candidates
      require (leaseCheck (complete run)) "" "partner_screening_runs_agentcash_lease_check" 500
      return setScreening { db with candidates := rows, runCandidates := found } screeningId complete

def failPartnerScreening (userId : UserId) (screeningId : ScreeningId) : Db :=
  { db with
    screenings := updateWhere (fun s => s.id = screeningId && s.createdBy = userId && s.status = .running)
      (fun s => { s with status := .failed }) db.screenings }

end Screenings

section Searches
variable (db : Db) (agentId : AgentId) (run : RunRow) (input : Input)

/-- A retry and a paid-call lease serialize on the same task row. -/
def requireCurrentPaidRun (runId : RunId) (runtimeRunId : RuntimeRunId) : Result Unit :=
  match db.runs.find? fun r => r.id = runId && r.agentId = agentId && r.runtimeRunId = some runtimeRunId &&
      r.runtimeAttempt = some r.attempt && r.status = .working && !r.stopRequested with
  | none => refuse "The task attempt is no longer active." "runtime_run_inactive" 409
  | some r => do
    require (!db.watches.any fun id => id = runId) "Paid calls are unavailable to this watch." "runtime_tool_forbidden" 403
    require (!isResponseOnlyRecoveryInput r.recoveryInput) "This recovery can only finish the response."
      "runtime_tool_forbidden" 403

/-- The arguments that a people screening's row determines. -/
def peopleSearchArguments (s : ScreeningRow) : Option Json :=
  match s.config with
  | .agent config => agentCashPeopleSearchArguments config
  | .creators .. => none

/-- The row of a people search, for these arguments. -/
def peopleScreening (id : ScreeningId) (admits : ScreeningStatus → Bool) : Result ScreeningRow :=
  match db.screenings.find? fun s => s.agentId = agentId && s.id = id with
  | none => refuse "No active AgentCash screening run matches this native run." "partner_screening_conflict" 409
  | some s => do
    require (s.source = .agentcashPeople && admits s.status)
      "No active AgentCash screening run matches this native run." "partner_screening_conflict" 409
    return s

def requireStoredPolicy (s : ScreeningRow) : Result Unit :=
  match peopleSearchArguments s with
  | none => .error (.error "AgentCash People Search policy is not configured.")
  | some policy => require (canonical input.arguments = canonical policy)
      "The AgentCash call does not match the stored screening policy." "partner_source_policy_mismatch" 422

def screeningOfRun : Result ScreeningId :=
  match screeningIdOf run.clientTurnId with
  | none => refuse "This native run is not a partner screening run." "runtime_run_inactive" 409
  | some id => .ok id

def authorizeAgentCashPeopleSearch : Result Outcome := do
  let id ← screeningOfRun run
  requireCurrentPaidRun db agentId run.id input.runtimeRunId
  let s ← peopleScreening db agentId id fun status => status = .running
  requireStoredPolicy input s
  if s.apiRequestsUsed = 1 ∧ s.agentcashToolCallId = some input.toolCallId then return ⟨db,none⟩
  else if s.apiRequestsUsed ≠ 0 ∨ s.agentcashToolCallId.isSome then
    refuse "The AgentCash payment allowance for this screening run is already reserved."
      "partner_source_budget_exhausted" 409
  else
    return ⟨setScreening db id fun s => { s with apiRequestsUsed := 1, agentcashToolCallId := some input.toolCallId },
      some (.leased ⟨.screening id,.peopleSearch id,input.toolCallId,input.arguments⟩)⟩

/-- `parsed` is what the response was read as. -/
def importAgentCashPeopleSearch (parsed : Option (List Discovered)) : Result Outcome := do
  let id ← screeningOfRun run
  let s ← peopleScreening db agentId id fun status => status ≠ .failed
  require (s.apiRequestsUsed = 1 && s.agentcashToolCallId = some input.toolCallId)
    "This AgentCash result does not have the matching payment lease." "partner_source_payment_not_authorized" 409
  requireStoredPolicy input s
  if s.status = .completed then return ⟨db,none⟩
  else
    match parsed with
    | none => refuse "AgentCash People Search returned an unsupported response shape." "partner_source_invalid_response" 422
    | some candidates => do
      let db' ← completePartnerScreening db s.createdBy id agentId candidates 1
      return ⟨db',some (.imported (.screening id) input.toolCallId)⟩

def requireCreatorSpec : Result CreatorKind :=
  match creatorSearchSpec input.arguments with
  | none => refuse "The creator search does not match the fixed policy." "partner_source_policy_mismatch" 422
  | some kind => .ok kind

/-- `newId` is the id of the row, if one is made. -/
def authorizeAgentCashCreatorSearch (newId : ScreeningId) : Result Outcome := do
  let kind ← requireCreatorSpec input
  requireCurrentPaidRun db agentId run.id input.runtimeRunId
  match db.runs.find? fun r => r.id = run.id && r.agentId = agentId && (kind ∈ requestedCreatorSearchKinds r.prompt : Bool) with
  | none =>
    refuse "This run does not contain an explicit Hermes creator-search request."
      "partner_creator_search_not_authorized" 403
  | some authorized =>
    let key := creatorRunKey input.runtimeRunId kind
    match db.screenings.find? fun s => s.agentId = agentId && s.idempotencyKey = key with
    | some s => do
      require (s.status = .running && s.apiRequestsUsed = 1 && s.agentcashToolCallId = some input.toolCallId)
        "This run already used its creator-search allowance." "partner_source_budget_exhausted" 409
      return ⟨db,none⟩
    | none => do
      require (db.screenings.all fun s => s.id ≠ newId) "" "partner_screening_runs_pkey" 500
      let row : ScreeningRow := ⟨newId,agentId,authorized.ownerId,key,.running,.agentcashCreators,
        .creators input.runtimeRunId kind,1,some input.toolCallId⟩
      return ⟨{ db with screenings := db.screenings ++ [row] },
        some (.leased ⟨.screening newId,.creatorSearch run.id kind,input.toolCallId,input.arguments⟩)⟩

def importAgentCashCreatorSearch (parsed : Option (List Discovered)) : Result Outcome := do
  let kind ← requireCreatorSpec input
  match db.screenings.find? fun s => s.agentId = agentId && s.idempotencyKey = creatorRunKey input.runtimeRunId kind &&
      s.source = .agentcashCreators with
  | none => refuse "This creator result does not have the matching payment lease." "partner_source_payment_not_authorized" 409
  | some s => do
    require (s.status ≠ .failed && s.apiRequestsUsed = 1 && s.agentcashToolCallId = some input.toolCallId)
      "This creator result does not have the matching payment lease." "partner_source_payment_not_authorized" 409
    if s.status = .completed then return ⟨db,none⟩
    else
      match parsed with
      | none => refuse "AgentCash creator search returned an unsupported response shape." "partner_source_invalid_response" 422
      | some candidates => do
        let db' ← completePartnerScreening db s.createdBy s.id agentId candidates 1
        return ⟨db',some (.imported (.screening s.id) input.toolCallId)⟩

end Searches

section Contacts
variable (db : Db) (agentId : AgentId) (run : RunRow) (input : Input)

/-- The row of a run, with the profile of its candidate. -/
def contactRow (runId : RunId) : Option (ContactLeaseRow × String) :=
  (db.contacts.find? fun e => e.agentId = agentId && e.runId = runId).bind fun e =>
    (db.candidates.find? fun c => c.id = e.candidateId).map fun c => (e,c.profileUrl)

def expectedContactArguments (kind : ContactCallKind) (e : ContactLeaseRow) (profileUrl : String) : Result Json :=
  match kind with
  | .enrichment => .ok (agentCashContactEnrichmentArguments e.candidateId profileUrl)
  | .verification =>
    match e.preferredEmail with
    | none => refuse "No professional email is available to verify." "partner_contact_missing_email" 409
    | some email => .ok (agentCashEmailVerificationArguments email)
  | .verificationPoll =>
    match e.verificationPollUrl with
    | none => refuse "No email verification job is pending." "partner_contact_poll_missing" 409
    | some pollUrl => .ok (agentCashEmailVerificationPollArguments pollUrl)

/-- Whether the row holds this call's lease. -/
def holdsLease (kind : ContactCallKind) (e : ContactLeaseRow) (profileUrl : String) : Result Bool :=
  if e.pendingKind = some kind ∧ e.pendingToolCallId = some input.toolCallId then do
    let expected ← expectedContactArguments kind e profileUrl
    return decide (canonical input.arguments = canonical expected)
  else return false

def setContact (runId : RunId) (f : ContactLeaseRow → ContactLeaseRow) : Db :=
  { db with contacts := updateWhere (fun e => e.runId = runId) f db.contacts }

def reserveEnrichment : Result Outcome :=
  match candidateIdFromEnrichmentArguments input.arguments with
  | none => refuse "The contact request does not identify one stored candidate." "partner_contact_policy_mismatch" 422
  | some candidateId =>
    match db.candidates.find? fun c => c.agentId = agentId && c.id = candidateId && c.source ≠ .github with
    | none => refuse "The contact request does not match the stored candidate." "partner_contact_policy_mismatch" 422
    | some c => do
      require (canonical input.arguments = canonical (agentCashContactEnrichmentArguments c.id c.profileUrl))
        "The contact request does not match the stored candidate." "partner_contact_policy_mismatch" 422
      require (db.contacts.all fun e => e.runId ≠ run.id) "" "partner_contact_enrichments_run_key" 500
      let row : ContactLeaseRow := ⟨agentId,candidateId,run.id,input.runtimeRunId,.enrichmentReserved,some .enrichment,
        some input.toolCallId,none,none,0⟩
      return ⟨{ db with contacts := db.contacts ++ [row] },
        some (.leased ⟨.contact run.id,.contact run.id .enrichment candidateId,input.toolCallId,input.arguments⟩)⟩

def reserveVerification (kind : ContactCallKind) (e : ContactLeaseRow) (profileUrl : String) : Result Outcome := do
  let expected ← expectedContactArguments kind e profileUrl
  require (canonical input.arguments = canonical expected)
    "The contact request does not match the stored enrichment state." "partner_contact_policy_mismatch" 422
  require (!(kind = .verification && e.status ≠ .enriched))
    "Professional contact enrichment must complete before verification." "partner_contact_sequence_invalid" 409
  require (!(kind = .verificationPoll && (e.status ≠ .verificationPending || 5 ≤ e.verificationPollCount)))
    "No bounded email verification poll is available." "partner_contact_sequence_invalid" 409
  let reserve := fun e : ContactLeaseRow =>
    { e with status := if kind = .verification then .verificationReserved else .verificationPending
             pendingKind := some kind, pendingToolCallId := some input.toolCallId, runtimeRunId := input.runtimeRunId
             verificationPollCount := e.verificationPollCount + if kind = .verificationPoll then 1 else 0 }
  return ⟨setContact db e.runId reserve,
    some (.leased ⟨.contact e.runId,.contact e.runId kind e.candidateId,input.toolCallId,input.arguments⟩)⟩

def authorizeAgentCashContact : Result Outcome :=
  match contactKind input.arguments with
  | none => refuse "This AgentCash endpoint is not part of contact enrichment." "partner_contact_policy_mismatch" 422
  | some kind => do
    requireCurrentPaidRun db agentId run.id input.runtimeRunId
    match contactRow db agentId run.id with
    | none =>
      if kind = .enrichment then reserveEnrichment db agentId run input
      else refuse "The contact request does not match the stored enrichment state." "partner_contact_policy_mismatch" 422
    | some (e,profileUrl) => do
      if ← holdsLease input kind e profileUrl then return ⟨db,none⟩
      else if e.pendingKind.isSome ∨ e.status = .completed ∨ e.status = .failed then
        refuse "This run already used its contact-enrichment allowance." "partner_contact_budget_exhausted" 409
      else if kind = .enrichment then
        refuse "This run already selected a candidate for enrichment." "partner_contact_candidate_locked" 409
      else reserveVerification db input kind e profileUrl

/-- `emails` and `verified` are what the response was read as, for one kind or the other. -/
def importAgentCashContact (emails : Option (List String)) (verified : Option EmailVerification) : Result Outcome :=
  match contactRow db agentId run.id with
  | none => refuse "No contact enrichment is bound to this run." "partner_contact_missing" 409
  | some (e,profileUrl) =>
    let entry : Entry := .imported (.contact e.runId) input.toolCallId
    match e.pendingKind with
    | none =>
      if e.status = .enriched ∨ e.status = .verificationPending ∨ e.status = .completed then return ⟨db,none⟩
      else refuse "This contact result does not have the matching lease." "partner_contact_payment_not_authorized" 409
    | some kind => do
      require (← holdsLease input kind e profileUrl)
        "This contact result does not have the matching lease." "partner_contact_payment_not_authorized" 409
      if kind = .enrichment then
        match emails with
        | none => refuse "Contact enrichment returned an unsupported response." "partner_contact_invalid_response" 422
        | some emails =>
          let settle := fun e : ContactLeaseRow =>
            { e with status := if emails.head?.isSome then .enriched else .completed
                     pendingKind := none, pendingToolCallId := none, preferredEmail := emails.head? }
          return ⟨setContact db e.runId settle,some entry⟩
      else
        match verified with
        | none => refuse "Email verification returned an unsupported response." "partner_contact_invalid_response" 422
        | some v =>
          let settle := fun e : ContactLeaseRow =>
            { e with status := if v.pending then .verificationPending else .completed
                     pendingKind := none, pendingToolCallId := none, verificationPollUrl := v.pollUrl }
          return ⟨setContact db e.runId settle,some entry⟩

end Contacts
end HermesEnterprise.AgentCash
