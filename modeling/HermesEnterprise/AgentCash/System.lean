import HermesEnterprise.AgentCash.Leases
import HermesEnterprise.Foundation.Runs
import Mathlib

/-! # Paid calls among retries, stops and crashes

A call first finds its run and later executes its transaction, perhaps never. In between the run may
end, be retried under a new runtime run, or be stopped. Screenings are begun, completed and failed by
people and by automation.
-/
namespace HermesEnterprise.AgentCash
open Approvals hiding RunId
open Foundation.CanonicalJson Foundation.Tables Foundation.Runs RunLog Recovery

inductive Action
  | authorizePeople
  | importPeople (parsed : Option (List Discovered))
  | authorizeCreators (newId : ScreeningId)
  | importCreators (parsed : Option (List Discovered))
  | authorizeContact
  | importContact (emails : Option (List String)) (verified : Option EmailVerification)
  deriving DecidableEq, Repr

def Action.imports : Action → Bool
  | authorizePeople | authorizeCreators _ | authorizeContact => false
  | importPeople _ | importCreators _ | importContact .. => true

/-- A call that has found its run. -/
structure Found where
  action : Action
  agentId : AgentId
  input : Input
  run : RunRow

/-- A GitHub discovery for a row. -/
structure Discovery where
  userId : UserId
  agentId : AgentId
  screeningId : ScreeningId
  deriving DecidableEq, Repr

/-- Who begins a screening: a person, under a key of their own, or the automation of a cycle. -/
inductive Origin
  | route (idempotencyKey : String)
  | automation (bucket : String)
  deriving DecidableEq, Repr

def Origin.key : Origin → String
  | route idempotencyKey => idempotencyKey
  | automation bucket => "auto:" ++ bucket

structure Turn where
  id : RunId
  agentId : AgentId
  ownerId : UserId
  clientTurnId : String
  intake : Bool
  prompt : Option String
  deriving DecidableEq, Repr

/-- What other parts of the product write. -/
structure Surroundings where
  watches : List RunId
  requests : List (RunId × String)
  turnCalls : List (RunId × Option String)
  stepCalls : List (RunId × String)
  deriving DecidableEq, Repr

/-- `history` is what was done to leases, in order. -/
structure World where
  db : Db
  found : List Found
  discoveries : List Discovery
  history : List Entry

inductive Event
  | starts (turn : Turn)
  | binds (runId : RunId) (attempt : ℕ) (remoteRunId : RuntimeRunId)
  | setsStatus (runId : RunId) (status : RunStatus)
  | stops (runId : RunId)
  | flags (runId : RunId)
  | retries (runId : RunId)
  | surroundings (next : Surroundings)
  | begins (userId : UserId) (agentId : AgentId) (origin : Origin) (config : PartnerAgentConfig) (newId : ScreeningId)
  | discovers (discovery : Discovery) (candidates : List Discovered) (apiRequestsUsed : ℕ)
  | failsDiscovery (discovery : Discovery)
  | finds (action : Action) (agentId : AgentId) (input : Input)
  /-- The transaction of one of the calls that have found their run. -/
  | executes (position : ℕ)

section Runs
variable (db : Db)

def setRun (runId : RunId) (also : RunRow → Bool) (f : RunRow → RunRow) : Db :=
  { db with runs := updateWhere (fun r => r.id = runId && also r) f db.runs }

/-- The rows of a new attempt's runtime run: none is bound for the attempt, or this one is. -/
def bindRun (runId : RunId) (attempt : ℕ) (remoteRunId : RuntimeRunId) : Result Db := do
  let bindable := fun r : RunRow => r.attempt = attempt && !r.stopRequested && r.status = .working &&
    (r.runtimeAttempt ≠ some attempt || r.runtimeRunId.isNone || r.runtimeRunId = some remoteRunId)
  -- `runs_runtime_identity`
  require (db.runs.all fun r => !(r.id = runId && bindable r) || db.runs.all fun other =>
    other.id = r.id || other.agentId ≠ r.agentId || other.runtimeRunId ≠ some remoteRunId) "" "runs_runtime_identity" 500
  return setRun db runId bindable fun r => { r with runtimeRunId := some remoteRunId, runtimeAttempt := some attempt }

/-- A terminal run stays terminal. -/
def setRunStatus (runId : RunId) (status : RunStatus) : Db :=
  setRun db runId (fun r => !r.status.terminal) fun r => { r with status := status }

def requestRunStop (runId : RunId) : Db :=
  setRun db runId (fun r => !r.status.terminal) fun r => { r with stopRequested := true, status := .stopping }

def flagStop (runId : RunId) : Db := setRun db runId (fun _ => true) fun r => { r with stopRequested := true }

/-- The rows that a retry is judged by. -/
def evidence : Recovery.Evidence where
  screenings := db.screenings.map fun s => ⟨s.id,s.agentId,s.source.text,s.status.text,s.apiRequestsUsed,
    s.agentcashToolCallId,s.config.runtimeRunId,some s.config.minimumPriority⟩
  enrichments := db.contacts.map fun e => ⟨e.agentId,e.runId,e.pendingKind.map ContactCallKind.text,e.pendingToolCallId⟩
  requests := db.requests
  turnCalls := db.turnCalls
  stepCalls := db.stepCalls
  candidates := db.runCandidates

/-- The next attempt of a run that failed or was stopped, when nothing that it did forbids one. -/
def retryTask (runId : RunId) : Result Db :=
  match db.runs.find? fun r => r.id = runId with
  | none => refuse "No such task." "unknown_run" 404
  | some run => do
    require (run.status = .error || run.status = .stopped) "This task is already running." "run_active" 409
    let safety := inspectRecoverySafety (evidence db) run.agentId run.id run.clientTurnId run.runtimeRunId
    require safety.blockedReason.isNone (safety.message.getD "") (safety.blockedReason.getD "") 409
    return setRun db runId (fun _ => true) fun r =>
      { r with attempt := r.attempt + 1, status := .working, stopRequested := false, recoveryInput := safety.resumeInput }

def startRun (turn : Turn) : Result Db := do
  require (db.runs.all fun r => r.id ≠ turn.id) "" "runs_pkey" 500
  return { db with runs := db.runs ++ [⟨turn.id,turn.agentId,turn.ownerId,turn.clientTurnId,turn.intake,turn.prompt,
    .working,1,false,none,none,none⟩] }

def findRuntimeRun (remoteRunId : RuntimeRunId) (agentId : AgentId) : Option RunRow :=
  db.runs.find? fun r => r.runtimeRunId = some remoteRunId && r.agentId = agentId && r.runtimeAttempt = some r.attempt

def hexDigits (s : List Char) : Bool := s.all fun c => c.isDigit || ('a' ≤ c && c ≤ 'f')

/-- `/^run_[0-9a-f]{32}$/` and `/^[a-zA-Z0-9_.:-]{1,128}$/`, and an object. -/
def validInput (input : Input) : Bool :=
  let run := input.runtimeRunId.toList
  let call := input.toolCallId.toList
  run.take 4 = "run_".toList && (run.drop 4).length = 32 && hexDigits (run.drop 4) &&
    1 ≤ call.length && call.length ≤ 128 && call.all (fun c => c.isAlphanum || c ∈ ['_','.',':','-']) &&
    match input.arguments with
    | .object _ => true
    | _ => false

/-- An import may find a run that has ended. -/
def findRun (action : Action) (agentId : AgentId) (input : Input) : Result RunRow := do
  require (validInput input) "Invalid AgentCash authorization." "bad_body" 400
  match findRuntimeRun db input.runtimeRunId agentId with
  | none => refuse "This runtime run is no longer available." "runtime_run_inactive" 409
  | some run => do
    require (action.imports || (!run.stopRequested && (run.status = .working || run.status = .waiting)))
      "This runtime run is no longer active." "runtime_run_inactive" 409
    require (action.imports || !run.intake) "Outbound and paid calls are not allowed while reading an email."
      "intake_run_outbound_refused" 403
    return run

def execute (f : Found) : Result Outcome :=
  match f.action with
  | .authorizePeople => authorizeAgentCashPeopleSearch db f.agentId f.run f.input
  | .importPeople parsed => importAgentCashPeopleSearch db f.agentId f.run f.input parsed
  | .authorizeCreators newId => authorizeAgentCashCreatorSearch db f.agentId f.run f.input newId
  | .importCreators parsed => importAgentCashCreatorSearch db f.agentId f.input parsed
  | .authorizeContact => authorizeAgentCashContact db f.agentId f.run f.input
  | .importContact emails verified => importAgentCashContact db f.agentId f.run f.input emails verified

end Runs

section Steps
variable (w : World)

/-- What a new screening leaves to do: a route discovers for a row that it made or took up again, the
automation for any row that is not completed. -/
def discoveryOf (userId : UserId) (agentId : AgentId) (origin : Origin) (config : PartnerAgentConfig)
    (row : ScreeningRow) (fresh : Bool) : List Discovery :=
  let due := match origin with
    | .route _ => fresh
    | .automation _ => row.status ≠ .completed
  if config.source = .github ∧ due = true then [⟨userId,agentId,row.id⟩] else []

def apply : Event → Result World
  | .starts turn => do return { w with db := ← startRun w.db turn }
  | .binds runId attempt remoteRunId => do return { w with db := ← bindRun w.db runId attempt remoteRunId }
  | .setsStatus runId status => .ok { w with db := setRunStatus w.db runId status }
  | .stops runId => .ok { w with db := requestRunStop w.db runId }
  | .flags runId => .ok { w with db := flagStop w.db runId }
  | .retries runId => do return { w with db := ← retryTask w.db runId }
  | .surroundings next =>
    .ok { w with db := { w.db with watches := next.watches, requests := next.requests, turnCalls := next.turnCalls,
                                   stepCalls := next.stepCalls } }
  | .begins userId agentId origin config newId => do
    let (row,fresh,db) ← beginPartnerScreening w.db userId agentId origin.key config newId
    return { w with db := db, discoveries := w.discoveries ++ discoveryOf userId agentId origin config row fresh }
  | .discovers d candidates apiRequestsUsed => do
    require (d ∈ w.discoveries) "" "no_such_discovery" 409
    let db ← completePartnerScreening w.db d.userId d.screeningId d.agentId candidates apiRequestsUsed
    return { w with db := db, discoveries := w.discoveries.erase d }
  | .failsDiscovery d => do
    require (d ∈ w.discoveries) "" "no_such_discovery" 409
    return { w with db := failPartnerScreening w.db d.userId d.screeningId, discoveries := w.discoveries.erase d }
  | .finds action agentId input => do
    let run ← findRun w.db action agentId input
    return { w with found := w.found ++ [⟨action,agentId,input,run⟩] }
  | .executes position =>
    match w.found[position]? with
    | none => refuse "" "no_such_call" 409
    | some f => do
      let o ← execute w.db f
      return { w with db := o.db, found := w.found.eraseIdx position, history := w.history ++ o.entry.toList }

def Step : World → Event → World → Prop := Applied apply

def Initial : Prop :=
  w.db.runs = [] ∧ w.db.screenings = [] ∧ w.db.contacts = [] ∧ w.found = [] ∧ w.discoveries = [] ∧ w.history = []

end Steps

section Allowance

def Entry.lease : Entry → Option Lease
  | leased lease => some lease
  | imported .. => none

def leasesOf (history : List Entry) : List Lease := history.filterMap Entry.lease

def entriesOf (history : List Entry) (subject : Subject) : List Entry := history.filter fun e => e.subject = subject

def World.leases (w : World) : List Lease := leasesOf w.history

def World.entries (w : World) (subject : Subject) : List Entry := entriesOf w.history subject

/-- How many leases of a kind of call were ever granted. -/
def granted (history : List Entry) (p : PaidCall → Bool) : ℕ := ((leasesOf history).filter fun l => p l.call).length

def World.leased (w : World) (p : PaidCall → Bool) : ℕ := granted w.history p

def PaidCall.isContact (runId : RunId) (kind : ContactCallKind) : PaidCall → Bool
  | contact runId' kind' _ => runId' = runId && kind' = kind
  | _ => false

/-- The entries of a row take turns: a lease, then its one import by the tool call that holds it. -/
inductive Paired : List Entry → Option Lease → Prop
  | nil : Paired [] none
  | leased {h : List Entry} {l : Lease} : Paired h none → Paired (h ++ [.leased l]) (some l)
  | imported {h : List Entry} {l : Lease} : Paired h (some l) →
      Paired (h ++ [.imported l.subject l.toolCallId]) none

/-- The arguments that the stored rows determine for a call. -/
def StoredPolicy (db : Db) (policy : Json) : PaidCall → Prop
  | .peopleSearch id => ∃ s ∈ db.screenings, s.id = id ∧ peopleSearchArguments s = some policy
  | .creatorSearch _ kind => policy = kind.arguments
  | .contact _ .enrichment candidateId => ∃ c ∈ db.candidates, c.id = candidateId ∧
      policy = agentCashContactEnrichmentArguments c.id c.profileUrl
  | .contact runId .verification candidateId => ∃ e ∈ db.contacts, e.runId = runId ∧ e.candidateId = candidateId ∧
      e.preferredEmail.map agentCashEmailVerificationArguments = some policy
  | .contact runId .verificationPoll candidateId => ∃ e ∈ db.contacts, e.runId = runId ∧ e.candidateId = candidateId ∧
      e.verificationPollUrl.map agentCashEmailVerificationPollArguments = some policy

/-- What was ever leased, over all attempts of all runs. -/
structure WithinAllowance (w : World) : Prop where
  people : ∀ id, w.leased (fun c => c = .peopleSearch id) ≤ 1
  creators : ∀ runId kind, w.leased (fun c => c = .creatorSearch runId kind) ≤ 1
  asked : ∀ l ∈ w.leases, ∀ runId kind, l.call = .creatorSearch runId kind →
    ∃ r ∈ w.db.runs, r.id = runId ∧ kind ∈ requestedCreatorSearchKinds r.prompt
  enrichment : ∀ runId, w.leased (PaidCall.isContact runId .enrichment) ≤ 1
  verification : ∀ runId, w.leased (PaidCall.isContact runId .verification) ≤ 1
  polls : ∀ runId, w.leased (PaidCall.isContact runId .verificationPoll) ≤ 5
  candidate : ∀ runId, ∃ candidateId, ∀ l ∈ w.leases, ∀ kind c, l.call = .contact runId kind c → c = candidateId

/-- What a step grants is for arguments equal to the stored policy. -/
def GrantsPolicy (w w' : World) : Prop :=
  ∀ l ∈ w'.leases, l ∈ w.leases ∨ ∃ policy, StoredPolicy w.db policy l.call ∧ canonical l.arguments = canonical policy

/-- An import that changes the tables is the import of a held lease, by the tool call that holds it. -/
def ImportsHeld (w w' : World) (f : Found) : Prop :=
  f.action.imports = true → w'.db ≠ w.db →
    ∃ l, Paired (w.entries l.subject) (some l) ∧ f.input.toolCallId = l.toolCallId ∧
      w'.history = w.history ++ [.imported l.subject l.toolCallId]

end Allowance
end HermesEnterprise.AgentCash
