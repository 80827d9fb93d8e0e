import HermesEnterprise.Foundation.Runs
import HermesEnterprise.Foundation.Tables

/-! # Checks of a partner watch

A check compares the fingerprints of the candidates that its screening returned with those of one check before
it, and hands the first difference on. The table stands in the order in which the rows completed, newest first.
-/
namespace HermesEnterprise.Watch
open Foundation.Runs Foundation.Tables

abbrev CheckId := ℕ
abbrev AgentId := ℕ
abbrev AssignmentId := ℕ
abbrev ScreeningId := ℕ
abbrev CandidateId := String
abbrev RunId := ℕ
abbrev ReviewId := ℕ
abbrev SourceKey := String
abbrev Digest := String
abbrev Scope := String

inductive CheckStatus
  | checking
  | baseline
  | unchanged
  | changed
  | failed
  deriving DecidableEq, Repr

/-- A candidate of a screening run with the artifacts it cites. -/
structure Candidate (α : Type) where
  candidateId : CandidateId
  deterministicPriority : ℕ
  content : List α

/-- What a screening run stored, by falling priority, each candidate once. -/
structure Screening (α : Type) where
  rows : List (Candidate α)
  minimumPriority : Option ℕ
  ordered : rows.Pairwise fun a b => b.deterministicPriority < a.deterministicPriority ∨
    b.deterministicPriority = a.deterministicPriority ∧ a.candidateId < b.candidateId
  distinct : (rows.map Candidate.candidateId).Nodup

/-- What is stored about candidates and artifacts: each candidate of an agent has a source key of its own. -/
structure Source (α β : Type) where
  sourceKey : CandidateId → SourceKey
  unique : Function.Injective sourceKey
  githubWatchFingerprint : List α → Digest
  githubWatchChangedFacts : List α → List α → List β

/-- What the completion of a check writes. -/
structure Outcome (β : Type) where
  status : CheckStatus
  candidateFingerprints : SourceKey → Option Digest
  changedCandidateIds : List CandidateId
  selectedCandidateId : Option CandidateId
  previousScreeningRunId : Option ScreeningId
  changeSummary : List β

/-- A row of `partner_watch_checks`. `seen` is history: the fingerprints of the returned candidates when they
were last seen before this check completed. -/
structure WatchCheck (β : Type) where
  id : CheckId
  agentId : AgentId
  assignmentId : AssignmentId
  assignmentRevision : ℕ
  screeningRunId : ScreeningId
  scope : Scope
  checkedAt : ℕ
  outcome : Outcome β
  cancelled : Bool
  runId : Option RunId
  reviewId : Option ReviewId
  seen : CandidateId → Option Digest

/-- The tables, and what each completion returned. -/
structure World (α β : Type) where
  checks : List (WatchCheck β)
  screenings : List (ScreeningId × Screening α)
  results : List (CheckId × Outcome β)

inductive WatchError
  | partnerWatchCheckMissing
  | partnerWatchAuthorityStale
  deriving DecidableEq, Repr

section Checks
variable {α β : Type}

def pending : Outcome β :=
  ⟨.checking,fun _ => none,[],none,none,[]⟩

/-- `status IN ('baseline','unchanged','changed')`. -/
def WatchCheck.completed (c : WatchCheck β) : Bool :=
  c.outcome.status = .baseline ∨ c.outcome.status = .unchanged ∨ c.outcome.status = .changed

/-- One agent, one source scope. -/
def WatchCheck.sameWatch (c d : WatchCheck β) : Bool := c.agentId = d.agentId ∧ c.scope = d.scope

/-- `ORDER BY checked_at DESC,id DESC`. -/
def WatchCheck.after (c d : WatchCheck β) : Bool :=
  d.checkedAt < c.checkedAt ∨ d.checkedAt = c.checkedAt ∧ d.id < c.id

def latest : List (WatchCheck β) → Option (WatchCheck β)
  | [] => none
  | c :: rest =>
    match latest rest with
    | none => some c
    | some d => if c.after d then some c else some d

structure NewCheck where
  id : CheckId
  agentId : AgentId
  assignmentId : AssignmentId
  assignmentRevision : ℕ
  screeningRunId : ScreeningId
  scope : Scope
  checkedAt : ℕ
  deriving DecidableEq, Repr

variable (source : Source α β) (w : World α β)

/-- One check for a screening run, however often it begins. -/
def beginWatchCheck (n : NewCheck) : Option (World α β) :=
  if w.checks.any fun c => c.screeningRunId = n.screeningRunId then some w
  else if w.checks.any fun c => c.id = n.id then none
  else some { w with checks := w.checks ++ [⟨n.id,n.agentId,n.assignmentId,n.assignmentRevision,n.screeningRunId,
    n.scope,n.checkedAt,pending,false,none,none,fun _ => none⟩] }

def screeningOf (run : ScreeningId) : Option (Screening α) := w.screenings.lookup run

def rowsOf (run : ScreeningId) : List (Candidate α) := ((screeningOf w run).map Screening.rows).getD []

def minimumOf (run : ScreeningId) : ℕ := ((screeningOf w run).bind Screening.minimumPriority).getD 0

/-- The check that a completing one is compared with. -/
def previousOf (check : WatchCheck β) : Option (WatchCheck β) :=
  latest (w.checks.filter fun c => c.sameWatch check && c.id ≠ check.id && c.completed && !c.cancelled)

def fingerprintOf (row : Candidate α) : Digest := source.githubWatchFingerprint row.content

def fingerprintsOf (rows : List (Candidate α)) : SourceKey → Option Digest :=
  rows.foldl (fun stored row => Function.update stored (source.sourceKey row.candidateId) (some (fingerprintOf source row)))
    fun _ => none

/-- The fingerprint that a check stored for a candidate. -/
def WatchCheck.fingerprint (c : WatchCheck β) (x : CandidateId) : Option Digest :=
  c.outcome.candidateFingerprints (source.sourceKey x)

def differs (previous : WatchCheck β) (minimum : ℕ) (row : Candidate α) : Bool :=
  previous.fingerprint source row.candidateId ≠ some (fingerprintOf source row) ∧
    minimum ≤ row.deterministicPriority

def changedOf (previous : Option (WatchCheck β)) (minimum : ℕ) (rows : List (Candidate α)) : List CandidateId :=
  match previous with
  | none => []
  | some p => (rows.filter fun row => differs source p minimum row).map Candidate.candidateId

/-- What the check writes: all fingerprints, and the candidates that changed since the previous check. -/
def outcomeOf (check : WatchCheck β) : Outcome β :=
  let rows := rowsOf w check.screeningRunId
  let previous := previousOf w check
  let changed := changedOf source previous (minimumOf w check.screeningRunId) rows
  let before := (previous.map fun p => (rowsOf w p.screeningRunId).flatMap Candidate.content).getD []
  let selected := rows.find? fun row => some row.candidateId = changed.head?
  { status := if previous.isNone then .baseline else if changed ≠ [] then .changed else .unchanged
    candidateFingerprints := fingerprintsOf source rows
    changedCandidateIds := changed
    selectedCandidateId := changed.head?
    previousScreeningRunId := previous.map WatchCheck.screeningRunId
    changeSummary := (selected.map fun row => source.githubWatchChangedFacts before row.content).getD [] }

/-- The fingerprint of a candidate at the last check to complete that contained it. -/
def lastSeen (check : WatchCheck β) (x : CandidateId) : Option Digest :=
  w.checks.findSome? fun c =>
    if c.sameWatch check && c.completed && !c.cancelled then c.fingerprint source x else none

/-- A completed check comes to stand first in the table. -/
def completeWatchCheck (id : CheckId) (authorized : Bool) : Except WatchError (World α β × WatchCheck β) :=
  match w.checks.find? fun c => c.id = id with
  | none => .error .partnerWatchCheckMissing
  | some check =>
    if check.outcome.status ≠ .checking then .ok (w,check)
    else if !authorized || check.cancelled then .error .partnerWatchAuthorityStale
    else
      let written := { check with outcome := outcomeOf source w check, seen := lastSeen source w check }
      .ok ({ w with
        checks := written :: w.checks.filter fun c => c.id ≠ id
        results := (id,written.outcome) :: w.results },written)

/-- A screening run stores its candidates once. -/
def storeScreening (run : ScreeningId) (screening : Screening α) : World α β :=
  if (screeningOf w run).isSome then w else { w with screenings := (run,screening) :: w.screenings }

def failCheck (id : CheckId) : World α β :=
  { w with
    checks := updateWhere (fun c => decide (c.id = id) && decide (c.outcome.status = .checking))
      (fun c => { c with outcome := { c.outcome with status := .failed } }) w.checks }

/-- New settings cancel what the old ones began. -/
def updatePartnerWatch (agentId : AgentId) (assignmentId : AssignmentId) (revision : ℕ) : World α β :=
  { w with
    checks := updateWhere
      (fun c => decide (c.agentId = agentId) && decide (c.assignmentId = assignmentId) &&
        decide (c.assignmentRevision ≠ revision + 1) &&
        decide (c.outcome.status = .checking ∨ c.outcome.status = .changed) && c.reviewId.isNone && !c.cancelled)
      (fun c => { c with cancelled := true }) w.checks }

/-- A stop of the run that a change woke. -/
def stopRun (run : RunId) : World α β :=
  { w with
    checks := updateWhere (fun c => decide (c.runId = some run) && c.reviewId.isNone && !c.cancelled)
      (fun c => { c with cancelled := true }) w.checks }

/-- The change of a check is handed to a run, once. -/
def handoff (id : CheckId) (run : RunId) : World α β :=
  { w with
    checks := updateWhere
      (fun c => decide (c.id = id) && decide (c.outcome.status = .changed) && c.outcome.selectedCandidateId.isSome &&
        decide (c.runId = none ∨ c.runId = some run) && !c.cancelled)
      (fun c => { c with runId := some run }) w.checks }

def review (id : CheckId) (review : ReviewId) : World α β :=
  { w with
    checks := updateWhere
      (fun c => decide (c.id = id) && c.runId.isSome && c.reviewId.isNone && !c.cancelled)
      (fun c => { c with reviewId := some review }) w.checks }

inductive Event (α : Type)
  | begins (n : NewCheck)
  | screened (run : ScreeningId) (screening : Screening α)
  | complete (id : CheckId) (authorized : Bool)
  | fails (id : CheckId)
  | update (agentId : AgentId) (assignmentId : AssignmentId) (revision : ℕ)
  | handoff (id : CheckId) (run : RunId)
  | review (id : CheckId) (review : ReviewId)
  | stop (run : RunId)

def apply (e : Event α) : Option (World α β) :=
  match e with
  | .begins n => beginWatchCheck w n
  | .screened run screening => some (storeScreening w run screening)
  | .complete id authorized => (completeWatchCheck source w id authorized).toOption.map Prod.fst
  | .fails id => some (failCheck w id)
  | .update agentId assignmentId revision => some (updatePartnerWatch w agentId assignmentId revision)
  | .handoff id run => some (handoff w id run)
  | .review id r => some (review w id r)
  | .stop run => some (stopRun w run)

def Steps (w : World α β) (e : Event α) (w' : World α β) : Prop := apply source w e = some w'

end Checks

section Alarms
variable {α β : Type} (source : Source α β) (w : World α β)

/-- A change to a fingerprint that no check lists yet, read in the order of completion: some check saw the
candidate change to it, no check from then on lists the candidate, and the fingerprint persists. -/
def Owed (check : WatchCheck β) (x : CandidateId) (digest : Digest) : Prop :=
  ∃ later c earlier, w.checks = later ++ c :: earlier ∧ c.sameWatch check = true ∧ c.completed = true ∧
    c.fingerprint source x = some digest ∧ (∃ old, c.seen x = some old ∧ old ≠ digest) ∧
    (∀ d ∈ c :: later, d.sameWatch check = true → d.completed = true → x ∉ d.outcome.changedCandidateIds) ∧
    ∀ d ∈ later, d.sameWatch check = true → d.completed = true → d.cancelled = false →
      ∀ other, d.fingerprint source x = some other → other = digest

/-- A completion raises no false alarm and swallows no change. -/
structure Told (check : WatchCheck β) (result : WatchCheck β) : Prop where
  /-- Who is selected has changed since last seen. -/
  alarm : ∀ x, result.outcome.status = .changed → result.outcome.selectedCandidateId = some x →
    ∀ old, lastSeen source w check x = some old → result.fingerprint source x ≠ some old
  /-- Who meets the minimum and changed, now or at a check before that did not list it, is listed. -/
  listed : ∀ row ∈ rowsOf w check.screeningRunId, minimumOf w check.screeningRunId ≤ row.deterministicPriority →
    ∀ digest, result.fingerprint source row.candidateId = some digest →
    (∃ old, lastSeen source w check row.candidateId = some old ∧ old ≠ digest) ∨
      Owed source w check row.candidateId digest →
    row.candidateId ∈ result.outcome.changedCandidateIds

/-- The completion of a check tells what changed; completing it again returns what is stored. -/
def Faithful (e : Event α) : Prop :=
  match e with
  | .complete id authorized => ∀ w' result, completeWatchCheck source w id authorized = .ok (w',result) →
      (∀ outcome, (id,outcome) ∈ w.results → w' = w ∧ result.outcome = outcome) ∧
      ∀ check, w.checks.find? (fun c => c.id = id) = some check → check.outcome.status = .checking →
        Told source w check result
  | _ => True

/-- Whether a change of a candidate is owed, from the newest completion back. -/
def owed (check : WatchCheck β) (x : CandidateId) (digest : Digest) : List (WatchCheck β) → Bool
  | [] => false
  | c :: earlier =>
    if !c.sameWatch check || !c.completed then owed check x digest earlier
    else if x ∈ c.outcome.changedCandidateIds then false
    else if c.fingerprint source x = some digest ∧ (c.seen x).any (fun old => old ≠ digest) then true
    else if !c.cancelled && (c.fingerprint source x).any (fun other => other ≠ digest) then false
    else owed check x digest earlier

/-- The first candidate at or above the minimum that differs from the previous check also differs from when it
was last seen, and every one at or above it whose change no check lists differs from the previous check. -/
def admits (e : Event α) : Bool :=
  match e with
  | .complete id authorized =>
    match w.checks.find? fun c => c.id = id with
    | none => true
    | some check =>
      if check.outcome.status ≠ .checking ∨ authorized = false ∨ check.cancelled = true then true
      else
        let rows := rowsOf w check.screeningRunId
        let minimum := minimumOf w check.screeningRunId
        let previous := previousOf w check
        (rows.find? fun row => previous.any fun p => differs source p minimum row).all (fun row =>
          lastSeen source w check row.candidateId ≠ some (fingerprintOf source row)) &&
        rows.all fun row =>
          decide (row.deterministicPriority < minimum) ||
          !((lastSeen source w check row.candidateId).any (fun old => old ≠ fingerprintOf source row) ||
            owed source check row.candidateId (fingerprintOf source row) w.checks) ||
          previous.any fun p => p.fingerprint source row.candidateId ≠ some (fingerprintOf source row)
  | _ => true

end Alarms

end HermesEnterprise.Watch
