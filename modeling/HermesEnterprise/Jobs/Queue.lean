import HermesEnterprise.Approvals.Store
import HermesEnterprise.Foundation.Tables

/-! # The durable job queue

A job row is unique by kind and key. The pointer table `job_ready` is the only
place the drain looks for work, so it is written in the same transaction.
Times are milliseconds.
-/
namespace HermesEnterprise.Jobs
open Approvals Foundation.Tables

/-- Kind and text key of a job; both follow from what the job is about. -/
inductive JobKey
  | outboundEmailSend (outboxId : OutboxId)
  | approvalContinue (requestId : RequestId) (revision : ℕ) (hash : String)
  | partnerScreening (requestId : RequestId)
  deriving DecidableEq, Repr

structure ApprovalFinalizedHook where
  requestId : RequestId
  approvalType : ApprovalType
  authorizationRevision : ℕ
  authorizationHash : String
  expiresAt : ℕ
  requesterAgentId : AgentId
  requesterMemberId : Option MemberId
  sourceSessionId : Option SessionId
  sourceRunId : Option RunId
  dependentRequestIds : List RequestId
  runPlanBudget : Option RunPlanBudget
  resourceBindings : List ApprovalResourceBinding
  finalizedAt : ℕ
  deriving DecidableEq, Repr

inductive JobPayload
  | outbox (outboxId : OutboxId)
  | hook (hook : ApprovalFinalizedHook)
  | screening (agentId : AgentId) (ownerUserId : UserId) (requestId : RequestId)
  deriving DecidableEq, Repr

structure JobRow where
  id : JobId
  key : JobKey
  payload : JobPayload
  doneAt : Option ℕ
  lockedUntil : Option ℕ
  nextAt : ℕ
  attempts : ℕ
  lastError : Option String
  deriving DecidableEq, Repr

structure JobReadyRow where
  jobId : JobId
  nextAt : ℕ
  paused : Bool
  deriving DecidableEq, Repr

structure JobTables where
  rows : List JobRow
  ready : List JobReadyRow
  nextId : JobId
  deriving DecidableEq, Repr

/-- `CLAIM_SECONDS`. -/
def claimMs : ℕ := 120000

/-- Insert unless the key is taken; the pointer commits with the job. -/
def enqueueJob (now : ℕ) (key : JobKey) (payload : JobPayload) (t : JobTables) :
    JobTables × Option JobId :=
  if t.rows.any (fun j => j.key = key) then (t,none)
  else
    let job : JobRow := ⟨t.nextId,key,payload,none,none,now,0,none⟩
    let ready : JobReadyRow := ⟨t.nextId,now,false⟩
    (⟨t.rows ++ [job],t.ready ++ [ready],t.nextId + 1⟩,some t.nextId)

def paused (t : JobTables) (jobId : JobId) : Bool :=
  t.ready.any fun r => r.jobId = jobId ∧ r.paused

def claimable (now : ℕ) (t : JobTables) (j : JobRow) : Bool :=
  j.doneAt.isNone && !paused t j.id && j.lockedUntil.all (fun l => l < now)

def claimed (now : ℕ) (j : JobRow) : JobRow :=
  { j with lockedUntil := some (now + claimMs), attempts := j.attempts + 1 }

/-- Take the lease of one job if it is undone, not paused, and unlocked or expired. -/
def claimJob (now : ℕ) (jobId : JobId) (t : JobTables) : Option (JobTables × JobRow) :=
  match t.rows.find? (fun j => j.id = jobId) with
  | none => none
  | some j =>
    if claimable now t j then
      some ({ t with rows := updateWhere (fun r => r.id = jobId) (claimed now) t.rows },claimed now j)
    else none

def finishJob (now : ℕ) (jobId : JobId) (t : JobTables) : JobTables :=
  { t with
    rows := updateWhere (fun j => j.id = jobId)
      (fun j => { j with doneAt := some now, lockedUntil := none }) t.rows
    ready := t.ready.filter fun r => r.jobId ≠ jobId }

/-- Seconds to wait before attempt `attempts + 1`. -/
def backoffMs (attempts retryAfterSeconds : ℕ) : ℕ :=
  1000 * max (min 3600 (30 * 2 ^ (attempts - 1))) (min 3600 retryAfterSeconds)

/-- Release a failed job for a later attempt, with backoff. -/
def failJob (now : ℕ) (jobId : JobId) (error : String) (attempts retryAfterSeconds : ℕ)
    (t : JobTables) : JobTables :=
  let due := now + backoffMs attempts retryAfterSeconds
  let lastError := some (String.ofList (error.toList.take 1000))
  { t with
    rows := updateWhere (fun j => j.id = jobId)
      (fun j => { j with lockedUntil := none, lastError := lastError, nextAt := due }) t.rows
    ready := updateWhere (fun r => r.jobId = jobId) (fun r => { r with nextAt := due }) t.ready }

end HermesEnterprise.Jobs
