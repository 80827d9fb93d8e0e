import HermesEnterprise.Approvals.Soundness

/-! # Repeated commands

A command that was recorded is answered from the record from then on: sending it
again shows the current view and changes nothing, and its key serves no other
command. Only a decision that finds its approval overdue succeeds unrecorded.
-/
namespace HermesEnterprise.Approvals
open Foundation.Runs

/-- A command of a signed-in member on one request. -/
inductive Command
  | decide (requestId : RequestId) (context : ApprovalHumanContext) (input : DecideApprovalInput)
  | revise (requestId : RequestId) (context : ApprovalHumanContext) (input : ReviseApprovalInput)
  | route (requestId : RequestId) (context : ApprovalHumanContext) (input : RouteApprovalInput)

namespace Command

def requestId : Command → RequestId
  | .decide id _ _ | .revise id _ _ | .route id _ _ => id

def userId : Command → UserId
  | .decide _ context _ | .revise _ context _ | .route _ context _ => context.userId

def key : Command → String
  | .decide _ _ input => input.idempotencyKey
  | .revise _ _ input => input.idempotencyKey
  | .route _ _ input => input.idempotencyKey

def operation : Command → Operation
  | .decide _ _ _ => .decision
  | .revise _ _ _ => .revision
  | .route _ _ _ => .route

/-- The input without its key. -/
def material : Command → CommandMaterial
  | .decide _ _ input => .decision input.expectedAuthorizationRevision
      input.expectedAuthorizationHash input.decision input.note
  | .revise _ _ input => .revision input.expectedAuthorizationRevision
      input.expectedAuthorizationHash input.proposal input.changeSummary input.requestedExpiresAt
  | .route _ _ input => .route input.expectedAuthorizationRevision input.expectedAuthorizationHash
      input.stepId input.reviewerMemberId input.reason

def hash (env : Platform) (c : Command) : String := env.commandHash c.material

def send (env : Platform) (db : Db) : Command → Result (Db × CommandResult)
  | .decide id context input => decideApproval env db id context input
  | .revise id context input => reviseApproval env db id context input
  | .route id context input => routeApproval env db id context input

/-- The same request, operation and input, whoever sends it. -/
def Same (c c' : Command) : Prop := c.requestId = c'.requestId ∧ c.material = c'.material

/-- What `commandReplay` answers for this command. -/
def replay (env : Platform) (db : Db) (c : Command) : Result Bool :=
  commandReplay db c.requestId c.operation c.key (c.hash env)

end Command

/-- A fresh decision that finds its approval pending past its expiry. -/
def FindsOverdue (env : Platform) (db : Db) (c : Command) : Prop :=
  c.operation = .decision ∧ c.replay env db = .ok false ∧
    ∃ row, db.requests c.requestId = some row ∧ row.status = .pending ∧ row.expiresAt ≤ db.now

/-- The refusal of a key that another command used. -/
def keyConflict : Result (Db × CommandResult) :=
  refuse "idempotency key was already used for another approval command" "idempotency_conflict" 409

/-- The command was applied, and its key does nothing more: the same command shows the current
view, any other is refused, and none changes the database. -/
structure Spent (env : Platform) (c : Command) (db : Db) : Prop where
  repeated : ∀ (c' : Command) (view : ApprovalView), c'.key = c.key → c'.Same c →
    loadApprovalView db c'.requestId (some c'.userId) = .ok view →
    c'.send env db = .ok (db,⟨view,true⟩)
  reused : ∀ c' : Command, c'.key = c.key → ¬ c'.Same c → c'.send env db = keyConflict
  unchanged : ∀ (c' : Command) (db' : Db) (result : CommandResult), c'.key = c.key → c'.send env db = .ok (db',result) → db' = db

/-- No other input hashes like this one. -/
def CollisionFree (env : Platform) (c : Command) : Prop :=
  ∀ material, env.commandHash material = c.hash env → material = c.material

/-- The first command recorded under its key. -/
def RecordedAs (env : Platform) (c : Command) (db : Db) : Prop :=
  db.commands.find? (fun r => r.idempotencyKey = c.key) =
    some ⟨c.requestId,c.operation,c.key,c.hash env⟩

variable {env : Platform} {db db' f : Db} {requestId : RequestId} {row : ApprovalRow}

theorem commandReplay_eq_true {operation : Operation} {key hash : String} :
    commandReplay db requestId operation key hash = .ok true ↔
      db.commands.find? (fun r => r.idempotencyKey = key) =
        some ⟨requestId,operation,key,hash⟩ := by
  unfold commandReplay
  cases hfind : db.commands.find? (fun r => r.idempotencyKey = key) with
  | none => simp
  | some prior =>
    have hkey : prior.idempotencyKey = key := by simpa using List.find?_some hfind
    simp only [Result.bind_eq_ok, require_eq_ok, decide_eq_true_eq, Result.pure_eq_ok, and_true,
      exists_const, Option.some.injEq]
    constructor
    · rintro ⟨rfl,rfl,rfl⟩
      rw [← hkey]
    · rintro rfl
      exact ⟨rfl,rfl,rfl⟩

/-- A recorded key refuses every command it was not recorded for. -/
theorem commandReplay_conflict {operation : Operation} {key hash : String} {prior : CommandRow}
    (hfind : db.commands.find? (fun r => r.idempotencyKey = key) = some prior)
    (hne : ¬ (prior.requestId = requestId ∧ prior.operation = operation ∧ prior.commandHash = hash)) :
    commandReplay db requestId operation key hash =
      refuse "idempotency key was already used for another approval command"
        "idempotency_conflict" 409 := by
  unfold commandReplay
  rw [hfind]
  simp [require, hne, refuse, bind, Except.bind]

section Sending
variable {c c' : Command} {result : CommandResult}

/-- A replayed command reads the current view. -/
theorem send_replayed (h : c.replay env db = .ok true) :
    c.send env db = (loadApprovalView db c.requestId (some c.userId)).map fun view =>
      (db,⟨view,true⟩) := by
  have hview : ∀ id userId, (do
      let view ← loadApprovalView db id (some userId)
      return (db,(⟨view,true⟩ : CommandResult))) =
      (loadApprovalView db id (some userId)).map fun view => (db,⟨view,true⟩) := by
    intro id userId
    cases loadApprovalView db id (some userId) <;> rfl
  cases c with
  | decide id context input =>
    have h : commandReplay db id .decision input.idempotencyKey (decisionHash env input) = .ok true := h
    exact (congrArg (· >>= _) h).trans (hview id context.userId)
  | revise id context input =>
    have h : commandReplay db id .revision input.idempotencyKey (revisionHash env input) = .ok true := h
    exact (congrArg (· >>= _) h).trans (hview id context.userId)
  | route id context input =>
    have h : commandReplay db id .route input.idempotencyKey (routeHash env input) = .ok true := h
    exact (congrArg (· >>= _) h).trans (hview id context.userId)

/-- A command whose replay check refuses is refused. -/
theorem send_refused {failure : Failure} (h : c.replay env db = .error failure) :
    c.send env db = .error failure := by
  cases c with
  | decide id context input =>
    have h : commandReplay db id .decision input.idempotencyKey (decisionHash env input) = _ := h
    exact congrArg (· >>= _) h
  | revise id context input =>
    have h : commandReplay db id .revision input.idempotencyKey (revisionHash env input) = _ := h
    exact congrArg (· >>= _) h
  | route id context input =>
    have h : commandReplay db id .route input.idempotencyKey (routeHash env input) = _ := h
    exact congrArg (· >>= _) h

/-- A recorded command has spent its key. -/
theorem RecordedAs.spent (hinj : CollisionFree env c) (h : RecordedAs env c db) :
    Spent env c db := by
  have hsame : ∀ c' : Command, c'.key = c.key → c'.Same c → c'.replay env db = .ok true := by
    rintro c' hkey ⟨hid,hmaterial⟩
    have hop : c'.operation = c.operation := by
      cases c <;> cases c' <;> simp_all [Command.material, Command.operation]
    refine commandReplay_eq_true.mpr ?_
    rw [hkey, hid, hop, Command.hash, hmaterial]
    exact h
  have hother : ∀ c' : Command, c'.key = c.key → ¬ c'.Same c → c'.send env db = keyConflict := by
    intro c' hkey hne
    unfold RecordedAs at h
    rw [← hkey] at h
    refine send_refused (commandReplay_conflict h ?_)
    rintro ⟨hid,-,hhash⟩
    exact hne ⟨hid.symm,hinj _ hhash.symm⟩
  refine ⟨?_,hother,?_⟩
  · intro c' view hkey hc hview
    rw [send_replayed (hsame c' hkey hc), hview]
    rfl
  · intro c' db' result hkey hsend
    by_cases hc : c'.Same c
    · rw [send_replayed (hsame c' hkey hc)] at hsend
      cases hview : loadApprovalView db c'.requestId (some c'.userId) with
      | error e => rw [hview] at hsend; cases hsend
      | ok view => rw [hview] at hsend; cases hsend; rfl
    · rw [hother c' hkey hc] at hsend
      cases hsend

end Sending

section Recording
variable {simulate : Bool} {context : ApprovalHumanContext} {result : CommandResult}

theorem writeApprovalReceipt_commands (db : Db) (requestId : RequestId) (row : ApprovalRow)
    (decision : ApprovalStatus) (actor : String) :
    (writeApprovalReceipt db requestId row decision actor).commands = db.commands := by
  unfold writeApprovalReceipt
  split
  · rfl
  · split
    · rfl
    · split <;> rfl

theorem finalizeApproval_commands (h : finalizeApproval env db requestId row simulate = .ok f) :
    f.commands = db.commands := by
  have hstage : ∀ (db : Db) details queued,
      (writeStage db requestId details queued).commands = db.commands := by
    intro db details queued
    unfold writeStage
    split
    · split <;> rfl
    · rfl
  have hfollow : ∀ db : Db, (enqueueFollowOn db requestId row).commands = db.commands := by
    intro db
    unfold enqueueFollowOn
    split
    · rfl
    · dsimp only
      split <;> rfl
  simp only [finalizeApproval, Result.bind_eq_ok] at h
  obtain ⟨materialized,-,h⟩ := h
  cases materialized with
  | true =>
    simp only [if_true, Result.pure_eq_ok] at h
    exact h ▸ rfl
  | false =>
    simp only [Bool.false_eq_true, if_false, Result.bind_eq_ok, Result.pure_eq_ok] at h
    obtain ⟨⟨outbox,queued⟩,-,rfl⟩ := h
    exact (hfollow _).trans (hstage _ _ _)

theorem closeDecision_commands (db : Db) (requestId : RequestId) (row : ApprovalRow)
    (decision : VoteDecision) (actor : String) :
    (closeDecision db requestId row decision actor).commands = db.commands :=
  writeApprovalReceipt_commands _ _ _ _ _

theorem writeRevision_commands {userId : UserId} {proposal : ApprovalProposal} {requested : Option ℕ}
    (h : writeRevision env db requestId userId row proposal requested = .ok db') :
    db'.commands = db.commands := by
  simp only [writeRevision, Result.bind_eq_ok] at h
  obtain ⟨r,-,_,-,h⟩ := h
  split at h
  · cases h
  · rw [Result.pure_eq_ok] at h
    exact h ▸ rfl

theorem reopenApprovalForResend_commands {userId : UserId}
    (h : reopenApprovalForResend env db requestId userId = .ok db') : db'.commands = db.commands := by
  simp only [reopenApprovalForResend, Result.bind_eq_ok] at h
  obtain ⟨row,-,h⟩ := h
  split at h
  · rw [Result.pure_eq_ok] at h
    exact h ▸ rfl
  · simp only [Result.bind_eq_ok, Result.pure_eq_ok] at h
    obtain ⟨_,-,_,-,revised,hw,rfl⟩ := h
    rw [← writeRevision_commands hw]
    unfold setEffectReason
    split <;> rfl

/-- A command that succeeds was replayed, found its approval overdue, or is recorded. -/
inductive Sent (env : Platform) (db : Db) (c : Command) : Db → Prop
  | replayed : c.replay env db = .ok true → Sent env db c db
  | overdue (row : ApprovalRow) : FindsOverdue env db c → db.requests c.requestId = some row →
      Sent env db c (markExpired db c.requestId row)
  | recorded (db' : Db) : c.replay env db = .ok false → ¬ FindsOverdue env db c →
      db'.commands = db.commands ++ [⟨c.requestId,c.operation,c.key,c.hash env⟩] → Sent env db c db'

theorem decide_sent {input : DecideApprovalInput} {c : Command}
    (hc : c = .decide requestId context input) (hfresh : c.replay env db = .ok false)
    (h : decideApproval env db requestId context input = .ok (db',result)) : Sent env db c db' := by
  subst hc
  have hlive : ∀ {row reviewer step}, Ballot env db requestId context input row reviewer step →
      ¬ FindsOverdue env db (.decide requestId context input) := by
    rintro row reviewer step b ⟨-,-,row',hrow,-,hexpiry⟩
    cases b.loaded.symm.trans hrow
    exact Nat.not_le_of_lt b.unexpired hexpiry
  cases decideApproval_ok h with
  | replayed hreplay => exact .replayed hreplay
  | expired row hrow hpending hexpiry =>
    exact .overdue row ⟨rfl,hfresh,row,hrow,hpending,hexpiry⟩ hrow
  | closed row reviewer step b _ =>
    exact .recorded _ b.fresh (hlive b) (closeDecision_commands _ _ _ _ _)
  | counted row reviewer step b _ _ => exact .recorded _ b.fresh (hlive b) rfl
  | finalized row reviewer step f b _ _ hf =>
    refine .recorded _ b.fresh (hlive b) ?_
    rw [writeApprovalReceipt_commands, finalizeApproval_commands hf]
    rfl

theorem revise_sent {input : ReviseApprovalInput} {c : Command}
    (hc : c = .revise requestId context input) (hfresh : c.replay env db = .ok false)
    (h : reviseApproval env db requestId context input = .ok (db',result)) : Sent env db c db' := by
  subst hc
  have hreplay : commandReplay db requestId .revision input.idempotencyKey (revisionHash env input) =
      .ok false := hfresh
  have hnot : ¬ FindsOverdue env db (.revise requestId context input) := by
    rintro ⟨hop,-⟩
    cases hop
  simp only [reviseApproval, hreplay, Result.bind_eq_ok, Except.ok.injEq, exists_eq_left',
    Bool.false_eq_true, if_false, Result.pure_eq_ok] at h
  obtain ⟨row,-,_,-,_,-,_,-,revised,hw,view,-,h⟩ := h
  cases h
  refine .recorded _ hfresh hnot ?_
  rw [← writeRevision_commands hw]
  rfl

theorem route_sent {input : RouteApprovalInput} {c : Command}
    (hc : c = .route requestId context input) (hfresh : c.replay env db = .ok false)
    (h : routeApproval env db requestId context input = .ok (db',result)) : Sent env db c db' := by
  subst hc
  have hreplay : commandReplay db requestId .route input.idempotencyKey (routeHash env input) =
      .ok false := hfresh
  have hnot : ¬ FindsOverdue env db (.route requestId context input) := by
    rintro ⟨hop,-⟩
    cases hop
  simp only [routeApproval, hreplay, Result.bind_eq_ok, Except.ok.injEq, exists_eq_left',
    Bool.false_eq_true, if_false, Result.pure_eq_ok] at h
  obtain ⟨row,-,_,-,_,-,⟨actor,target⟩,-,_,-,view,-,h⟩ := h
  cases h
  exact .recorded _ hfresh hnot rfl

theorem send_ok {c : Command} (h : c.send env db = .ok (db',result)) : Sent env db c db' := by
  cases hreplay : c.replay env db with
  | error failure =>
    rw [send_refused hreplay] at h
    cases h
  | ok replay =>
    cases replay with
    | true =>
      rw [send_replayed hreplay] at h
      cases hview : loadApprovalView db c.requestId (some c.userId) with
      | error e => rw [hview] at h; cases h
      | ok view =>
        rw [hview] at h
        cases h
        exact .replayed hreplay
    | false =>
      cases c with
      | decide id context input => exact decide_sent rfl hreplay h
      | revise id context input => exact revise_sent rfl hreplay h
      | route id context input => exact route_sent rfl hreplay h

/-- An operation only adds to the recorded commands. -/
theorem Step.commands {e : Event} (h : Step env db e db') : db.commands <+: db'.commands := by
  have hsent : ∀ {c : Command} {result}, c.send env db = .ok (db',result) →
      db.commands <+: db'.commands := by
    intro c result h
    cases send_ok h with
    | replayed _ => exact List.prefix_rfl
    | overdue row _ _ => exact List.prefix_rfl
    | recorded _ _ _ hadd => exact hadd ▸ List.prefix_append _ _
  unfold Step Applied apply at h
  cases e with
  | propose context input =>
    obtain ⟨view,h⟩ := Result.map_fst_ok h
    rcases proposeApproval_ok h with rfl | ⟨p,-,rfl⟩ <;> exact List.prefix_rfl
  | decide requestId context input =>
    obtain ⟨result,h⟩ := Result.map_fst_ok h
    exact hsent (c := .decide requestId context input) h
  | revise requestId context input =>
    obtain ⟨result,h⟩ := Result.map_fst_ok h
    exact hsent (c := .revise requestId context input) h
  | route requestId context input =>
    obtain ⟨result,h⟩ := Result.map_fst_ok h
    exact hsent (c := .route requestId context input) h
  | reopen requestId userId => exact (reopenApprovalForResend_commands h).symm ▸ List.prefix_rfl
  | read requestId viewerUserId =>
    obtain ⟨view,h⟩ := Result.map_fst_ok h
    simp only [getApproval, Result.bind_eq_ok, Result.pure_eq_ok, Prod.mk.injEq] at h
    obtain ⟨_,-,row,-,_,-,rfl,-⟩ := h
    split <;> exact List.prefix_rfl
  | directory next => cases h; exact List.prefix_rfl
  | mail next => cases h; exact List.prefix_rfl
  | tick elapsed => cases h; exact List.prefix_rfl

end Recording

section Runs
variable {c : Command} {result : CommandResult}

theorem RecordedAs.of_prefix (h : RecordedAs env c db) (hp : db.commands <+: db'.commands) :
    RecordedAs env c db' := by
  obtain ⟨more,hmore⟩ := hp
  unfold RecordedAs at *
  rw [← hmore, List.find?_append, h]
  rfl

theorem RecordedAs.run {events : List Event} (h : RecordedAs env c db)
    (hrun : Run (Step env) db events db') : RecordedAs env c db' :=
  hrun.invariant h fun _ _ _ hs hst => hs.of_prefix hst.commands

end Runs

section Sample

end Sample

end HermesEnterprise.Approvals
