import HermesEnterprise.Email.Rows

/-! # What each step of the send system can do

One constructor for each transaction, with the guards that held and the world it leaves, and what each
does to the rows.
-/
namespace HermesEnterprise.Email
open Approvals Jobs Foundation.Runs Foundation.Tables

/-- What one event did. -/
inductive Acts (env : Approvals.Platform) (w : World) : SendEvent → World → Prop
  | approval (e : Event) (db : Db) : Approvals.Step env w.db e db → Acts env w (.approval e) { w with db := db }
  | claim (id : WorkerId) (jobId : JobId) (jobs : JobTables) (job : JobRow) (key outboxId : OutboxId) :
      w.workers id = none → claimJob w.db.now jobId w.db.jobs = some (jobs,job) → job.key = .outboundEmailSend key →
      job.payload = .outbox outboxId → Acts env w (.claim id jobId) { w with
        db := { w.db with jobs := jobs },
        workers := Function.update w.workers id (some ⟨job.id,job.attempts,outboxId,.claimed⟩) }
  | prepare (id : WorkerId) (worker : Worker) (deployment : Deployment) (token : TokenAnswer) (reference : String)
      (db : Db) (prepared : Option PreparedSend) : w.workers id = some worker → worker.phase = .claimed →
      prepareSend w.db deployment worker.outboxId token reference = .ok (db,prepared) →
      Acts env w (.prepare id deployment token reference) (w.advance id worker db (afterPrepare prepared))
  | prepareFails (id : WorkerId) (worker : Worker) (deployment : Deployment) (token : TokenAnswer) (reference : String)
      (message : String) : w.workers id = some worker → worker.phase = .claimed →
      Acts env w (.prepare id deployment token reference) (w.advance id worker w.db (.failing message))
  | startCall (id : WorkerId) (worker : Worker) (prepared : PreparedSend) : w.workers id = some worker →
      worker.phase = .calling prepared → Acts env w (.startCall id) (w.startCall id worker prepared)
  | answer (id : WorkerId) (worker : Worker) (prepared : PreparedSend) (call : CallId) (answer : ProviderAnswer) :
      w.workers id = some worker → worker.phase = .called prepared call →
      Acts env w (.answer id answer) (w.answer id worker prepared call answer)
  | record (id : WorkerId) (worker : Worker) (prepared : PreparedSend) (answer : ProviderAnswer) :
      w.workers id = some worker → worker.phase = .answered prepared answer →
      Acts env w (.record id) (w.record id worker prepared answer)
  | recordFails (id : WorkerId) (worker : Worker) (prepared : PreparedSend) (answer : ProviderAnswer) (message : String) :
      w.workers id = some worker → worker.phase = .answered prepared answer →
      Acts env w (.recordFails id message) (w.recordFails id worker prepared message answer)
  | finish (id : WorkerId) (worker : Worker) : w.workers id = some worker → worker.phase = .finishing →
      Acts env w (.finish id) (w.finish id worker)
  | finishFails (id : WorkerId) (worker : Worker) (message : String) : w.workers id = some worker →
      worker.phase = .finishing → Acts env w (.finishFails id message) (w.advance id worker w.db (.failing message))
  | fail (id : WorkerId) (worker : Worker) (message : String) : w.workers id = some worker →
      worker.phase = .failing message → Acts env w (.fail id) (w.fail id worker message)
  | crash (id : WorkerId) (worker : Worker) : w.workers id = some worker → Acts env w (.crash id) (w.retire id w.db)
  | settle (requestId : RequestId) (outboxId : OutboxId) (userId : UserId) (outcome : SettledOutcome) (db : Db)
      (result : SettleResult) : settleEmailSend env w.db requestId outboxId userId outcome = .ok (db,result) →
      Acts env w (.settle requestId outboxId userId outcome) { w with db := db }
  | disconnect (accountId : AccountId) (db : Db) : disconnectMailbox w.db accountId = .ok db →
      Acts env w (.disconnect accountId) { w with db := db }
  | connect (freshId : AccountId) (provider : SendingProvider) (address : String) (db : Db) :
      connectMailbox w.db freshId provider address = .ok db →
      Acts env w (.connect freshId provider address) { w with db := db }
  | contactReply (address : String) (candidateId : Option Uuid) (unsubscribe : Bool) :
      Acts env w (.contactReply address candidateId unsubscribe)
        { w with db := recordContactReply w.db address candidateId unsubscribe }

section Inversion
variable {env : Approvals.Platform} {w w' : World} {e : SendEvent} {id : WorkerId} {worker : Worker}

theorem Result.map_ok {α β : Type} {x : Result α} {f : α → β} {b : β} (h : x.map f = .ok b) :
    ∃ a, x = .ok a ∧ f a = b := by
  cases x with
  | error e => cases h
  | ok a => cases h; exact ⟨a,rfl,rfl⟩

theorem approvalStep_ok {db db' : Db} {e : Event} (h : approvalStep env db e = .ok db') : Approvals.Step env db e db' := by
  cases e with
  | reopen requestId userId => cases h
  | propose context input => exact h
  | decide requestId context input => exact h
  | revise requestId context input => exact h
  | route requestId context input => exact h
  | read requestId viewerUserId => exact h
  | directory next => exact h
  | mail next => exact h
  | tick elapsed => exact h

theorem work_ok (hw : w.workers id = some worker) (he : e.worker = some id) (h : w.work id worker e worker.phase = .ok w') :
    Acts env w e w' := by
  cases e with
  | prepare other deployment token reference =>
    cases he
    cases hp : worker.phase with
    | claimed =>
      rw [hp] at h
      cases h
      unfold World.prepare
      cases hprepare : prepareSend w.db deployment worker.outboxId token reference with
      | ok p => exact .prepare id worker deployment token reference p.1 p.2 hw hp hprepare
      | error failure => exact .prepareFails id worker deployment token reference _ hw hp
    | _ => rw [hp] at h; cases h
  | startCall other =>
    cases he
    cases hp : worker.phase with
    | calling prepared =>
      rw [hp] at h
      cases h
      exact .startCall id worker prepared hw hp
    | _ => rw [hp] at h; cases h
  | answer other answer =>
    cases he
    cases hp : worker.phase with
    | called prepared call =>
      rw [hp] at h
      cases h
      exact .answer id worker prepared call answer hw hp
    | _ => rw [hp] at h; cases h
  | record other =>
    cases he
    cases hp : worker.phase with
    | answered prepared answer =>
      rw [hp] at h
      cases h
      exact .record id worker prepared answer hw hp
    | _ => rw [hp] at h; cases h
  | recordFails other message =>
    cases he
    cases hp : worker.phase with
    | answered prepared answer =>
      rw [hp] at h
      cases h
      exact .recordFails id worker prepared answer message hw hp
    | _ => rw [hp] at h; cases h
  | finish other =>
    cases he
    cases hp : worker.phase with
    | finishing =>
      rw [hp] at h
      cases h
      exact .finish id worker hw hp
    | _ => rw [hp] at h; cases h
  | finishFails other message =>
    cases he
    cases hp : worker.phase with
    | finishing =>
      rw [hp] at h
      cases h
      exact .finishFails id worker message hw hp
    | _ => rw [hp] at h; cases h
  | fail other =>
    cases he
    cases hp : worker.phase with
    | failing message =>
      rw [hp] at h
      cases h
      exact .fail id worker message hw hp
    | _ => rw [hp] at h; cases h
  | crash other =>
    cases he
    have hret : w' = w.retire id w.db := by
      cases hp : worker.phase <;> rw [hp] at h <;> cases h <;> rfl
    rw [hret]
    exact .crash id worker hw
  | approval e => cases he
  | claim worker jobId => cases he
  | settle requestId outboxId userId outcome => cases he
  | disconnect accountId => cases he
  | connect freshId provider address => cases he
  | contactReply address candidateId unsubscribe => cases he

/-- Every step is one of these. -/
theorem SendStep.acts (h : SendStep env w e w') : Acts env w e w' := by
  unfold SendStep Applied World.apply at h
  cases he : e.worker with
  | some id =>
    rw [he] at h
    simp only at h
    cases hw : w.workers id with
    | none => rw [hw] at h; cases h
    | some worker =>
      rw [hw] at h
      exact work_ok hw he h
  | none =>
    rw [he] at h
    cases e with
    | approval e =>
      obtain ⟨db,hdb,rfl⟩ := Result.map_ok h
      exact .approval e db (approvalStep_ok hdb)
    | claim id jobId =>
      simp only [World.claim] at h
      split at h
      next jobs job hnone hclaim =>
        split at h
        next key outboxId hkey hpayload =>
          cases h
          exact .claim id jobId jobs job key outboxId hnone hclaim hkey hpayload
        next => cases h
      next => cases h
    | settle requestId outboxId userId outcome =>
      obtain ⟨⟨db,result⟩,hdb,rfl⟩ := Result.map_ok h
      exact .settle requestId outboxId userId outcome db result hdb
    | disconnect accountId =>
      obtain ⟨db,hdb,rfl⟩ := Result.map_ok h
      exact .disconnect accountId db hdb
    | connect freshId provider address =>
      obtain ⟨db,hdb,rfl⟩ := Result.map_ok h
      exact .connect freshId provider address db hdb
    | contactReply address candidateId unsubscribe =>
      cases h
      exact .contactReply address candidateId unsubscribe
    | _ => cases he

end Inversion

section Preparing
variable {env : Approvals.Platform} {db db' : Db} {deployment : Deployment} {row : OutboxRow} {token : TokenAnswer}
variable {reference : String} {prepared : Option PreparedSend}

/-- What the first transaction makes of the row of its job: how it rewrites the row, what it writes to the
approval, and whom it will ask to send. -/
inductive PreparesRow (db : Db) (row : OutboxRow) :
    (OutboxRow → OutboxRow) → (ApprovalRow → ApprovalRow) → Option PreparedSend → Prop
  | interrupted : row.state = .sending → PreparesRow db row
      (fun r => { r with state := .ambiguous, lastError := some "send_interrupted_outcome_unknown" })
      (effectFailed interruptedReason) none
  | unauthorized : row.state.final = false → row.state ≠ .sending → row.state ≠ .ambiguous → authorized db row = false →
      PreparesRow db row (fun r => { r with state := .cancelled, lastError := some "authorization_no_longer_valid" }) id none
  | cancelled (reason : String) : row.state.final = false → row.state ≠ .sending → row.state ≠ .ambiguous →
      authorized db row = true → reason ≠ "authorization_no_longer_valid" →
      PreparesRow db row (fun r => { r with state := .cancelled, lastError := some reason }) id none
  | disallowed (reason : String) : row.state.final = false → row.state ≠ .sending → row.state ≠ .ambiguous →
      authorized db row = true → PreparesRow db row
      (fun r => { r with state := .cancelled, lastError := some "recipient_not_allowed" }) (effectFailed reason) none
  | simulated (reference reason : String) : row.state.final = false → row.state ≠ .sending → row.state ≠ .ambiguous →
      authorized db row = true → PreparesRow db row
      (fun r => { r with state := .simulated, providerMessageId := some reference, sentAt := some db.now, lastError := none })
      (effectDone .simulated reason) none
  | waits (code : String) : row.state = .queued → authorized db row = true → PreparesRow db row
      (fun r => { r with state := .pendingConnection, accountId := none, lastError := some code }) id none
  | sends (provider : Provider) : row.state.final = false → row.state ≠ .sending → row.state ≠ .ambiguous →
      authorized db row = true → PreparesRow db row
      (fun r => { r with state := .sending, attemptCount := r.attemptCount + 1, lastError := none }) id
      (some ⟨row,provider⟩)

/-- The outcome of the first transaction: it left the row alone, or did one of these to it. -/
structure PreparesAs (db : Db) (row : OutboxRow) (f : OutboxRow → OutboxRow) (q : ApprovalRow → ApprovalRow)
    (db' : Db) : Prop where
  outbox : db'.outbox = (setRow db row f).outbox
  requests : db'.requests = (updateRequest db row.requestId q).requests
  jobs : db'.jobs = db.jobs
  nextId : db'.nextId = db.nextId

theorem PreparesAs.of_setRow (db : Db) (row : OutboxRow) (f : OutboxRow → OutboxRow) :
    PreparesAs db row f id (setRow db row f) := by
  refine ⟨rfl,?_,rfl,rfl⟩
  simp only [updateRequest, Option.map_id, id_eq, Function.update_eq_self]
  rfl

theorem PreparesAs.of_both (db : Db) (row : OutboxRow) (f : OutboxRow → OutboxRow) (q : ApprovalRow → ApprovalRow) :
    PreparesAs db row f q (updateRequest (setRow db row f) row.requestId q) := ⟨rfl,rfl,rfl,rfl⟩

theorem resolveSendingAccessToken_ok {accountId : AccountId} {answer : ResolvedAccount}
    (h : resolveSendingAccessToken db token accountId = .ok (db',answer)) :
    db'.outbox = db.outbox ∧ db'.requests = db.requests ∧ db'.jobs = db.jobs ∧ db'.nextId = db.nextId := by
  unfold resolveSendingAccessToken at h
  split at h
  next => cases h; exact ⟨rfl,rfl,rfl,rfl⟩
  next =>
    split at h
    next => cases h; exact ⟨rfl,rfl,rfl,rfl⟩
    next =>
      split at h
      next => cases h; exact ⟨rfl,rfl,rfl,rfl⟩
      next => cases h; exact ⟨rfl,rfl,rfl,rfl⟩
      next => cases h

/-- A row that waits, as the queries of the first transaction see it. -/
def Waiting (row : OutboxRow) : Prop := row.state = .pendingConnection ∨ row.state = .queued

theorem Waiting.open (h : Waiting row) : row.state.final = false ∧ row.state ≠ .sending ∧ row.state ≠ .ambiguous := by
  rcases h with h | h <;> rw [h] <;> exact ⟨rfl,nofun,nofun⟩

theorem prepareAgent_ok (hw : Waiting row) (ha : authorized db row = true)
    (h : prepareAgent db row = (db',prepared)) :
    ∃ f q, PreparesRow db row f q prepared ∧ PreparesAs db row f q db' := by
  obtain ⟨hfinal,hsending,hambiguous⟩ := hw.open
  simp only [prepareAgent] at h
  split at h
  next =>
    cases h
    exact ⟨_,_,.sends .agent hfinal hsending hambiguous ha,.of_setRow db row _⟩
  next =>
    cases h
    exact ⟨_,_,.cancelled "sender_account_mismatch" hfinal hsending hambiguous ha (by decide),.of_setRow db row _⟩

theorem prepareMailbox_ok (hq : row.accountId.isSome → row.state = .queued) (hw : Waiting row)
    (ha : authorized db row = true) (h : prepareMailbox db row token = .ok (db',prepared)) :
    (db' = db ∧ prepared = none) ∨ ∃ f q, PreparesRow db row f q prepared ∧ PreparesAs db row f q db' := by
  obtain ⟨hfinal,hsending,hambiguous⟩ := hw.open
  unfold prepareMailbox at h
  split at h
  next => cases h; exact Or.inl ⟨rfl,rfl⟩
  next accountId haccount =>
    have hqueued : row.state = .queued := hq (by rw [haccount]; rfl)
    rw [Result.bind_eq_ok] at h
    obtain ⟨⟨resolved,answer⟩,hresolved,h⟩ := h
    obtain ⟨hout,hreq,hjobs,hnext⟩ := resolveSendingAccessToken_ok hresolved
    have has : ∀ f, PreparesAs db row f id (setRow resolved row f) := by
      intro f
      have hsame := PreparesAs.of_setRow db row f
      refine ⟨?_,?_,hjobs,hnext⟩
      · simp only [setRow, updateOutbox, hout]
      · rw [← hsame.requests]
        exact hreq
    refine Or.inr ?_
    simp only at h
    cases answer with
    | unavailable code =>
      cases h
      exact ⟨_,_,.waits code hqueued ha,has _⟩
    | account account =>
      simp only at h
      split at h
      next =>
        cases h
        exact ⟨_,_,.cancelled "sender_account_mismatch" hfinal hsending hambiguous ha (by decide),has _⟩
      next =>
        cases h
        exact ⟨_,_,.sends (.mailbox account.provider) hfinal hsending hambiguous ha,has _⟩

theorem prepareWaiting_ok (hw : Waiting row) (h : prepareWaiting db deployment row token reference = .ok (db',prepared)) :
    (db' = db ∧ prepared = none) ∨ ∃ f q, PreparesRow db row f q prepared ∧ PreparesAs db row f q db' := by
  obtain ⟨hfinal,hsending,hambiguous⟩ := hw.open
  unfold prepareWaiting at h
  split at h
  next => cases h; exact Or.inl ⟨rfl,rfl⟩
  next hgo =>
    split at h
    next ha =>
      cases h
      exact Or.inr ⟨_,_,.unauthorized hfinal hsending hambiguous (by simpa using ha),.of_setRow db row _⟩
    next ha =>
      have ha : authorized db row = true := by simpa using ha
      split at h
      next =>
        cases h
        exact Or.inr ⟨_,_,.cancelled "recipient_suppressed" hfinal hsending hambiguous ha (by decide),.of_setRow db row _⟩
      next =>
        split at h
        next =>
          cases h
          exact Or.inr ⟨_,_,.simulated reference _ hfinal hsending hambiguous ha,.of_both db row _ _⟩
        next hsimulate =>
          split at h
          next =>
            cases h
            exact Or.inr ⟨_,_,.disallowed _ hfinal hsending hambiguous ha,.of_both db row _ _⟩
          next =>
            split at h
            next =>
              cases hagent : prepareAgent db row with
              | mk next answer =>
                rw [hagent] at h
                cases h
                exact Or.inr (prepareAgent_ok hw ha hagent)
            next hagent =>
              refine prepareMailbox_ok (fun _ => ?_) hw ha h
              rcases hw with hp | hq
              · exact absurd (by simp [hsimulate, hagent, hp]) hgo
              · exact hq

theorem prepareSend_ok {outboxId : OutboxId}
    (h : prepareSend db deployment outboxId token reference = .ok (db',prepared)) :
    (db' = db ∧ prepared = none) ∨ ∃ row ∈ db.outbox.rows, row.id = outboxId ∧
      ∃ f q, PreparesRow db row f q prepared ∧ PreparesAs db row f q db' := by
  unfold prepareSend at h
  split at h
  next => cases h; exact Or.inl ⟨rfl,rfl⟩
  next row hfind =>
    obtain ⟨hmem,hid⟩ := of_find?_key hfind
    split at h
    next => cases h; exact Or.inl ⟨rfl,rfl⟩
    next => cases h; exact Or.inl ⟨rfl,rfl⟩
    next => cases h; exact Or.inl ⟨rfl,rfl⟩
    next => cases h; exact Or.inl ⟨rfl,rfl⟩
    next => cases h; exact Or.inl ⟨rfl,rfl⟩
    next hs =>
      cases h
      exact Or.inr ⟨row,hmem,hid,_,_,.interrupted hs,.of_both db row _ _⟩
    next hs =>
      rcases prepareWaiting_ok (Or.inl hs) h with hsame | hprepares
      · exact Or.inl hsame
      · exact Or.inr ⟨row,hmem,hid,hprepares⟩
    next hs =>
      rcases prepareWaiting_ok (Or.inr hs) h with hsame | hprepares
      · exact Or.inl hsame
      · exact Or.inr ⟨row,hmem,hid,hprepares⟩

end Preparing

section Rows
variable {env : Approvals.Platform} {db db' : Db} {row : OutboxRow} {prepared : PreparedSend}

theorem setRow_rows (db : Db) (row : OutboxRow) (f : OutboxRow → OutboxRow) :
    (setRow db row f).outbox.rows = updateWhere (fun r => decide (r.id = row.id)) f db.outbox.rows := rfl

/-- One row is rewritten; the ids keep the others apart. -/
theorem rewrites_setRow (h : OutboxKept db) (hrow : row ∈ db.outbox.rows) {f : OutboxRow → OutboxRow}
    (hf : Moves row (f row)) : Rewrites db (setRow db row f) := by
  refine rewrites_updateOutbox db fun r hr hid => ?_
  rw [h.eq_of_id hr hrow (of_decide_eq_true hid)]
  exact hf

theorem PreparesRow.moves {f : OutboxRow → OutboxRow} {q : ApprovalRow → ApprovalRow} {prepared : Option PreparedSend}
    (h : PreparesRow db row f q prepared) : Moves row (f row) ∧ KeepsAuthorization q := by
  have hid : KeepsAuthorization id := fun _ => ⟨rfl,rfl,rfl⟩
  cases h with
  | interrupted hs => exact ⟨⟨rfl,rfl,rfl,rfl,rfl,fun hf => by rw [hs] at hf; cases hf⟩,keeps_effectFailed _⟩
  | unauthorized hf => exact ⟨⟨rfl,rfl,rfl,rfl,rfl,fun h => absurd (hf.symm.trans h) nofun⟩,hid⟩
  | cancelled reason hf => exact ⟨⟨rfl,rfl,rfl,rfl,rfl,fun h => absurd (hf.symm.trans h) nofun⟩,hid⟩
  | disallowed reason hf => exact ⟨⟨rfl,rfl,rfl,rfl,rfl,fun h => absurd (hf.symm.trans h) nofun⟩,keeps_effectFailed _⟩
  | simulated reference reason hf =>
    exact ⟨⟨rfl,rfl,rfl,rfl,rfl,fun h => absurd (hf.symm.trans h) nofun⟩,keeps_effectDone _ _⟩
  | waits code hs => exact ⟨⟨rfl,rfl,rfl,rfl,rfl,fun hf => by rw [hs] at hf; cases hf⟩,hid⟩
  | sends provider hf => exact ⟨⟨rfl,rfl,rfl,rfl,rfl,fun h => absurd (hf.symm.trans h) nofun⟩,hid⟩

theorem PreparesAs.rewrites {f : OutboxRow → OutboxRow} {q : ApprovalRow → ApprovalRow} (h : PreparesAs db row f q db')
    (hk : OutboxKept db) (hrow : row ∈ db.outbox.rows) (hf : Moves row (f row)) (hq : KeepsAuthorization q) :
    Rewrites db db' := by
  refine (rewrites_setRow hk hrow hf).trans ((rewrites_updateRequest _ row.requestId hq).trans (.same ?_ ?_ ?_))
  · exact h.outbox
  · exact h.requests
  · exact h.nextId

theorem isSending_final {r : OutboxRow} (h : isSending prepared r = true) : r.state = .sending := by
  simp only [isSending, decide_eq_true_eq] at h
  exact h.2

/-- An engagement is no approval and no row. -/
theorem sentEngagement_same (db : Db) (prepared : PreparedSend) :
    (sentEngagement db prepared).outbox = db.outbox ∧ (sentEngagement db prepared).requests = db.requests ∧
      (sentEngagement db prepared).nextId = db.nextId ∧ (sentEngagement db prepared).jobs = db.jobs := by
  unfold sentEngagement
  split <;> exact ⟨rfl,rfl,rfl,rfl⟩

theorem recordAccepted_outbox (db : Db) (prepared : PreparedSend) (messageId : String) :
    (recordAccepted db prepared messageId).outbox = (updateOutbox db (isSending prepared) fun r =>
      { r with state := .sent, providerMessageId := some messageId, sentAt := some db.now, lastError := none }).outbox := by
  unfold recordAccepted
  split
  next => exact (sentEngagement_same _ prepared).1
  next hnone =>
    simp only [List.any_eq_true, not_exists, not_and, Bool.not_eq_true] at hnone
    simp only [updateOutbox, updateWhere_eq_self hnone]

theorem recordFailed_outbox (db : Db) (prepared : PreparedSend) (error : SendError) :
    (recordFailed db prepared error).outbox = (updateOutbox db (isSending prepared) fun r =>
      { r with state := failedState error, lastError := some (String.ofList (error.message.toList.take 500)) }).outbox := by
  unfold recordFailed
  dsimp only
  split <;> rfl

theorem rewrites_isSending (db : Db) (prepared : PreparedSend) {f : OutboxRow → OutboxRow}
    (hf : ∀ r, (f r).id = r.id ∧ (f r).requestId = r.requestId ∧ (f r).authorizationRevision = r.authorizationRevision ∧
      (f r).authorizationHash = r.authorizationHash ∧ (f r).recipientIndex = r.recipientIndex) :
    Rewrites db (updateOutbox db (isSending prepared) f) := by
  refine rewrites_updateOutbox db fun r _ hp => ?_
  obtain ⟨h₁,h₂,h₃,h₄,h₅⟩ := hf r
  exact ⟨h₁,h₂,h₃,h₄,h₅,fun hfinal => by rw [isSending_final hp] at hfinal; cases hfinal⟩

theorem rewrites_recordAccepted (db : Db) (prepared : PreparedSend) (messageId : String) :
    Rewrites db (recordAccepted db prepared messageId) := by
  unfold recordAccepted
  split
  next =>
    have hrows : Rewrites db (updateOutbox db (isSending prepared) fun r =>
        { r with state := .sent, providerMessageId := some messageId, sentAt := some db.now, lastError := none }) :=
      rewrites_isSending db prepared fun r => ⟨rfl,rfl,rfl,rfl,rfl⟩
    obtain ⟨hout,hreq,hnext,-⟩ := sentEngagement_same (updateOutbox db (isSending prepared) fun r =>
      { r with state := .sent, providerMessageId := some messageId, sentAt := some db.now, lastError := none }) prepared
    exact (hrows.trans (.same hout hreq hnext)).trans (rewrites_updateRequest _ _ (keeps_effectDone _ _))
  next => exact .same rfl rfl rfl

theorem rewrites_recordFailed (db : Db) (prepared : PreparedSend) (error : SendError) :
    Rewrites db (recordFailed db prepared error) := by
  have hrows : Rewrites db (updateOutbox db (isSending prepared) fun r =>
      { r with state := failedState error, lastError := some (String.ofList (error.message.toList.take 500)) }) :=
    rewrites_isSending db prepared fun r => ⟨rfl,rfl,rfl,rfl,rfl⟩
  unfold recordFailed
  dsimp only
  split
  · exact hrows
  · exact hrows.trans (rewrites_updateRequest _ _ (keeps_effectFailed _))

/-- The next revision of an approval appends no row. -/
theorem rewrites_revised {requestId : RequestId} {q : ApprovalRow} {proposal : ApprovalProposal} {r : Resolution}
    (h : Revised env db requestId q proposal r db') : Rewrites db db' := by
  obtain ⟨reason,hreq⟩ := h.requests
  refine ⟨⟨id,?_,fun r _ => .refl r⟩,?_,fun id old hold => ?_,fun hids id old hold => ?_⟩
  · rw [h.outbox, List.map_id]
  · rw [h.outbox]
  · by_cases hid : id = requestId
    · subst hid
      cases h.loaded.symm.trans hold
      exact ⟨_,by rw [hreq, Function.update_self],Or.inr (Nat.lt_succ_self _)⟩
    · exact ⟨old,by rw [hreq, Function.update_of_ne hid, hold],.refl old⟩
  · rw [h.toFrame.nextId]
    by_cases hid : id = requestId
    · exact hid ▸ hids requestId q h.loaded
    · rw [hreq, Function.update_of_ne hid] at hold
      exact hids id old hold

/-- What settling did: nothing, or it recorded the outcome on an uncertain row. -/
theorem settleEmailSend_ok {requestId : RequestId} {outboxId : OutboxId} {userId : UserId} {outcome : SettledOutcome}
    {result : SettleResult} (h : settleEmailSend env db requestId outboxId userId outcome = .ok (db',result)) :
    db' = db ∨ ∃ row ∈ db.outbox.rows, row.requestId = requestId ∧ row.id = outboxId ∧ row.state = .ambiguous ∧
      ((outcome = .sent ∧ db' = settleSent db requestId userId row) ∨
        (outcome = .notSent ∧ settleNotSent env db requestId userId row = .ok db')) := by
  unfold settleEmailSend at h
  split at h
  next => cases h
  next row hfind =>
    simp only [Result.bind_eq_ok] at h
    obtain ⟨_,-,h⟩ := h
    split at h
    next =>
      rw [Result.pure_eq_ok] at h
      cases h
      exact Or.inl rfl
    next =>
      simp only [Result.bind_eq_ok, require_eq_ok, decide_eq_true_eq] at h
      obtain ⟨_,hstate,h⟩ := h
      have hkey : row.requestId = requestId ∧ row.id = outboxId := by simpa using List.find?_some hfind
      refine Or.inr ⟨row,List.mem_of_find?_eq_some hfind,hkey.1,hkey.2,hstate,?_⟩
      cases outcome with
      | sent =>
        simp only [Result.pure_eq_ok] at h
        cases h
        exact Or.inl ⟨rfl,rfl⟩
      | notSent =>
        simp only [Result.bind_eq_ok, Result.pure_eq_ok] at h
        obtain ⟨reopened,hreopened,h⟩ := h
        cases h
        exact Or.inr ⟨rfl,hreopened⟩

theorem settleSent_outbox (db : Db) (requestId : RequestId) (userId : UserId) (row : OutboxRow) :
    (settleSent db requestId userId row).outbox = (setRow db row fun r =>
      { settledRow db userId .sent .sent r with sentAt := some (r.sentAt.getD db.now) }).outbox := by
  unfold settleSent settledEngagement closeEffect
  split <;> split <;> rfl

theorem rewrites_closeEffect (db : Db) (requestId : RequestId) : Rewrites db (closeEffect db requestId) := by
  unfold closeEffect
  split
  · exact rewrites_updateRequest db requestId (keeps_effectDone _ _)
  · exact .same rfl rfl rfl

theorem settleNotSent_ok {requestId : RequestId} {userId : UserId}
    (h : settleNotSent env db requestId userId row = .ok db') :
    (db' = setRow db row (settledRow db userId .cancelled .notSent) ∧
      ∃ q, db.requests requestId = some q ∧ q.status = .pending) ∨
      ∃ q r, q.status = .approved ∧ Revised env (setRow db row (settledRow db userId .cancelled .notSent)) requestId q
        (storedProposal q.payload) r db' :=
  reopenApprovalForResend_ok h

theorem rewrites_settle {requestId : RequestId} {outboxId : OutboxId} {userId : UserId} {outcome : SettledOutcome}
    {result : SettleResult} (hk : OutboxKept db)
    (h : settleEmailSend env db requestId outboxId userId outcome = .ok (db',result)) : Rewrites db db' := by
  rcases settleEmailSend_ok h with rfl | ⟨row,hrow,-,-,hstate,⟨-,rfl⟩ | ⟨-,hnot⟩⟩
  · exact .same rfl rfl rfl
  · have hmoves : Moves row { settledRow db userId .sent .sent row with sentAt := some (row.sentAt.getD db.now) } :=
      ⟨rfl,rfl,rfl,rfl,rfl,fun hf => by rw [hstate] at hf; cases hf⟩
    unfold settleSent
    refine (rewrites_setRow hk hrow (f := fun r =>
      { settledRow db userId .sent .sent r with sentAt := some (r.sentAt.getD db.now) }) hmoves).trans
      ((rewrites_closeEffect _ requestId).trans (.same ?_ ?_ ?_))
    all_goals unfold settledEngagement; split <;> rfl
  · have hmoves : Moves row (settledRow db userId .cancelled .notSent row) :=
      ⟨rfl,rfl,rfl,rfl,rfl,fun hf => by rw [hstate] at hf; cases hf⟩
    have hset := rewrites_setRow hk hrow hmoves
    rcases settleNotSent_ok hnot with ⟨rfl,-⟩ | ⟨q,r,-,hrevised⟩
    · exact hset
    · exact hset.trans (rewrites_revised hrevised)

theorem rewrites_disconnect {accountId : AccountId} (h : disconnectMailbox db accountId = .ok db') :
    Rewrites db db' := by
  unfold disconnectMailbox at h
  split at h
  next =>
    cases h
    refine (rewrites_updateOutbox db fun r _ hp => ?_).trans (.same rfl rfl rfl)
    simp only [decide_eq_true_eq] at hp
    exact ⟨rfl,rfl,rfl,rfl,rfl,fun hf => by rw [hp.2] at hf; cases hf⟩
  next =>
    cases h
    exact .same rfl rfl rfl

theorem picksUp_waiting {t : JobTables} {address : String} {r : OutboxRow} (h : picksUp t address r = true) :
    Waiting r := by
  simp only [picksUp, decide_eq_true_eq] at h
  rcases h.2 with hs | hs
  · exact Or.inl hs
  · exact Or.inr hs.1

theorem connectMailbox_ok {freshId : AccountId} {provider : SendingProvider} {address : String}
    (h : connectMailbox db freshId provider address = .ok db') : ∃ accountId mail,
    db' = { updateOutbox { db with mail := mail } (picksUp db.jobs address) (fun r =>
        { r with accountId := some accountId, state := .queued, lastError := none }) with
      jobs := ((db.outbox.rows.filter (picksUp db.jobs address)).map OutboxRow.id).foldl (ensureJob db.now) db.jobs } := by
  simp only [connectMailbox, Result.bind_eq_ok, Result.pure_eq_ok] at h
  obtain ⟨⟨stored,accountId⟩,hstored,h⟩ := h
  unfold storeSendingAccount at hstored
  split at hstored
  next =>
    cases hstored
    exact ⟨_,_,h.symm⟩
  next =>
    split at hstored
    next => cases hstored
    next =>
      cases hstored
      exact ⟨_,_,h.symm⟩

theorem rewrites_connect {freshId : AccountId} {provider : SendingProvider} {address : String}
    (h : connectMailbox db freshId provider address = .ok db') : Rewrites db db' := by
  obtain ⟨accountId,mail,rfl⟩ := connectMailbox_ok h
  have hmail : Rewrites db { db with mail := mail } := .same rfl rfl rfl
  refine hmail.trans ((rewrites_updateOutbox { db with mail := mail } fun r _ hp => ?_).trans (.same rfl rfl rfl))
  refine ⟨rfl,rfl,rfl,rfl,rfl,fun hf => ?_⟩
  exact absurd ((picksUp_waiting hp).open.1.symm.trans hf) nofun

theorem recordContactReply_outbox (db : Db) (address : String) (candidateId : Option Uuid) (unsubscribe : Bool) :
    ∃ reason, (recordContactReply db address candidateId unsubscribe).outbox =
      (updateOutbox db (isFutureOutreach address candidateId) fun r =>
        { r with state := .cancelled, lastError := some reason }).outbox ∧
      (reason = "recipient_unsubscribed" ∨ reason = "recipient_replied") := by
  unfold recordContactReply
  split
  · exact ⟨_,rfl,Or.inl rfl⟩
  · exact ⟨_,rfl,Or.inr rfl⟩

theorem isFutureOutreach_waiting {address : String} {candidateId : Option Uuid} {r : OutboxRow}
    (h : isFutureOutreach address candidateId r = true) : Waiting r := by
  simp only [isFutureOutreach, decide_eq_true_eq] at h
  exact h.1

theorem rewrites_contactReply (db : Db) (address : String) (candidateId : Option Uuid) (unsubscribe : Bool) :
    Rewrites db (recordContactReply db address candidateId unsubscribe) := by
  obtain ⟨reason,hout,-⟩ := recordContactReply_outbox db address candidateId unsubscribe
  refine (rewrites_updateOutbox db (p := isFutureOutreach address candidateId) (f := fun r =>
    { r with state := .cancelled, lastError := some reason }) fun r _ hp => ?_).trans (.same hout ?_ ?_)
  · refine ⟨rfl,rfl,rfl,rfl,rfl,fun hf => ?_⟩
    exact absurd ((isFutureOutreach_waiting hp).open.1.symm.trans hf) nofun
  all_goals unfold recordContactReply; split <;> rfl

end Rows

section Worlds
variable {env : Approvals.Platform} {w w' : World} {e : SendEvent}

/-- The outbox stays in order through every step. -/
theorem OutboxKept.acts (h : OutboxKept w.db) (ha : Acts env w e w') : OutboxKept w'.db := by
  cases ha with
  | approval e db hs => exact h.step hs
  | claim id jobId jobs job key outboxId hnone hclaim hkey hpayload => exact h.rewrites (.same rfl rfl rfl)
  | prepare id worker deployment token reference db prepared hw hp hprepare =>
    rcases prepareSend_ok hprepare with ⟨rfl,-⟩ | ⟨row,hrow,-,f,q,hrewrites,has⟩
    · exact h
    · exact h.rewrites (has.rewrites h hrow hrewrites.moves.1 hrewrites.moves.2)
  | prepareFails id worker deployment token reference message hw hp => exact h
  | startCall id worker prepared hw hp => exact h
  | answer id worker prepared call answer hw hp => exact h
  | record id worker prepared answer hw hp =>
    cases answer with
    | accepted messageId => exact h.rewrites (rewrites_recordAccepted w.db prepared messageId)
    | failed error => exact h.rewrites (rewrites_recordFailed w.db prepared error)
  | recordFails id worker prepared answer message hw hp =>
    cases answer with
    | accepted messageId => exact h
    | failed error => exact h
  | finish id worker hw hp => exact h.rewrites (.same rfl rfl rfl)
  | finishFails id worker message hw hp => exact h
  | fail id worker message hw hp => exact h.rewrites (.same rfl rfl rfl)
  | crash id worker hw => exact h
  | settle requestId outboxId userId outcome db result hs => exact h.rewrites (rewrites_settle h hs)
  | disconnect accountId db hd => exact h.rewrites (rewrites_disconnect hd)
  | connect freshId provider address db hc => exact h.rewrites (rewrites_connect hc)
  | contactReply address candidateId unsubscribe => exact h.rewrites (rewrites_contactReply w.db address candidateId unsubscribe)

theorem ReachableWorld.outbox (h : ReachableWorld env w) : OutboxKept w.db :=
  h.invariant (P := fun w => OutboxKept w.db) (fun _ hi => .initial hi.toInitial) fun _ _ _ hk hs => hk.acts hs.acts

end Worlds

end HermesEnterprise.Email
