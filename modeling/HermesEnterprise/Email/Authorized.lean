import HermesEnterprise.Approvals.Soundness
import HermesEnterprise.Email.Calls

/-! # What is sent was approved

A claim calls a provider only for a row that its own first transaction checked: approved at the row's
revision and hash, not suppressed, allowed here, and under a sender that is still connected. The row is
the one that the approval of that revision wrote, and says what the reviewers saw.
-/
namespace HermesEnterprise.Email
open Approvals Jobs Foundation.Runs Foundation.Tables

/-- What no step changes in a row: what it is about and the message. -/
def OutboxRow.reviewed (r : OutboxRow) : OutboxRow :=
  { r with accountId := none, state := .queued, attemptCount := 0, lastError := none, providerMessageId := none,
           sentAt := none, settledOutcome := none, settledBy := none, settledAt := none }

/-- The approved request behind a row, as its approval left it. -/
structure ApprovedFor (db : Db) (r : OutboxRow) (q : ApprovalRow) (d : CommunicationDetails)
    (recipient : Recipient) : Prop where
  stored : db.requests r.requestId = some q
  approved : q.status = .approved
  revision : r.authorizationRevision = q.authorizationRevision
  hash : r.authorizationHash = q.authorizationHash
  quorum : ∀ step ∈ q.payload.policy.steps, step.quorum ≤ (countedFor db r.requestId q step).card
  counted : ∀ step ∈ q.payload.policy.steps, ∀ m ∈ countedFor db r.requestId q step,
    MayReview db q step m ∧ ApprovedAt db r.requestId q step m
  details : q.payload.details = .communication d
  email : d.channel = .email ∧ d.draftOnly = false
  listed : d.recipients[r.recipientIndex]? = some recipient
  name : r.recipientName = recipient.name
  address : recipient.address.map normalized = some r.recipientAddress
  sender : r.senderAddress = normalized d.sender.address
  subject : r.subject = d.subject.getD ""
  body : r.body = d.body

/-- The sender that a row was approved under: its mailbox, or the agent's own address. -/
inductive SentBy (db : Db) (row : OutboxRow) : Provider → Prop
  | mailbox (account : AccountRow) : account ∈ db.mail.accounts → row.accountId = some account.id →
      account.status = .connected → account.address = row.senderAddress → SentBy db row (.mailbox account.provider)
  | agent (inbox : InboxRow) : inbox ∈ db.mail.inboxes → row.accountId = none → row.senderInboxId = some inbox.id →
      inbox.active = true → inbox.address = row.senderAddress → SentBy db row .agent

/-- What the transaction that commits a row as `sending` saw. -/
structure Sends (db : Db) (deployment : Deployment) (p : PreparedSend) : Prop where
  stored : p.row ∈ db.outbox.rows
  waiting : Waiting p.row
  authorized : authorized db p.row = true
  unsuppressed : p.row.recipientAddress ∉ db.mail.suppressions
  allowed : recipientAllowed db deployment p.row.recipientAddress = true
  sender : SentBy db p.row p.provider

section Preparing
variable {db db' : Db} {deployment : Deployment} {row : OutboxRow} {token : TokenAnswer} {reference : String}
variable {p : PreparedSend}

theorem resolveSendingAccessToken_account {accountId : AccountId} {account : AccountRow}
    (h : resolveSendingAccessToken db token accountId = .ok (db',.account account)) :
    account ∈ db.mail.accounts ∧ account.id = accountId ∧ account.status = .connected := by
  unfold resolveSendingAccessToken at h
  split at h
  next => cases h
  next found hfind =>
    obtain ⟨hmem,hid⟩ := of_find?_key hfind
    split at h
    next => cases h
    next hconnected =>
      split at h
      next =>
        cases h
        exact ⟨hmem,hid,not_not.mp hconnected⟩
      next => cases h
      next => cases h

theorem prepareMailbox_sends (h : prepareMailbox db row token = .ok (db',some p)) :
    p.row = row ∧ SentBy db row p.provider := by
  unfold prepareMailbox at h
  split at h
  next => cases h
  next accountId haccount =>
    rw [Result.bind_eq_ok] at h
    obtain ⟨⟨resolved,answer⟩,hresolved,h⟩ := h
    simp only at h
    cases answer with
    | unavailable code => cases h
    | account account =>
      obtain ⟨hmem,hid,hconnected⟩ := resolveSendingAccessToken_account hresolved
      simp only at h
      split at h
      next => cases h
      next haddress =>
        cases h
        exact ⟨rfl,.mailbox account hmem (hid ▸ haccount) hconnected (not_not.mp haddress)⟩

theorem prepareAgent_sends (hagent : row.accountId = none) (h : prepareAgent db row = (db',some p)) :
    p.row = row ∧ SentBy db row p.provider := by
  simp only [prepareAgent] at h
  split at h
  next hactive =>
    cases h
    rw [Option.any_eq_true] at hactive
    obtain ⟨inbox,hfind,hactive⟩ := hactive
    have hid : some inbox.id = row.senderInboxId := by simpa using List.find?_some hfind
    have hboth : inbox.active = true ∧ inbox.address = row.senderAddress := by simpa using hactive
    exact ⟨rfl,.agent inbox (List.mem_of_find?_eq_some hfind) hagent hid.symm hboth.1 hboth.2⟩
  next => cases h

theorem prepareWaiting_sends (hrow : row ∈ db.outbox.rows) (hw : Waiting row)
    (h : prepareWaiting db deployment row token reference = .ok (db',some p)) :
    p.row = row ∧ Sends db deployment p := by
  unfold prepareWaiting at h
  split at h
  next => cases h
  next =>
    split at h
    next => cases h
    next ha =>
      split at h
      next => cases h
      next hsuppressed =>
        split at h
        next => cases h
        next =>
          split at h
          next => cases h
          next hallowed =>
            have hsent : p.row = row ∧ SentBy db row p.provider := by
              split at h
              next hagent =>
                have haccount : row.accountId = none := by
                  simp only [asAgent, Bool.and_eq_true, Option.isNone_iff_eq_none] at hagent
                  exact hagent.1.1
                exact prepareAgent_sends haccount (Except.ok.inj h)
              next => exact prepareMailbox_sends h
            obtain ⟨hp,hsender⟩ := hsent
            subst hp
            exact ⟨rfl,hrow,hw,by simpa using ha,hsuppressed,by simpa using hallowed,hsender⟩

/-- A row is committed as `sending` only after every check. -/
theorem prepareSend_sends {outboxId : OutboxId}
    (h : prepareSend db deployment outboxId token reference = .ok (db',some p)) : Sends db deployment p := by
  unfold prepareSend at h
  split at h
  next => cases h
  next row hfind =>
    have hrow := List.mem_of_find?_eq_some hfind
    split at h
    next => cases h
    next => cases h
    next => cases h
    next => cases h
    next => cases h
    next => cases h
    next hs => exact (prepareWaiting_sends hrow (Or.inl hs) h).2
    next hs => exact (prepareWaiting_sends hrow (Or.inr hs) h).2

end Preparing

section Queueing
variable {mail : MailTables} {engagements : List EngagementRow} {email : ApprovedEmail} {binding : SenderBinding}
variable {thread : Option ReplyThread} {outbox outbox' : Outbox} {ids : List OutboxId} {r : OutboxRow}

theorem queueRecipient_rows {i : ℕ} {recipient : Recipient}
    (h : queueRecipient mail engagements email binding thread i recipient outbox = .ok (outbox',ids))
    (hr : r ∈ outbox'.rows) : r ∈ outbox.rows ∨ ∃ id address, recipient.address = some address ∧
      r = newRow email binding thread id i recipient address := by
  unfold queueRecipient at h
  cases ha : recipient.address with
  | none => rw [ha] at h; cases h
  | some address =>
    rw [ha] at h
    simp only at h
    split at h
    next => cases h
    next =>
      split at h
      next => cases h; exact Or.inl hr
      next =>
        simp only [Result.bind_eq_ok] at h
        obtain ⟨_,-,h⟩ := h
        split at h
        next => cases h
        next =>
          rw [Result.pure_eq_ok] at h
          cases h
          unfold insertRow at hr
          split at hr
          next => exact Or.inl hr
          next =>
            rcases List.mem_append.mp hr with hr | hr
            · exact Or.inl hr
            · exact Or.inr ⟨_,address,rfl,List.mem_singleton.mp hr⟩

/-- A queued row is about the recipient at its place in the approved list. -/
theorem queueRecipients_rows {recipients : List Recipient} {i : ℕ}
    (h : queueRecipients mail engagements email binding thread i recipients outbox = .ok (outbox',ids))
    (hr : r ∈ outbox'.rows) : r ∈ outbox.rows ∨ ∃ id j recipient address, recipients[j]? = some recipient ∧
      recipient.address = some address ∧ r = newRow email binding thread id (i + j) recipient address := by
  induction recipients generalizing i outbox ids with
  | nil =>
    cases h
    exact Or.inl hr
  | cons first rest ih =>
    simp only [queueRecipients, Result.bind_eq_ok, Result.pure_eq_ok] at h
    obtain ⟨⟨next,here⟩,hhere,⟨last,more⟩,hrest,h⟩ := h
    cases h
    rcases ih hrest with hr | ⟨id,j,recipient,address,hget,haddress,rfl⟩
    · rcases queueRecipient_rows hhere hr with hr | ⟨id,address,haddress,rfl⟩
      · exact Or.inl hr
      · exact Or.inr ⟨id,0,first,address,rfl,haddress,rfl⟩
    · refine Or.inr ⟨id,j + 1,recipient,address,hget,haddress,?_⟩
      rw [Nat.add_assoc, Nat.add_comm 1 j]

end Queueing

section Approving
variable {env : Approvals.Platform} {db db' : Db} {requestId : RequestId} {r : OutboxRow}

/-- A row that an approval step appended was written by the decision that approved it. -/
theorem approvedFor_of_finalized {row : ApprovalRow} {f : Db} {simulate : Bool} {actor : String}
    (hall : allApproved row.requesterMemberId row.payload.policy (activeMembers db.directory.members)
      (votesFor db requestId row) = true)
    (hp : row.status = .pending) (hf : finalizeApproval env db requestId row simulate = .ok f)
    (hr : r ∈ (writeApprovalReceipt f requestId row .approved actor).outbox.rows) :
    r ∈ db.outbox.rows ∨ r.requestId = requestId ∧ ∃ q d recipient,
      ApprovedFor (writeApprovalReceipt f requestId row .approved actor) r q d recipient := by
  have hspec := finalizeApproval_spec hf
  obtain ⟨hreceipt,hout,-⟩ := writeApprovalReceipt_requests f requestId row .approved actor
  rw [hout] at hr
  rcases hspec.outbox with hsame | ⟨queued,hqueue⟩
  · exact Or.inl (hsame ▸ hr)
  unfold queueFinalizedEmail at hqueue
  split at hqueue
  next d hdetails =>
    unfold queueApprovedEmail at hqueue
    split at hqueue
    next =>
      rw [Except.ok.injEq, Prod.mk.injEq] at hqueue
      exact Or.inl (hqueue.1 ▸ hr)
    next hemail =>
      simp only [Result.bind_eq_ok, Result.pure_eq_ok] at hqueue
      obtain ⟨thread,-,⟨next,ids⟩,hnext,hqueue⟩ := hqueue
      obtain ⟨rfl,-⟩ := Prod.mk.inj hqueue
      rcases queueRecipients_rows hnext hr with hr | ⟨id,j,recipient,address,hget,haddress,hmade⟩
      · exact Or.inl hr
      · obtain ⟨row',hreq,effect,work,reason,job,rfl⟩ := hspec.approved
        have hframe := hspec.toFrame.trans (writeApprovalReceipt_frame f requestId row .approved actor)
        have hquorum : ∀ step ∈ row.payload.policy.steps, step.quorum ≤
            (countedFor (writeApprovalReceipt f requestId row .approved actor) requestId (approvedRow db row) step).card := by
          intro step hstep
          simp only [allApproved, List.all_eq_true, completed, decide_eq_true_eq] at hall
          simp only [countedFor, votesFor, hframe.directory, hframe.votes]
          exact hall step hstep
        subst hmade
        refine Or.inr ⟨rfl,{ approvedRow db row with
          effect := effect, workStatus := work, workReason := reason, finalizationJobId := job },d,recipient,?_,?_,rfl,rfl,hquorum,?_,hdetails,?_,?_,rfl,?_,rfl,rfl,rfl⟩
        · rw [hreceipt, hreq]
          exact Function.update_self requestId _ _
        · simp [approvedRow, hp]
        · exact fun step hstep m hm => countedFor_sound hstep hm
        · obtain ⟨hdraft,hchannel⟩ := not_or.mp hemail
          exact ⟨not_not.mp hchannel,Bool.not_eq_true _ ▸ hdraft⟩
        · rw [← hget]
          exact congrArg (d.recipients[·]?) (Nat.zero_add j)
        · rw [haddress]
          rfl
  next =>
    rw [Except.ok.injEq, Prod.mk.injEq] at hqueue
    exact Or.inl (hqueue.1 ▸ hr)

/-- An approval step appends rows only by approving their pending request. -/
theorem approvedFor_of_step {e : Approvals.Event} (hs : Approvals.Step env db e db') (hr : r ∈ db'.outbox.rows) :
    r ∈ db.outbox.rows ∨ (∃ q, db.requests r.requestId = some q ∧ q.status = .pending) ∧
      ∃ q d recipient, ApprovedFor db' r q d recipient := by
  cases hs.change with
  | environment directory mail elapsed => exact Or.inl hr
  | proposed context input p hp => exact Or.inl hr
  | expired requestId row hrow hp hexp => exact Or.inl hr
  | revised requestId row proposal resolution _ hrevised => exact Or.inl (hrevised.outbox ▸ hr)
  | routed requestId row route _ hrouted =>
    obtain ⟨commands,rfl⟩ := hrouted.changed
    exact Or.inl hr
  | decided requestId context input _ hd =>
    cases hd with
    | replayed _ => exact Or.inl hr
    | expired row hrow hp hexp => exact Or.inl hr
    | closed row reviewer step b hne =>
      rw [(closeDecision_spec _ _ _ _ _).2.2.1] at hr
      exact Or.inl hr
    | counted row reviewer step b happrove hall => exact Or.inl hr
    | finalized row reviewer step f b happrove hall hf =>
      rcases approvedFor_of_finalized hall b.pending hf hr with hr | ⟨rfl,happroved⟩
      · exact Or.inl hr
      · exact Or.inr ⟨⟨row,b.loaded,b.pending⟩,happroved⟩

/-- What is said of the message is said of every state of its row. -/
theorem ApprovedFor.of_reviewed {q : ApprovalRow} {d : CommunicationDetails} {recipient : Recipient} {s : OutboxRow}
    (h : ApprovedFor db s q d recipient) (hs : s.reviewed = r.reviewed) : ApprovedFor db r q d recipient := by
  have hid : s.requestId = r.requestId := (congrArg OutboxRow.requestId hs :)
  have hindex : s.recipientIndex = r.recipientIndex := (congrArg OutboxRow.recipientIndex hs :)
  refine ⟨hid ▸ h.stored,h.approved,?_,?_,hid ▸ h.quorum,hid ▸ h.counted,h.details,h.email,hindex ▸ h.listed,?_,?_,?_,?_,?_⟩
  · exact (congrArg OutboxRow.authorizationRevision hs :).symm.trans h.revision
  · exact (congrArg OutboxRow.authorizationHash hs :).symm.trans h.hash
  · exact (congrArg OutboxRow.recipientName hs :).symm.trans h.name
  · exact h.address.trans (congrArg (fun s : OutboxRow => some s.recipientAddress) hs :)
  · exact (congrArg OutboxRow.senderAddress hs :).symm.trans h.sender
  · exact (congrArg OutboxRow.subject hs :).symm.trans h.subject
  · exact (congrArg OutboxRow.body hs :).symm.trans h.body

end Approving

section Steps
variable {env : Approvals.Platform} {w w' : World} {e : SendEvent} {r : OutboxRow}

/-- The row was there before, with the same message. -/
def Restates (db : Db) (r : OutboxRow) : Prop := ∃ s ∈ db.outbox.rows, s.reviewed = r.reviewed

theorem Restates.of_mem {db : Db} (h : r ∈ db.outbox.rows) : Restates db r := ⟨r,h,rfl⟩

/-- No update of the outbox writes a message. -/
theorem restates_updateOutbox {db : Db} {p : OutboxRow → Bool} {f : OutboxRow → OutboxRow}
    (hr : r ∈ (updateOutbox db p f).outbox.rows) (hf : ∀ s, (f s).reviewed = s.reviewed) : Restates db r := by
  rcases mem_updateWhere.mp hr with ⟨s,hs,-,rfl⟩ | ⟨hr,-⟩
  · exact ⟨s,hs,(hf s).symm⟩
  · exact .of_mem hr

theorem restates_setRow {db : Db} {row : OutboxRow} {f : OutboxRow → OutboxRow} (hr : r ∈ (setRow db row f).outbox.rows)
    (hf : ∀ s, (f s).reviewed = s.reviewed) : Restates db r := restates_updateOutbox hr hf

theorem restates_prepare {db db' : Db} {row : OutboxRow} {f : OutboxRow → OutboxRow} {g : ApprovalRow → ApprovalRow}
    {prepared : Option PreparedSend} (h : PreparesRow db row f g prepared) (has : PreparesAs db row f g db')
    (hr : r ∈ db'.outbox.rows) : Restates db r := by
  rw [has.outbox] at hr
  refine restates_setRow hr fun s => ?_
  cases h <;> rfl

theorem restates_settle {requestId : RequestId} {outboxId : OutboxId} {userId : UserId} {outcome : SettledOutcome}
    {db db' : Db} {result : SettleResult} (h : settleEmailSend env db requestId outboxId userId outcome = .ok (db',result))
    (hr : r ∈ db'.outbox.rows) : Restates db r := by
  rcases settleEmailSend_ok h with rfl | ⟨row,-,-,-,-,⟨-,rfl⟩ | ⟨-,hnot⟩⟩
  · exact .of_mem hr
  · rw [settleSent_outbox] at hr
    exact restates_setRow hr fun s => rfl
  · rcases settleNotSent_ok hnot with ⟨rfl,-⟩ | ⟨q,resolution,-,hrevised⟩
    · exact restates_setRow hr fun s => rfl
    · rw [hrevised.outbox] at hr
      exact restates_setRow hr fun s => rfl

/-- A step keeps every message, and a message that is new was approved in that step. -/
theorem Acts.rows (ha : Acts env w e w') (hr : r ∈ w'.db.outbox.rows) : Restates w.db r ∨
    ∃ approval, e = .approval approval ∧ (∃ q, w.db.requests r.requestId = some q ∧ q.status = .pending) ∧
      ∃ q d recipient, ApprovedFor w'.db r q d recipient := by
  cases ha with
  | approval approval db hs =>
    rcases approvedFor_of_step hs hr with hr | ⟨hpending,happroved⟩
    · exact Or.inl (.of_mem hr)
    · exact Or.inr ⟨approval,rfl,hpending,happroved⟩
  | claim id jobId jobs job key outboxId hnone hclaim hkey hpayload => exact Or.inl (.of_mem hr)
  | prepare id worker deployment token reference db prepared hw hp hprepare =>
    rcases prepareSend_ok hprepare with ⟨rfl,-⟩ | ⟨row,-,-,f,g,hprepares,has⟩
    · exact Or.inl (.of_mem hr)
    · exact Or.inl (restates_prepare hprepares has hr)
  | prepareFails id worker deployment token reference message hw hp => exact Or.inl (.of_mem hr)
  | startCall id worker prepared hw hp => exact Or.inl (.of_mem hr)
  | answer id worker prepared call answer hw hp => exact Or.inl (.of_mem hr)
  | record id worker prepared answer hw hp =>
    cases answer with
    | accepted messageId =>
      rw [World.record, World.advance, recordAccepted_outbox] at hr
      exact Or.inl (restates_updateOutbox hr fun s => rfl)
    | failed error =>
      rw [World.record, World.advance, recordFailed_outbox] at hr
      exact Or.inl (restates_updateOutbox hr fun s => rfl)
  | recordFails id worker prepared answer message hw hp =>
    cases answer with
    | accepted messageId => exact Or.inl (.of_mem hr)
    | failed error => exact Or.inl (.of_mem hr)
  | finish id worker hw hp => exact Or.inl (.of_mem hr)
  | finishFails id worker message hw hp => exact Or.inl (.of_mem hr)
  | fail id worker message hw hp => exact Or.inl (.of_mem hr)
  | crash id worker hw => exact Or.inl (.of_mem hr)
  | settle requestId outboxId userId outcome db result hs => exact Or.inl (restates_settle hs hr)
  | disconnect accountId db hd =>
    unfold disconnectMailbox at hd
    split at hd
    next =>
      cases hd
      exact Or.inl (restates_updateOutbox hr fun s => rfl)
    next =>
      cases hd
      exact Or.inl (.of_mem hr)
  | connect freshId provider address db hc =>
    obtain ⟨accountId,mail,rfl⟩ := connectMailbox_ok hc
    exact Or.inl (@restates_updateOutbox _ { w.db with mail := mail } _ _ hr fun s => rfl)
  | contactReply address candidateId unsubscribe =>
    obtain ⟨reason,hout,-⟩ := recordContactReply_outbox w.db address candidateId unsubscribe
    rw [hout] at hr
    exact Or.inl (restates_updateOutbox hr fun s => rfl)

/-- A claim that goes on holds what it held, or nothing. -/
theorem holds_of_workers {id id' : WorkerId} {worker : Worker} {phase : Phase} {p : PreparedSend}
    (hworkers : w'.workers = Function.update w.workers id (some { worker with phase := phase }))
    (hw : w.workers id = some worker)
    (hkeep : phase.prepared? = none ∨ phase.prepared? = worker.phase.prepared?) (h : Holds w' id' p) : Holds w id' p := by
  obtain ⟨worker',hworker,hp⟩ := h
  rw [hworkers] at hworker
  by_cases hid : id' = id
  · subst hid
    rw [advance_self hworker] at hp
    rcases hkeep with hnone | hsame
    · cases hnone.symm.trans hp
    · exact ⟨worker,hw,hsame ▸ hp⟩
  · exact ⟨worker',advance_other hid hworker,hp⟩

theorem holds_of_retire {id id' : WorkerId} {db : Db} {p : PreparedSend} (h : Holds (w.retire id db) id' p) :
    Holds w id' p := by
  obtain ⟨worker,hworker,hp⟩ := h
  rcases retire_quiet id' worker hworker with hnone | hold
  · cases hnone.symm.trans hp
  · exact ⟨worker,hold,hp⟩

/-- A claim comes to hold a send by preparing it. -/
theorem Acts.holds (ha : Acts env w e w') {id : WorkerId} {p : PreparedSend} (hno : ¬ Holds w id p)
    (hyes : Holds w' id p) : ∃ deployment token reference, e = .prepare id deployment token reference ∧
      Sends w.db deployment p := by
  cases ha with
  | approval approval db hs => exact absurd hyes hno
  | claim other jobId jobs job key outboxId hnone hclaim hkey hpayload =>
    obtain ⟨worker,hworker,hp⟩ := hyes
    rcases @advance_quiet w.workers _ _ rfl id worker hworker with hquiet | hold
    · cases hquiet.symm.trans hp
    · exact absurd ⟨worker,hold,hp⟩ hno
  | prepare other worker deployment token reference db prepared hw hp hprepare =>
    cases prepared with
    | none => exact absurd (holds_of_workers rfl hw (Or.inl rfl) hyes) hno
    | some prepared =>
      obtain ⟨worker',hworker,hheld⟩ := hyes
      by_cases hid : id = other
      · subst hid
        rw [advance_self hworker] at hheld
        cases hheld
        exact ⟨deployment,token,reference,rfl,prepareSend_sends hprepare⟩
      · exact absurd ⟨worker',advance_other hid hworker,hheld⟩ hno
  | prepareFails other worker deployment token reference message hw hp =>
    exact absurd (holds_of_workers rfl hw (Or.inl rfl) hyes) hno
  | startCall other worker prepared hw hp =>
    exact absurd (holds_of_workers rfl hw (Or.inr (by rw [hp]; rfl)) hyes) hno
  | answer other worker prepared call answer hw hp =>
    exact absurd (holds_of_workers rfl hw (Or.inr (by rw [hp]; rfl)) hyes) hno
  | record other worker prepared answer hw hp =>
    cases answer with
    | accepted messageId => exact absurd (holds_of_workers rfl hw (Or.inl rfl) hyes) hno
    | failed error =>
      refine absurd (holds_of_workers rfl hw (Or.inl ?_) hyes) hno
      split <;> rfl
  | recordFails other worker prepared answer message hw hp =>
    cases answer with
    | accepted messageId => exact absurd (holds_of_workers rfl hw (Or.inr (by rw [hp]; rfl)) hyes) hno
    | failed error => exact absurd (holds_of_workers rfl hw (Or.inl rfl) hyes) hno
  | finish other worker hw hp => exact absurd (holds_of_retire hyes) hno
  | finishFails other worker message hw hp => exact absurd (holds_of_workers rfl hw (Or.inl rfl) hyes) hno
  | fail other worker message hw hp => exact absurd (holds_of_retire hyes) hno
  | crash other worker hw => exact absurd (holds_of_retire hyes) hno
  | settle requestId outboxId userId outcome db result hs => exact absurd hyes hno
  | disconnect accountId db hd => exact absurd hyes hno
  | connect freshId provider address db hc => exact absurd hyes hno
  | contactReply address candidateId unsubscribe => exact absurd hyes hno

end Steps

section Runs
variable {env : Approvals.Platform} {w₀ w : World} {es : List SendEvent}

/-- A step of the run approved the revision of this row, with its message. -/
def ApprovedIn (env : Approvals.Platform) (w₀ : World) (es : List SendEvent) (r : OutboxRow) : Prop :=
  ∃ before e later u v, es = before ++ .approval e :: later ∧ Run (SendStep env) w₀ before u ∧
    SendStep env u (.approval e) v ∧ (∃ q, u.db.requests r.requestId = some q ∧ q.status = .pending) ∧
      ∃ q d recipient, ApprovedFor v.db r q d recipient

/-- Every row of the outbox was approved as it stands. -/
theorem approvedIn_of_mem (hinit : InitialWorld w₀) (hrun : Run (SendStep env) w₀ es w) {r : OutboxRow}
    (hr : r ∈ w.db.outbox.rows) : ApprovedIn env w₀ es r := by
  have hnone : ¬ Restates w₀.db r := by
    rintro ⟨s,hs,-⟩
    rw [hinit.outbox] at hs
    exact absurd hs List.not_mem_nil
  obtain ⟨before,e,later,u,v,rfl,hbefore,hst,-,hno,s,hs,hsame⟩ :=
    hrun.brought (P := fun w => Restates w.db r) hnone (.of_mem hr)
  rcases hst.acts.rows hs with ⟨t,ht,hts⟩ | ⟨approval,rfl,hpending,q,d,recipient,happroved⟩
  · exact absurd ⟨t,ht,hts.trans hsame⟩ hno
  · have hid : s.requestId = r.requestId := (congrArg OutboxRow.requestId hsame :)
    exact ⟨before,approval,later,u,v,rfl,hbefore,hst,hid ▸ hpending,q,d,recipient,happroved.of_reviewed hsame⟩

/-- Whatever a claim is about to send, or sent, its own last check passed, and its message was approved before. -/
theorem held_send_reviewed (hinit : InitialWorld w₀) (hrun : Run (SendStep env) w₀ es w) {id : WorkerId}
    {p : PreparedSend} (hp : Holds w id p) :
    ∃ before deployment token reference later u v, es = before ++ .prepare id deployment token reference :: later ∧
      Run (SendStep env) w₀ before u ∧ SendStep env u (.prepare id deployment token reference) v ∧
      Run (fun a e b => SendStep env a e b ∧ Holds b id p) v later w ∧
      Sends u.db deployment p ∧ ApprovedIn env w₀ before p.row := by
  have hnone : ¬ Holds w₀ id p := by
    rintro ⟨worker,hworker,-⟩
    rw [hinit.workers id] at hworker
    cases hworker
  obtain ⟨before,e,later,u,v,rfl,hbefore,hst,hno,hyes,hlater⟩ := hrun.brought_since (P := fun w => Holds w id p) hnone hp
  obtain ⟨deployment,token,reference,rfl,hsends⟩ := hst.acts.holds hno hyes
  exact ⟨before,deployment,token,reference,later,u,v,rfl,hbefore,hst,hlater,hsends,
    approvedIn_of_mem hinit hbefore hsends.stored⟩

/-- The first claim of the approved email holds its row, approved and checked. -/
theorem held_send_reviewed_sample : ∃ before deployment token reference later u v p,
    sendingEvents = before ++ .prepare 0 deployment token reference :: later ∧
      Run (SendStep samplePlatform) emailWorld before u ∧
      SendStep samplePlatform u (.prepare 0 deployment token reference) v ∧
      Run (fun a e b => SendStep samplePlatform a e b ∧ Holds b 0 p) v later
        (afterAll (World.apply samplePlatform) emailWorld sendingEvents) ∧
      Sends u.db deployment p ∧ ApprovedIn samplePlatform emailWorld before p.row := by
  have hrun : acceptedAll (World.apply samplePlatform) emailWorld sendingEvents = true := by decide +kernel
  have hheld : (((afterAll (World.apply samplePlatform) emailWorld sendingEvents).workers 0).bind
      fun worker => worker.phase.prepared?).isSome = true := by decide +kernel
  obtain ⟨p,hp⟩ := Option.isSome_iff_exists.mp hheld
  obtain ⟨worker,hworker,hp⟩ := Option.bind_eq_some_iff.mp hp
  obtain ⟨before,deployment,token,reference,later,u,v,hes,h⟩ :=
    held_send_reviewed initial_emailWorld (run_afterAll hrun) ⟨worker,hworker,hp⟩
  exact ⟨before,deployment,token,reference,later,u,v,p,hes,h⟩

end Runs

end HermesEnterprise.Email
