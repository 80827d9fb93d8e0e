import HermesEnterprise.Approvals.Ledger

/-! # Finalization is sound

An approval becomes final only by a decision whose recount gives every step its
quorum of distinct eligible members, all approving this very revision and hash,
with nobody opposed and the expiry still ahead.
-/
namespace HermesEnterprise.Approvals
open Foundation.Runs

variable {env : Platform} {db db' : Db} {requestId : RequestId} {row row' : ApprovalRow}
variable {context : ApprovalHumanContext} {input : DecideApprovalInput} {result : CommandResult}

/-- The members counted for a step, by the votes and members of the moment. -/
def countedFor (db : Db) (requestId : RequestId) (row : ApprovalRow) (step : PolicyStep) :
    Finset MemberId :=
  validApprovals row.requesterMemberId row.payload.policy (activeMembers db.directory.members)
    (votesFor db requestId row) step.id

/-- An active member who matches a selector of the step and may review this request. -/
def MayReview (db : Db) (row : ApprovalRow) (step : PolicyStep) (m : MemberId) : Prop :=
  ∃ member ∈ activeMembers db.directory.members, member.id = m ∧
    (∃ selector ∈ step.reviewers, selectorMatches member selector = true) ∧
    (row.payload.policy.preventSelfReview = true → some m ≠ row.requesterMemberId)

/-- The member voted to approve this step at exactly this revision and hash. -/
def ApprovedAt (db : Db) (requestId : RequestId) (row : ApprovalRow) (step : PolicyStep)
    (m : MemberId) : Prop :=
  ∃ v ∈ db.votes, v.requestId = requestId ∧ v.revision = row.authorizationRevision ∧
    v.authorizationHash = row.authorizationHash ∧ v.stepId = step.id ∧ v.reviewerMemberId = m ∧
    v.decision = .approve

/-- What an approved row stands for at the moment it is approved. -/
structure FinalizedSoundly (db : Db) (requestId : RequestId) (row : ApprovalRow) : Prop where
  quorum : ∀ step ∈ row.payload.policy.steps, step.quorum ≤ (countedFor db requestId row step).card
  counted : ∀ step ∈ row.payload.policy.steps, ∀ m ∈ countedFor db requestId row step,
    MayReview db row step m ∧ ApprovedAt db requestId row step m
  distinct : ∀ s ∈ row.payload.policy.steps, ∀ t ∈ row.payload.policy.steps, s ≠ t →
    Disjoint (countedFor db requestId row s) (countedFor db requestId row t)
  unopposed : ∀ v ∈ db.votes, v.requestId = requestId → v.revision = row.authorizationRevision →
    v.authorizationHash = row.authorizationHash → v.decision = .approve
  unexpired : db.now < row.expiresAt

theorem mem_eligibleIds {members : List MemberRow} {requester : Option MemberId}
    {policy : ApprovalPolicy} {step : PolicyStep} {m : MemberId} :
    m ∈ eligibleIds requester policy members step ↔ ∃ member ∈ members, member.id = m ∧
      (∃ selector ∈ step.reviewers, selectorMatches member selector = true) ∧
      (policy.preventSelfReview = true → some m ≠ requester) := by
  simp only [eligibleIds, eligibleForStep, List.mem_map, List.mem_filter, Bool.and_eq_true,
    Bool.or_eq_true, Bool.not_eq_true', bne_iff_ne, ne_eq, List.any_eq_true]
  constructor
  · rintro ⟨member,⟨hm,hself,hmatch⟩,rfl⟩
    exact ⟨member,hm,rfl,hmatch,fun hp => hself.resolve_left (by simp [hp])⟩
  · rintro ⟨member,hm,rfl,hmatch,hself⟩
    refine ⟨member,⟨hm,?_,hmatch⟩,rfl⟩
    cases hp : policy.preventSelfReview with
    | false => exact Or.inl rfl
    | true => exact Or.inr (hself hp)

theorem countedFor_sound {step : PolicyStep} {m : MemberId} (hs : step ∈ row.payload.policy.steps)
    (hm : m ∈ countedFor db requestId row step) :
    MayReview db row step m ∧ ApprovedAt db requestId row step m := by
  obtain ⟨v,hv,rfl,ha⟩ := tallyOf_countVotes.sound step.id m hm
  obtain ⟨hv,hid,hrev,hhash⟩ := mem_votesFor.mp hv
  obtain ⟨t,ht,hid',he⟩ := ha.eligible
  rw [step_eq_of_id ht hs hid'] at he
  exact ⟨mem_eligibleIds.mp he,v,hv,hid,hrev,hhash,ha.step,rfl,ha.approve⟩

theorem countedFor_disjoint {s t : PolicyStep} (hs : s ∈ row.payload.policy.steps)
    (ht : t ∈ row.payload.policy.steps) (hst : s ≠ t) :
    Disjoint (countedFor db requestId row s) (countedFor db requestId row t) := by
  rw [Finset.disjoint_left]
  intro m hm hm'
  exact hst (step_eq_of_id hs ht (tallyOf_countVotes.once _ _ m hm hm'))

/-- Only a completed recount moves an approval to `approved`. -/
theorem decideApproval_approves (h : decideApproval env db requestId context input = .ok (db',result))
    (hrow : db.requests requestId = some row) (hrow' : db'.requests requestId = some row')
    (hbefore : row.status ≠ .approved) (hafter : row'.status = .approved) :
    ∃ reviewer step f, Ballot env db requestId context input row reviewer step ∧
      input.decision = .approve ∧
      allApproved row.requesterMemberId row.payload.policy (activeMembers db.directory.members)
        (votesFor (recordVote env db requestId row step reviewer input) requestId row) = true ∧
      Finalizes env (recordVote env db requestId row step reviewer input) requestId row f ∧
      db' = writeApprovalReceipt f requestId row .approved reviewer.name := by
  cases decideApproval_ok h with
  | replayed _ =>
    cases hrow.symm.trans hrow'
    exact absurd hafter hbefore
  | expired r hr _ _ =>
    simp only [markExpired, Db.setStatus, setRevisionStatus_requests, setRequest_requests,
      Function.update_self, Option.some.injEq] at hrow'
    subst hrow'
    cases hafter
  | closed r reviewer step b hd =>
    rw [(closeDecision_spec _ _ _ _ _).2.1, Function.update_self, Option.some.injEq] at hrow'
    subst hrow'
    simp only [closedRow, statusRow] at hafter
    split at hafter <;> cases hafter
  | counted r reviewer step b hd _ =>
    cases hrow.symm.trans hrow'
    exact absurd hafter hbefore
  | finalized r reviewer step f b hd hall hf =>
    cases hrow.symm.trans b.loaded
    exact ⟨reviewer,step,f,b,hd,hall,finalizeApproval_spec hf,rfl⟩

/-- The recount that approves gives every step its quorum. -/
theorem decideApproval_quorum (h : decideApproval env db requestId context input = .ok (db',result))
    (hrow : db.requests requestId = some row) (hrow' : db'.requests requestId = some row')
    (hbefore : row.status ≠ .approved) (hafter : row'.status = .approved) :
    ∀ step ∈ row'.payload.policy.steps, step.quorum ≤ (countedFor db' requestId row' step).card := by
  obtain ⟨reviewer,step,f,b,hd,hall,hf,rfl⟩ := decideApproval_approves h hrow hrow' hbefore hafter
  obtain ⟨last,hreq,effect,work,reason,job,rfl⟩ := hf.approved
  have hframe := hf.toFrame.trans (writeApprovalReceipt_frame f requestId row .approved reviewer.name)
  rw [(writeApprovalReceipt_requests _ _ _ _ _).1, hreq, Function.update_self, Option.some.injEq] at hrow'
  subst hrow'
  intro s hs
  simp only [allApproved, List.all_eq_true, completed, decide_eq_true_eq] at hall
  simp only [countedFor, votesFor, hframe.directory, hframe.votes]
  exact hall s hs

/-- Whenever a decision approves, its approval is sound at that moment. -/
theorem decideApproval_finalizes_soundly (hr : ReachableDb env db)
    (h : decideApproval env db requestId context input = .ok (db',result))
    (hrow : db.requests requestId = some row) (hrow' : db'.requests requestId = some row')
    (hbefore : row.status ≠ .approved) (hafter : row'.status = .approved) :
    FinalizedSoundly db' requestId row' := by
  have hquorum := decideApproval_quorum h hrow hrow' hbefore hafter
  obtain ⟨reviewer,step,f,b,hd,-,hf,rfl⟩ := decideApproval_approves h hrow hrow' hbefore hafter
  obtain ⟨last,hreq,effect,work,reason,job,rfl⟩ := hf.approved
  have hframe := hf.toFrame.trans (writeApprovalReceipt_frame f requestId row .approved reviewer.name)
  rw [(writeApprovalReceipt_requests _ _ _ _ _).1, hreq, Function.update_self, Option.some.injEq] at hrow'
  subst hrow'
  have hledger := hr.ledger
  refine ⟨hquorum,fun s hs m hm => countedFor_sound hs hm,
    fun s hs t ht => countedFor_disjoint hs ht,?_,?_⟩
  · intro v hv hid hrev _
    rw [hframe.votes] at hv
    rcases List.mem_append.mp hv with hv | hv
    · exact hledger.approving v hv row (hid ▸ hrow) b.pending hrev
    · rw [List.mem_singleton.mp hv]
      exact hd
  · rw [hframe.now]
    exact b.unexpired

section Sample

/-- A platform that hashes by printing and whose optional guards accept. -/
def samplePlatform : Platform where
  sha256 := fun text => String.ofList ('#' :: text)
  authorizationHash := fun m => "sha256:" ++ toString m.expiresAt
  commandHash := fun _ => "command"
  proposalHash := fun _ => "proposal"
  uuidText := fun n => toString n
  parseUuid := fun _ => none
  localeBefore := fun a b => a < b
  validateJoinSource := fun _ _ _ => .ok ()
  validatePartnerWatchReview := fun _ _ _ => .ok none
  validatePartnerWatchRevision := fun _ _ _ _ _ => .ok ()
  validatePartnerOutreachContact := fun _ _ _ _ _ => .ok none
  materialize := fun _ _ _ _ _ => .ok false

def sampleMember (id : MemberId) (role : String) (reviewerRoles : List String) : MemberRow :=
  ⟨id,id,"Member","member@example.com",.active,role,reviewerRoles⟩

theorem sampleAdmin_ids : ([sampleMember 1 "admin" []].map MemberRow.id).Nodup := by decide

theorem sampleAdmin_users : ([sampleMember 1 "admin" []].map MemberRow.userId).Nodup := by decide

def samplePolicyRow (type : ApprovalType) (mode : PolicyMode) (targets : List String)
    (steps : List PolicyStep) : PolicyRow :=
  ⟨⟨1,"policy",1,mode,true,true,steps⟩,type,none,targets,none,0,3600,true⟩

def sampleDirectory (members : MemberTable) (policy : PolicyRow)
    (resources : String → Option ResourceRow) : Directory where
  members := members
  agents := fun id => if id = 1 then some .started else none
  agentOwners := fun _ => none
  sessions := fun _ => none
  runs := fun _ => none
  policies := [policy]
  resources := resources
  evidence := ⟨fun _ => none,fun _ => none,fun _ => none,fun _ => none,[],[],[],[]⟩

def sampleDb (directory : Directory) : Db where
  now := 0
  nextId := 0
  directory := directory
  watchChecks := []
  requests := fun _ => none
  votes := []
  routes := []
  revisions := []
  commands := []
  receipts := []
  engagements := []
  mail := ⟨[],[],[],[]⟩
  outbox := ⟨[],0⟩
  jobs := ⟨[],[],0⟩

def sampleProposal (details : ProposalDetails) : Event :=
  .propose ⟨1,none,none,none,none,none⟩
    ⟨"Label","policy",⟨details,[],false,.null⟩,[],[],[],[],none,"proposal-1"⟩

/-- An approving vote of a user on the first revision of the sample approval. -/
def sampleApprove (key : String) : DecideApprovalInput :=
  ⟨1,"sha256:3600000",key,.approve,none⟩

def sampleVote (userId : UserId) (key : String) : Event :=
  .decide 0 ⟨userId,false⟩ (sampleApprove key)

theorem initial_sampleDb (directory : Directory) : Initial (sampleDb directory) :=
  ⟨fun _ => rfl,rfl,rfl,rfl,rfl,rfl⟩

/-- Reading a committed status off an evaluated decision. -/
theorem exists_of_status {α : Type} (requestId : RequestId) (x : Result (Db × α))
    (status : ApprovalStatus) (h : (x.toOption.bind fun p => (p.1.requests requestId).map ApprovalRow.status) = some status) :
    ∃ db' result row', x = .ok (db',result) ∧ db'.requests requestId = some row' ∧
      row'.status = status := by
  cases x with
  | error e => cases h
  | ok p =>
    simp only [Except.toOption, Option.bind_some, Option.map_eq_some_iff] at h
    obtain ⟨row',hrow,hs⟩ := h
    exact ⟨p.1,p.2,row',rfl,hrow,hs⟩

/-- One Admin reviews plans. -/
def planDb : Db :=
  sampleDb (sampleDirectory ⟨[sampleMember 1 "admin" []],sampleAdmin_ids,sampleAdmin_users⟩
    (samplePolicyRow .runPlan .sequential [] [⟨"s1","Review",0,[.role "admin" 1],1⟩]) fun _ => none)

def planProposal : Event := sampleProposal (.runPlan [1] ⟨"USD",500,1000,4,500,1,["model"]⟩)

def proposedPlanDb : Db := after samplePlatform planDb planProposal

theorem reachable_proposedPlanDb : ReachableDb samplePlatform proposedPlanDb :=
  ⟨planDb,[planProposal],initial_sampleDb _,run_afterAll (by decide)⟩

/-- The Admin's vote finalizes the proposed plan, soundly. -/
theorem decideApproval_finalizes_soundly_plan : ∃ db' row',
    db'.requests 0 = some row' ∧ row'.status = .approved ∧ FinalizedSoundly db' 0 row' := by
  obtain ⟨db',result,row',h,hrow',hafter⟩ := exists_of_status 0
    (decideApproval samplePlatform proposedPlanDb 0 ⟨1,false⟩ (sampleApprove "vote-1")) .approved
    (by decide)
  have hpending : (proposedPlanDb.requests 0).map ApprovalRow.status = some .pending := by decide
  obtain ⟨row,hrow,hbefore⟩ := Option.map_eq_some_iff.mp hpending
  exact ⟨db',row',hrow',hafter,decideApproval_finalizes_soundly reachable_proposedPlanDb h hrow hrow'
    (by rw [hbefore]; decide) hafter⟩

end Sample

end HermesEnterprise.Approvals
