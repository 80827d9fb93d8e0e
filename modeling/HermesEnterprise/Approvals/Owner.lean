import HermesEnterprise.Approvals.Lineage
import HermesEnterprise.Approvals.Soundness

/-! # The authoritative owner

A proposal or revision is accepted only if its policy cannot be satisfied
without each required owner. The check is made on the members of that moment, so
only a member who became eligible later can take the owner's place.
-/
namespace HermesEnterprise.Approvals
open Foundation.Runs Foundation.Representatives

section Definitions
variable (env : Platform) (db : Db)

/-- An operation accepted a proposal or a revision as `r`, and left its request in `db'`. -/
inductive Accepts : RequestId → Resolution → Db → Prop
  | proposed (context : ApprovalProposerContext) (input : ProposeApprovalInput) (p : Proposed)
      (view : ApprovalView) (db' : Db) : priorProposal db input.idempotencyKey = none →
      resolveProposal env db context input = .ok p →
      proposeApproval env db context input = .ok (db',view) →
      Accepts db.nextId p.toResolution db'
  | revised (requestId : RequestId) (row : ApprovalRow) (context : ApprovalHumanContext)
      (input : ReviseApprovalInput) (r : Resolution) (result : CommandResult) (db' : Db) :
      commandReplay db requestId .revision input.idempotencyKey (revisionHash env input) = .ok false →
      db.requests requestId = some row →
      resolveRevision env db requestId context.userId row input.proposal input.requestedExpiresAt =
        .ok r →
      reviseApproval env db requestId context input = .ok (db',result) → Accepts requestId r db'
  | reopened (requestId : RequestId) (row : ApprovalRow) (userId : UserId) (r : Resolution) (db' : Db) :
      db.requests requestId = some row → row.status = .approved →
      resolveRevision env db requestId userId row (storedProposal row.payload) none = .ok r →
      reopenApprovalForResend env db requestId userId = .ok db' → Accepts requestId r db'

end Definitions

variable {env : Platform} {start db db' : Db} {requestId : RequestId} {row row' : ApprovalRow}
variable {context : ApprovalHumanContext} {input : DecideApprovalInput} {result : CommandResult}
variable {r : Resolution} {owner : MemberId}

theorem ownerRequired_of_feasible {policy : ApprovalPolicy} {members : List MemberRow}
    {requester : Option MemberId} {owners : List MemberId}
    (h : validatePolicyFeasibility policy members requester owners = .ok ()) (ho : owner ∈ owners) :
    ownerRequired policy members requester owner = true := by
  simp only [validatePolicyFeasibility, Result.bind_eq_ok] at h
  obtain ⟨_,-,_,-,h⟩ := h
  exact require_eq_ok.mp (Result.forM_eq_ok.mp h owner ho)

/-- With distinct reviewers the owner is needed exactly when the slots cannot be filled without. -/
theorem ownerRequired_iff {policy : ApprovalPolicy} {members : List MemberRow}
    {requester : Option MemberId} : ownerRequired policy members requester owner = true ↔
      canSatisfyDistinctReviewers policy members requester (some owner) = false := by
  simp [ownerRequired, policy.valid.distinct]

theorem resolveProposal_feasible {proposer : ApprovalProposerContext} {proposal : ProposeApprovalInput}
    {p : Proposed} (h : resolveProposal env db proposer proposal = .ok p) :
    validatePolicyFeasibility p.selected.policy (activeMembers db.directory.members)
      p.requester.memberId p.targets.requiredOwnerIds = .ok () := by
  simp only [resolveProposal, Result.bind_eq_ok, Result.pure_eq_ok] at h
  obtain ⟨requester,-,_,-,_,-,targets,-,selected,-,_,-,_,hfeasible,_,-,rfl⟩ := h
  exact hfeasible

theorem resolveRevision_feasible {userId : UserId} {proposal : ApprovalProposal} {expiry : Option ℕ}
    (h : resolveRevision env db requestId userId row proposal expiry = .ok r) :
    validatePolicyFeasibility r.selected.policy (activeMembers db.directory.members)
      row.requesterMemberId r.targets.requiredOwnerIds = .ok () := by
  simp only [resolveRevision, Result.bind_eq_ok, Result.pure_eq_ok] at h
  obtain ⟨_,-,targets,-,selected,-,_,-,_,hfeasible,_,-,rfl⟩ := h
  exact hfeasible

theorem writeRevision_row {userId : UserId} {proposal : ApprovalProposal} {expiry : Option ℕ}
    (hr : resolveRevision env db requestId userId row proposal expiry = .ok r)
    (h : writeRevision env db requestId userId row proposal expiry = .ok db') :
    db'.requests requestId = some (revisedRow row (revisionPayload env row proposal r)
      (effectFor proposal r.bindings)) := by
  simp only [writeRevision, hr, Result.bind_eq_ok, Except.ok.injEq, exists_eq_left'] at h
  obtain ⟨_,-,h⟩ := h
  split at h
  · cases h
  · rw [Result.pure_eq_ok] at h
    subst h
    simp

/-- What acceptance leaves behind: the resolved policy on a row of the request. -/
structure AcceptedRow (start db : Db) (requestId : RequestId) (r : Resolution) (row : ApprovalRow) :
    Prop where
  loaded : db.requests requestId = some row
  needed : ∀ owner ∈ r.targets.requiredOwnerIds, ownerRequired row.payload.policy
    (activeMembers start.directory.members) row.requesterMemberId owner = true

theorem Accepts.acceptedRow (h : Accepts env start requestId r db) :
    (∃ e, Step env start e db) ∧ ∃ row, AcceptedRow start db requestId r row := by
  cases h with
  | proposed proposer proposal p view db' hprior hp h =>
    refine ⟨⟨.propose proposer proposal,by simp [Step, Applied, apply, h, Except.map]⟩,
      proposedRow env proposer proposal p,?_,
      fun owner ho => ownerRequired_of_feasible (resolveProposal_feasible hp) ho⟩
    simp only [proposeApproval, hprior, hp, Result.bind_eq_ok, Result.pure_eq_ok, Prod.mk.injEq,
      Except.ok.injEq, exists_eq_left'] at h
    obtain ⟨_,-,_,-,_,-,_,-,rfl,-⟩ := h
    simp [insertProposal]
  | revised _ old context input _ result db' hfresh hold hr h =>
    have hfeasible := resolveRevision_feasible hr
    refine ⟨⟨.revise requestId context input,by simp [Step, Applied, apply, h, Except.map]⟩,
      revisedRow old (revisionPayload env old input.proposal r) (effectFor input.proposal r.bindings),?_,
      fun owner ho => ownerRequired_of_feasible hfeasible ho⟩
    simp only [reviseApproval, hfresh, Result.bind_eq_ok, Result.pure_eq_ok, Prod.mk.injEq,
      Except.ok.injEq, exists_eq_left', Bool.false_eq_true, if_false] at h
    obtain ⟨row,hrow,_,-,_,-,_,-,revised,hw,view,-,rfl,-⟩ := h
    cases hold.symm.trans (loadApprovalRow_ok hrow)
    have hrow' := writeRevision_row hr hw
    exact hrow'
  | reopened _ old userId _ db' hold hs hr h =>
    refine ⟨⟨.reopen requestId userId,h⟩,?_⟩
    simp only [reopenApprovalForResend, Result.bind_eq_ok] at h
    obtain ⟨row,hrow,h⟩ := h
    cases hold.symm.trans (loadApprovalRow_ok hrow)
    rw [if_neg (by rw [hs]; decide)] at h
    simp only [Result.bind_eq_ok, Result.pure_eq_ok] at h
    obtain ⟨_,-,_,-,revised,hw,rfl⟩ := h
    have hrow' := writeRevision_row hr hw
    have hfeasible := resolveRevision_feasible hr
    set next := revisedRow old (revisionPayload env old (storedProposal old.payload) r)
      (effectFor (storedProposal old.payload) r.bindings)
    refine ⟨{ next with effect := { next.effect with reason := some reopenedReason } },?_,
      fun owner ho => ownerRequired_of_feasible hfeasible ho⟩
    unfold setEffectReason
    rw [hrow', setRequest_requests, Function.update_self]

/-- Counted reviewers that leave the owner out fill every slot without the owner. -/
theorem satisfied_without {members : List MemberRow}
    (hquorum : ∀ step ∈ row.payload.policy.steps, step.quorum ≤ (countedFor db requestId row step).card)
    (hmember : ∀ step ∈ row.payload.policy.steps, ∀ m ∈ countedFor db requestId row step,
      m ∈ eligibleIds row.requesterMemberId row.payload.policy members step ∧ m ≠ owner) :
    canSatisfyDistinctReviewers row.payload.policy members row.requesterMemberId (some owner) = true := by
  have hn : row.payload.policy.steps.Nodup := List.Nodup.of_map _ row.payload.policy.valid.ids
  have hchoice : ∀ step : PolicyStep, ∃ team ⊆ countedFor db requestId row step,
      step ∈ row.payload.policy.steps → team.card = step.quorum := by
    intro step
    by_cases hs : step ∈ row.payload.policy.steps
    · obtain ⟨team,hsub,hcard⟩ := Finset.exists_subset_card_eq (hquorum step hs)
      exact ⟨team,hsub,fun _ => hcard⟩
    · exact ⟨∅,Finset.empty_subset _,fun h => absurd h hs⟩
  choose team hsub hcard using hchoice
  refine assignAll_iff.mpr (representatives_of_teams hn (show Teams _ _ _ team from ⟨hcard,?_,?_⟩))
  · intro step hs m hm
    obtain ⟨he,hne⟩ := hmember step hs m (hsub step hm)
    exact List.mem_filter.mpr ⟨he,by simpa using hne⟩
  · intro s hs t ht hst
    exact (countedFor_disjoint hs ht hst).mono (hsub s) (hsub t)

/-- The owner voted to approve the revision. -/
def OwnerApproved (db : Db) (requestId : RequestId) (row : ApprovalRow) (owner : MemberId) : Prop :=
  ∃ v ∈ db.votes, v.requestId = requestId ∧ v.revision = row.authorizationRevision ∧
    v.reviewerMemberId = owner ∧ v.decision = .approve

/-- Members can fill the policy without the owner now, and a counted one could not at acceptance. -/
def OwnerReplaced (start db : Db) (requestId : RequestId) (row : ApprovalRow) (owner : MemberId) :
    Prop :=
  canSatisfyDistinctReviewers row.payload.policy (activeMembers db.directory.members)
      row.requesterMemberId (some owner) = true ∧
    ∃ step ∈ row.payload.policy.steps, ∃ m ∈ countedFor db requestId row step,
      m ∉ eligibleIds row.requesterMemberId row.payload.policy
        (activeMembers start.directory.members) step

/-- Finalization at the accepted revision has the owner's vote, unless a later membership or role
change put somebody in the owner's place. -/
theorem owner_approved_or_replaced {accepted : Db} {events : List Event} {first : ApprovalRow}
    (hr : ReachableDb env start) (ha : Accepts env start requestId r accepted)
    (hfirst : accepted.requests requestId = some first) (ho : owner ∈ r.targets.requiredOwnerIds)
    (hrun : Run (Step env) accepted events db)
    (hd : decideApproval env db requestId context input = .ok (db',result))
    (hrow : db.requests requestId = some row) (hrow' : db'.requests requestId = some row')
    (hbefore : row.status ≠ .approved) (hafter : row'.status = .approved)
    (hrev : row'.authorizationRevision = first.authorizationRevision) :
    OwnerApproved db' requestId row' owner ∨ OwnerReplaced start db' requestId row' owner := by
  obtain ⟨⟨e,hstep⟩,accepted',hrow0,hneeded⟩ := ha.acceptedRow
  cases hfirst.symm.trans hrow0
  have hdecided : Step env db (.decide requestId context input) db' := by
    simp [Step, Applied, apply, hd, Except.map]
  obtain ⟨last,hlast,hfollows⟩ := follows_of_run (hrun.append (.single hdecided))
    (ReachableDb.ledger (hr.tail hstep)) hfirst
  cases hlast.symm.trans hrow'
  have hsame : SameRevision first row' := hfollows.resolve_right (by omega)
  have hquorum := decideApproval_quorum hd hrow hrow' hbefore hafter
  by_cases hvoted : OwnerApproved db' requestId row' owner
  · exact Or.inl hvoted
  refine Or.inr ?_
  have hout : ∀ step ∈ row'.payload.policy.steps, ∀ m ∈ countedFor db' requestId row' step,
      m ≠ owner := by
    rintro step hs m hm rfl
    obtain ⟨-,v,hv,hid,hrevision,-,-,hreviewer,happrove⟩ := countedFor_sound hs hm
    exact hvoted ⟨v,hv,hid,hrevision,hreviewer,happrove⟩
  refine ⟨satisfied_without hquorum fun step hs m hm => ⟨?_,hout step hs m hm⟩,?_⟩
  · exact mem_eligibleIds.mpr (countedFor_sound hs hm).1
  · by_contra hnone
    push Not at hnone
    have hrequired := hneeded owner ho
    rw [ownerRequired_iff, ← hsame.payload, ← hsame.requester] at hrequired
    rw [satisfied_without hquorum fun step hs m hm =>
      ⟨hnone step hs m hm,hout step hs m hm⟩] at hrequired
    cases hrequired

section Sample

def ownerMembers (roles : List String) : MemberTable :=
  ⟨[sampleMember 1 "member" [],sampleMember 2 "member" ["finance"],sampleMember 3 "member" roles],
    by simp [sampleMember],by simp [sampleMember]⟩

/-- Member 2 owns the system and is the finance reviewer; member 3 has the given reviewer roles. -/
def ownerDirectory (roles : List String) : Directory :=
  sampleDirectory (ownerMembers roles)
    (samplePolicyRow .recordChange .sequential [] [⟨"s1","Review",0,[.role "finance" 1],1⟩])
    fun id => if id = "system" then some ⟨2,none,none,false,true⟩ else none

def ownerDb : Db := sampleDb (ownerDirectory [])

def ownerInput : ProposeApprovalInput :=
  ⟨"Label","policy",⟨.recordChange "system",[],false,.null⟩,[],[],[],[],none,"proposal-1"⟩

def ownerContext : ApprovalProposerContext := ⟨1,none,none,none,none,none⟩

def proposedOwnerDb : Db := after samplePlatform ownerDb (.propose ownerContext ownerInput)

/-- The same database once member 3 became a finance reviewer too. -/
def grantedOwnerDb : Db := { proposedOwnerDb with directory := ownerDirectory ["finance"] }

theorem accepts_ownerDb : ∃ r, Accepts samplePlatform ownerDb 0 r proposedOwnerDb ∧
    2 ∈ r.targets.requiredOwnerIds := by
  have howner : (resolveProposal samplePlatform ownerDb ownerContext ownerInput).toOption.any
      (fun p => 2 ∈ p.targets.requiredOwnerIds) = true := by decide
  cases hp : resolveProposal samplePlatform ownerDb ownerContext ownerInput with
  | error e => rw [hp] at howner; cases howner
  | ok p =>
    rw [hp] at howner
    have haccepted : accepted samplePlatform ownerDb (.propose ownerContext ownerInput) = true := by
      decide
    obtain ⟨view,hview⟩ := Result.map_fst_ok
      (x := proposeApproval samplePlatform ownerDb ownerContext ownerInput) (step_after haccepted)
    exact ⟨p.toResolution,.proposed ownerContext ownerInput p view proposedOwnerDb (by decide) hp hview,
      by simpa [Except.toOption] using howner⟩

/-- The owner's vote is bypassed: a role granted after acceptance lets another member finalize. -/
theorem owner_bypassed_after_grant : ∃ r, Accepts samplePlatform ownerDb 0 r proposedOwnerDb ∧
    2 ∈ r.targets.requiredOwnerIds ∧ ∃ db' row',
    Run (Step samplePlatform) proposedOwnerDb [.directory (ownerDirectory ["finance"]),sampleVote 3 "vote-1"]
      db' ∧ db'.requests 0 = some row' ∧ row'.status = .approved ∧ row'.authorizationRevision = 1 ∧
    ¬ OwnerApproved db' 0 row' 2 := by
  obtain ⟨r,ha,ho⟩ := accepts_ownerDb
  obtain ⟨db',result,row',h,hrow',hafter⟩ := exists_of_status 0
    (decideApproval samplePlatform grantedOwnerDb 0 ⟨3,false⟩ (sampleApprove "vote-1")) .approved
    (by decide)
  have hvotes : ((decideApproval samplePlatform grantedOwnerDb 0 ⟨3,false⟩
      (sampleApprove "vote-1")).toOption.any fun p => p.1.votes.all (fun v => v.reviewerMemberId ≠ 2) ∧
        (p.1.requests 0).any fun row => row.authorizationRevision = 1) = true := by decide
  rw [h] at hvotes
  simp only [Except.toOption, Option.any_some, hrow', Bool.decide_and, Bool.and_eq_true,
    decide_eq_true_eq, Bool.decide_eq_true, List.all_eq_true] at hvotes
  refine ⟨r,ha,ho,db',row',.cons rfl (.single ?_),hrow',hafter,hvotes.2,?_⟩
  · exact congrArg (Except.map Prod.fst) h
  · rintro ⟨v,hv,-,-,howner,-⟩
    exact hvotes.1 v hv howner

/-- Without a role change the owner's vote is there. -/
theorem owner_approved_or_replaced_unchanged : ∃ db' row', db'.requests 0 = some row' ∧
    row'.status = .approved ∧
    (OwnerApproved db' 0 row' 2 ∨ OwnerReplaced ownerDb db' 0 row' 2) := by
  obtain ⟨r,ha,ho⟩ := accepts_ownerDb
  obtain ⟨db',result,row',h,hrow',hafter⟩ := exists_of_status 0
    (decideApproval samplePlatform proposedOwnerDb 0 ⟨2,false⟩ (sampleApprove "vote-1")) .approved
    (by decide)
  have hrev : ((decideApproval samplePlatform proposedOwnerDb 0 ⟨2,false⟩
      (sampleApprove "vote-1")).toOption.any fun p => (p.1.requests 0).any fun row' =>
        (proposedOwnerDb.requests 0).any fun row => row.status ≠ .approved ∧
          row'.authorizationRevision = row.authorizationRevision) = true := by decide
  rw [h] at hrev
  simp only [Except.toOption, Option.any_some, hrow', Option.any_eq_true, decide_eq_true_eq] at hrev
  obtain ⟨row,hrow,hbefore,hrev⟩ := hrev
  exact ⟨db',row',hrow',hafter,owner_approved_or_replaced
    ⟨ownerDb,[],initial_sampleDb _,.nil _⟩ ha hrow ho (.nil _) h hrow hrow' hbefore hafter hrev⟩

end Sample

end HermesEnterprise.Approvals
