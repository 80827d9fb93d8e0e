import HermesEnterprise.Approvals.Soundness

/-! # The stage of a partner engagement

A proposal under a partner outreach policy opens an engagement, and the votes on
the approval move its stage. Expiry and revisions leave the stage as it is, so it
agrees with the approval exactly as long as none of these meets a stage that it
should have moved.
-/
namespace HermesEnterprise.Approvals
open Foundation.Tables Foundation.Runs Email

section Definitions

/-- The key of an agent's outreach policy of one kind. -/
def outreachPolicyKey (uuidText : Uuid → String) (kind : String) (agentId : AgentId) : String :=
  "partner-outreach-" ++ kind ++ "-" ++ uuidText agentId

/-- The check of a recipient against the stored, verified contact evidence. -/
abbrev ContactCheck := Db → AgentId → Recipient → ApprovalProposal → Bool → Result Unit

def validatePartnerOutreachContact (uuidText : Uuid → String) (contactMatches : ContactCheck) (db : Db)
    (agentId : AgentId) (policyKey : String) (proposal : ApprovalProposal)
    (existingRequestId : Option RequestId) : Result (Option PartnerEngagement) :=
  let draftPolicy := policyKey = outreachPolicyKey uuidText "draft" agentId
  let sendPolicy := policyKey = outreachPolicyKey uuidText "send" agentId
  if ¬draftPolicy ∧ ¬sendPolicy then .ok none
  else match proposal.details with
  | .communication d => do
    require (d.draftOnly = decide draftPolicy ∧ d.recipients.length = 1)
      "partner outreach must match its configured draft or approved-send policy"
      "invalid_partner_outreach" 422
    match d.recipients.head?.bind fun r => r.candidateId.map fun c => (r,c) with
    | none => refuse "partner outreach must name the stored candidate" "invalid_partner_outreach_contact" 422
    | some (recipient,candidateId) => do
      contactMatches db agentId recipient proposal (decide sendPolicy)
      require ((db.engagements.find? fun e => e.agentId = agentId ∧ e.candidateId = candidateId).all
          fun e => some e.requestId = existingRequestId)
        "this candidate already has an outreach engagement" "partner_candidate_already_engaged" 409
      return some ⟨candidateId,if draftPolicy then "draft_pending" else "send_pending"⟩
  | _ => refuse "partner outreach must match its configured draft or approved-send policy"
      "invalid_partner_outreach" 422

/-- The platform with the outreach guard itself; only the evidence tables stay behind a check. -/
def Platform.withOutreach (env : Platform) (contactMatches : ContactCheck) : Platform :=
  { env with
    validatePartnerOutreachContact :=
      Approvals.validatePartnerOutreachContact env.uuidText contactMatches }

/-- Whether the current revision only drafts, if it communicates. -/
def draftOnly (row : ApprovalRow) : Option Bool :=
  match row.payload.details with
  | .communication d => some d.draftOnly
  | _ => none

def pendingStages : List String := ["draft_pending","send_pending"]

def approvedStages : List String := ["draft_approved","pending_connection","queued"]

/-- The stages a vote moves an engagement to. -/
def decidedStages : List String := "changes_requested" :: "declined" :: approvedStages

/-- What the approval is while its engagement is at a stage. -/
structure StageAgrees (row : ApprovalRow) (stage : String) : Prop where
  pending : stage ∈ pendingStages → row.status = .pending
  draft : stage = "draft_pending" → draftOnly row = some true
  send : stage = "send_pending" → draftOnly row = some false
  changesRequested : stage = "changes_requested" → row.status = .changesRequested
  declined : stage = "declined" → row.status = .declined
  approved : stage ∈ approvedStages → row.status = .approved

/-- Every engagement agrees with its approval. -/
def EngagementsAgree (db : Db) : Prop :=
  ∀ e ∈ db.engagements, ∀ row, db.requests e.requestId = some row → StageAgrees row e.stage

/-- Nothing was proposed and nobody is engaged yet. -/
structure Unengaged (db : Db) : Prop extends Initial db where
  engagements : db.engagements = []

/-- Whether the engagement of a request is at one of these stages. -/
def engagedAt (db : Db) (requestId : RequestId) (stages : List String) : Bool :=
  db.engagements.any fun e => e.requestId = requestId ∧ e.stage ∈ stages

def overdue (db : Db) (requestId : RequestId) : Bool :=
  (db.requests requestId).any fun row => row.status = .pending ∧ row.expiresAt ≤ db.now

/-- Nothing expires under a pending stage, and nothing is revised or reopened under a decided one. -/
def admits (env : Platform) (db : Db) : Event → Bool
  | .read requestId _ => !(overdue db requestId && engagedAt db requestId pendingStages)
  | .decide requestId _ input =>
    commandReplay db requestId .decision input.idempotencyKey (decisionHash env input) = .ok true ||
      !(overdue db requestId && engagedAt db requestId pendingStages)
  | .revise requestId _ input =>
    commandReplay db requestId .revision input.idempotencyKey (revisionHash env input) = .ok true ||
      !engagedAt db requestId decidedStages
  | .reopen requestId _ => !engagedAt db requestId decidedStages
  | .propose _ _ | .route _ _ _ | .directory _ | .mail _ | .tick _ => true

/-- A proposal that an outreach policy of the agent let through. -/
structure Outreach (uuidText : Uuid → String) (agentId : AgentId) (policyKey : String)
    (details : ProposalDetails) : Prop where
  key : policyKey = outreachPolicyKey uuidText "draft" agentId ∨
    policyKey = outreachPolicyKey uuidText "send" agentId
  details : ∃ d, details = .communication d ∧
    (d.recipients.head?.bind Recipient.candidateId).isSome = true ∧
    d.draftOnly = decide (policyKey = outreachPolicyKey uuidText "draft" agentId)

/-- An engagement has an outreach approval and agrees with it. -/
structure Engages (env : Platform) (db : Db) (e : EngagementRow) (row : ApprovalRow) : Prop where
  loaded : db.requests e.requestId = some row
  outreach : Outreach env.uuidText row.requesterAgentId row.payload.policy.key row.payload.details
  agrees : StageAgrees row e.stage

structure Engaged (env : Platform) (db : Db) : Prop where
  ledger : Ledger db
  engages : ∀ e ∈ db.engagements, ∃ row, Engages env db e row

end Definitions

variable {env : Platform} {contactMatches : ContactCheck} {db db' f : Db} {requestId : RequestId}
variable {row row' : ApprovalRow} {proposal : ApprovalProposal} {e : EngagementRow} {stage : String}

theorem Engaged.agree (h : Engaged env db) : EngagementsAgree db := by
  intro e he row hrow
  obtain ⟨old,hold⟩ := h.engages e he
  cases hold.loaded.symm.trans hrow
  exact hold.agrees

theorem Unengaged.engaged (h : Unengaged db) : Engaged env db := by
  refine ⟨h.toInitial.ledger,?_⟩
  rw [h.engagements]
  exact fun e he => absurd he List.not_mem_nil

section Guard
variable {uuidText : Uuid → String} {agentId : AgentId} {policyKey : String}
variable {existing : Option RequestId} {engagement : Option PartnerEngagement}

/-- The guard lets an outreach policy through for its own kind of email to one candidate only. -/
theorem validatePartnerOutreachContact_ok
    (h : validatePartnerOutreachContact uuidText contactMatches db agentId policyKey proposal existing =
      .ok engagement) :
    (engagement = none ∧ policyKey ≠ outreachPolicyKey uuidText "draft" agentId ∧
      policyKey ≠ outreachPolicyKey uuidText "send" agentId) ∨
    (Outreach uuidText agentId policyKey proposal.details ∧ ∀ p ∈ engagement, p.stage =
      if policyKey = outreachPolicyKey uuidText "draft" agentId then "draft_pending" else "send_pending") := by
  unfold validatePartnerOutreachContact at h
  dsimp only at h
  split at h
  next hkey =>
    cases h
    exact Or.inl ⟨rfl,hkey⟩
  next hkey =>
    right
    split at h
    next d hd =>
      simp only [Result.bind_eq_ok, require_eq_ok, decide_eq_true_eq] at h
      obtain ⟨_,⟨hdraft,-⟩,h⟩ := h
      split at h
      next => simp at h
      next recipient candidateId hr =>
        simp only [Result.bind_eq_ok, Result.pure_eq_ok] at h
        obtain ⟨_,-,_,-,rfl⟩ := h
        refine ⟨⟨?_,d,hd,?_,hdraft⟩,?_⟩
        · by_contra hno
          exact hkey (not_or.mp hno)
        · obtain ⟨r,hhead,hc⟩ := Option.bind_eq_some_iff.mp hr
          obtain ⟨c,hc,-⟩ := Option.map_eq_some_iff.mp hc
          simp [hhead, hc]
        · rintro p hp
          cases hp
          rfl
    next => cases h

/-- The selected policy has the key that was asked for. -/
theorem selectPolicy_key {dir : Directory} {targetResourceIds : List String} {selected : SelectedPolicy}
    (h : selectPolicy env dir proposal agentId targetResourceIds policyKey = .ok selected) :
    selected.row.fields.key = policyKey ∧ selected.policy.key = policyKey := by
  unfold selectPolicy at h
  dsimp only at h
  split at h
  · cases h
  · simp only [Result.bind_eq_ok, Result.pure_eq_ok, require_eq_ok, decide_eq_true_eq] at h
    obtain ⟨_,hkey,policy,hpolicy,rfl⟩ := h
    unfold approvalPolicySchema at hpolicy
    split at hpolicy
    · cases hpolicy
      exact ⟨hkey,hkey⟩
    · cases hpolicy

end Guard

section Resolving
variable {context : ApprovalProposerContext} {input : ProposeApprovalInput} {p : Proposed}
variable {userId : UserId} {requested : Option ℕ} {r : Resolution} {reason : Option String}

theorem agrees_of_pending (hp : row.status = .pending) (hstage : stage ∉ decidedStages)
    (hdraft : stage = "draft_pending" → draftOnly row = some true)
    (hsend : stage = "send_pending" → draftOnly row = some false) : StageAgrees row stage := by
  simp only [decidedStages, List.mem_cons, not_or] at hstage
  exact ⟨fun _ => hp,hdraft,hsend,fun h => absurd h hstage.1,fun h => absurd h hstage.2.1,
    fun h => absurd h hstage.2.2⟩

theorem Outreach.draftOnly {uuidText : Uuid → String} {agentId : AgentId} {policyKey : String}
    (h : Outreach uuidText agentId policyKey row.payload.details) :
    draftOnly row = some (decide (policyKey = outreachPolicyKey uuidText "draft" agentId)) := by
  obtain ⟨d,hd,-,hdraft⟩ := h.details
  simp only [Approvals.draftOnly, hd, hdraft]

/-- A pending approval agrees with the stage its policy opens an engagement at. -/
theorem Outreach.agrees {uuidText : Uuid → String} {agentId : AgentId} {policyKey : String}
    (h : Outreach uuidText agentId policyKey row.payload.details) (hp : row.status = .pending) :
    StageAgrees row (if policyKey = outreachPolicyKey uuidText "draft" agentId then "draft_pending"
      else "send_pending") := by
  have hdraft := h.draftOnly
  by_cases hkey : policyKey = outreachPolicyKey uuidText "draft" agentId
  · rw [if_pos hkey]
    rw [decide_eq_true hkey] at hdraft
    exact agrees_of_pending hp (by decide) (fun _ => hdraft) fun hs => absurd hs (by decide)
  · rw [if_neg hkey]
    rw [decide_eq_false hkey] at hdraft
    exact agrees_of_pending hp (by decide) (fun hs => absurd hs (by decide)) fun _ => hdraft

theorem agrees_of_free (hpending : stage ∉ pendingStages) (hdecided : stage ∉ decidedStages) :
    StageAgrees row stage := by
  simp only [pendingStages, decidedStages, List.mem_cons, List.not_mem_nil, or_false, not_or] at hpending hdecided
  exact ⟨fun h => absurd h (by simpa [pendingStages] using hpending),fun h => absurd h hpending.1,
    fun h => absurd h hpending.2,fun h => absurd h hdecided.1,fun h => absurd h hdecided.2.1,
    fun h => absurd h hdecided.2.2⟩

theorem agrees_of_approved (hstage : stage ∈ approvedStages) (h : row.status = .approved) :
    StageAgrees row stage := by
  have hpending : stage ∉ pendingStages := by
    simp only [approvedStages, List.mem_cons, List.not_mem_nil, or_false] at hstage
    rcases hstage with rfl | rfl | rfl <;> decide
  have hother : stage ≠ "changes_requested" ∧ stage ≠ "declined" := by
    simp only [approvedStages, List.mem_cons, List.not_mem_nil, or_false] at hstage
    rcases hstage with rfl | rfl | rfl <;> decide
  simp only [pendingStages, List.mem_cons, List.not_mem_nil, or_false, not_or] at hpending
  exact ⟨fun h => absurd h (by simpa [pendingStages] using hpending),fun h => absurd h hpending.1,
    fun h => absurd h hpending.2,fun h => absurd h hother.1,fun h => absurd h hother.2,fun _ => h⟩

/-- While an approval is pending its engagement is not at a decided stage. -/
theorem StageAgrees.not_decided (h : StageAgrees row stage) (hp : row.status = .pending) :
    stage ∉ decidedStages := by
  intro hd
  rw [decidedStages, List.mem_cons, List.mem_cons] at hd
  rcases hd with hd | hd | hd
  · cases hp.symm.trans (h.changesRequested hd)
  · cases hp.symm.trans (h.declined hd)
  · cases hp.symm.trans (h.approved hd)

/-- The engagement a proposal opens agrees with the approval it opens. -/
theorem resolveProposal_opens
    (h : resolveProposal (env.withOutreach contactMatches) db context input = .ok p) :
    ∀ opened ∈ p.engagement,
      Outreach env.uuidText context.agentId p.selected.policy.key input.proposal.details ∧
      StageAgrees (proposedRow (env.withOutreach contactMatches) context input p) opened.stage := by
  simp only [resolveProposal, Result.bind_eq_ok, Result.pure_eq_ok] at h
  obtain ⟨requester,-,_,-,_,-,targets,-,selected,hselected,engagement,hguard,_,-,_,-,rfl⟩ := h
  intro opened hopened
  obtain ⟨hrow,hpolicy⟩ := selectPolicy_key hselected
  rcases validatePartnerOutreachContact_ok hguard with ⟨rfl,-⟩ | ⟨houtreach,hstage⟩
  · cases hopened
  · rw [hrow] at houtreach hstage
    refine ⟨hpolicy.symm ▸ houtreach,?_⟩
    rw [hstage opened hopened]
    exact Outreach.agrees houtreach rfl

/-- The next revision of an outreach approval is one under the same policy key. -/
theorem resolveRevision_outreach
    (h : resolveRevision (env.withOutreach contactMatches) db requestId userId row proposal requested = .ok r)
    (hold : Outreach env.uuidText row.requesterAgentId row.payload.policy.key row.payload.details) :
    r.selected.policy.key = row.payload.policy.key ∧
      Outreach env.uuidText row.requesterAgentId row.payload.policy.key proposal.details := by
  simp only [resolveRevision, Result.bind_eq_ok, Result.pure_eq_ok] at h
  obtain ⟨_,-,targets,-,selected,hselected,engagement,hguard,_,-,_,-,rfl⟩ := h
  obtain ⟨hrow,hpolicy⟩ := selectPolicy_key hselected
  refine ⟨hpolicy,?_⟩
  rcases validatePartnerOutreachContact_ok hguard with ⟨-,hdraft,hsend⟩ | ⟨houtreach,-⟩
  · rw [hrow] at hdraft hsend
    exact absurd hold.key (not_or.mpr ⟨hdraft,hsend⟩)
  · rw [hrow] at houtreach
    exact houtreach

end Resolving

section Stages

/-- After a stage is written, an engagement is the request's at that stage, or untouched. -/
theorem mem_setEngagementStage (h : e ∈ (db.setEngagementStage requestId stage).engagements) :
    (e.requestId = requestId ∧ e.stage = stage ∧ ∃ old ∈ db.engagements, old.requestId = requestId) ∨
    (e ∈ db.engagements ∧ e.requestId ≠ requestId) := by
  rcases mem_updateWhere.mp h with ⟨old,hold,hid,rfl⟩ | ⟨he,hid⟩
  · have hid := of_decide_eq_true hid
    exact Or.inl ⟨hid,rfl,old,hold,hid⟩
  · exact Or.inr ⟨he,of_decide_eq_false hid⟩

theorem writeApprovalReceipt_engagements (db : Db) (requestId : RequestId) (row : ApprovalRow)
    (decision : ApprovalStatus) (actor : String) :
    (writeApprovalReceipt db requestId row decision actor).engagements = db.engagements := by
  unfold writeApprovalReceipt
  split
  · rfl
  · split
    · rfl
    · split <;> rfl

theorem enqueueFollowOn_engagements (db : Db) (requestId : RequestId) (row : ApprovalRow) :
    (enqueueFollowOn db requestId row).engagements = db.engagements := by
  unfold enqueueFollowOn
  split
  · rfl
  · dsimp only
    split <;> rfl

theorem writeStage_engagements {queued : Option QueuedEmailOutbox} {details : ProposalDetails} :
    (∃ stage ∈ approvedStages, (writeStage db requestId details queued).engagements =
      (db.setEngagementStage requestId stage).engagements) ∨
    ((writeStage db requestId details queued).engagements = db.engagements ∧
      ∀ d, details = .communication d → (d.recipients.head?.bind Recipient.candidateId).isSome = false) := by
  unfold writeStage
  split
  next d =>
    split
    next stage hstage =>
      refine Or.inl ⟨stage,?_,rfl⟩
      unfold approvedStage at hstage
      split at hstage
      · cases hstage
      · split at hstage
        · cases hstage
          decide
        · split at hstage <;> cases hstage <;> decide
    next hstage =>
      refine Or.inr ⟨rfl,fun d' hd => ?_⟩
      cases hd
      unfold approvedStage at hstage
      split at hstage
      next hc =>
        rw [Option.isNone_iff_eq_none.mp hc]
        rfl
      next =>
        split at hstage
        · cases hstage
        · split at hstage <;> cases hstage
  next hd => exact Or.inr ⟨rfl,fun d h => absurd h (hd d)⟩

/-- Finalizing an email to a stored candidate moves its engagement to an approved stage. -/
theorem finalizeApproval_engagements {simulate : Bool}
    (h : finalizeApproval env db requestId row simulate = .ok f) :
    (∃ stage ∈ approvedStages, f.engagements = (db.setEngagementStage requestId stage).engagements) ∨
    (f.engagements = db.engagements ∧ ∀ d, row.payload.details = .communication d →
      (d.recipients.head?.bind Recipient.candidateId).isSome = false) := by
  simp only [finalizeApproval, Result.bind_eq_ok] at h
  obtain ⟨materialized,hm,h⟩ := h
  by_cases htrue : materialized = true
  · rw [if_pos htrue, Result.pure_eq_ok] at h
    subst h
    refine Or.inr ⟨rfl,fun d hd => ?_⟩
    -- an email has no internal materializer
    simp only [materializeInternal, partnerEngagementChange, sharedIntelligenceChange, hd, Bool.or_self,
      Bool.false_eq_true, if_false] at hm
    cases hm
    cases htrue
  · rw [if_neg htrue, Result.bind_eq_ok] at h
    obtain ⟨⟨outbox,queued⟩,_,h⟩ := h
    rw [Result.pure_eq_ok] at h
    subst h
    simp only [continueFinalized, enqueueFollowOn_engagements]
    exact writeStage_engagements

end Stages

section Steps

theorem Engaged.own (h : Engaged env db) (hrow : db.requests requestId = some row)
    (he : e ∈ db.engagements) (hid : e.requestId = requestId) : Engages env db e row := by
  obtain ⟨old,hold⟩ := h.engages e he
  rw [← hid] at hrow
  cases hold.loaded.symm.trans hrow
  exact hold

/-- Writing one approval keeps every engagement of another. -/
theorem Engaged.update (h : Engaged env db) (hledger : Ledger db')
    (hreq : db'.requests = Function.update db.requests requestId (some row'))
    (hkeep : ∀ e ∈ db'.engagements, e.requestId ≠ requestId → e ∈ db.engagements)
    (hown : ∀ e ∈ db'.engagements, e.requestId = requestId →
      Outreach env.uuidText row'.requesterAgentId row'.payload.policy.key row'.payload.details ∧
      StageAgrees row' e.stage) : Engaged env db' := by
  refine ⟨hledger,fun e he => ?_⟩
  by_cases hid : e.requestId = requestId
  · obtain ⟨houtreach,hagrees⟩ := hown e he hid
    exact ⟨row',by rw [hreq, hid, Function.update_self],houtreach,hagrees⟩
  · obtain ⟨row,hrow⟩ := h.engages e (hkeep e he hid)
    exact ⟨row,by rw [hreq, Function.update_of_ne hid]; exact hrow.loaded,hrow.outreach,hrow.agrees⟩

/-- Nothing but engagements and approvals matters. -/
theorem Engaged.congr (h : Engaged env db) (hledger : Ledger db') (hreq : db'.requests = db.requests)
    (heng : db'.engagements = db.engagements) : Engaged env db' := by
  refine ⟨hledger,fun e he => ?_⟩
  rw [heng] at he
  obtain ⟨row,hrow⟩ := h.engages e he
  exact ⟨row,by rw [hreq]; exact hrow.loaded,hrow.outreach,hrow.agrees⟩

/-- A new stage of the one request that is written. -/
theorem Engaged.staged (h : Engaged env db) (hledger : Ledger db') (hrow : db.requests requestId = some row)
    (hreq : db'.requests = Function.update db.requests requestId (some row'))
    (heng : db'.engagements = (db.setEngagementStage requestId stage).engagements)
    (hagent : row'.requesterAgentId = row.requesterAgentId) (hpayload : row'.payload = row.payload)
    (hstage : StageAgrees row' stage) : Engaged env db' := by
  refine h.update hledger hreq ?_ ?_
  · intro e he hid
    rw [heng] at he
    rcases mem_setEngagementStage he with ⟨hown,-⟩ | ⟨he,-⟩
    · exact absurd hown hid
    · exact he
  · intro e he hid
    rw [heng] at he
    rcases mem_setEngagementStage he with ⟨-,hs,old,hold,holdid⟩ | ⟨-,hne⟩
    · rw [hagent, hpayload, hs]
      exact ⟨(h.own hrow hold holdid).outreach,hstage⟩
    · exact absurd hid hne

theorem Engaged.proposed {context : ApprovalProposerContext} {input : ProposeApprovalInput} {p : Proposed}
    (h : Engaged env db) (hp : resolveProposal (env.withOutreach contactMatches) db context input = .ok p)
    (hledger : Ledger (insertProposal db context db.nextId
      (proposedRow (env.withOutreach contactMatches) context input p) p)) :
    Engaged env (insertProposal db context db.nextId
      (proposedRow (env.withOutreach contactMatches) context input p) p) := by
  have hmem : ∀ e ∈ db.engagements ++ p.engagement.toList.map fun o =>
      (⟨context.agentId,o.candidateId,db.nextId,o.stage,none⟩ : EngagementRow),
      e ∈ db.engagements ∨ ∃ o ∈ p.engagement, e = ⟨context.agentId,o.candidateId,db.nextId,o.stage,none⟩ := by
    intro e he
    rcases List.mem_append.mp he with he | he
    · exact Or.inl he
    · obtain ⟨o,ho,rfl⟩ := List.mem_map.mp he
      exact Or.inr ⟨o,Option.mem_toList.mp ho,rfl⟩
  refine h.update hledger rfl ?_ ?_
  · intro e he hid
    rcases hmem e he with he | ⟨o,ho,rfl⟩
    · exact he
    · exact absurd rfl hid
  · intro e he hid
    rcases hmem e he with he | ⟨o,ho,rfl⟩
    · -- ids at or above the next one name no approval yet
      obtain ⟨row,hrow⟩ := h.engages e he
      exact absurd hid (h.ledger.ids _ row hrow.loaded).ne
    · exact resolveProposal_opens hp o ho

/-- An approval may expire while its engagement is not at a pending stage. -/
theorem Engaged.expired (h : Engaged env db) (hledger : Ledger (markExpired db requestId row))
    (hrow : db.requests requestId = some row) (hp : row.status = .pending)
    (hstage : engagedAt db requestId pendingStages = false) :
    Engaged env (markExpired db requestId row) := by
  refine h.update hledger rfl (fun e he _ => he) fun e he hid => ?_
  have hold := h.own hrow he hid
  refine ⟨hold.outreach,agrees_of_free (fun hs => ?_) (hold.agrees.not_decided hp)⟩
  rw [engagedAt, List.any_eq_false] at hstage
  exact hstage e he (decide_eq_true ⟨hid,hs⟩)

theorem agrees_of_closed (decision : VoteDecision) : StageAgrees (closedRow row decision)
    (if decision = .decline then "declined" else "changes_requested") := by
  cases decision <;> constructor <;> simp [closedRow, statusRow, pendingStages, approvedStages]

/-- The closed, counted and finalized votes keep the stage with the approval. -/
theorem Engaged.decided {context : ApprovalHumanContext} {input : DecideApprovalInput}
    (h : Engaged env db) (hledger : Ledger db')
    (hd : Decided (env.withOutreach contactMatches) db requestId context input db')
    (hstage : overdue db requestId = true → engagedAt db requestId pendingStages = false) :
    Engaged env db' := by
  cases hd with
  | replayed => exact h
  | expired row hrow hp hexp =>
    exact h.expired hledger hrow hp (hstage (by simp [overdue, hrow, hp, hexp]))
  | closed row reviewer step b hne =>
    set voted := recordVote (env.withOutreach contactMatches) db requestId row step reviewer input
    have hreq := (closeDecision_spec voted requestId row input.decision reviewer.name).2.1
    have heng : (closeDecision voted requestId row input.decision reviewer.name).engagements =
        (db.setEngagementStage requestId (if input.decision = .decline then "declined"
          else "changes_requested")).engagements := by
      simp only [closeDecision, Db.setEngagementStage, writeApprovalReceipt_engagements]
      rfl
    exact h.staged hledger b.loaded hreq heng rfl rfl (agrees_of_closed input.decision)
  | counted row reviewer step b => exact h.congr hledger rfl rfl
  | finalized row reviewer step f b _ _ hf =>
    obtain ⟨row',hreq,effect,work,reason,job,hrow'⟩ := (finalizeApproval_spec hf).approved
    have hreq' := (writeApprovalReceipt_requests f requestId row .approved reviewer.name).1.trans hreq
    have heng' := writeApprovalReceipt_engagements f requestId row .approved reviewer.name
    have happroved : row'.status = .approved := by
      rw [hrow']
      exact if_pos b.pending
    rcases finalizeApproval_engagements hf with ⟨stage,hs,heng⟩ | ⟨heng,hnone⟩
    · exact h.staged hledger b.loaded hreq' (heng'.trans heng) (by rw [hrow']; rfl) (by rw [hrow']; rfl)
        (agrees_of_approved hs happroved)
    · -- an approval without a stored candidate has no engagement
      have hold : ∀ e ∈ db.engagements, e.requestId ≠ requestId := by
        intro e he hid
        obtain ⟨d,hd,hc,-⟩ := (h.own b.loaded he hid).outreach.details
        exact absurd hc (by rw [hnone d hd]; decide)
      rw [heng] at heng'
      refine h.update hledger hreq' (fun e he _ => ?_) fun e he hid => ?_
      · rw [heng'] at he
        exact he
      · rw [heng'] at he
        exact absurd hid (hold e he)

/-- A revision finds the engagement at the pending stage of its own policy. -/
theorem Engaged.revised {r : Resolution} (h : Engaged env db) (hledger : Ledger db')
    (hr : Revised (env.withOutreach contactMatches) db requestId row proposal r db')
    (hstage : engagedAt db requestId decidedStages = false) : Engaged env db' := by
  obtain ⟨reason,hreq⟩ := hr.requests
  obtain ⟨userId,requested,hresolved⟩ := hr.resolved
  refine h.update hledger hreq (fun e he _ => hr.engagements ▸ he) fun e he hid => ?_
  rw [hr.engagements] at he
  have hold := h.own hr.loaded he hid
  obtain ⟨hkey,houtreach⟩ := resolveRevision_outreach hresolved hold.outreach
  have hnew : Outreach env.uuidText (nextRow (env.withOutreach contactMatches) row proposal r reason).requesterAgentId
      (nextRow (env.withOutreach contactMatches) row proposal r reason).payload.policy.key
      (nextRow (env.withOutreach contactMatches) row proposal r reason).payload.details := by
    change Outreach env.uuidText row.requesterAgentId r.selected.policy.key proposal.details
    rw [hkey]
    exact houtreach
  have hsame : draftOnly (nextRow (env.withOutreach contactMatches) row proposal r reason) = draftOnly row := by
    rw [hnew.draftOnly, hold.outreach.draftOnly]
    change some (decide (r.selected.policy.key = _)) = _
    rw [hkey]
    rfl
  refine ⟨hnew,agrees_of_pending rfl ?_ ?_ ?_⟩
  · intro hs
    rw [engagedAt, List.any_eq_false] at hstage
    exact hstage e he (decide_eq_true ⟨hid,hs⟩)
  · rw [hsame]
    exact hold.agrees.draft
  · rw [hsame]
    exact hold.agrees.send

/-- An admitted step keeps every engagement with its approval. -/
theorem Engaged.step {event : Event} (h : Engaged env db)
    (hok : admits (env.withOutreach contactMatches) db event = true)
    (hst : Step (env.withOutreach contactMatches) db event db') : Engaged env db' := by
  have hledger := h.ledger.change hst.change
  unfold Step Applied apply at hst
  cases event with
  | propose context input =>
    obtain ⟨view,hst⟩ := Result.map_fst_ok hst
    rcases proposeApproval_ok hst with rfl | ⟨p,hp,rfl⟩
    · exact h
    · exact h.proposed hp hledger
  | decide requestId context input =>
    obtain ⟨result,hst⟩ := Result.map_fst_ok hst
    simp only [admits, Bool.or_eq_true, decide_eq_true_eq, Bool.not_eq_true', Bool.and_eq_false_imp] at hok
    rcases hok with hreplay | hstage
    · exact decideApproval_replayed hst hreplay ▸ h
    · exact h.decided hledger (decideApproval_ok hst) hstage
  | revise requestId context input =>
    obtain ⟨result,hst⟩ := Result.map_fst_ok hst
    rcases reviseApproval_ok hst with ⟨rfl,-⟩ | ⟨hfresh,row,r,hr⟩
    · exact h
    · simp only [admits, hfresh, Bool.or_eq_true, decide_eq_true_eq, Bool.not_eq_true'] at hok
      exact h.revised hledger hr (hok.resolve_left (by decide))
  | reopen requestId userId =>
    simp only [admits, Bool.not_eq_true'] at hok
    rcases reopenApprovalForResend_ok hst with ⟨rfl,-⟩ | ⟨row,r,-,hr⟩
    · exact h
    · exact h.revised hledger hr hok
  | read requestId viewerUserId =>
    obtain ⟨view,hst⟩ := Result.map_fst_ok hst
    simp only [admits, Bool.not_eq_true', Bool.and_eq_false_imp] at hok
    obtain ⟨row,hrow,rfl⟩ := getApproval_ok hst
    by_cases hexp : row.status = .pending ∧ row.expiresAt ≤ db.now
    · rw [if_pos hexp] at hledger ⊢
      exact h.expired hledger hrow hexp.1 (hok (by simp [overdue, hrow, hexp]))
    · rw [if_neg hexp]
      exact h
  | route requestId context input =>
    obtain ⟨result,hst⟩ := Result.map_fst_ok hst
    rcases routeApproval_ok hst with rfl | ⟨row,route,hr⟩
    · exact h
    · obtain ⟨commands,rfl⟩ := hr.changed
      exact h.congr hledger rfl rfl
  | directory next => cases hst; exact h.congr hledger rfl rfl
  | mail next => cases hst; exact h.congr hledger rfl rfl
  | tick elapsed => cases hst; exact h.congr hledger rfl rfl

theorem exists_engagedAt {stages : List String} (h : engagedAt db requestId stages = true) :
    ∃ e ∈ db.engagements, e.requestId = requestId ∧ e.stage ∈ stages := by
  obtain ⟨e,he,h⟩ := List.any_eq_true.mp h
  exact ⟨e,he,of_decide_eq_true h⟩

/-- An expiry under a pending stage leaves the two in contradiction. -/
theorem not_agree_markExpired (hstage : engagedAt db requestId pendingStages = true) :
    ¬EngagementsAgree (markExpired db requestId row) := by
  intro hagree
  obtain ⟨e,he,rfl,hs⟩ := exists_engagedAt hstage
  cases (hagree e he _ (Function.update_self ..)).pending hs

/-- So does a revision under a decided stage. -/
theorem Revised.not_agree {r : Resolution} (hr : Revised env db requestId row proposal r db')
    (hstage : engagedAt db requestId decidedStages = true) : ¬EngagementsAgree db' := by
  intro hagree
  obtain ⟨e,he,rfl,hs⟩ := exists_engagedAt hstage
  obtain ⟨reason,hreq⟩ := hr.requests
  have hnew : db'.requests e.requestId = some (nextRow env row proposal r reason) := by
    rw [hreq, Function.update_self]
  exact (hagree e (hr.engagements ▸ he) _ hnew).not_decided rfl hs

/-- A step after which every engagement agrees is an admitted one. -/
theorem Engaged.admitted {event : Event} (h : Engaged env db)
    (hst : Step (env.withOutreach contactMatches) db event db') (hagree : EngagementsAgree db') :
    admits (env.withOutreach contactMatches) db event = true := by
  unfold Step Applied apply at hst
  by_contra hno
  cases event with
  | decide requestId context input =>
    obtain ⟨result,hst⟩ := Result.map_fst_ok hst
    simp only [admits, Bool.or_eq_true, decide_eq_true_eq, Bool.not_eq_true', Bool.and_eq_false_imp,
      not_or, not_forall, Bool.not_eq_false] at hno
    obtain ⟨hfresh,hover,hstage⟩ := hno
    obtain ⟨row,hrow,hover⟩ := (Option.any_eq_true ..).mp hover
    obtain ⟨hp,hexp⟩ := of_decide_eq_true hover
    cases decideApproval_ok hst with
    | replayed hreplay => exact hfresh hreplay
    | expired => exact not_agree_markExpired hstage hagree
    | closed old reviewer step b | counted old reviewer step b | finalized old reviewer step f b =>
      cases hrow.symm.trans b.loaded
      exact absurd hexp (Nat.not_le_of_lt b.unexpired)
  | revise requestId context input =>
    obtain ⟨result,hst⟩ := Result.map_fst_ok hst
    simp only [admits, Bool.or_eq_true, decide_eq_true_eq, Bool.not_eq_true', not_or, Bool.not_eq_false] at hno
    rcases reviseApproval_ok hst with ⟨-,hreplay⟩ | ⟨-,row,r,hr⟩
    · exact hno.1 hreplay
    · exact hr.not_agree hno.2 hagree
  | reopen requestId userId =>
    simp only [admits, Bool.not_eq_true', Bool.not_eq_false] at hno
    rcases reopenApprovalForResend_ok hst with ⟨rfl,row,hrow,hp⟩ | ⟨row,r,-,hr⟩
    · obtain ⟨e,he,hid,hs⟩ := exists_engagedAt hno
      exact (h.own hrow he hid).agrees.not_decided hp hs
    · exact hr.not_agree hno hagree
  | read requestId viewerUserId =>
    obtain ⟨view,hst⟩ := Result.map_fst_ok hst
    simp only [admits, Bool.not_eq_true', Bool.and_eq_false_imp, not_forall, Bool.not_eq_false] at hno
    obtain ⟨hover,hstage⟩ := hno
    obtain ⟨row,hrow,rfl⟩ := getApproval_ok hst
    have hexp : row.status = .pending ∧ row.expiresAt ≤ db.now := by
      simpa [overdue, hrow] using hover
    rw [if_pos hexp] at hagree
    exact not_agree_markExpired hstage hagree
  | propose | route | directory | mail | tick => exact hno rfl

end Steps

/-- A run keeps every engagement with its approval after each operation exactly when nothing in it
expires under a pending stage and nothing is revised or reopened under a decided one. -/
theorem engagements_agree_iff {events : List Event} (h : Unengaged db) :
    Run (fun s event t => Step (env.withOutreach contactMatches) s event t ∧ EngagementsAgree t) db events db' ↔
      Run (Guarded (Step (env.withOutreach contactMatches)) fun s event =>
        admits (env.withOutreach contactMatches) s event = true) db events db' := by
  refine Run.guarded_iff h.engaged (fun s event t hs hst => ?_) fun s event t hs hst hok => hs.step hok hst
  exact ⟨hs.admitted hst,fun hok => (hs.step hok hst).agree⟩

section Sample

/-- The sample platform, where every contact matches its stored evidence. -/
def outreachPlatform : Platform := samplePlatform.withOutreach fun _ _ _ _ _ => .ok ()

/-- One Admin reviews the outreach drafts of agent 1. -/
def outreachDb : Db :=
  sampleDb (sampleDirectory ⟨[sampleMember 1 "admin" []],sampleAdmin_ids,sampleAdmin_users⟩
    ⟨⟨1,"partner-outreach-draft-1",1,.sequential,true,true,[⟨"s1","Review",0,[.role "admin" 1],1⟩]⟩,
      .communication,none,[],none,0,3600,true⟩ fun _ => none)

def outreachProposal : Event :=
  .propose ⟨1,none,none,none,none,none⟩
    ⟨"Label","partner-outreach-draft-1",⟨.communication ⟨.email,true,⟨1,"a@example.com"⟩,
      [⟨"B",none,some 7,[]⟩],none,"Hello",[],none⟩,[],false,.null⟩,[],[],[],[],none,"proposal-1"⟩

theorem unengaged_outreachDb : Unengaged outreachDb := ⟨initial_sampleDb _,rfl⟩

set_option maxRecDepth 8000 in
/-- The approved draft and its engagement agree all along. -/
theorem engagements_agree_sample :
    Run (fun s event t => Step outreachPlatform s event t ∧ EngagementsAgree t) outreachDb
      [outreachProposal, sampleVote 1 "vote-1"]
      (afterAll outreachPlatform outreachDb [outreachProposal, sampleVote 1 "vote-1"]) :=
  (engagements_agree_iff unengaged_outreachDb).mpr (run_admittedAll (by decide))

set_option maxRecDepth 8000 in
/-- A proposal nobody decided in time expires when it is read, and its engagement stays pending. -/
theorem not_engagements_agree : ¬∀ (env : Platform) (contactMatches : ContactCheck) (db db' : Db)
    (events : List Event), Unengaged db → Run (Step (env.withOutreach contactMatches)) db events db' →
      EngagementsAgree db' := by
  intro hclaim
  set final := afterAll outreachPlatform outreachDb [outreachProposal,.tick 3600001,.read 0 1] with hfinal
  have hagree : EngagementsAgree final := hclaim samplePlatform _ outreachDb final _ unengaged_outreachDb
    (run_afterAll (by decide))
  have hengaged : final.engagements = [⟨1,7,0,"draft_pending",none⟩] := by
    rw [hfinal]
    decide
  have hstatus : (final.requests 0).map ApprovalRow.status = some .expired := by
    rw [hfinal]
    decide
  obtain ⟨row,hrow,hexpired⟩ := Option.map_eq_some_iff.mp hstatus
  have hpending := (hagree ⟨1,7,0,"draft_pending",none⟩ (hengaged ▸ List.mem_singleton_self _) row hrow).pending
    (by decide)
  cases hexpired.symm.trans hpending

end Sample

end HermesEnterprise.Approvals
