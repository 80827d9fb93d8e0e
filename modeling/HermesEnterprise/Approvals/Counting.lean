import HermesEnterprise.Approvals.Progress

/-! # What progress counts

Every counted reviewer cast an approving vote for that step and is eligible for
it now. Where reviewers vote once, the count is exactly those votes, whatever
their order.
-/
namespace HermesEnterprise.Approvals

variable {requesterMemberId : Option MemberId} {policy : ApprovalPolicy} {members : List MemberRow}
variable {votes : List VoteRow} {step : PolicyStep} {stepId : String} {m : MemberId}

theorem mem_orderedSteps : step ∈ orderedSteps policy ↔ step ∈ policy.steps :=
  List.mem_insertionSort _

theorem step_eq_of_id {s t : PolicyStep} (hs : s ∈ policy.steps) (ht : t ∈ policy.steps)
    (h : s.id = t.id) : s = t :=
  List.inj_on_of_nodup_map policy.valid.ids hs ht h

theorem find_orderedSteps : (orderedSteps policy).find? (fun s => s.id = stepId) = some step ↔
    step ∈ policy.steps ∧ step.id = stepId := by
  constructor
  · intro h
    exact ⟨mem_orderedSteps.mp (List.mem_of_find?_eq_some h),by simpa using List.find?_some h⟩
  · rintro ⟨hs,rfl⟩
    cases h : (orderedSteps policy).find? (fun s => s.id = step.id) with
    | none =>
      have hn := List.find?_eq_none.mp h step (mem_orderedSteps.mpr hs)
      simp at hn
    | some t =>
      have ht : t.id = step.id := by simpa using List.find?_some h
      rw [step_eq_of_id (mem_orderedSteps.mp (List.mem_of_find?_eq_some h)) hs ht]

/-- An approving vote of an eligible member for a step of the policy. -/
structure Approving (requesterMemberId : Option MemberId) (policy : ApprovalPolicy)
    (members : List MemberRow) (stepId : String) (vote : VoteRow) : Prop where
  approve : vote.decision = .approve
  step : vote.stepId = stepId
  eligible : ∃ s ∈ policy.steps, s.id = stepId ∧
    vote.reviewerMemberId ∈ eligibleIds requesterMemberId policy members s

/-- The tally holds only approving votes, and no reviewer twice. -/
structure TallyOf (requesterMemberId : Option MemberId) (policy : ApprovalPolicy)
    (members : List MemberRow) (votes : List VoteRow) (t : Tally) : Prop where
  sound : ∀ stepId, ∀ m ∈ t.validApprovals stepId, ∃ v ∈ votes, v.reviewerMemberId = m ∧
    Approving requesterMemberId policy members stepId v
  used : ∀ m, m ∈ t.usedReviewerIds ↔ ∃ stepId, m ∈ t.validApprovals stepId
  once : ∀ s t', ∀ m, m ∈ t.validApprovals s → m ∈ t.validApprovals t' → s = t'

theorem countVotes_append (vote : VoteRow) :
    countVotes requesterMemberId policy members (votes ++ [vote]) =
      countVote requesterMemberId policy members
        (countVotes requesterMemberId policy members votes) vote := by
  simp [countVotes]

/-- One vote is counted exactly when it approves and its reviewer is not counted yet. -/
theorem countVote_cases (t : Tally) (vote : VoteRow) :
    (countVote requesterMemberId policy members t vote = t ∧
      (Approving requesterMemberId policy members vote.stepId vote →
        vote.reviewerMemberId ∈ t.usedReviewerIds)) ∨
    (Approving requesterMemberId policy members vote.stepId vote ∧
      vote.reviewerMemberId ∉ t.usedReviewerIds ∧
      countVote requesterMemberId policy members t vote =
        ⟨Function.update t.validApprovals vote.stepId
            (insert vote.reviewerMemberId (t.validApprovals vote.stepId)),
          insert vote.reviewerMemberId t.usedReviewerIds⟩) := by
  unfold countVote
  by_cases hd : vote.decision = .approve
  · rw [if_neg (not_not.mpr hd)]
    cases hf : (orderedSteps policy).find? (fun s => s.id = vote.stepId) with
    | none =>
      refine Or.inl ⟨rfl,fun h => ?_⟩
      obtain ⟨s,hs,hid,_⟩ := h.eligible
      rw [find_orderedSteps.mpr ⟨hs,hid⟩] at hf
      cases hf
    | some s =>
      obtain ⟨hs,hid⟩ := find_orderedSteps.mp hf
      dsimp only
      split
      next hc =>
        refine Or.inr ⟨⟨hd,rfl,s,hs,hid,hc.1⟩,fun hu => hc.2 ⟨policy.valid.distinct,hu⟩,?_⟩
        rw [hid]
      next hc =>
        refine Or.inl ⟨rfl,fun h => ?_⟩
        obtain ⟨s',hs',hid',he⟩ := h.eligible
        rw [step_eq_of_id hs' hs (hid'.trans hid.symm)] at he
        by_contra hu
        exact hc ⟨he,fun h => hu h.2⟩
  · rw [if_pos hd]
    exact Or.inl ⟨rfl,fun h => absurd h.approve hd⟩

theorem tallyOf_countVotes : TallyOf requesterMemberId policy members votes
    (countVotes requesterMemberId policy members votes) := by
  induction votes using List.reverseRecOn with
  | nil => exact ⟨by simp [countVotes],by simp [countVotes],by simp [countVotes]⟩
  | append_singleton votes vote ih =>
    rw [countVotes_append]
    rcases countVote_cases (countVotes requesterMemberId policy members votes) vote with
      ⟨h,-⟩ | ⟨ha,hu,h⟩
    · rw [h]
      refine ⟨fun s m hm => ?_,ih.used,ih.once⟩
      obtain ⟨v,hv,hvm⟩ := ih.sound s m hm
      exact ⟨v,List.mem_append_left _ hv,hvm⟩
    · rw [h]
      have hmem : ∀ s m, m ∈ Function.update
          (countVotes requesterMemberId policy members votes).validApprovals vote.stepId
          (insert vote.reviewerMemberId
            ((countVotes requesterMemberId policy members votes).validApprovals vote.stepId)) s ↔
          (s = vote.stepId ∧ m = vote.reviewerMemberId) ∨
            m ∈ (countVotes requesterMemberId policy members votes).validApprovals s := by
        intro s m
        by_cases hs : s = vote.stepId
        · subst hs
          simp
        · simp [hs]
      refine ⟨fun s m hm => ?_,fun m => ?_,fun s t m hs ht => ?_⟩
      · rcases (hmem s m).mp hm with ⟨rfl,rfl⟩ | hm
        · exact ⟨vote,by simp,rfl,ha⟩
        · obtain ⟨v,hv,hvm⟩ := ih.sound s m hm
          exact ⟨v,List.mem_append_left _ hv,hvm⟩
      · simp only [Finset.mem_insert, hmem, ih.used]
        constructor
        · rintro (rfl | ⟨s,hs⟩)
          · exact ⟨vote.stepId,Or.inl ⟨rfl,rfl⟩⟩
          · exact ⟨s,Or.inr hs⟩
        · rintro ⟨s,⟨-,rfl⟩ | hs⟩
          · exact Or.inl rfl
          · exact Or.inr ⟨s,hs⟩
      · have hnew : ∀ s, vote.reviewerMemberId ∉
            (countVotes requesterMemberId policy members votes).validApprovals s :=
          fun s hs => hu ((ih.used _).mpr ⟨s,hs⟩)
        rcases (hmem s m).mp hs with ⟨hs,hm⟩ | hs <;> rcases (hmem t m).mp ht with ⟨ht,hm'⟩ | ht
        · exact hs.trans ht.symm
        · exact absurd (hm ▸ ht) (hnew t)
        · exact absurd (hm' ▸ hs) (hnew s)
        · exact ih.once s t m hs ht

end HermesEnterprise.Approvals
