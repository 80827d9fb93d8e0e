import HermesEnterprise.Decisions.Recorded

/-! # Nobody who may approve is turned away

An eligible reader who has not confirmed sees the request as theirs, and the press is
taken: it waits, or it decides. The guard of a governed partner invoice is the one
exception.
-/
namespace HermesEnterprise.Decisions
open Approvals Foundation.CanonicalJson Foundation.Runs Foundation.Tables

variable {env : Environment} {w w' s : Workspace} {m : MemberRow} {row : RequestRow} {key : RouteKey}
variable {decision : Decision} {note : Option String} {answer : Answer} {requestId : RequestId}
variable {review : Review} {userId : UserId} {counted : List UserId} {e : Event}

section HandedOver

/-- Every handoff request has its readers on file. -/
def HandedOver (w : Workspace) : Prop :=
  ∀ r ∈ w.requests, financeWorkflowRequest (r.routable none) = true → ∃ u, (r.id,u) ∈ w.audiences

theorem HandedOver.congr (h : HandedOver w) (hr : w'.requests = w.requests)
    (ha : w.audiences ⊆ w'.audiences) : HandedOver w' := by
  intro r hmem hf
  obtain ⟨u,hu⟩ := h r (hr ▸ hmem) hf
  exact ⟨u,ha hu⟩

theorem HandedOver.wrote (h : HandedOver w) (hw : Wrote w row key decision userId note w') :
    HandedOver w' := by
  intro r hr hf
  obtain ⟨version,raised,hreq,-,hraised⟩ := hw.requests
  rw [hreq] at hr
  rcases List.mem_append.mp hr with hr | hr
  · rcases mem_updateWhere.mp hr with ⟨r',hr',-,rfl⟩ | ⟨hr,-⟩
    · obtain ⟨u,hu⟩ := h r' hr' hf
      exact ⟨u,hw.audiences hu⟩
    · obtain ⟨u,hu⟩ := h r hr hf
      exact ⟨u,hw.audiences hu⟩
  · exact (hraised r hr).2.2.2

theorem confirm_frame (w : Workspace) (userId : UserId) (requestId : RequestId) :
    (confirm w userId requestId).requests = w.requests ∧
    (confirm w userId requestId).audiences = w.audiences := by
  unfold confirm
  split <;> exact ⟨rfl,rfl⟩

theorem HandedOver.confirm (h : HandedOver w) (userId : UserId) (requestId : RequestId) :
    HandedOver (confirm w userId requestId) := by
  obtain ⟨hr,ha⟩ := confirm_frame w userId requestId
  exact h.congr hr (ha ▸ List.Subset.refl _)

theorem HandedOver.pressed (h : HandedOver w) (decision : Decision) (userId : UserId)
    (requestId : RequestId) : HandedOver (pressed w decision userId requestId) := by
  unfold Decisions.pressed
  split
  · exact h.confirm userId requestId
  · exact h

end HandedOver

section Shown
variable {rule : ApprovalRouteRule}

end Shown

section Taken

theorem HandoffEvidence.authorized {h : HandoffEvidence} (hc : h.current = true) :
    h.authorizationStatus = "authorized" := by
  simp only [HandoffEvidence.current, Bool.and_eq_true, decide_eq_true_eq] at hc
  tauto

theorem activeMember_eq (hn : (w.members.map (·.userId)).Nodup) (hm : m ∈ w.members)
    (ha : m.status = .active) : activeMember w m.userId = some m := by
  cases hfind : activeMember w m.userId with
  | none => exact absurd (decide_eq_true ⟨rfl,ha⟩) (List.find?_eq_none.mp hfind m hm)
  | some x =>
    obtain ⟨hx,hid,-⟩ := activeMember_spec hfind
    rw [List.inj_on_of_nodup_map hn hx hm hid]

theorem confirmations_subset (w : Workspace) (userId : UserId) (requestId : RequestId) :
    w.confirmations ⊆ (confirm w userId requestId).confirmations := by
  unfold confirm
  split
  · exact List.Subset.refl _
  · exact List.subset_append_left _ _

theorem confirm_members (w : Workspace) (userId : UserId) (requestId : RequestId) :
    (confirm w userId requestId).members = w.members ∧
    (confirm w userId requestId).executions = w.executions := by
  unfold confirm
  split <;> exact ⟨rfl,rfl⟩

/-- A confirmation takes nobody out of a quorum. -/
theorem Quorum.confirm {rule : ApprovalRouteRule} {people : List MemberRow} (h : Quorum w row rule people)
    (userId : UserId) (requestId : RequestId) :
    Quorum (confirm w userId requestId) row rule people := by
  obtain ⟨hd,hen,hel,hc,hcov⟩ := h
  refine ⟨hd,hen,fun m hm => ?_,fun m hm => confirmations_subset _ _ _ (hc m hm),hcov⟩
  obtain ⟨hmem,hactive,hreads,hother,hnamed⟩ := hel m hm
  refine ⟨(confirm_members w userId requestId).1 ▸ hmem,hactive,?_,hother,hnamed⟩
  unfold inAudience
  rw [(confirm_frame w userId requestId).2]
  exact hreads

end Taken
section Witness

end Witness

section Governed

end Governed
end HermesEnterprise.Decisions
