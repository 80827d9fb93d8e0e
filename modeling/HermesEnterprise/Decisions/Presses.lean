import HermesEnterprise.Decisions.Quorum

/-! # What a press can do

An accepted press answers with the decision on file, records a confirmation and
waits, or writes the decision of a request that had none.
-/
namespace HermesEnterprise.Decisions
open Approvals Foundation.CanonicalJson Foundation.Runs Foundation.Tables

variable {env : Environment} {w w' : Workspace} {m : MemberRow} {row : RequestRow} {key : RouteKey}
variable {decision : Decision} {note : Option String} {answer : Answer} {requestId : RequestId}
variable {review : Review} {userId : UserId} {counted : List UserId}

theorem resultingStatus_ne_pending (key : RouteKey) (decision : Decision) :
    resultingStatus key decision ≠ .pending := by
  cases key <;> cases decision <;> exact RequestStatus.noConfusion

/-- The rows of `w` with the decision of a request written, and no other decision or effect. -/
structure Wrote (w : Workspace) (row : RequestRow) (key : RouteKey) (decision : Decision)
    (userId : UserId) (note : Option String) (w' : Workspace) : Prop where
  members : w'.members = w.members
  routes : w'.routes = w.routes
  confirmations : w'.confirmations = w.confirmations
  decisions : w'.decisions = w.decisions ++
    [⟨w.nextId,row.id,decision,resultingStatus key decision,userId,note⟩]
  effects : w'.effects = w.effects ++ planEffects w row decision userId w.nextId
  requests : ∃ version, ∃ raised : List RequestRow, w'.requests =
    updateWhere (fun r => r.id = row.id)
      (fun r => { r with status := resultingStatus key decision, version }) w.requests ++ raised ∧
    (raised.map (·.id)).Nodup ∧
    ∀ r ∈ raised, r.status = .pending ∧ w.nextId < r.id ∧ r.id < w'.nextId ∧
      ∃ u, (r.id,u) ∈ w'.audiences
  audiences : w.audiences ⊆ w'.audiences
  nextId : w.nextId + (planEffects w row decision userId w.nextId).length < w'.nextId

section Writing

theorem wrote_writeDecision : Wrote w row key decision m.userId note
    (writeDecision w row decision m.userId key note).1 where
  members := rfl
  routes := rfl
  confirmations := rfl
  decisions := rfl
  effects := rfl
  requests := ⟨w.now,[],(List.append_nil _).symm,List.nodup_nil,fun _ h => by cases h⟩
  audiences := List.Subset.refl _
  nextId := by
    dsimp only [writeDecision]
    omega

theorem audiences_addOwner (w : Workspace) (id : RequestId) (principal : UserId) :
    w.audiences ⊆ (addOwner w id principal).audiences ∧
    (id,principal) ∈ (addOwner w id principal).audiences := by
  unfold addOwner
  dsimp only
  split
  · rename_i h
    exact ⟨List.Subset.refl _,h⟩
  · exact ⟨List.subset_append_left _ _,List.mem_append_right _ (List.mem_singleton_self _)⟩

theorem Wrote.owner (h : Wrote w row key decision userId note w') (id : RequestId)
    (principal : UserId) : Wrote w row key decision userId note (addOwner w' id principal) := by
  obtain ⟨version,raised,hreq,hn,hraised⟩ := h.requests
  have hsub := (audiences_addOwner w' id principal).1
  refine ⟨h.members,h.routes,h.confirmations,h.decisions,h.effects,⟨version,raised,hreq,hn,?_⟩,
    fun _ hu => hsub (h.audiences hu),h.nextId⟩
  intro r hr
  obtain ⟨hst,hlt,hlt',u,hu⟩ := hraised r hr
  exact ⟨hst,hlt,hlt',u,hsub hu⟩

theorem addAgreement_spec (w : Workspace) (row : RequestRow) :
    (addAgreement w row).nextId = w.nextId + 1 ∧ ∃ r : RequestRow,
      (addAgreement w row).requests = w.requests ++ [r] ∧ r.id = w.nextId ∧ r.status = .pending :=
  ⟨rfl,_,rfl,rfl,rfl⟩

theorem Wrote.agreement (h : Wrote w row key decision userId note w') (principal : UserId) :
    Wrote w row key decision userId note (addOwner (addAgreement w' row) w'.nextId principal) := by
  obtain ⟨version,raised,hreq,hn,hraised⟩ := h.requests
  obtain ⟨hnext',r,hr,hid,hs⟩ := addAgreement_spec w' row
  obtain ⟨hsub,howner⟩ := audiences_addOwner (addAgreement w' row) w'.nextId principal
  have hnext := h.nextId
  refine ⟨h.members,h.routes,h.confirmations,h.decisions,h.effects,?_,fun _ hu => hsub (h.audiences hu),?_⟩
  · refine ⟨version,raised ++ [r],(hr.trans (by rw [hreq, List.append_assoc]) :
      (addAgreement w' row).requests = _),?_,?_⟩
    · exact nodup_append_fresh hn (fun s hs => (hraised s hs).2.2.1) hid
    · intro s hs'
      rcases List.mem_append.mp hs' with hs' | hs'
      · obtain ⟨hst,hlt,hlt',u,hu⟩ := hraised s hs'
        exact ⟨hst,hlt,hnext' ▸ Nat.lt_succ_of_lt hlt',u,hsub hu⟩
      · cases List.mem_singleton.mp hs'
        have hlt : w.nextId < w'.nextId := by omega
        have hlt' : r.id < w'.nextId + 1 := Nat.lt_succ_of_le hid.le
        exact ⟨hs,hid ▸ hlt,hnext' ▸ hlt',principal,hid ▸ howner⟩
  · show w.nextId + _ < (addAgreement w' row).nextId
    omega

theorem Wrote.prepareContractorAgreement (h : Wrote w row key decision userId note w') :
    Wrote w row key decision userId note (prepareContractorAgreement w' row) := by
  unfold Decisions.prepareContractorAgreement
  split
  · split
    · exact h
    · split
      · exact h.owner _ _
      · exact h.agreement _
  · exact h

theorem Wrote.consumeHandoff (h : Wrote w row key decision userId note w') {handoffId decisionId : ℕ}
    {evidence : HandoffEvidence} {x : Workspace}
    (hx : consumeHandoff w' row decision handoffId evidence decisionId = .ok x) :
    Wrote w row key decision userId note x := by
  unfold Decisions.consumeHandoff at hx
  obtain ⟨_,-,hx⟩ := Result.bind_eq_ok.mp hx
  cases Result.pure_eq_ok.mp hx
  exact ⟨h.members,h.routes,h.confirmations,h.decisions,h.effects,h.requests,h.audiences,h.nextId⟩

theorem Wrote.followDecision (h : Wrote w row key decision userId note w') {decisionId : ℕ}
    {binding : Option (ℕ × HandoffEvidence)} {x : Workspace}
    (hx : followDecision w' decision row decisionId binding = .ok x) :
    Wrote w row key decision userId note x := by
  have hprepared : Wrote w row key decision userId note
      (if decision = .approve ∧ row.kind = .application then
        Decisions.prepareContractorAgreement w' row else w') := by
    split
    · exact h.prepareContractorAgreement
    · exact h
  unfold Decisions.followDecision at hx
  cases binding with
  | none =>
    cases hx
    exact hprepared
  | some b => exact hprepared.consumeHandoff hx

end Writing

/-- The workspace in which a press is counted: an approval is a confirmation first. -/
def pressed (w : Workspace) (decision : Decision) (userId : UserId) (requestId : RequestId) :
    Workspace :=
  if decision = .approve then confirm w userId requestId else w

/-- An accepted press on a request. -/
inductive Pressed (w : Workspace) (m : MemberRow) (decision : Decision) (note : Option String)
    (row : RequestRow) : Workspace → Answer → Prop
  | decidedBefore (outcome : DecisionOutcome) : row.status ≠ .pending →
      existingDecision w row.id = some outcome → Pressed w m decision note row w (.decided outcome)
  | onFile (outcome : DecisionOutcome) : existingDecision w row.id = some outcome →
      Pressed w m decision note row (pressed w decision m.userId row.id) (.decided outcome)
  | waits (key : RouteKey) : row.status = .pending → decision = .approve →
      row.kind.routeKey = some key →
      progressComplete (decisionProgress (confirm w m.userId row.id) key row m) = false →
      Pressed w m decision note row
        { confirm w m.userId row.id with published := w.published ++ [.requestUpdated row.id] }
        (.pending (decisionProgress (confirm w m.userId row.id) key row m).required
          (decisionProgress (confirm w m.userId row.id) key row m).recorded)
  | writes (key : RouteKey) (w' : Workspace) (outcome : DecisionOutcome) : row.status = .pending →
      row.kind.routeKey = some key → existingDecision w row.id = none →
      (decision = .approve →
        progressComplete (decisionProgress (confirm w m.userId row.id) key row m) = true) →
      Wrote (pressed w decision m.userId row.id) row key decision m.userId note w' →
      Pressed w m decision note row w' (.decided outcome)

section Inversion

theorem confirm_published (w : Workspace) (userId : UserId) (requestId : RequestId) :
    (confirm w userId requestId).published = w.published := by
  unfold confirm
  split <;> rfl

theorem existingDecision_pressed (w : Workspace) (decision : Decision) (userId : UserId)
    (requestId id : RequestId) :
    existingDecision (pressed w decision userId requestId) id = existingDecision w id := by
  unfold pressed confirm
  split
  · split <;> rfl
  · rfl

/-- The rows of a complete press: the decision on file, or a decision written. -/
theorem finishDecision_cases (h : finishDecision w m decision note row key counted = .ok (w',answer)) :
    (∃ outcome, existingDecision w row.id = some outcome ∧ w' = w ∧ answer = .decided outcome) ∨
    (∃ outcome, existingDecision w row.id = none ∧ answer = .decided outcome ∧
      Wrote w row key decision m.userId note w') := by
  unfold finishDecision at h
  obtain ⟨binding,-,h⟩ := Result.bind_eq_ok.mp h
  cases hex : existingDecision w row.id with
  | some already =>
    rw [hex] at h
    cases Result.pure_eq_ok.mp h
    exact Or.inl ⟨already,rfl,rfl,rfl⟩
  | none =>
    rw [hex] at h
    obtain ⟨x,hx,h⟩ := Result.bind_eq_ok.mp h
    cases Result.pure_eq_ok.mp h
    exact Or.inr ⟨_,rfl,rfl,wrote_writeDecision.followDecision hx⟩

/-- What a press in `recordDecision` did, on the row it locked. -/
theorem recordDecision_cases
    (h : recordDecision env w m decision note requestId review = .ok (w',answer)) :
    ∃ row ∈ w.requests, row.id = requestId ∧ inAudience w requestId m.userId = true ∧
      Pressed w m decision note row w' answer := by
  unfold recordDecision at h
  split at h
  · simp at h
  · rename_i row hfind
    have hrow := List.mem_of_find?_eq_some hfind
    have hkey : row.id = requestId ∧ inAudience w row.id m.userId = true := by
      simpa using List.find?_some hfind
    obtain ⟨rfl,haud⟩ := hkey
    refine ⟨row,hrow,rfl,haud,?_⟩
    split at h
    · rename_i hpending
      split at h
      · rename_i already hex
        cases h
        exact .decidedBefore already hpending hex
      · simp at h
    · rename_i hpending
      have hp : row.status = .pending := not_not.mp hpending
      split at h
      · simp at h
      · simp at h
      · rename_i key hkey _
        obtain ⟨_,-,h⟩ := Result.bind_eq_ok.mp h
        split at h
        · rename_i happ
          subst happ
          unfold approveOrWait at h
          dsimp only at h
          split at h
          · rename_i hcomplete
            have hpressed : pressed w .approve m.userId row.id = confirm w m.userId row.id := rfl
            rw [← hpressed] at h
            rcases finishDecision_cases h with ⟨o,hex,rfl,rfl⟩ | ⟨o,hex,rfl,hw⟩
            · rw [existingDecision_pressed] at hex
              exact .onFile o hex
            · rw [existingDecision_pressed] at hex
              exact .writes key w' o hp hkey hex (fun _ => hcomplete) hw
          · rename_i hcomplete
            cases h
            rw [confirm_published]
            exact .waits key hp rfl hkey (by simpa using hcomplete)
        · rename_i happ
          have hpressed : pressed w decision m.userId row.id = w := if_neg happ
          rw [← hpressed] at h
          rcases finishDecision_cases h with ⟨o,hex,rfl,rfl⟩ | ⟨o,hex,rfl,hw⟩
          · rw [existingDecision_pressed] at hex
            exact .onFile o hex
          · rw [existingDecision_pressed] at hex
            exact .writes key w' o hp hkey hex (fun h => absurd h happ) hw

end Inversion

end HermesEnterprise.Decisions
