import HermesEnterprise.Decisions.Presses

/-! # The decisions on file

Every reachable workspace has at most one decision for each request, moved exactly
the decided requests, and holds exactly the effects each decision plans. An approval
on file was written by a press that found its quorum.
-/
namespace HermesEnterprise.Decisions
open Approvals Foundation.CanonicalJson Foundation.Runs Foundation.Tables

variable {env : Environment} {w w' s : Workspace} {m : MemberRow} {row : RequestRow} {key : RouteKey}
variable {decision : Decision} {note : Option String} {answer : Answer} {requestId : RequestId}
variable {review : Review} {userId : UserId} {e : Event} {es : List Event}

/-- The kinds of the effects of one decision, in the order they were planned. -/
def effectsOf (w : Workspace) (decisionId : ℕ) : List EffectKind :=
  (w.effects.filter fun e => e.decisionId = decisionId).map (·.kind)

/-- A decision on file: its request has moved, and its effects are those it plans. -/
structure OnFile (w : Workspace) (d : DecisionRow) (r : RequestRow) : Prop where
  mem : r ∈ w.requests
  id : r.id = d.requestId
  status : r.status = d.resultingStatus
  moved : r.status ≠ .pending
  effects : effectsOf w d.id = plannedEffects r.kind d.decision

structure Recorded (w : Workspace) : Prop where
  members : (w.members.map (·.userId)).Nodup
  requestIds : (w.requests.map (·.id)).Nodup
  requestFresh : ∀ r ∈ w.requests, r.id < w.nextId
  decisionFresh : ∀ d ∈ w.decisions, d.id < w.nextId
  decisionIds : (w.decisions.map (·.id)).Nodup
  one : (w.decisions.map (·.requestId)).Nodup
  onFile : ∀ d ∈ w.decisions, ∃ r, OnFile w d r
  undecided : ∀ r ∈ w.requests, r.status ≠ .pending → ∃ d ∈ w.decisions, d.requestId = r.id
  effectIds : (w.effects.map (·.id)).Nodup
  effectFresh : ∀ x ∈ w.effects, x.id < w.nextId
  effects : ∀ x ∈ w.effects, ∃ d ∈ w.decisions, x.decisionId = d.id ∧ x.requestId = d.requestId

section Step

/-- The tables that the invariant reads. -/
structure SameRows (w w' : Workspace) : Prop where
  members : w'.members = w.members
  requests : w'.requests = w.requests
  decisions : w'.decisions = w.decisions
  effects : w'.effects = w.effects
  nextId : w'.nextId = w.nextId

theorem Recorded.congr (h : Recorded w) (hs : SameRows w w') : Recorded w' := by
  obtain ⟨hm,hr,hd,he,hn⟩ := hs
  obtain ⟨h₁,h₂,h₃,h₄,h₅,h₆,h₇,h₈,h₉,h₁₀,h₁₁⟩ := h
  refine ⟨hm ▸ h₁,hr ▸ h₂,hr ▸ hn ▸ h₃,hd ▸ hn ▸ h₄,hd ▸ h₅,hd ▸ h₆,?_,hr ▸ hd ▸ h₈,he ▸ h₉,
    he ▸ hn ▸ h₁₀,he ▸ hd ▸ h₁₁⟩
  rw [hd]
  intro d hd'
  obtain ⟨r,hr',hid,hst,hmv,hef⟩ := h₇ d hd'
  refine ⟨r,hr ▸ hr',hid,hst,hmv,?_⟩
  rw [← hef, effectsOf, effectsOf, he]

theorem sameRows_confirm (w : Workspace) (userId : UserId) (requestId : RequestId) :
    SameRows w (confirm w userId requestId) := by
  unfold confirm
  split <;> exact ⟨rfl,rfl,rfl,rfl,rfl⟩

theorem sameRows_pressed (w : Workspace) (decision : Decision) (userId : UserId)
    (requestId : RequestId) : SameRows w (pressed w decision userId requestId) := by
  unfold pressed
  split
  · exact sameRows_confirm w userId requestId
  · exact ⟨rfl,rfl,rfl,rfl,rfl⟩

theorem planEffects_kinds (w : Workspace) (row : RequestRow) (decision : Decision) (userId : UserId)
    (decisionId : ℕ) :
    (planEffects w row decision userId decisionId).map (·.kind) = plannedEffects row.kind decision := by
  unfold planEffects
  rw [List.map_map]
  exact List.zipIdx_map_fst 0 _

theorem mem_planEffects {x : EffectRow} {decisionId : ℕ}
    (h : x ∈ planEffects w row decision userId decisionId) :
    x.decisionId = decisionId ∧ x.requestId = row.id ∧ decisionId < x.id ∧
      x.id ≤ decisionId + (planEffects w row decision userId decisionId).length := by
  obtain ⟨⟨kind,i⟩,hi,rfl⟩ := List.mem_map.mp h
  have hlt : i < (plannedEffects row.kind decision).length := by
    simpa using List.snd_lt_of_mem_zipIdx hi
  refine ⟨rfl,rfl,?_,?_⟩
  · dsimp only [effectRow]
    omega
  · simp only [planEffects, List.length_map, List.length_zipIdx, effectRow]
    omega

theorem planEffects_nodup (w : Workspace) (row : RequestRow) (decision : Decision) (userId : UserId)
    (decisionId : ℕ) : ((planEffects w row decision userId decisionId).map (·.id)).Nodup := by
  have hids : (planEffects w row decision userId decisionId).map (·.id) =
      ((plannedEffects row.kind decision).zipIdx.map Prod.snd).map fun i => decisionId + 1 + i := by
    unfold planEffects
    rw [List.map_map, List.map_map]
    rfl
  rw [hids, List.zipIdx_map_snd]
  refine List.Nodup.map ?_ (List.nodup_range' ..)
  intro i j h
  dsimp only at h
  omega

theorem no_decision_of_existingDecision (h : existingDecision w requestId = none) :
    ∀ d ∈ w.decisions, d.requestId ≠ requestId := by
  intro d hd hid
  have hfind := List.find?_eq_none.mp (Option.map_eq_none_iff.mp h) d hd
  exact hfind (decide_eq_true hid)

/-- The effects of an older decision are not among those just planned. -/
theorem Wrote.effectsOf_old (hw : Wrote w row key decision userId note w') {id : ℕ}
    (hlt : id < w.nextId) : effectsOf w' id = effectsOf w id := by
  have hnil : (planEffects w row decision userId w.nextId).filter (fun x => x.decisionId = id) = [] := by
    apply List.filter_eq_nil_iff.mpr
    intro x hx
    have := (mem_planEffects hx).1
    have hne : x.decisionId ≠ id := by omega
    simp [hne]
  rw [effectsOf, effectsOf, hw.effects, List.filter_append, hnil, List.append_nil]

theorem Wrote.effectsOf_new (h : Recorded w) (hw : Wrote w row key decision userId note w') :
    effectsOf w' w.nextId = plannedEffects row.kind decision := by
  have hold : w.effects.filter (fun x => x.decisionId = w.nextId) = [] := by
    apply List.filter_eq_nil_iff.mpr
    intro x hx
    obtain ⟨d,hd,hid,-⟩ := h.effects x hx
    have := h.decisionFresh d hd
    have hne : x.decisionId ≠ w.nextId := by omega
    simp [hne]
  have hnew : (planEffects w row decision userId w.nextId).filter
      (fun x => x.decisionId = w.nextId) = planEffects w row decision userId w.nextId :=
    List.filter_eq_self.mpr fun x hx => decide_eq_true (mem_planEffects hx).1
  rw [effectsOf, hw.effects, List.filter_append, hold, hnew, List.nil_append, planEffects_kinds]

/-- A request after a decision is the moved one, another old one, or raised for it. -/
theorem Wrote.mem_requests (h : Recorded w) (hrow : row ∈ w.requests)
    (hw : Wrote w row key decision userId note w') {r : RequestRow} (hr : r ∈ w'.requests) :
    (r.id = row.id ∧ r.kind = row.kind ∧ r.status = resultingStatus key decision) ∨
    (r ∈ w.requests ∧ r.id ≠ row.id) ∨ (r.status = .pending ∧ w.nextId < r.id) := by
  obtain ⟨version,raised,hreq,-,hraised⟩ := hw.requests
  rw [hreq] at hr
  rcases List.mem_append.mp hr with hr | hr
  · rcases @mem_updateWhere_key _ _ _ _ _ _ RequestRow.id h.requestIds hrow _ hr with rfl | hold
    · exact Or.inl ⟨rfl,rfl,rfl⟩
    · exact Or.inr (Or.inl hold)
  · exact Or.inr (Or.inr ⟨(hraised r hr).1,(hraised r hr).2.1⟩)

theorem Wrote.requestIds (h : Recorded w) (hw : Wrote w row key decision userId note w') :
    (w'.requests.map (·.id)).Nodup ∧ ∀ r ∈ w'.requests, r.id < w'.nextId := by
  obtain ⟨version,raised,hreq,hn,hraised⟩ := hw.requests
  have hnext := hw.nextId
  have hmap : (updateWhere (fun r : RequestRow => r.id = row.id)
      (fun r => { r with status := resultingStatus key decision, version }) w.requests).map (·.id) =
      w.requests.map (·.id) := map_updateWhere _ fun _ _ _ => rfl
  have hold : ∀ i ∈ w.requests.map (·.id), i < w.nextId := by
    intro i hi
    obtain ⟨r,hr,rfl⟩ := List.mem_map.mp hi
    exact h.requestFresh r hr
  rw [hreq]
  constructor
  · rw [List.map_append, hmap]
    refine h.requestIds.append hn ?_
    intro i hi hi'
    obtain ⟨r,hr,rfl⟩ := List.mem_map.mp hi'
    exact absurd (hraised r hr).2.1 (Nat.lt_asymm (hold _ hi))
  · intro r hr
    rcases List.mem_append.mp hr with hr | hr
    · have hlt := hold r.id (hmap ▸ List.mem_map_of_mem hr)
      exact hlt.trans (by omega)
    · exact (hraised r hr).2.2.1

/-- Writing the decision of an undecided request keeps the file in order. -/
theorem Recorded.wrote (h : Recorded w) (hrow : row ∈ w.requests)
    (hnone : existingDecision w row.id = none) (hw : Wrote w row key decision userId note w') :
    Recorded w' := by
  have hnext := hw.nextId
  have hother := no_decision_of_existingDecision hnone
  obtain ⟨hids,hfresh⟩ := hw.requestIds h
  have hkept : ∀ r ∈ w.requests, r.id ≠ row.id → r ∈ w'.requests := by
    intro r hr hne
    obtain ⟨version,raised,hreq,-,-⟩ := hw.requests
    rw [hreq]
    exact List.mem_append_left _ (mem_updateWhere.mpr (Or.inr ⟨hr,decide_eq_false hne⟩))
  refine ⟨hw.members ▸ h.members,hids,hfresh,?_,?_,?_,?_,?_,?_,?_,?_⟩
  · rw [hw.decisions]
    intro d hd
    rcases List.mem_append.mp hd with hd | hd
    · have := h.decisionFresh d hd
      omega
    · cases List.mem_singleton.mp hd
      dsimp only
      omega
  · rw [hw.decisions]
    exact nodup_append_fresh h.decisionIds h.decisionFresh rfl
  · rw [hw.decisions, List.map_append, List.map_singleton]
    refine h.one.append (List.nodup_singleton _) ?_
    intro i hi hi'
    obtain ⟨d,hd,rfl⟩ := List.mem_map.mp hi
    exact hother d hd (List.mem_singleton.mp hi')
  · rw [hw.decisions]
    intro d hd
    rcases List.mem_append.mp hd with hd | hd
    · obtain ⟨r,hr⟩ := h.onFile d hd
      have hne : r.id ≠ row.id := hr.id ▸ hother d hd
      exact ⟨r,hkept r hr.mem hne,hr.id,hr.status,hr.moved,
        (hw.effectsOf_old (h.decisionFresh d hd)).trans hr.effects⟩
    · cases List.mem_singleton.mp hd
      obtain ⟨version,raised,hreq,-,-⟩ := hw.requests
      have heffects : effectsOf w' w.nextId = plannedEffects row.kind decision := hw.effectsOf_new h
      refine ⟨{ row with status := resultingStatus key decision, version },?_,rfl,rfl,
        resultingStatus_ne_pending key decision,heffects⟩
      rw [hreq]
      exact List.mem_append_left _ (mem_updateWhere.mpr (Or.inl ⟨row,hrow,decide_eq_true rfl,rfl⟩))
  · rw [hw.decisions]
    intro r hr hmoved
    rcases hw.mem_requests h hrow hr with ⟨hid,-,-⟩ | ⟨hr,-⟩ | ⟨hp,-⟩
    · exact ⟨_,List.mem_append_right _ (List.mem_singleton_self _),hid.symm⟩
    · obtain ⟨d,hd,hid⟩ := h.undecided r hr hmoved
      exact ⟨d,List.mem_append_left _ hd,hid⟩
    · exact absurd hp hmoved
  · rw [hw.effects, List.map_append]
    refine h.effectIds.append (planEffects_nodup ..) ?_
    intro i hi hi'
    obtain ⟨x,hx,rfl⟩ := List.mem_map.mp hi
    obtain ⟨y,hy,hxy⟩ := List.mem_map.mp hi'
    have := h.effectFresh x hx
    have := (mem_planEffects hy).2.2.1
    omega
  · rw [hw.effects]
    intro x hx
    rcases List.mem_append.mp hx with hx | hx
    · have := h.effectFresh x hx
      omega
    · have := (mem_planEffects hx).2.2.2
      omega
  · rw [hw.effects, hw.decisions]
    intro x hx
    rcases List.mem_append.mp hx with hx | hx
    · obtain ⟨d,hd,hid⟩ := h.effects x hx
      exact ⟨d,List.mem_append_left _ hd,hid⟩
    · obtain ⟨hd,hr,-⟩ := mem_planEffects hx
      exact ⟨_,List.mem_append_right _ (List.mem_singleton_self _),hd,hr⟩

/-- A press keeps the file in order, whatever it answers. -/
theorem Recorded.pressed (h : Recorded w) (hrow : row ∈ w.requests)
    (hp : Pressed w m decision note row w' answer) : Recorded w' := by
  cases hp with
  | decidedBefore => exact h
  | onFile => exact h.congr (sameRows_pressed ..)
  | waits =>
    obtain ⟨h₁,h₂,h₃,h₄,h₅⟩ := sameRows_confirm w m.userId row.id
    exact h.congr ⟨h₁,h₂,h₃,h₄,h₅⟩
  | writes key _ _ _ _ hnone _ hw =>
    have hs := sameRows_pressed w decision m.userId row.id
    refine (h.congr hs).wrote (hs.requests ▸ hrow) ?_ hw
    rwa [existingDecision_pressed]

theorem activeMember_spec (h : activeMember w userId = some m) :
    m ∈ w.members ∧ m.userId = userId ∧ m.status = .active := by
  unfold activeMember at h
  exact ⟨List.mem_of_find?_eq_some h,by simpa using List.find?_some h⟩

theorem createDecision_cases {recentSignIn : Bool}
    (h : createDecision env w decision note userId recentSignIn requestId review = .ok (w',answer)) :
    ∃ m row, activeMember w userId = some m ∧ m.userId = userId ∧ row ∈ w.requests ∧
      row.id = requestId ∧ Pressed w m decision note row w' answer := by
  unfold createDecision at h
  split at h
  · simp at h
  · rename_i m hm
    obtain ⟨_,-,h⟩ := Result.bind_eq_ok.mp h
    obtain ⟨_,-,h⟩ := Result.bind_eq_ok.mp h
    obtain ⟨row,hrow,hid,-,hp⟩ := recordDecision_cases h
    exact ⟨m,row,hm,(activeMember_spec hm).2.1,hrow,hid,hp⟩

theorem press_cases {recentSignIn : Bool}
    (h : Step env w (.press userId recentSignIn requestId decision note review) w') :
    ∃ m row answer, activeMember w userId = some m ∧ m.userId = userId ∧ row ∈ w.requests ∧
      row.id = requestId ∧ Pressed w m decision note row w' answer := by
  have h : (createDecision env w decision note userId recentSignIn requestId review).map Prod.fst =
      .ok w' := h
  cases hc : createDecision env w decision note userId recentSignIn requestId review with
  | error err => rw [hc] at h; cases h
  | ok x =>
    rw [hc] at h
    cases h
    obtain ⟨m,row,hpress⟩ := createDecision_cases hc
    exact ⟨m,row,x.2,hpress⟩

theorem putRoute_ok {rule : ApprovalRouteRule} {threshold : Option ApprovalThreshold}
    (h : Step env w (.putRoute userId key rule threshold) w') :
    ∃ loaded, w' = { w with routes := Function.update w.routes key loaded } := by
  obtain ⟨m,-,h⟩ := Result.bind_eq_ok.mp h
  unfold putApprovalRoute at h
  obtain ⟨_,-,h⟩ := Result.bind_eq_ok.mp h
  obtain ⟨_,-,h⟩ := Result.bind_eq_ok.mp h
  obtain ⟨_,-,h⟩ := Result.bind_eq_ok.mp h
  obtain ⟨_,-,h⟩ := Result.bind_eq_ok.mp h
  exact ⟨_,(Result.pure_eq_ok.mp h).symm⟩

theorem resetRoute_ok (h : Step env w (.resetRoute userId key) w') :
    w' = { w with routes := Function.update w.routes key ⟨defaultRule key,none⟩ } := by
  obtain ⟨m,-,h⟩ := Result.bind_eq_ok.mp h
  obtain ⟨_,-,h⟩ := Result.bind_eq_ok.mp h
  exact (Result.pure_eq_ok.mp h).symm

theorem members_ok {next : List MemberRow} (h : Step env w (.members next) w') :
    (next.map (·.userId)).Nodup ∧ w' = { w with members := next } := by
  obtain ⟨_,hn,h⟩ := Result.bind_eq_ok.mp h
  exact ⟨of_decide_eq_true (require_eq_ok.mp hn),(Result.pure_eq_ok.mp h).symm⟩

theorem Recorded.raised (h : Recorded w) (request : NewRequest) : Recorded (raiseRequest w request) := by
  obtain ⟨h₁,h₂,h₃,h₄,h₅,h₆,h₇,h₈,h₉,h₁₀,h₁₁⟩ := h
  refine ⟨h₁,?_,?_,fun d hd => Nat.lt_succ_of_lt (h₄ d hd),h₅,h₆,?_,?_,h₉,
    fun x hx => Nat.lt_succ_of_lt (h₁₀ x hx),h₁₁⟩
  · exact nodup_append_fresh h₂ h₃ rfl
  · intro r hr
    rcases List.mem_append.mp hr with hr | hr
    · exact Nat.lt_succ_of_lt (h₃ r hr)
    · cases List.mem_singleton.mp hr
      exact Nat.lt_succ_self _
  · intro d hd
    obtain ⟨r,hr,hid,hst,hmv,hef⟩ := h₇ d hd
    exact ⟨r,List.mem_append_left _ hr,hid,hst,hmv,hef⟩
  · intro r hr hmoved
    rcases List.mem_append.mp hr with hr | hr
    · exact h₈ r hr hmoved
    · cases List.mem_singleton.mp hr
      exact absurd rfl hmoved

/-- An edit keeps the id, the kind and the status of every request. -/
theorem Recorded.edited (h : Recorded w) (requestId : RequestId) (payload : Json) :
    Recorded { w with
      requests := updateWhere (fun r => r.id = requestId)
        (fun r => { r with payload, version := w.now }) w.requests } := by
  obtain ⟨h₁,h₂,h₃,h₄,h₅,h₆,h₇,h₈,h₉,h₁₀,h₁₁⟩ := h
  have hmem : ∀ r ∈ updateWhere (fun r : RequestRow => decide (r.id = requestId))
      (fun r => { r with payload, version := w.now }) w.requests,
      ∃ r' ∈ w.requests, r.id = r'.id ∧ r.status = r'.status := by
    intro r hr
    rcases mem_updateWhere.mp hr with ⟨r',hr',-,rfl⟩ | ⟨hr,-⟩
    · exact ⟨r',hr',rfl,rfl⟩
    · exact ⟨r,hr,rfl,rfl⟩
  refine ⟨h₁,?_,?_,h₄,h₅,h₆,?_,?_,h₉,h₁₀,h₁₁⟩
  · have hids : (updateWhere (fun r : RequestRow => r.id = requestId)
        (fun r => { r with payload, version := w.now }) w.requests).map (·.id) =
        w.requests.map (·.id) := map_updateWhere _ fun _ _ _ => rfl
    exact hids ▸ h₂
  · intro r hr
    obtain ⟨r',hr',hid,-⟩ := hmem r hr
    exact hid ▸ h₃ r' hr'
  · intro d hd
    obtain ⟨r,hr,hid,hst,hmv,hef⟩ := h₇ d hd
    by_cases hr' : r.id = requestId
    · exact ⟨_,mem_updateWhere.mpr (Or.inl ⟨r,hr,decide_eq_true hr',rfl⟩),hid,hst,hmv,hef⟩
    · exact ⟨r,mem_updateWhere.mpr (Or.inr ⟨hr,decide_eq_false hr'⟩),hid,hst,hmv,hef⟩
  · intro r hr hmoved
    obtain ⟨r',hr',hid,hst⟩ := hmem r hr
    exact hid ▸ h₈ r' hr' (hst ▸ hmoved)

theorem recorded_step (h : Recorded w) (hstep : Step env w e w') : Recorded w' := by
  cases e with
  | press =>
    obtain ⟨m,row,answer,-,-,hrow,-,hp⟩ := press_cases hstep
    exact h.pressed hrow hp
  | putRoute userId key rule threshold =>
    obtain ⟨_,rfl⟩ := putRoute_ok hstep
    exact h.congr ⟨rfl,rfl,rfl,rfl,rfl⟩
  | resetRoute userId key =>
    cases resetRoute_ok hstep
    exact h.congr ⟨rfl,rfl,rfl,rfl,rfl⟩
  | members next =>
    obtain ⟨hn,rfl⟩ := members_ok hstep
    obtain ⟨-,h₂,h₃,h₄,h₅,h₆,h₇,h₈,h₉,h₁₀,h₁₁⟩ := h
    refine ⟨hn,h₂,h₃,h₄,h₅,h₆,?_,h₈,h₉,h₁₀,h₁₁⟩
    intro d hd
    obtain ⟨r,hr,hid,hst,hmv,hef⟩ := h₇ d hd
    exact ⟨r,hr,hid,hst,hmv,hef⟩
  | raise request => cases hstep; exact h.raised request
  | edit requestId payload => cases hstep; exact h.edited requestId payload
  | handoff => cases hstep; exact h.congr ⟨rfl,rfl,rfl,rfl,rfl⟩
  | settings => cases hstep; exact h.congr ⟨rfl,rfl,rfl,rfl,rfl⟩
  | tick => cases hstep; exact h.congr ⟨rfl,rfl,rfl,rfl,rfl⟩

theorem recorded_initial (h : Initial w) : Recorded w := by
  obtain ⟨hm,-,hr,-,-,hd,he,-⟩ := h
  constructor
  · exact hm
  all_goals simp [hr, hd, he]

theorem recorded_run (hs : Initial s) (hrun : Run (Step env) s es w) : Recorded w :=
  hrun.invariant (recorded_initial hs) fun _ _ _ => recorded_step

theorem recorded_reachable (h : ReachableWorkspace env w) : Recorded w :=
  h.invariant (fun _ => recorded_initial) fun _ _ _ => recorded_step

end Step

section Origin

/-- Only a press that writes it brings a decision, under its own decider and request. -/
theorem decision_brought {d : DecisionRow} (hstep : Step env w e w') (hd : d ∉ w.decisions)
    (hd' : d ∈ w'.decisions) : ∃ recentSignIn review m row key,
      e = .press d.decidedBy recentSignIn d.requestId d.decision d.note review ∧
      activeMember w d.decidedBy = some m ∧ row ∈ w.requests ∧ row.id = d.requestId ∧
      row.kind.routeKey = some key ∧ (d.decision = .approve →
        progressComplete (decisionProgress (confirm w d.decidedBy d.requestId) key row m) = true) := by
  cases e with
  | press userId recentSignIn requestId decision note review =>
    obtain ⟨m,row,answer,hm,hu,hrow,hid,hp⟩ := press_cases hstep
    subst hu hid
    cases hp with
    | decidedBefore => exact absurd hd' hd
    | onFile => exact absurd ((sameRows_pressed ..).decisions ▸ hd') hd
    | waits => exact absurd ((sameRows_confirm ..).decisions ▸ hd') hd
    | writes key _ _ _ hkey _ hcomplete hw =>
      rw [hw.decisions, (sameRows_pressed ..).decisions] at hd'
      rcases List.mem_append.mp hd' with h | h
      · exact absurd h hd
      · cases List.mem_singleton.mp h
        exact ⟨recentSignIn,review,m,row,key,rfl,hm,hrow,rfl,hkey,hcomplete⟩
  | putRoute userId key rule threshold =>
    obtain ⟨_,rfl⟩ := putRoute_ok hstep
    exact absurd hd' hd
  | resetRoute userId key =>
    cases resetRoute_ok hstep
    exact absurd hd' hd
  | members next =>
    obtain ⟨-,rfl⟩ := members_ok hstep
    exact absurd hd' hd
  | _ => cases hstep; exact absurd hd' hd

/-- A press of its decider wrote this approval, and found its quorum then. -/
def WrittenWithQuorum (env : Environment) (s : Workspace) (es : List Event) (d : DecisionRow) : Prop :=
  ∃ before recentSignIn review later u v row key people,
    es = before ++ .press d.decidedBy recentSignIn d.requestId .approve d.note review :: later ∧
    Run (Step env) s before u ∧
    Step env u (.press d.decidedBy recentSignIn d.requestId .approve d.note review) v ∧
    d ∉ u.decisions ∧ d ∈ v.decisions ∧ row ∈ u.requests ∧ row.id = d.requestId ∧
    row.kind.routeKey = some key ∧
    Quorum (confirm u d.decidedBy d.requestId) row (ruleInForce u row key) people

theorem confirm_routes (w : Workspace) (userId : UserId) (requestId : RequestId) :
    (confirm w userId requestId).routes = w.routes := by
  unfold confirm
  split <;> rfl

theorem writtenWithQuorum (hs : Initial s) (hrun : Run (Step env) s es w) {d : DecisionRow}
    (hd : d ∈ w.decisions) (happ : d.decision = .approve) : WrittenWithQuorum env s es d := by
  have hnone : d ∉ s.decisions := hs.decisions ▸ List.not_mem_nil
  obtain ⟨before,e,later,u,v,rfl,hbefore,hstep,-,hu,hv⟩ :=
    hrun.brought (P := fun w => d ∈ w.decisions) hnone hd
  obtain ⟨recentSignIn,review,m,row,key,rfl,-,hrow,hid,hkey,hcomplete⟩ := decision_brought hstep hu hv
  obtain ⟨people,hquorum⟩ := quorum_of_complete (hcomplete happ)
  have hrule : ruleInForce (confirm u d.decidedBy d.requestId) row key = ruleInForce u row key := by
    unfold ruleInForce
    rw [confirm_routes]
  rw [hrule] at hquorum
  rw [happ] at hstep ⊢
  exact ⟨before,recentSignIn,review,later,u,v,row,key,people,rfl,hbefore,hstep,hu,hv,hrow,hid,hkey,
    hquorum⟩

/-- A press that waits is an approval, and leaves its confirmation and a notice. -/
theorem waits_of_pending {recentSignIn : Bool} {required recorded : ℕ}
    (h : createDecision env w decision note userId recentSignIn requestId review =
      .ok (w',.pending required recorded)) : decision = .approve ∧
    w' = { confirm w userId requestId with published := w.published ++ [.requestUpdated requestId] } := by
  obtain ⟨m,row,-,rfl,-,rfl,hp⟩ := createDecision_cases h
  cases hp with
  | waits _ _ happ => exact ⟨happ,rfl⟩

end Origin

/-- The decisions of a run: each approval was written by a press that found its quorum, no request has
two, exactly the decided requests have moved, a press that waits only confirms, and the effects are
those planned. -/
theorem decision_needs_quorum (hs : Initial s) (hrun : Run (Step env) s es w) :
    (∀ d ∈ w.decisions, d.decision = .approve → WrittenWithQuorum env s es d) ∧
    (w.decisions.map (·.requestId)).Nodup ∧
    (∀ r ∈ w.requests, r.status = .pending ↔ ∀ d ∈ w.decisions, d.requestId ≠ r.id) ∧
    (∀ decision note userId recentSignIn requestId review w' required recorded,
      createDecision env w decision note userId recentSignIn requestId review =
        .ok (w',.pending required recorded) → decision = .approve ∧
      w' = { confirm w userId requestId with
        published := w.published ++ [.requestUpdated requestId] }) ∧
    (∀ d ∈ w.decisions, ∃ r ∈ w.requests, r.id = d.requestId ∧
      effectsOf w d.id = plannedEffects r.kind d.decision) ∧
    (w.effects.map (·.id)).Nodup ∧
    ∀ x ∈ w.effects, ∃ d ∈ w.decisions, x.decisionId = d.id ∧ x.requestId = d.requestId := by
  have h := recorded_run hs hrun
  refine ⟨fun d hd happ => writtenWithQuorum hs hrun hd happ,h.one,?_,
    fun _ _ _ _ _ _ _ _ _ => waits_of_pending,?_,h.effectIds,h.effects⟩
  · intro r hr
    constructor
    · intro hp d hd hid
      obtain ⟨r',hr',hid',-,hmoved,-⟩ := h.onFile d hd
      have heq : r' = r := List.inj_on_of_nodup_map h.requestIds hr' hr (hid'.trans hid)
      exact hmoved (heq ▸ hp)
    · intro hnone
      by_contra hmoved
      obtain ⟨d,hd,hid⟩ := h.undecided r hr hmoved
      exact hnone d hd hid
  · intro d hd
    obtain ⟨r,hr,hid,-,-,heffects⟩ := h.onFile d hd
    exact ⟨r,hr,hid,heffects⟩

section Overlap

/-- Ada holds every role that the rule names. -/
def ada : MemberRow := ⟨1,1,"Ada","ada",.active,"admin",["finance","legal"]⟩

/-- Ben is an Admin. -/
def ben : MemberRow := ⟨2,2,"Ben","ben",.active,"admin",[]⟩

def overlapStart : Workspace :=
  ⟨0,[ada,ben],fun key => ⟨defaultRule key,none⟩,[],[],[],[],[],[],fun _ => none,[],false,none,
    "Hermes",[],10⟩

def overlapEnv : Environment := ⟨fun _ => "",fun _ => ""⟩

/-- Two approvals, with one from each of three groups. -/
def overlapRule : ApprovalRouteRule := ⟨true,["finance","legal"],2,true,true⟩

def overlapRun : List Event :=
  [.putRoute 1 .application overlapRule none,
    .raise ⟨.application,"Ada's partner",.object [],none,none,[],application_handed⟩,
    .press 1 true 10 .approve none .absent]

def overlapPress : Event := .press 2 true 10 .approve none .absent

def overlapBefore : Workspace := afterAll (apply overlapEnv) overlapStart overlapRun

def overlapAfter : Workspace := after (apply overlapEnv) overlapBefore overlapPress

theorem overlapStart_initial : Initial overlapStart :=
  ⟨by decide,fun _ => rfl,rfl,rfl,rfl,rfl,rfl,rfl⟩

theorem overlapRun_runs : Run (Step overlapEnv) overlapStart overlapRun overlapBefore :=
  run_afterAll (by decide)

theorem overlapPress_step : Step overlapEnv overlapBefore overlapPress overlapAfter :=
  step_after (by decide)

theorem overlapPress_quorum : ∃ d ∈ overlapAfter.decisions, d.decision = .approve ∧
    WrittenWithQuorum overlapEnv overlapStart (overlapRun ++ [overlapPress]) d := by
  obtain ⟨d,hd,happ⟩ : ∃ d ∈ overlapAfter.decisions, d.decision = .approve := by decide
  have hrun := overlapRun_runs.append (.single overlapPress_step)
  exact ⟨d,hd,happ,(decision_needs_quorum overlapStart_initial hrun).1 d hd happ⟩

/-- Each named group has a member of its own among these people. -/
def CoveredByDifferent (rule : ApprovalRouteRule) (people : List MemberRow) : Prop :=
  ∃ cover : Group → MemberRow,
    (∀ group ∈ groupsOf rule, cover group ∈ people ∧ inGroup (personOf (cover group)) group = true) ∧
    ∀ group ∈ groupsOf rule, ∀ other ∈ groupsOf rule, cover group = cover other → group = other

/-- Only Ada is in Finance or in Legal. -/
theorem overlap_ada {slug : String} (hslug : slug = "finance" ∨ slug = "legal") {m : MemberRow}
    (hm : m ∈ [ada,ben]) (hin : inGroup (personOf m) (.role slug) = true) : m = ada := by
  rcases List.mem_cons.mp hm with rfl | hm
  · rfl
  · cases List.mem_singleton.mp hm
    rcases hslug with rfl | rfl <;> exact absurd hin (by decide)

/-- Ben's press decides although no three people cover the three groups. -/
theorem overlap_decides : ∃ (env : Environment) (s u v : Workspace) (es : List Event) (e : Event)
    (d : DecisionRow) (row : RequestRow) (key : RouteKey), Initial s ∧ Run (Step env) s es u ∧
      Step env u e v ∧ d ∉ u.decisions ∧ d ∈ v.decisions ∧ d.decision = .approve ∧
      row ∈ u.requests ∧ row.id = d.requestId ∧ row.kind.routeKey = some key ∧
      (ruleInForce u row key).oneFromEach = true ∧
      ∀ people, Quorum (confirm u d.decidedBy d.requestId) row (ruleInForce u row key) people →
        ¬ CoveredByDifferent (ruleInForce u row key) people := by
  obtain ⟨row,hrow,hid,hkey,hrule⟩ : ∃ row ∈ overlapBefore.requests, row.id = 10 ∧
      row.kind.routeKey = some .application ∧ ruleInForce overlapBefore row .application = overlapRule := by
    decide
  refine ⟨overlapEnv,overlapStart,overlapBefore,overlapAfter,overlapRun,overlapPress,
    ⟨11,10,.approve,.admitted,2,none⟩,row,.application,overlapStart_initial,overlapRun_runs,
    overlapPress_step,by decide,by decide,rfl,hrow,hid,hkey,by rw [hrule]; rfl,?_⟩
  rw [hrule]
  rintro people hquorum ⟨cover,hcover,hdifferent⟩
  have hmembers : (confirm overlapBefore 2 10).members = [ada,ben] := by decide
  have hada : ∀ slug, slug = "finance" ∨ slug = "legal" → cover (.role slug) = ada := by
    intro slug hslug
    have hg : Group.role slug ∈ groupsOf overlapRule := by
      rcases hslug with rfl | rfl <;> decide
    obtain ⟨hmem,hin⟩ := hcover _ hg
    have hm := (hquorum.eligible _ hmem).mem
    exact overlap_ada hslug (hmembers ▸ hm) hin
  have heq := hdifferent (.role "finance") (by decide) (.role "legal") (by decide)
    ((hada _ (Or.inl rfl)).trans (hada _ (Or.inr rfl)).symm)
  exact absurd heq (by decide)

end Overlap
end HermesEnterprise.Decisions
