import HermesEnterprise.Decisions.Effects

/-! # An effect is carried out by its quorum, once

An accepted press of an effect answers with what is on file, records a confirmation and waits, or writes the
outcome. From the three cases follow who takes an effect out of its waiting state, and that nothing puts it back.
-/
namespace HermesEnterprise.Decisions.Effects
open Approvals Foundation.CanonicalJson Foundation.Runs Foundation.Tables

variable {env : Environment} {l l' : Ledger} {effect : EffectRow} {m : MemberRow} {userId : UserId}
variable {effectId : EffectId} {view : EffectView} {recentSignIn : Bool} {e : Event}

section Frames

/-- A ledger that differs in its confirmations and notices alone. -/
structure SameBut (l l' : Ledger) : Prop where
  workspace : l'.workspace = l.workspace
  custody : l'.custody = l.custody
  statuses : l'.statuses = l.statuses
  executedBy : l'.executedBy = l.executedBy

theorem sameBut_confirm (l : Ledger) (effectId : EffectId) (userId : UserId) :
    SameBut l (confirm l effectId userId) := by
  unfold confirm
  split <;> exact ⟨rfl,rfl,rfl,rfl⟩

theorem confirmations_subset (l : Ledger) (effectId : EffectId) (userId : UserId) :
    l.confirmations ⊆ (confirm l effectId userId).confirmations := by
  unfold confirm
  split
  · exact List.Subset.refl _
  · exact List.subset_append_left _ _

theorem effectRule_congr (h : l'.workspace = l.workspace) (effect : EffectRow) :
    effectRule l' effect = effectRule l effect := by
  unfold effectRule
  rw [h]

theorem decisionApprovers_congr (h : l'.workspace = l.workspace) (effect : EffectRow) :
    decisionApprovers l' effect = decisionApprovers l effect := by
  unfold decisionApprovers
  rw [h]

theorem Eligible.congr {rule : ApprovalRouteRule} (h : Eligible l effect rule m)
    (hw : l'.workspace = l.workspace) : Eligible l' effect rule m := by
  obtain ⟨hmem,hactive,hnamed,hother⟩ := h
  exact ⟨hw ▸ hmem,hactive,hnamed,fun hr => decisionApprovers_congr hw effect ▸ hother hr⟩

/-- More confirmations take nobody out of a quorum. -/
theorem Quorum.congr {rule : ApprovalRouteRule} {people : List MemberRow} (h : Quorum l effect rule people)
    (hw : l'.workspace = l.workspace) (hc : l.confirmations ⊆ l'.confirmations) :
    Quorum l' effect rule people := by
  obtain ⟨hdistinct,henough,heligible,hconfirmed,hcovered⟩ := h
  exact ⟨hdistinct,henough,fun m hm => (heligible m hm).congr hw,fun m hm => hc (hconfirmed m hm),hcovered⟩

end Frames

section Counting

/-- The members whose confirmations of an effect count. -/
def countedPeople (l : Ledger) (effect : EffectRow) : List ApproverPerson :=
  (firstOfEach (standing (confirmers l effect))).filter (mayCarryOut l effect (effectRule l effect).rule)

theorem effectProgress_eq : effectProgress l effect userId =
    ⟨(effectRule l effect).rule.approvalsRequired,(countedPeople l effect).length,
      (countedPeople l effect).any fun p => p.userId = userId,
      covers (effectRule l effect).rule (countedPeople l effect),
      (countedPeople l effect).map (·.userId)⟩ := rfl

theorem mem_standing {p : ApproverPerson} : p ∈ standing (confirmers l effect) ↔
    ∃ m, l.workspace.members.find? (fun x => decide (x.userId = p.userId)) = some m ∧ m.status = .active ∧
      ⟨effect.id,p.userId⟩ ∈ l.confirmations ∧ p = personOf m := by
  simp only [standing, confirmers, List.mem_map, List.mem_filter]
  constructor
  · rintro ⟨c,⟨⟨d,⟨hd,hdr⟩,rfl⟩,hc⟩,rfl⟩
    have hdr' : d.effectId = effect.id := of_decide_eq_true hdr
    cases hm : l.workspace.members.find? fun x => decide (x.userId = d.userId) with
    | none => simp [confirmerOf, hm] at hc
    | some m =>
      have hmu : m.userId = d.userId := by simpa using List.find?_some hm
      simp only [confirmerOf, hm, Option.any_some, Option.map_some, Option.isSome_some, Bool.and_true,
        decide_eq_true_eq] at hc
      obtain ⟨i,u⟩ := d
      dsimp only at hdr' hmu hm
      subst hdr'
      refine ⟨m,hm,hc,hd,?_⟩
      simp [confirmerOf, hm, personOf, hmu]
  · rintro ⟨m,hm,ha,hc,rfl⟩
    have hm' : l.workspace.members.find? (fun x => decide (x.userId = m.userId)) = some m := hm
    refine ⟨{ confirmerOf l.workspace ⟨effect.requestId,m.userId⟩ with inAudience := true },
      ⟨⟨_,⟨hc,by simp⟩,rfl⟩,?_⟩,?_⟩
    · simp [confirmerOf, hm', ha]
    · simp [confirmerOf, hm', personOf]

theorem mayCarryOut_iff {rule : ApprovalRouteRule} {p : ApproverPerson} : mayCarryOut l effect rule p = true ↔
    mayApprove rule p = true ∧ (rule.allowRequester = false → p.userId ∉ decisionApprovers l effect) := by
  unfold mayCarryOut
  rw [Bool.and_eq_true, Bool.or_eq_true, decide_eq_true_eq]
  cases rule.allowRequester <;> simp

theorem mem_countedPeople {p : ApproverPerson} (h : p ∈ countedPeople l effect) :
    ∃ m, Eligible l effect (effectRule l effect).rule m ∧ p = personOf m ∧
      ⟨effect.id,m.userId⟩ ∈ l.confirmations := by
  obtain ⟨hp,he⟩ := List.mem_filter.mp h
  obtain ⟨m,hm,ha,hc,rfl⟩ := mem_standing.mp (mem_firstOfEach hp)
  obtain ⟨hn,ho⟩ := mayCarryOut_iff.mp he
  exact ⟨m,⟨List.mem_of_find?_eq_some hm,ha,hn,ho⟩,rfl,hc⟩

theorem quorum_of_complete (h : progressComplete (effectProgress l effect userId) = true) :
    ∃ people, Quorum l effect (effectRule l effect).rule people := by
  rw [effectProgress_eq] at h
  simp only [progressComplete, Bool.and_eq_true, decide_eq_true_eq] at h
  obtain ⟨members,hdistinct,hmany,hmem,hgroups⟩ := exists_enough
    (P := fun m => Eligible l effect (effectRule l effect).rule m ∧ ⟨effect.id,m.userId⟩ ∈ l.confirmations)
    ((firstOfEach_nodup _).sublist (List.filter_sublist.map _))
    (fun p hp => by
      obtain ⟨m,he,hpm,hc⟩ := mem_countedPeople hp
      exact ⟨m,⟨he,hc⟩,hpm⟩) h.1 h.2
  exact ⟨members,hdistinct,hmany,fun m hm => (hmem m hm).1,fun m hm => (hmem m hm).2,hgroups⟩

theorem countedPeople_of_eligible (hn : (l.workspace.members.map (·.userId)).Nodup)
    (h : Eligible l effect (effectRule l effect).rule m) (hc : ⟨effect.id,m.userId⟩ ∈ l.confirmations) :
    personOf m ∈ countedPeople l effect := by
  have hfind := member_of_find? hn h.mem
  have hstanding : personOf m ∈ standing (confirmers l effect) :=
    mem_standing.mpr ⟨m,hfind,h.active,hc,rfl⟩
  have hfirst := mem_firstOfEach_personOf hfind (fun q hq => by
    obtain ⟨m',hm',-,-,hq'⟩ := mem_standing.mp hq
    exact ⟨m',hm',hq'⟩) hstanding
  exact List.mem_filter.mpr ⟨hfirst,mayCarryOut_iff.mpr ⟨h.named,h.other⟩⟩

theorem complete_of_quorum (hn : (l.workspace.members.map (·.userId)).Nodup) {people : List MemberRow}
    (h : Quorum l effect (effectRule l effect).rule people) :
    progressComplete (effectProgress l effect userId) = true := by
  have hmem : ∀ m ∈ people, personOf m ∈ countedPeople l effect := fun m hm =>
    countedPeople_of_eligible hn (h.eligible m hm) (h.confirmed m hm)
  rw [effectProgress_eq]
  simp only [progressComplete, Bool.and_eq_true, decide_eq_true_eq]
  exact ⟨h.enough.trans (length_le_counted h.distinct hmem),covers_counted hmem h.covered⟩

end Counting

section Inversion

/-- Whether a press finds the effect answered. -/
def EffectStatus.answered (status : EffectStatus) : Bool :=
  status = .cancelled ∨ status = .unavailable ∨ status = .simulated

/-- Who may press an effect, and sees it. -/
structure Admitted (l : Ledger) (m : MemberRow) (effect : EffectRow) : Prop where
  mem : effect ∈ l.workspace.effects
  reads : inAudience l.workspace effect.requestId m.userId = true
  unguarded : ¬ (effect.kind = .payment ∧ l.custody = true)
  eligible : Eligible l effect (effectRule l effect).rule m

/-- The ledger a press writes its outcome in. -/
def pressed (l : Ledger) (effect : EffectRow) (userId : UserId) : Ledger :=
  if counted (effectRule l effect).rule then confirm l effect.id userId else l

/-- An accepted press of an effect. -/
inductive Pressed (env : Environment) (l : Ledger) (effect : EffectRow) (userId : UserId) : Ledger → Prop
  | onFile : l.statuses effect.id = .unavailable ∨ l.statuses effect.id = .simulated →
      Pressed env l effect userId l
  | waits : (l.statuses effect.id).answered = false → counted (effectRule l effect).rule = true →
      Pressed env l effect userId
        { confirm l effect.id userId with
          published := (confirm l effect.id userId).published ++ [effect.id] }
  | carriedOut : (l.statuses effect.id).answered = false → (counted (effectRule l effect).rule = true →
        progressComplete (effectProgress (confirm l effect.id userId) effect userId) = true) →
      Pressed env l effect userId (carryOut env (pressed l effect userId) effect userId)

theorem sameBut_pressed (l : Ledger) (effect : EffectRow) (userId : UserId) :
    SameBut l (pressed l effect userId) := by
  unfold pressed
  split
  · exact sameBut_confirm l effect.id userId
  · exact ⟨rfl,rfl,rfl,rfl⟩

theorem pressEffect_cases (hopen : (l.statuses effect.id).answered = false) :
    Pressed env l effect userId (pressEffect env l effect userId).1 := by
  unfold pressEffect
  dsimp only
  by_cases hcounted : counted (effectRule l effect).rule = true
  · have hpressed : confirm l effect.id userId = pressed l effect userId := by
      unfold pressed
      rw [if_pos hcounted]
    rw [if_pos hcounted]
    by_cases hcomplete : progressComplete (effectProgress (confirm l effect.id userId) effect userId) = true
    · rw [if_pos hcomplete, hpressed]
      exact .carriedOut hopen fun _ => hcomplete
    · rw [if_neg hcomplete]
      exact .waits hopen hcounted
  · have hpressed : pressed l effect userId = l := by
      unfold pressed
      rw [if_neg hcounted]
    rw [if_neg hcounted]
    have hcases : Pressed env l effect userId (carryOut env (pressed l effect userId) effect userId) :=
      .carriedOut hopen fun h => absurd h hcounted
    rwa [hpressed] at hcases

theorem loadEffect_some (h : loadEffect l effectId userId = some effect) :
    effect ∈ l.workspace.effects ∧ effect.id = effectId ∧
      inAudience l.workspace effect.requestId userId = true := by
  have hspec : effect.id = effectId ∧ inAudience l.workspace effect.requestId userId = true := by
    simpa using List.find?_some h
  exact ⟨List.mem_of_find?_eq_some h,hspec⟩

theorem requireEffectApprover_ok {u : Unit} : requireEffectApprover env l effect m = .ok u ↔
    mayApprove (effectRule l effect).rule (personOf m) = true ∧
    ((effectRule l effect).rule.allowRequester = false → m.userId ∉ decisionApprovers l effect) := by
  unfold requireEffectApprover
  simp only [Result.bind_eq_ok, require_eq_ok, Bool.or_eq_true, decide_eq_true_eq, exists_and_left,
    exists_const]
  refine and_congr Iff.rfl ?_
  cases (effectRule l effect).rule.allowRequester <;> simp

theorem asMember_ok {w : Workspace} (h : asMember w userId = .ok m) :
    m ∈ w.members ∧ m.userId = userId ∧ m.status = .active := by
  unfold asMember at h
  cases hfind : activeMember w userId with
  | none => simp [hfind] at h
  | some x =>
    simp only [hfind] at h
    cases h
    exact activeMember_spec hfind

/-- A press that is accepted comes from a member who may carry out the effect. -/
theorem executeEffect_cases (h : executeEffect env l userId recentSignIn effectId = .ok (l',view)) :
    ∃ m effect, m.userId = userId ∧ effect.id = effectId ∧ recentSignIn = true ∧ Admitted l m effect ∧
      Pressed env l effect userId l' := by
  obtain ⟨m,hm,hm'⟩ := Result.bind_eq_ok.mp h
  obtain ⟨_,hrecent,hfound⟩ := Result.bind_eq_ok.mp hm'
  have hrecent : recentSignIn = true := require_eq_ok.mp hrecent
  obtain ⟨hmem,hid,hactive⟩ := asMember_ok hm
  cases hload : loadEffect l effectId userId with
  | none => simp [hload] at hfound
  | some effect =>
    obtain ⟨heffect,rfl,hreads⟩ := loadEffect_some hload
    simp only [hload] at hfound
    by_cases hguarded : effect.kind = .payment ∧ l.custody = true
    · rw [if_pos hguarded] at hfound
      simp [walletPaymentPermissionRequired] at hfound
    · rw [if_neg hguarded] at hfound
      obtain ⟨_,happrover,hpress⟩ := Result.bind_eq_ok.mp hfound
      obtain ⟨hnamed,hother⟩ := requireEffectApprover_ok.mp happrover
      refine ⟨m,effect,hid,rfl,hrecent,
        ⟨heffect,hid ▸ hreads,hguarded,⟨hmem,hactive,hnamed,hother⟩⟩,?_⟩
      cases hstatus : l.statuses effect.id with
      | cancelled => simp [hstatus] at hpress
      | unavailable =>
        simp only [hstatus] at hpress
        cases Result.pure_eq_ok.mp hpress
        exact .onFile (Or.inl hstatus)
      | simulated =>
        simp only [hstatus] at hpress
        cases Result.pure_eq_ok.mp hpress
        exact .onFile (Or.inr hstatus)
      | _ =>
        simp only [hstatus] at hpress
        have hl : (pressEffect env l effect userId).1 = l' :=
          congrArg Prod.fst (Result.pure_eq_ok.mp hpress)
        exact hl ▸ pressEffect_cases (by rw [hstatus]; rfl)

theorem press_cases (h : Step env l (.press userId recentSignIn effectId) l') :
    ∃ m effect, m.userId = userId ∧ effect.id = effectId ∧ recentSignIn = true ∧ Admitted l m effect ∧
      Pressed env l effect userId l' := by
  have h : (executeEffect env l userId recentSignIn effectId).map Prod.fst = .ok l' := h
  cases hx : executeEffect env l userId recentSignIn effectId with
  | error err => rw [hx] at h; cases h
  | ok x =>
    rw [hx] at h
    cases h
    exact executeEffect_cases hx

theorem workspace_ok {x : Decisions.Event} (h : Step env l (.workspace x) l') :
    ∃ w, Decisions.Step env.decisions l.workspace x w ∧ l' = { l with workspace := w } := by
  have h : (Decisions.apply env.decisions l.workspace x).map (fun w => { l with workspace := w }) = .ok l' := h
  cases hw : Decisions.apply env.decisions l.workspace x with
  | error err => rw [hw] at h; cases h
  | ok w =>
    rw [hw] at h
    cases h
    exact ⟨w,hw,rfl⟩

end Inversion

section Kept

/-- What no step takes away: the workspace is one that decisions lead to, and no executor did the work. -/
structure Kept (env : Environment) (l : Ledger) : Prop where
  workspace : ReachableWorkspace env.decisions l.workspace
  honest : ∀ id, l.statuses id ≠ .executed ∧ l.statuses id ≠ .failed

theorem Kept.congr (h : Kept env l) (hw : l'.workspace = l.workspace) (hs : l'.statuses = l.statuses) :
    Kept env l' := ⟨hw ▸ h.workspace,hs ▸ h.honest⟩

/-- An effect is answered once it no longer waits. -/
theorem Kept.answered (h : Kept env l) {id : EffectId} (hs : (l.statuses id).waiting = false) :
    (l.statuses id).answered = true := by
  obtain ⟨hexecuted,hfailed⟩ := h.honest id
  cases hstatus : l.statuses id with
  | pending => rw [hstatus] at hs; cases hs
  | assigned => rw [hstatus] at hs; cases hs
  | executed => exact absurd hstatus hexecuted
  | failed => exact absurd hstatus hfailed
  | _ => rfl

theorem effectExecutorMode_cases (env : Environment) :
    effectExecutorMode env = .unavailable ∨ effectExecutorMode env = .simulated := by
  unfold effectExecutorMode
  cases env.production <;> cases env.simulated <;> simp

theorem Kept.pressed (h : Kept env l) (hp : Pressed env l effect userId l') : Kept env l' := by
  cases hp with
  | onFile => exact h
  | waits =>
    have hsame := sameBut_confirm l effect.id userId
    exact h.congr hsame.workspace hsame.statuses
  | carriedOut =>
    have hsame := sameBut_pressed l effect userId
    refine ⟨hsame.workspace ▸ h.workspace,fun id => ?_⟩
    by_cases hid : id = effect.id
    · subst hid
      simp only [carryOut, Function.update_self]
      rcases effectExecutorMode_cases env with hmode | hmode <;> simp [hmode]
    · simp only [carryOut, Function.update_of_ne hid, hsame.statuses]
      exact h.honest id

theorem kept_step (h : Kept env l) (hstep : Step env l e l') : Kept env l' := by
  cases e with
  | press =>
    obtain ⟨m,effect,-,-,-,-,hp⟩ := press_cases hstep
    exact h.pressed hp
  | workspace x =>
    obtain ⟨w,hw,rfl⟩ := workspace_ok hstep
    exact ⟨h.workspace.tail hw,h.honest⟩
  | version requestId =>
    cases hstep
    refine ⟨h.workspace,fun id => ?_⟩
    dsimp only [cancelByVersion]
    split
    · exact ⟨EffectStatus.noConfusion,EffectStatus.noConfusion⟩
    · exact h.honest id
  | custody => cases hstep; exact h.congr rfl rfl

theorem kept_reachable (h : ReachableLedger env l) : Kept env l := by
  refine h.invariant ?_ fun _ _ _ => kept_step
  intro s hs
  refine ⟨⟨s.workspace,[],hs.workspace,.nil _⟩,fun id => ?_⟩
  rw [hs.statuses id]
  exact ⟨EffectStatus.noConfusion,EffectStatus.noConfusion⟩

end Kept

section Leaving

/-- The outcome of the attempt is on file, under this person. -/
structure CarriedOut (env : Environment) (l : Ledger) (effect : EffectRow) (userId : UserId) : Prop where
  status : l.statuses effect.id = effectExecutorMode env
  executedBy : l.executedBy effect.id = some userId

/-- The rule is for one person, who presses without a confirmation. -/
structure ForOne (rule : ApprovalRouteRule) : Prop where
  one : rule.approvalsRequired ≤ 1
  anyone : rule.oneFromEach = false

/-- How an effect leaves its waiting state: a later version cancels it, or a member who may carry it out
presses it, alone under a rule for one, and else with the quorum on file. -/
inductive Left (env : Environment) (l : Ledger) (effect : EffectRow) (l' : Ledger) : Event → Prop
  | cancelled : l'.statuses effect.id = .cancelled → Left env l effect l' (.version effect.requestId)
  | alone (m : MemberRow) : Admitted l m effect → ForOne (effectRule l effect).rule →
      CarriedOut env l' effect m.userId → l'.confirmations = l.confirmations →
      Left env l effect l' (.press m.userId true effect.id)
  | together (m : MemberRow) (people : List MemberRow) : Admitted l m effect →
      Quorum l' effect (effectRule l effect).rule people → CarriedOut env l' effect m.userId →
      l'.confirmations = (confirm l effect.id m.userId).confirmations →
      Left env l effect l' (.press m.userId true effect.id)

theorem counted_eq_false {rule : ApprovalRouteRule} : counted rule = false ↔ ForOne rule := by
  unfold counted
  rw [Bool.or_eq_false_iff, decide_eq_false_iff_not, not_lt]
  exact ⟨fun h => ⟨h.1,h.2⟩,fun h => ⟨h.one,h.anyone⟩⟩

theorem carriedOut_carryOut (env : Environment) (l : Ledger) (effect : EffectRow) (userId : UserId) :
    CarriedOut env (carryOut env l effect userId) effect userId :=
  ⟨Function.update_self ..,Function.update_self ..⟩

theorem answered_of_waiting {status : EffectStatus} (h : status.waiting = true) : status.answered = false := by
  cases status <;> first | rfl | cases h

/-- A press touches no other effect. -/
theorem Pressed.other (hp : Pressed env l effect userId l') {id : EffectId} (hne : id ≠ effect.id) :
    l'.statuses id = l.statuses id := by
  cases hp with
  | onFile => rfl
  | waits => exact congrFun (sameBut_confirm l effect.id userId).statuses id
  | carriedOut =>
    simp only [carryOut, Function.update_of_ne hne, (sameBut_pressed l effect userId).statuses]

/-- A press of an effect that no longer waits changes nothing. -/
theorem Pressed.settled (hp : Pressed env l effect userId l')
    (hanswered : (l.statuses effect.id).answered = true) : l' = l := by
  cases hp with
  | onFile => rfl
  | waits hopen | carriedOut hopen =>
    rw [hopen] at hanswered
    cases hanswered

/-- An effect that no longer waits stays as it is. -/
theorem settled_step (hk : Kept env l) {id : EffectId} (hs : (l.statuses id).waiting = false)
    (hstep : Step env l e l') : l'.statuses id = l.statuses id := by
  have hanswered := hk.answered hs
  cases e with
  | press =>
    obtain ⟨m,effect,-,-,-,-,hp⟩ := press_cases hstep
    by_cases hid : id = effect.id
    · rw [hp.settled (hid ▸ hanswered)]
    · exact hp.other hid
  | workspace x =>
    obtain ⟨w,-,rfl⟩ := workspace_ok hstep
    rfl
  | version requestId =>
    cases hstep
    simp [cancelByVersion, hs]
  | custody => cases hstep; rfl

theorem settled_run {es : List Event} (hk : Kept env l) {id : EffectId}
    (hs : (l.statuses id).waiting = false) (hrun : Run (Step env) l es l') :
    l'.statuses id = l.statuses id := by
  induction hrun with
  | nil => rfl
  | cons hstep _ ih =>
    have hsame := settled_step hk hs hstep
    rw [ih (kept_step hk hstep) (hsame ▸ hs), hsame]

/-- A press that takes an effect out of its waiting state. -/
theorem left_pressed (ha : Admitted l m effect) (hs : (l.statuses effect.id).waiting = true)
    (hs' : (l'.statuses effect.id).waiting = false) (hp : Pressed env l effect m.userId l') :
    Left env l effect l' (.press m.userId true effect.id) := by
  cases hp with
  | onFile => rw [hs] at hs'; cases hs'
  | waits =>
    have hsame : (confirm l effect.id m.userId).statuses = l.statuses := (sameBut_confirm ..).statuses
    dsimp only at hs'
    rw [hsame, hs] at hs'
    cases hs'
  | carriedOut _ hcomplete =>
    by_cases hcounted : counted (effectRule l effect).rule = true
    · have hpressed : pressed l effect m.userId = confirm l effect.id m.userId := if_pos hcounted
      have hw : (confirm l effect.id m.userId).workspace = l.workspace := (sameBut_confirm ..).workspace
      obtain ⟨people,hquorum⟩ := quorum_of_complete (hcomplete hcounted)
      rw [effectRule_congr hw] at hquorum
      rw [hpressed]
      exact .together m people ha (hquorum.congr rfl (List.Subset.refl _)) (carriedOut_carryOut ..) rfl
    · have hpressed : pressed l effect m.userId = l := if_neg hcounted
      rw [hpressed]
      exact .alone m ha (counted_eq_false.mp (by simpa using hcounted)) (carriedOut_carryOut ..) rfl

theorem left_step {id : EffectId} (hs : (l.statuses id).waiting = true)
    (hs' : (l'.statuses id).waiting = false) (hstep : Step env l e l') :
    ∃ effect ∈ l.workspace.effects, effect.id = id ∧ Left env l effect l' e := by
  cases e with
  | press userId recentSignIn effectId =>
    obtain ⟨m,effect,rfl,rfl,rfl,ha,hp⟩ := press_cases hstep
    have hid : effect.id = id := by
      by_contra hne
      rw [hp.other (Ne.symm hne), hs] at hs'
      cases hs'
    subst hid
    exact ⟨effect,ha.mem,rfl,left_pressed ha hs hs' hp⟩
  | workspace x =>
    obtain ⟨w,-,rfl⟩ := workspace_ok hstep
    rw [hs] at hs'
    cases hs'
  | version requestId =>
    cases hstep
    dsimp only [cancelByVersion] at hs'
    split at hs'
    · rename_i hcancel
      obtain ⟨effect,heffect,hkey⟩ := List.any_eq_true.mp (Bool.and_eq_true_iff.mp hcancel).1
      simp only [Bool.and_eq_true, decide_eq_true_eq] at hkey
      obtain ⟨rfl,rfl⟩ := hkey
      refine ⟨effect,heffect,rfl,.cancelled ?_⟩
      simp only [cancelByVersion, if_pos hcancel]
    · rw [hs] at hs'
      cases hs'
  | custody =>
    cases hstep
    rw [hs] at hs'
    cases hs'

end Leaving

section Taken

/-- Both bands of a rule ask for someone. -/
structure Asks (loaded : LoadedRoute) : Prop where
  rule : 1 ≤ loaded.rule.approvalsRequired
  threshold : ∀ t, loaded.threshold = some t → 1 ≤ t.rule.approvalsRequired

theorem Asks.routedRule {loaded : LoadedRoute} (h : Asks loaded) (amount : Option Amount) :
    1 ≤ (routedRule loaded amount).rule.approvalsRequired := by
  obtain ⟨hrule,hthreshold⟩ := h
  unfold Decisions.routedRule effectiveRule
  dsimp only
  split
  · rename_i t _ ht
    split
    · exact hthreshold t ht
    · split
      · exact hthreshold t ht
      · exact hrule
  · exact hrule

theorem requireRule_asks {rule : ApprovalRouteRule} {u : Unit} (h : requireRule rule = .ok u) :
    1 ≤ rule.approvalsRequired := by
  obtain ⟨_,hshape,-⟩ := Result.bind_eq_ok.mp h
  have hshape := require_eq_ok.mp hshape
  simp only [decide_eq_true_eq] at hshape
  exact hshape.1

theorem putApprovalRoute_asks {w w' : Workspace} {key : RouteKey} {rule : ApprovalRouteRule}
    {threshold : Option ApprovalThreshold} (h : putApprovalRoute w m key rule threshold = .ok w') :
    ∃ loaded, Asks loaded ∧ w' = { w with routes := Function.update w.routes key loaded } := by
  unfold putApprovalRoute at h
  obtain ⟨_,-,h⟩ := Result.bind_eq_ok.mp h
  obtain ⟨_,-,h⟩ := Result.bind_eq_ok.mp h
  obtain ⟨_,hrule,h⟩ := Result.bind_eq_ok.mp h
  obtain ⟨_,hbands,h⟩ := Result.bind_eq_ok.mp h
  have hone : 1 ≤ rule.approvalsRequired := requireRule_asks hrule
  refine ⟨_,⟨hone,?_⟩,(Result.pure_eq_ok.mp h).symm⟩
  intro t ht
  obtain ⟨t',rfl,rfl⟩ := Option.map_eq_some_iff.mp ht
  have hband : 1 ≤ t'.rule.approvalsRequired :=
    requireRule_asks (Result.forM_eq_ok.mp hbands t'.rule (by simp))
  exact hband

theorem asks_default (key : RouteKey) : Asks ⟨defaultRule key,none⟩ :=
  ⟨by cases key <;> decide,fun _ h => by cases h⟩

theorem pressed_routes (w : Workspace) (decision : Decision) (userId : UserId) (requestId : RequestId) :
    (Decisions.pressed w decision userId requestId).routes = w.routes := by
  unfold Decisions.pressed
  split
  · exact confirm_routes w userId requestId
  · rfl

/-- Every rule in force asks for someone. -/
theorem asks_reachable {env : Decisions.Environment} {w : Workspace} (h : ReachableWorkspace env w) :
    ∀ key, Asks (w.routes key) := by
  refine h.invariant (fun s hs key => hs.routes key ▸ asks_default key) ?_
  intro s e t hasks hstep key
  have hupdate : ∀ key' loaded, Asks loaded → Asks (Function.update s.routes key' loaded key) := by
    intro key' loaded hloaded
    by_cases hkey : key = key'
    · subst hkey
      rwa [Function.update_self]
    · rw [Function.update_of_ne hkey]
      exact hasks key
  cases e with
  | press =>
    obtain ⟨m,row,answer,-,-,-,-,hp⟩ := Decisions.press_cases hstep
    have hroutes : t.routes = s.routes := by
      cases hp with
      | decidedBefore => rfl
      | onFile => exact pressed_routes ..
      | waits => exact confirm_routes ..
      | writes _ _ _ _ _ _ _ hw => rw [hw.routes, pressed_routes]
    exact hroutes ▸ hasks key
  | putRoute =>
    obtain ⟨m,-,hput⟩ := Result.bind_eq_ok.mp hstep
    obtain ⟨loaded,hloaded,rfl⟩ := putApprovalRoute_asks hput
    exact hupdate _ _ hloaded
  | resetRoute =>
    cases resetRoute_ok hstep
    exact hupdate _ _ (asks_default _)
  | members next =>
    obtain ⟨-,rfl⟩ := members_ok hstep
    exact hasks key
  | _ => cases hstep; exact hasks key

theorem loadEffect_eq (hn : (l.workspace.effects.map (·.id)).Nodup) (hmem : effect ∈ l.workspace.effects)
    (hreads : inAudience l.workspace effect.requestId userId = true) :
    loadEffect l effect.id userId = some effect := by
  have hfind := find?_key hn hmem
  unfold loadEffect
  rw [List.find?_eq_some_iff_append] at hfind ⊢
  obtain ⟨-,before,after,heq,hbefore⟩ := hfind
  refine ⟨by simp [hreads],before,after,heq,fun x hx => ?_⟩
  have hne := hbefore x hx
  simp only [Bool.not_eq_true', decide_eq_false_iff_not] at hne
  simp [hne]

/-- The press of someone who may carry the effect out comes to its count. -/
theorem executeEffect_admitted (hr : Recorded l.workspace) (ha : Admitted l m effect)
    (hs : (l.statuses effect.id).waiting = true) :
    executeEffect env l m.userId true effect.id = .ok (pressEffect env l effect m.userId) := by
  have hactive := activeMember_eq hr.members ha.eligible.mem ha.eligible.active
  have hmember : asMember l.workspace m.userId = .ok m := by
    unfold asMember
    rw [hactive]
  have happrover : requireEffectApprover env l effect m = .ok () :=
    requireEffectApprover_ok.mpr ⟨ha.eligible.named,ha.eligible.other⟩
  unfold executeEffect
  refine Result.bind_eq_ok.mpr ⟨m,hmember,Result.bind_eq_ok.mpr ⟨(),rfl,?_⟩⟩
  rw [loadEffect_eq hr.effectIds ha.mem ha.reads]
  dsimp only
  rw [if_neg ha.unguarded]
  refine Result.bind_eq_ok.mpr ⟨(),happrover,?_⟩
  cases hstatus : l.statuses effect.id with
  | pending => rfl
  | assigned => rfl
  | _ => rw [hstatus] at hs; cases hs

/-- Under a rule for one, and once a quorum is on file, whoever may carry the effect out does. -/
theorem pressEffect_carriedOut (hn : (l.workspace.members.map (·.userId)).Nodup)
    (h : ForOne (effectRule l effect).rule ∨ ∃ people, Quorum l effect (effectRule l effect).rule people) :
    CarriedOut env (pressEffect env l effect userId).1 effect userId := by
  unfold pressEffect
  dsimp only
  by_cases hcounted : counted (effectRule l effect).rule = true
  · obtain hone | ⟨people,hquorum⟩ := h
    · rw [counted_eq_false.mpr hone] at hcounted
      cases hcounted
    · have hw : (confirm l effect.id userId).workspace = l.workspace := (sameBut_confirm ..).workspace
      have hquorum' := hquorum.congr hw (confirmations_subset ..)
      rw [← effectRule_congr hw] at hquorum'
      have hcomplete : progressComplete
          (effectProgress (confirm l effect.id userId) effect userId) = true :=
        complete_of_quorum (hw ▸ hn) hquorum'
      rw [if_pos hcounted, if_pos hcomplete]
      exact carriedOut_carryOut ..
  · rw [if_neg hcounted]
    exact carriedOut_carryOut ..

end Taken

/-- From any ledger on: an effect leaves its waiting state at most once, in one of the three ways. A press that
leaves it waiting adds a confirmation alone, and one that finds it settled changes nothing. A quorum is never of
nobody, and once it is on file, or under a rule for one, the press of any eligible member who may read the request
carries the effect out, but not a payment that custody guards. -/
theorem carried_out_by_quorum (h : ReachableLedger env l) :
    (∀ es l' id, Run (Step env) l es l' → (l.statuses id).waiting = false →
      l'.statuses id = l.statuses id) ∧
    (∀ es l' id, Run (Step env) l es l' → (l.statuses id).waiting = true → (l'.statuses id).waiting = false →
      ∃ before e later u v, es = before ++ e :: later ∧ Run (Step env) l before u ∧ Step env u e v ∧
        Run (Step env) v later l' ∧ (u.statuses id).waiting = true ∧ l'.statuses id = v.statuses id ∧
        ∃ effect ∈ u.workspace.effects, effect.id = id ∧ Left env u effect v e) ∧
    (∀ userId recentSignIn id l', Step env l (.press userId recentSignIn id) l' →
      ((l.statuses id).waiting = false → l' = l) ∧
      ((l'.statuses id).waiting = true → l' =
        { confirm l id userId with published := (confirm l id userId).published ++ [id] })) ∧
    ∀ effect ∈ l.workspace.effects, (l.statuses effect.id).waiting = true →
      ¬ (effect.kind = .payment ∧ l.custody = true) →
      (∀ people, Quorum l effect (effectRule l effect).rule people → people ≠ []) ∧
      (ForOne (effectRule l effect).rule ∨ (∃ people, Quorum l effect (effectRule l effect).rule people) →
        ∀ m, Eligible l effect (effectRule l effect).rule m →
          inAudience l.workspace effect.requestId m.userId = true →
          ∃ l', Step env l (.press m.userId true effect.id) l' ∧ CarriedOut env l' effect m.userId) := by
  have hk := kept_reachable h
  have hr := recorded_reachable hk.workspace
  refine ⟨?_,?_,?_,?_⟩
  · intro es l' id hrun hs
    exact settled_run hk hs hrun
  · intro es l' id hrun hs hs'
    have hnot : ¬ (l.statuses id).waiting = false := by simp [hs]
    obtain ⟨before,e,later,u,v,hes,hbefore,hstep,hlater,hu,hv⟩ :=
      hrun.brought (P := fun l => (l.statuses id).waiting = false) hnot hs'
    have hwaits : (u.statuses id).waiting = true := by simpa using hu
    have hkept : Kept env v := kept_step (hbefore.invariant hk fun _ _ _ => kept_step) hstep
    exact ⟨before,e,later,u,v,hes,hbefore,hstep,hlater,hwaits,settled_run hkept hv hlater,
      left_step hwaits hv hstep⟩
  · intro userId recentSignIn id l' hstep
    obtain ⟨m,effect,-,rfl,-,-,hp⟩ := press_cases hstep
    refine ⟨fun hs => hp.settled (hk.answered hs),fun hs => ?_⟩
    cases hp with
    | onFile hfile => rcases hfile with hfile | hfile <;> (rw [hfile] at hs; cases hs)
    | waits => rfl
    | carriedOut =>
      rw [(carriedOut_carryOut env _ effect userId).status] at hs
      rcases effectExecutorMode_cases env with hmode | hmode <;> (rw [hmode] at hs; cases hs)
  · intro effect heffect hs hunguarded
    refine ⟨?_,?_⟩
    · rintro people hquorum rfl
      have hasks : 1 ≤ (effectRule l effect).rule.approvalsRequired :=
        (asks_reachable hk.workspace effect.kind.routeKey).routedRule _
      have henough := hquorum.enough
      simp only [List.length_nil] at henough
      omega
    · intro hpeople m hm hreads
      refine ⟨(pressEffect env l effect m.userId).1,?_,pressEffect_carriedOut hr.members hpeople⟩
      show (executeEffect env l m.userId true effect.id).map Prod.fst = _
      rw [executeEffect_admitted hr ⟨heffect,hreads,hunguarded,hm⟩ hs]
      rfl

section Sample

/-- Cy is an Admin who holds Access and Finance. -/
def cy : MemberRow := ⟨3,3,"Cy","cy",.active,"admin",["access","finance"]⟩

def sampleEnv : Environment := ⟨overlapEnv,true,false⟩

def sampleStart : Ledger :=
  ⟨{ overlapStart with members := [ada,cy] },false,fun _ => .pending,fun _ => none,[],[]⟩

theorem sampleStart_initial : Initial sampleStart :=
  ⟨⟨by decide,fun _ => rfl,rfl,rfl,rfl,rfl,rfl,rfl⟩,fun _ => rfl,rfl⟩

/-- Cy approves an application, which plans an access grant. -/
def accessRun : List Event :=
  [.workspace (.raise ⟨.application,"A partner",.object [],none,none,[],application_handed⟩),
    .workspace (.press 3 true 10 .approve none .absent)]

/-- Cy approves an invoice, which plans its email and its payment. -/
def invoiceRun : List Event :=
  [.workspace (.raise ⟨.invoice,"An invoice",.object [],none,none,[],by decide⟩),
    .workspace (.press 3 true 10 .approve none (.given 0 "sha256:"))]

/-- Ada and Cy confirm the payment while it needs three, and then it needs two. -/
def loweredRun : List Event :=
  invoiceRun ++ [.workspace (.putRoute 3 .payment ⟨false,["finance"],3,true,false⟩ none),.press 1 true 13,
    .press 3 true 13,.workspace (.resetRoute 3 .payment)]

/-- Then custody is set up. -/
def guardedRun : List Event := loweredRun ++ [.custody true]

def ledgerAfter (es : List Event) : Ledger := afterAll (apply sampleEnv) sampleStart es

theorem ledgerAfter_reachable {es : List Event} (h : acceptedAll (apply sampleEnv) sampleStart es = true) :
    ReachableLedger sampleEnv (ledgerAfter es) := ⟨sampleStart,es,sampleStart_initial,run_afterAll h⟩

theorem loweredRun_accepted : acceptedAll (apply sampleEnv) sampleStart loweredRun = true := by decide

/-- The quorum is on file since the rule was lowered, and a press of Ada completes it. -/
theorem carried_out_by_quorum_lowered : ∃ l', Step sampleEnv (ledgerAfter loweredRun) (.press 1 true 13) l' ∧
    l'.statuses 13 = .unavailable := by
  obtain ⟨effect,heffect,hid,hkind,hs,hreads,hcomplete,hnamed,hrequester⟩ :
      ∃ effect ∈ (ledgerAfter loweredRun).workspace.effects, effect.id = 13 ∧ effect.kind = .payment ∧
        ((ledgerAfter loweredRun).statuses effect.id).waiting = true ∧
        inAudience (ledgerAfter loweredRun).workspace effect.requestId ada.userId = true ∧
        progressComplete (effectProgress (ledgerAfter loweredRun) effect 1) = true ∧
        mayApprove (effectRule (ledgerAfter loweredRun) effect).rule (personOf ada) = true ∧
        (effectRule (ledgerAfter loweredRun) effect).rule.allowRequester = true := by
    decide
  have hada : Eligible (ledgerAfter loweredRun) effect (effectRule (ledgerAfter loweredRun) effect).rule ada :=
    ⟨by decide,rfl,hnamed,fun h => by rw [hrequester] at h; cases h⟩
  have hunguarded : ¬ (effect.kind = .payment ∧ (ledgerAfter loweredRun).custody = true) := by
    rintro ⟨-,hcustody⟩
    revert hcustody
    decide
  obtain ⟨-,-,-,h⟩ := carried_out_by_quorum (ledgerAfter_reachable loweredRun_accepted)
  obtain ⟨l',hstep,hdone⟩ := (h effect heffect hs hunguarded).2 (Or.inr (quorum_of_complete hcomplete)) ada hada
    hreads
  have hstatus := hdone.status
  rw [hid] at hstep hstatus
  exact ⟨l',hstep,hstatus⟩

/-- A grant that needs one person is carried out with no confirmation on file. A payment whose quorum is on file
is refused to everyone while custody is set up. -/
theorem not_carried_out_by_quorum :
    (∃ env l l' effect, ReachableLedger env l ∧ effect ∈ l.workspace.effects ∧
      (l.statuses effect.id).waiting = true ∧ Step env l (.press 3 true effect.id) l' ∧
      (l'.statuses effect.id).waiting = false ∧
      ¬ ∃ people, Quorum l' effect (effectRule l effect).rule people) ∧
    ∃ env l effect, ReachableLedger env l ∧ effect ∈ l.workspace.effects ∧
      (l.statuses effect.id).waiting = true ∧
      (∃ people, Quorum l effect (effectRule l effect).rule people) ∧
      ∀ userId recentSignIn l', ¬ Step env l (.press userId recentSignIn effect.id) l' := by
  constructor
  · obtain ⟨effect,heffect,hid,hs,hrequired⟩ : ∃ effect ∈ (ledgerAfter accessRun).workspace.effects,
        effect.id = 12 ∧ ((ledgerAfter accessRun).statuses effect.id).waiting = true ∧
        (effectRule (ledgerAfter accessRun) effect).rule.approvalsRequired = 1 := by
      decide
    refine ⟨sampleEnv,ledgerAfter accessRun,after (apply sampleEnv) (ledgerAfter accessRun) (.press 3 true 12),
      effect,ledgerAfter_reachable (by decide),heffect,hs,?_,?_,?_⟩
    · rw [hid]
      exact step_after (by decide)
    · rw [hid]
      decide
    · rintro ⟨people,hquorum⟩
      have henough := hquorum.enough
      rw [hrequired] at henough
      obtain ⟨m,hm⟩ := List.exists_mem_of_length_pos henough
      have hnone : (after (apply sampleEnv) (ledgerAfter accessRun) (.press 3 true 12)).confirmations = [] := by
        decide
      have hconfirmed := hquorum.confirmed m hm
      rw [hnone] at hconfirmed
      cases hconfirmed
  · have hreach : ReachableLedger sampleEnv (ledgerAfter guardedRun) :=
      ledgerAfter_reachable (by decide)
    obtain ⟨effect,heffect,hs,hcomplete,hkind⟩ :
        ∃ effect ∈ (ledgerAfter guardedRun).workspace.effects,
          ((ledgerAfter guardedRun).statuses effect.id).waiting = true ∧
          progressComplete (effectProgress (ledgerAfter guardedRun) effect 1) = true ∧
          effect.kind = .payment := by
      decide
    refine ⟨sampleEnv,ledgerAfter guardedRun,effect,hreach,heffect,hs,
      quorum_of_complete hcomplete,?_⟩
    intro userId recentSignIn l' hstep
    obtain ⟨m,x,-,hid,-,ha,-⟩ := press_cases hstep
    have hsame : x = effect :=
      List.inj_on_of_nodup_map (recorded_reachable (kept_reachable hreach).workspace).effectIds ha.mem heffect hid
    exact ha.unguarded ⟨hsame ▸ hkind,by decide⟩

end Sample

end HermesEnterprise.Decisions.Effects
