import HermesEnterprise.Client.Reducer
import HermesEnterprise.Foundation.Runs

/-! # A run does not go back

Every source merges a run into the one on display, and one of another id takes its place as it is. So a run goes back
if it comes on display again, and only then.
-/
namespace HermesEnterprise.Client
open HermesEnterprise.Inbound HermesEnterprise.Foundation.Runs
variable {s : Session} {v : View} {r r' a b c : Run}

section Order

/-- Of one run, the later display has a higher attempt, or the same one that has not reopened or started later. -/
def NotBehind (earlier later : Run) : Prop :=
  earlier.id = later.id → earlier.attempt < later.attempt ∨ (earlier.attempt = later.attempt ∧
    (terminalRun earlier.status = true → terminalRun later.status = true) ∧
      earlier.startedAt.all fun a => later.startedAt.any fun b => decide (b ≤ a))

instance : DecidableRel NotBehind := fun earlier later => by
  unfold NotBehind
  infer_instance

theorem NotBehind.refl (r : Run) : NotBehind r r := by
  intro _
  refine Or.inr ⟨rfl,id,?_⟩
  cases r.startedAt with
  | none => rfl
  | some a => simp

theorem NotBehind.trans (hab : NotBehind a b) (hbc : NotBehind b c) (hid : a.id = b.id) : NotBehind a c := by
  intro hac
  rcases hab hid with h | ⟨h,hterminal,hstarted⟩
  · rcases hbc (hid.symm.trans hac) with h' | ⟨h',-,-⟩
    · exact Or.inl (h.trans h')
    · exact Or.inl (h.trans_eq h')
  · rcases hbc (hid.symm.trans hac) with h' | ⟨h',hterminal',hstarted'⟩
    · exact Or.inl (h.trans_lt h')
    · refine Or.inr ⟨h.trans h',hterminal' ∘ hterminal,?_⟩
      cases ha : a.startedAt with
      | none => rfl
      | some x =>
        rw [ha, Option.all_some] at hstarted
        cases hb : b.startedAt with
        | none =>
          rw [hb] at hstarted
          exact absurd hstarted (by simp)
        | some y =>
          cases hc : c.startedAt with
          | none =>
            rw [hb, hc] at hstarted'
            exact absurd hstarted' (by simp)
          | some z =>
            rw [hb, Option.any_some, decide_eq_true_eq] at hstarted
            rw [hb, hc, Option.all_some, Option.any_some, decide_eq_true_eq] at hstarted'
            rw [Option.all_some, Option.any_some, decide_eq_true_eq]
            exact hstarted'.trans hstarted

/-- The display of a run that takes the place of another one of the same id. -/
structure Follows (earlier later : Run) : Prop where
  id : later.id = earlier.id
  notBehind : NotBehind earlier later

theorem Follows.refl (r : Run) : Follows r r := ⟨rfl,NotBehind.refl r⟩

theorem NotBehind.follows (h : NotBehind a b) (h' : Follows b c) : NotBehind a c := fun hid =>
  h.trans h'.notBehind (hid.trans h'.id) hid

end Order

section Merge

theorem mergeRun_of_lt {incoming : Run} {sameTurn : Bool} (h : incoming.attempt < r.attempt)
    (hid : sameTurn = true ∨ r.id = incoming.id) : mergeRun (some r) incoming sameTurn = r := by
  unfold mergeRun
  have hnot : ((!sameTurn && decide (r.id ≠ incoming.id)) || decide (r.attempt < incoming.attempt)) = false := by
    rcases hid with rfl | hid
    · simp [h.le]
    · simp [hid, h.le]
  dsimp only
  rw [hnot, if_neg Bool.false_ne_true, if_pos h]

/-- Merged into itself a run follows itself. -/
theorem mergeRun_follows {incoming : Run} {sameTurn : Bool} (hid : r.id = incoming.id) :
    Follows r (mergeRun (some r) incoming sameTurn) := by
  unfold mergeRun
  dsimp only
  split
  next hnewer =>
    have hlt : r.attempt < incoming.attempt := by simpa [hid] using hnewer
    exact ⟨hid.symm,fun _ => Or.inl hlt⟩
  next hnewer =>
    have hle : incoming.attempt ≤ r.attempt := by simpa [hid] using hnewer
    split
    next => exact Follows.refl r
    next holder =>
      have heq : r.attempt = incoming.attempt := by omega
      have hstarted : r.startedAt.all fun a => (earliest r.startedAt incoming.startedAt).any fun b => decide (b ≤ a) := by
        cases r.startedAt with
        | none => rfl
        | some a =>
          cases incoming.startedAt with
          | none => simp [earliest]
          | some b => simp [earliest]
      split
      next hterminal =>
        rw [Bool.and_eq_true] at hterminal
        exact ⟨hid.symm,fun _ => Or.inr ⟨heq,fun _ => hterminal.1,hstarted⟩⟩
      next hterminal =>
        refine ⟨hid.symm,fun _ => Or.inr ⟨heq,fun h => ?_,hstarted⟩⟩
        simpa [h] using hterminal

/-- Merged into itself at its attempt, a run stays there. -/
theorem mergeRun_attempt {incoming : Run} {sameTurn : Bool} (hid : r.id = incoming.id) (hattempt : r.attempt = incoming.attempt) :
    (mergeRun (some r) incoming sameTurn).id = r.id ∧ (mergeRun (some r) incoming sameTurn).attempt = r.attempt := by
  unfold mergeRun
  dsimp only
  rw [if_neg (by simp [hid, hattempt]), if_neg hattempt.le.not_gt]
  split
  · exact ⟨hid.symm,hattempt.symm⟩
  · exact ⟨hid.symm,hattempt.symm⟩

/-- What comes of a merge has the id of one of the two. -/
theorem mergeRun_id {incoming : Run} {sameTurn : Bool} :
    (mergeRun (some r) incoming sameTurn).id = incoming.id ∨ mergeRun (some r) incoming sameTurn = r := by
  unfold mergeRun
  dsimp only
  split
  · exact Or.inl rfl
  · split
    · exact Or.inr rfl
    · split
      · exact Or.inl rfl
      · exact Or.inl rfl

end Merge

section Steps

/-- A session with the runs that were on display, newest first. -/
structure Watch where
  view : View
  shown : List Run
  deriving DecidableEq, Repr

def watch (w : Watch) (action : Action) : Watch :=
  let view := reduce w.view action
  ⟨view,view.session.run.toList ++ w.shown⟩

def known (w : Watch) (runId : Id) : Bool := w.shown.any fun run => decide (run.id = runId)

/-- The run on display, or one that never was. -/
def ownOrNew (w : Watch) (runId : Id) : Bool :=
  (w.view.session.run.any fun run => decide (run.id = runId)) || !known w runId

/-- No action brings a run back on display that another one has replaced. -/
def onward (w : Watch) : Action → Bool
  | .turnOptimistic _ _ run => !known w run.id
  | .turnAccepted clientTurnId runId _ _ =>
    !(w.view.session.run.any fun run => decide (run.id = clientTurnId)) || !known w runId
  | .runStart run _ => ownOrNew w run.id
  | .sessionSnapshot snapshot =>
    outdated w.view snapshot || pendingNewer w.view.session snapshot || snapshot.run.all fun run => ownOrNew w run.id
  | _ => true

/-- What a step does to the run on display, and to the run that a rejected turn restores. -/
inductive Turn (known : Id → Bool) (s s' : Session) : Prop
  | follows (hrun : ∀ r' ∈ s'.run, ∃ r ∈ s.run, Follows r r')
      (hpending : ∀ p' ∈ s'.pendingTurn, ∃ p ∈ s.pendingTurn, p'.previousRun = p.previousRun)
  | replaced (r' : Run) (hrun : s'.run = some r') (hid : known r'.id = false)
      (hpending : ∀ p' ∈ s'.pendingTurn, (∃ p ∈ s.pendingTurn, p'.previousRun = p.previousRun) ∨ p'.previousRun = s.run)
  | restored (p : PendingTurn) (hp : s.pendingTurn = some p) (hrun : s'.run = p.previousRun) (hpending : s'.pendingTurn = none)

theorem Turn.refl (known : Id → Bool) {s s' : Session} (hrun : s'.run = s.run) (hpending : s'.pendingTurn = s.pendingTurn) :
    Turn known s s' := by
  refine .follows (fun r hr => ⟨r,hrun ▸ hr,Follows.refl r⟩) fun p hp => ⟨p,hpending ▸ hp,rfl⟩

theorem previousRun_admitPendingTurn {runId : Id} {p' : PendingTurn} (h : p' ∈ admitPendingTurn s runId) :
    ∃ p ∈ s.pendingTurn, p'.previousRun = p.previousRun := by
  unfold admitPendingTurn at h
  split at h
  next => cases h
  next p hp =>
    dsimp only at h
    split at h
    · cases h
    · cases h
      exact ⟨p,hp,rfl⟩

/-- A run merged into the display, where it is the one on display or a new one. -/
theorem Turn.merged {known : Id → Bool} {s' : Session} {incoming : Run} {sameTurn : Bool}
    (hown : (s.run.any fun run => decide (run.id = incoming.id)) = true ∨ known incoming.id = false)
    (hrun : ∃ r', s'.run = some r' ∧ r'.id = (mergeRun s.run incoming sameTurn).id ∧
      ∀ b, NotBehind b (mergeRun s.run incoming sameTurn) → NotBehind b r')
    (hpending : ∀ p' ∈ s'.pendingTurn, ∃ p ∈ s.pendingTurn, p'.previousRun = p.previousRun) : Turn known s s' := by
  obtain ⟨r',hr',hid,hbehind⟩ := hrun
  cases hs : s.run with
  | none =>
    rw [hs] at hown hid
    have hnew : known incoming.id = false := hown.resolve_left (by simp)
    refine .replaced r' hr' ?_ fun p' hp' => Or.inl (hpending p' hp')
    rw [hid]
    exact hnew
  | some r =>
    rw [hs] at hown hid hbehind
    by_cases hsame : r.id = incoming.id
    · have hfollows := @mergeRun_follows r incoming sameTurn hsame
      refine .follows (fun x hx => ⟨r,hs,?_⟩) hpending
      rw [hr'] at hx
      cases hx
      exact ⟨hid.trans hfollows.id,hbehind _ hfollows.notBehind⟩
    · rcases @mergeRun_id r incoming sameTurn with hmerged | hmerged
      · have hnew : known incoming.id = false := hown.resolve_left (by simpa using hsame)
        refine .replaced r' hr' ?_ fun p' hp' => Or.inl (hpending p' hp')
        rw [hid, hmerged]
        exact hnew
      · refine .follows (fun x hx => ⟨r,hs,?_⟩) hpending
        rw [hr'] at hx
        cases hx
        rw [hmerged] at hid hbehind
        exact ⟨hid,hbehind _ (NotBehind.refl r)⟩

theorem ownOrNew_iff {w : Watch} {runId : Id} : ownOrNew w runId = true ↔
    (w.view.session.run.any fun run => decide (run.id = runId)) = true ∨ known w runId = false := by
  unfold ownOrNew
  rw [Bool.or_eq_true, Bool.not_eq_true']

theorem turn_turnAccepted {known : Id → Bool} {clientTurnId runId : Id} {status : RunStatus} {attempt : ℕ}
    (h : (s.run.any fun run => decide (run.id = clientTurnId)) = false ∨ known runId = false) :
    Turn known s (turnAccepted s clientTurnId runId status attempt) := by
  unfold turnAccepted
  split
  · exact Turn.refl known rfl rfl
  · cases hs : s.run with
    | none =>
      refine .follows (fun r' hr' => ?_) fun p' hp' => previousRun_admitPendingTurn hp'
      dsimp only at hr'
      rw [Option.map_none] at hr'
      cases hr'
    | some r =>
      by_cases hid : r.id = clientTurnId
      · have hnew : known runId = false := h.resolve_left (by simp [hs, hid])
        refine .replaced { r with id := runId, status := status, attempt := attempt } ?_ hnew
          fun p' hp' => Or.inl (previousRun_admitPendingTurn hp')
        dsimp only
        rw [Option.map_some, if_pos hid]
      · refine .follows (fun r' hr' => ⟨r,hs,?_⟩) fun p' hp' => previousRun_admitPendingTurn hp'
        dsimp only at hr'
        rw [Option.map_some, if_neg hid] at hr'
        cases hr'
        exact Follows.refl r

theorem turn_turnRejected (known : Id → Bool) (clientTurnId : Id) : Turn known s (turnRejected s clientTurnId) := by
  unfold turnRejected
  split
  next => exact Turn.refl known rfl rfl
  next p hp =>
    split
    · exact Turn.refl known rfl rfl
    · dsimp only
      split
      · exact .restored p hp rfl rfl
      · refine .follows (fun r hr => ⟨r,hr,Follows.refl r⟩) fun p' hp' => ?_
        cases hp'

theorem turn_runStart {known : Id → Bool} {incoming : Run} {clientTurnId : Option Id}
    (h : (s.run.any fun run => decide (run.id = incoming.id)) = true ∨ known incoming.id = false) :
    Turn known s (runStart s incoming clientTurnId) := by
  unfold runStart
  refine Turn.merged h ⟨_,rfl,rfl,fun b hb => hb⟩ fun p' hp' => ?_
  dsimp only at hp'
  split at hp'
  · exact previousRun_admitPendingTurn hp'
  · exact ⟨p',hp',rfl⟩

theorem turn_runStatus (known : Id → Bool) (runId : Id) (status : RunStatus) (patch : RunPatch) :
    Turn known s (runStatus s runId status patch) := by
  unfold runStatus
  split
  next => exact Turn.refl known rfl rfl
  next r hr =>
    split
    · exact Turn.refl known rfl rfl
    · refine .follows (fun r' hr' => ⟨r,hr,?_⟩) fun p' hp' => ⟨p',hp',rfl⟩
      cases hr'
      exact mergeRun_follows rfl

/-- The guidance that a snapshot sets is not part of the order. -/
theorem guidedRun_run {snapshot : SessionSnapshot} {messages : List Message} :
    (guidedRun s snapshot messages).1 = mergedRun s snapshot ∨ ∃ run guidance, mergedRun s snapshot = some run ∧
      (guidedRun s snapshot messages).1 = some { run with guidance := guidance } := by
  unfold guidedRun
  split
  next incoming run _ hrun =>
    split
    · exact Or.inl hrun.symm
    · exact Or.inr ⟨run,_,hrun,rfl⟩
  next => exact Or.inl rfl

theorem turn_mergeSnapshot {known : Id → Bool} {snapshot : SessionSnapshot} (h : pendingNewer s snapshot = true ∨
    ∀ run ∈ snapshot.run, (s.run.any fun r => decide (r.id = run.id)) = true ∨ known run.id = false) :
    Turn known s (mergeSnapshot s snapshot) := by
  have hpending : ∀ p' ∈ (mergeSnapshot s snapshot).pendingTurn, ∃ p ∈ s.pendingTurn, p'.previousRun = p.previousRun := by
    intro p' hp'
    unfold mergeSnapshot at hp'
    dsimp only at hp'
    split at hp'
    · cases hp'
    · exact ⟨p',hp',rfl⟩
  have hrun : (mergeSnapshot s snapshot).run = (guidedRun s snapshot (mergedMessages s snapshot.messages)).1 := rfl
  have hkept : mergedRun s snapshot = s.run → Turn known s (mergeSnapshot s snapshot) := by
    intro hmerged
    rcases @guidedRun_run s snapshot (mergedMessages s snapshot.messages) with hguided | ⟨run,guidance,hmerged',hguided⟩
    · refine .follows (fun r hr => ⟨r,?_,Follows.refl r⟩) hpending
      rw [hrun, hguided, hmerged] at hr
      exact hr
    · refine .follows (fun r hr => ⟨run,hmerged.symm.trans hmerged',?_⟩) hpending
      rw [hrun, hguided] at hr
      cases hr
      exact ⟨rfl,NotBehind.refl run⟩
  cases hnewer : pendingNewer s snapshot with
  | true => exact hkept (by unfold mergedRun; rw [if_pos hnewer])
  | false =>
    cases hs : snapshot.run with
    | none => exact hkept (by unfold mergedRun; rw [hnewer, hs]; rfl)
    | some incoming =>
      have hmerged : mergedRun s snapshot = some (mergeRun s.run incoming false) := by
        unfold mergedRun
        rw [hnewer, hs]
        rfl
      have hown := h.resolve_left (by simp [hnewer]) incoming hs
      refine @Turn.merged s known _ incoming false hown ?_ hpending
      rcases @guidedRun_run s snapshot (mergedMessages s snapshot.messages) with hguided | ⟨run,guidance,hmerged',hguided⟩
      · exact ⟨_,(hrun.trans hguided).trans hmerged,rfl,fun b hb => hb⟩
      · rw [hmerged] at hmerged'
        cases hmerged'
        exact ⟨_,hrun.trans hguided,rfl,fun b hb => hb⟩

theorem turn_watch {w : Watch} {action : Action} (h : onward w action = true) :
    Turn (known w) w.view.session (watch w action).view.session := by
  cases action with
  | turnOptimistic clientTurnId message run =>
    refine .replaced run rfl (by simpa [onward] using h) fun p' hp' => Or.inr ?_
    cases hp'
    rfl
  | turnAccepted clientTurnId runId status attempt =>
    exact turn_turnAccepted (by simpa only [onward, Bool.or_eq_true, Bool.not_eq_true'] using h)
  | turnRejected clientTurnId => exact turn_turnRejected _ clientTurnId
  | runStart run clientTurnId => exact turn_runStart (ownOrNew_iff.mp h)
  | runStatus runId status patch => exact turn_runStatus _ runId status patch
  | sessionSnapshot snapshot =>
    unfold watch reduce sessionSnapshot
    dsimp only
    split
    · exact Turn.refl _ rfl rfl
    next houtdated =>
      refine turn_mergeSnapshot ?_
      rw [onward, Bool.or_eq_true, Bool.or_eq_true] at h
      refine (h.imp_left fun h => h.resolve_left houtdated).imp_right fun hall run hrun => ?_
      rw [hrun, Option.all_some] at hall
      exact ownOrNew_iff.mp hall
  | streamReset frame =>
    obtain ⟨stream,heq⟩ := streamReset_eq w.view.session frame
    have hrun := congrArg Session.run heq
    have hpending := congrArg Session.pendingTurn heq
    exact Turn.refl _ hrun hpending
  | streamDelta frame delta seq =>
    obtain ⟨stream,heq⟩ := streamDelta_eq w.view.session frame delta seq
    have hrun := congrArg Session.run heq
    have hpending := congrArg Session.pendingTurn heq
    exact Turn.refl _ hrun hpending
  | streamPreview frame offset delta =>
    obtain ⟨stream,heq⟩ := streamPreview_eq w.view.session frame offset delta
    have hrun := congrArg Session.run heq
    have hpending := congrArg Session.pendingTurn heq
    exact Turn.refl _ hrun hpending
  | streamFinal message turn =>
    obtain ⟨stream,fences,messages,heq⟩ := streamFinal_eq w.view.session message turn
    have hrun := congrArg Session.run heq
    have hpending := congrArg Session.pendingTurn heq
    exact Turn.refl _ hrun hpending
  | streamRevealComplete runId =>
    obtain ⟨stream,heq⟩ := streamRevealComplete_eq w.view.session runId
    have hrun := congrArg Session.run heq
    have hpending := congrArg Session.pendingTurn heq
    exact Turn.refl _ hrun hpending
  | cursorAdvance id =>
    have hsession : (watch w (.cursorAdvance id)).view.session = w.view.session := by
      unfold watch reduce
      dsimp only
      split <;> rfl
    exact Turn.refl _ (congrArg Session.run hsession) (congrArg Session.pendingTurn hsession)

end Steps

section Runs

/-- The run on display, and the one a rejected turn would restore, are the newest of their ids. -/
structure Tracked (w : Watch) : Prop where
  ordered : w.shown.Pairwise fun later earlier => NotBehind earlier later
  displayed : ∀ r ∈ w.view.session.run, r ∈ w.shown ∧ ∀ d ∈ w.shown, NotBehind d r
  previous : ∀ p ∈ w.view.session.pendingTurn, ∀ q ∈ p.previousRun,
    q ∈ w.shown ∧ (∀ d ∈ w.shown, NotBehind d q) ∧ ∀ r ∈ w.view.session.run, r.id ≠ q.id

theorem known_of_mem {w : Watch} {q : Run} (h : q ∈ w.shown) : known w q.id = true :=
  List.any_eq_true.mpr ⟨q,h,decide_eq_true rfl⟩

theorem notBehind_of_unknown {w : Watch} (h : known w r.id = false) : ∀ d ∈ w.shown, NotBehind d r := fun d hd hid =>
  absurd (hid ▸ known_of_mem hd) (by simp [h])

/-- A display that is behind none before it is tracked with them. -/
theorem Tracked.next {w : Watch} {view : View} (h : Tracked w)
    (hrun : ∀ r ∈ view.session.run, ∀ d ∈ w.shown, NotBehind d r)
    (hprevious : ∀ p ∈ view.session.pendingTurn, ∀ q ∈ p.previousRun,
      q ∈ w.shown ∧ (∀ d ∈ w.shown, NotBehind d q) ∧ ∀ r ∈ view.session.run, r.id ≠ q.id) :
    Tracked ⟨view,view.session.run.toList ++ w.shown⟩ := by
  cases hview : view.session.run with
  | none =>
    rw [hview] at hprevious
    refine ⟨h.ordered,fun r hr => ?_,fun p hp q hq => ?_⟩
    · rw [hview] at hr
      cases hr
    · obtain ⟨hq,hd,-⟩ := hprevious p hp q hq
      refine ⟨hq,hd,fun r hr => ?_⟩
      rw [hview] at hr
      cases hr
  | some r =>
    have hnew := hrun r hview
    refine ⟨List.pairwise_cons.mpr ⟨hnew,h.ordered⟩,fun x hx => ?_,fun p hp q hq => ?_⟩
    · rw [hview] at hx
      cases hx
      refine ⟨List.mem_cons_self,fun d hd => ?_⟩
      rcases List.mem_cons.mp hd with rfl | hd
      · exact NotBehind.refl d
      · exact hnew d hd
    · obtain ⟨hq,hbehind,hother⟩ := hprevious p hp q hq
      refine ⟨List.mem_cons_of_mem _ hq,fun d hd => ?_,hother⟩
      rcases List.mem_cons.mp hd with rfl | hd
      · exact fun hid => absurd hid (hother d hview)
      · exact hbehind d hd

theorem Tracked.watch {w : Watch} {action : Action} (h : Tracked w) (hok : onward w action = true) :
    Tracked (watch w action) := by
  cases turn_watch hok with
  | follows hrun hpending =>
    refine h.next (fun r' hr' d hd => ?_) fun p' hp' q hq => ?_
    · obtain ⟨r,hr,hfollows⟩ := hrun r' hr'
      exact ((h.displayed r hr).2 d hd).follows hfollows
    · obtain ⟨p,hp,hprevious⟩ := hpending p' hp'
      obtain ⟨hmem,hbehind,hother⟩ := h.previous p hp q (hprevious ▸ hq)
      refine ⟨hmem,hbehind,fun r' hr' => ?_⟩
      obtain ⟨r,hr,hfollows⟩ := hrun r' hr'
      rw [hfollows.id]
      exact hother r hr
  | replaced r' hrun hid hpending =>
    have hunknown : ∀ q ∈ w.shown, r'.id ≠ q.id := fun q hq heq => absurd (known_of_mem hq) (by simp [← heq, hid])
    refine h.next (fun x hx => ?_) fun p' hp' q hq => ?_
    · cases hrun.symm.trans hx
      exact notBehind_of_unknown hid
    · have hnewest : q ∈ w.shown ∧ ∀ d ∈ w.shown, NotBehind d q := by
        rcases hpending p' hp' with ⟨p,hp,hprevious⟩ | hprevious
        · exact ⟨(h.previous p hp q (hprevious ▸ hq)).1,(h.previous p hp q (hprevious ▸ hq)).2.1⟩
        · exact h.displayed q (hprevious ▸ hq)
      refine ⟨hnewest.1,hnewest.2,fun x hx => ?_⟩
      cases hrun.symm.trans hx
      exact hunknown q hnewest.1
  | restored p hp hrun hpending =>
    refine h.next (fun r hr => ?_) fun p' hp' => ?_
    · exact (h.previous p hp r (hrun ▸ hr)).2.1
    · cases hpending.symm.trans hp'

theorem cursor_le (v : View) (action : Action) : v.cursor ≤ (reduce v action).cursor := by
  cases action with
  | sessionSnapshot snapshot =>
    unfold reduce sessionSnapshot
    dsimp only
    split
    · exact le_rfl
    next h =>
      unfold outdated at h
      simp only [Bool.or_eq_true, decide_eq_true_eq, not_or, not_lt] at h
      exact h.1.2
  | cursorAdvance id =>
    have hreduce : reduce v (.cursorAdvance id) = if id ≤ v.cursor then v else { v with cursor := id } := rfl
    rw [hreduce]
    split
    · exact le_rfl
    next h => exact (not_le.mp h).le
  | _ => exact le_rfl

/-- The run and attempt that an action reports on. -/
def reports : Action → Option (Id × ℕ)
  | .runStart run _ => some (run.id,run.attempt)
  | .runStatus runId _ patch => patch.attempt.map fun attempt => (runId,attempt)
  | .sessionSnapshot snapshot => snapshot.run.map fun run => (run.id,run.attempt)
  | _ => none

/-- A lower attempt of the run on display is ignored. -/
theorem run_of_lower {action : Action} {attempt : ℕ} (hrun : v.session.run = some r)
    (hreports : reports action = some (r.id,attempt)) (hlower : attempt < r.attempt) :
    (reduce v action).session.run = some r := by
  cases action with
  | runStart run clientTurnId =>
    obtain ⟨hid,rfl⟩ := Prod.mk.inj (Option.some.inj hreports)
    have hmerge := @mergeRun_of_lt r run (clientTurnId.any fun id => !id.isEmpty && pendingIs v.session id) hlower
      (Or.inr hid.symm)
    unfold reduce reduceSession runStart
    dsimp only
    rw [hrun, hmerge]
  | runStatus runId status patch =>
    obtain ⟨attempt',hattempt,hpair⟩ := Option.map_eq_some_iff.mp hreports
    obtain ⟨rfl,rfl⟩ := Prod.mk.inj hpair
    have hmerge : ∀ newer, mergeRun (some r) (patchedRun r newer status patch) false = r := by
      intro newer
      refine mergeRun_of_lt ?_ (Or.inr rfl)
      unfold patchedRun
      rw [hattempt]
      exact hlower
    unfold reduce reduceSession runStatus
    dsimp only
    rw [hrun]
    dsimp only
    rw [if_neg (not_not_intro rfl), hmerge]
  | sessionSnapshot snapshot =>
    obtain ⟨run,hsnapshot,hpair⟩ := Option.map_eq_some_iff.mp hreports
    obtain ⟨hid,rfl⟩ := Prod.mk.inj hpair
    have houtdated : outdated v snapshot = true := by
      unfold outdated supersededRun
      rw [hrun, hsnapshot]
      simp [hid, hlower]
    unfold reduce sessionSnapshot
    dsimp only
    rw [if_pos houtdated]
    exact hrun
  | turnOptimistic => cases hreports
  | turnAccepted => cases hreports
  | turnRejected => cases hreports
  | streamReset => cases hreports
  | streamDelta => cases hreports
  | streamPreview => cases hreports
  | streamFinal => cases hreports
  | streamRevealComplete => cases hreports
  | cursorAdvance => cases hreports

/-- Nothing on display ever goes back, a lower attempt changes nothing of the run, and the cursor only grows. -/
structure Forward (w : Watch) : Prop where
  ordered : w.shown.Pairwise fun later earlier => NotBehind earlier later
  lower : ∀ action r attempt, w.view.session.run = some r → reports action = some (r.id,attempt) → attempt < r.attempt →
    (reduce w.view action).session.run = some r
  cursor : ∀ action, w.view.cursor ≤ (reduce w.view action).cursor

def startedWith (view : View) : Watch := ⟨view,view.session.run.toList⟩

theorem tracked_startedWith (hpending : v.session.pendingTurn = none) : Tracked (startedWith v) := by
  unfold startedWith
  refine ⟨?_,fun r hr => ?_,fun p hp => ?_⟩
  · cases v.session.run with
    | none => exact List.Pairwise.nil
    | some r => exact List.pairwise_singleton _ _
  · have hr' : v.session.run = some r := hr
    rw [hr']
    refine ⟨List.mem_singleton_self r,fun d hd => ?_⟩
    rw [List.mem_singleton.mp hd]
    exact NotBehind.refl r
  · cases hpending.symm.trans hp

def watched (w : Watch) (action : Action) : Except Empty Watch := .ok (watch w action)

theorem run_forward (view : View) (hpending : view.session.pendingTurn = none) (w : Watch) (actions : List Action)
    (hrun : Foundation.Runs.Run (Guarded (Applied watched) fun w action => onward w action = true) (startedWith view)
      actions w) : Forward w := by
  have htracked : Tracked w := by
    refine hrun.invariant (tracked_startedWith hpending) fun w action w' h hstep => ?_
    cases hstep.2
    exact h.watch hstep.1
  exact ⟨htracked.ordered,fun action r attempt => run_of_lower,cursor_le w.view⟩

def freshView : View := ⟨text "w",some (text "g"),⟨text "Ready",[],none,none,none,[]⟩,0⟩

def workingRun (id : Id) (attempt : ℕ) (startedAt : ℤ) : Run :=
  ⟨id,.working,attempt,none,[],[],none,none,none,some startedAt,none,none⟩

def statusPatch (attempt : ℕ) : RunPatch := ⟨some attempt,none,none,none,none,none⟩

def userMessage (words : Text) : Message := ⟨text "m",0,.user,none,words,.complete,none,false⟩

/-- A turn is sent and admitted, its run completes, and its start comes late. -/
theorem run_forward_admitted : Forward (afterAll watched (startedWith freshView)
    [.turnOptimistic (text "t") (userMessage (text "Hi")) (workingRun (text "t") 1 5),
      .turnAccepted (text "t") (text "r") .working 1,.runStatus (text "r") .completed (statusPatch 1),
      .runStart (workingRun (text "r") 1 3) (some (text "t"))]) :=
  run_forward freshView rfl _ _ (run_admittedAll (by decide))

/-- A second run starts, and then the start of the first one's first attempt is delivered again. -/
theorem late_start_goes_back : ¬∀ (view : View) (actions : List Action), view.session.pendingTurn = none →
    Forward (actions.foldl watch (startedWith view)) := by
  intro h
  have hforward := h freshView [.runStart (workingRun (text "a") 2 1) none,.runStatus (text "a") .completed (statusPatch 2),
    .runStart (workingRun (text "b") 1 4) none,.runStart (workingRun (text "a") 1 1) none] rfl
  exact absurd hforward.ordered (by decide)

end Runs
end HermesEnterprise.Client
