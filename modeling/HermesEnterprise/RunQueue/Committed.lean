import HermesEnterprise.RunQueue.Drained

/-! # What the run queue promises

A pass that commits makes one run of each item it started. What it read may have changed under
it: it writes the text that it read, and takes no notice of a Stop. A message queued behind a
stopped run that completed is queued after all, and a page full of read-only sessions' rows leaves
the others waiting; without these, the queue keeps its promises in every run.
-/
namespace HermesEnterprise.RunQueue
open Foundation.Runs Foundation.Tables RunLog
variable {w w' : World} {e : Event} {p q : Pass} {i j : Item} {s : Started} {r : RunRow}
  {runId : RunId} {sessionId : SessionId}

section Commits

/-- Of the rows that a list is mapped to, the one with this row's key. -/
theorem filter_map_singleton {α β κ : Type} [DecidableEq κ] {rows : List α} {a : α} {f : α → β} (key : β → κ)
    (hrows : rows.Nodup) (ha : a ∈ rows) (hkey : ∀ b ∈ rows, key (f b) = key (f a) → b = a) :
    (rows.map f).filter (fun b => decide (key b = key (f a))) = [f a] := by
  induction rows with
  | nil => cases ha
  | cons b rest ih =>
    obtain ⟨hb,hrest⟩ := List.nodup_cons.mp hrows
    rw [List.map_cons, List.filter_cons]
    by_cases hba : b = a
    · rw [if_pos (decide_eq_true (congrArg (fun c => key (f c)) hba)), hba, List.filter_eq_nil_iff.mpr]
      intro c hc hsame
      obtain ⟨d,hd,rfl⟩ := List.mem_map.mp hc
      have hda := hkey d (List.mem_cons_of_mem _ hd) (of_decide_eq_true hsame)
      exact hb (hba ▸ hda ▸ hd)
    · rw [if_neg fun hsame => hba (hkey b (List.mem_cons_self ..) (of_decide_eq_true hsame))]
      refine ih hrest ?_ fun c hc => hkey c (List.mem_cons_of_mem _ hc)
      exact (List.mem_cons.mp ha).resolve_left fun he => hba he.symm

/-- The row of an item that a pass has started. -/
theorem row_of_started (h : Kept w) (hp : p ∈ w.passes) (hs : s ∈ p.started) (hi : i ∈ w.items)
    (hid : s.item.id = i.id) : SameRow s.item i := by
  have hpass := h.passes p hp
  obtain ⟨j,hj,hsame⟩ := hpass.rows s.item (hpass.page _ (hpass.started s hs).1).1
  obtain rfl : j = i := List.inj_on_of_nodup_map h.itemIds hj hi (hsame.1.trans hid)
  exact hsame

theorem mem_commitPass_items (h : i ∈ (commitPass w p).items) :
    (∃ j ∈ w.items, i = { j with status := .sent } ∧ ∃ s ∈ p.started, s.item.id = j.id) ∨
      (i ∈ w.items ∧ ∀ s ∈ p.started, s.item.id ≠ i.id) := by
  rcases mem_updateWhere.mp h with ⟨j,hj,hany,rfl⟩ | ⟨hi,hnone⟩
  · obtain ⟨s,hs,hid⟩ := List.any_eq_true.mp hany
    exact Or.inl ⟨j,hj,rfl,s,hs,of_decide_eq_true hid⟩
  · exact Or.inr ⟨hi,fun s hs hid => List.any_eq_false.mp hnone s hs (decide_eq_true hid)⟩

/-- A started item becomes the one message of its run. -/
theorem sentOnce_commit (h : Kept w) (hp : p ∈ w.passes) (hs : s ∈ p.started) (hi : i ∈ w.items)
    (hid : s.item.id = i.id) (htext : i.text = s.item.text) :
    SentOnce (commitPass w p) { i with status := .sent } := by
  have hrow := row_of_started h hp hs hi hid
  have hfresh := (h.passes p hp).fresh s hs
  have hself : ∀ s' ∈ p.started, s'.runId = s.runId → s' = s := fun s' hs' he =>
    (h.apart p hp p hp s' hs' s hs (Or.inr he)).2
  refine ⟨s.run,List.mem_append_right _ (List.mem_map_of_mem hs),⟨hrow.2.2.1.symm,?_⟩,?_,?_⟩
  · exact congrArg queueTurnId hid
  · have hmessages := filter_map_singleton Message.runId (f := Started.message) (h.distinct p hp) hs hself
    calc (w.messages ++ p.started.map Started.message).filter (fun m => decide (m.runId = s.runId))
        = [] ++ [s.message] := by rw [List.filter_append, filter_fresh h.messageRuns hfresh.1]; exact congrArg ([] ++ ·) hmessages
      _ = [⟨i.sessionId,s.runId,i.text⟩] := by rw [hrow.2.2.1, htext]; rfl
  · have hturns := filter_map_singleton FirstTurn.runId (f := Started.turn) (h.distinct p hp) hs hself
    calc (w.turns ++ p.started.map Started.turn).filter (fun t => decide (t.runId = s.runId))
        = [] ++ [s.turn] := by rw [List.filter_append, filter_fresh h.turnRuns hfresh.1]; exact congrArg ([] ++ ·) hturns
      _ = [⟨s.runId,i.text⟩] := by rw [htext]; rfl

theorem Kept.commit (h : Kept w) (hp : p ∈ w.passes)
    (htext : ∀ s ∈ p.started, ∀ i ∈ w.items, i.id = s.item.id → i.text = s.item.text) : Kept (commitPass w p) := by
  have hpass := h.passes p hp
  have hnewRun : ∀ r ∈ p.started.map Started.run, ∃ s ∈ p.started, r = s.run := by
    intro r hr
    obtain ⟨s,hs,rfl⟩ := List.mem_map.mp hr
    exact ⟨s,hs,rfl⟩
  have hend := h.endPass p.id
  refine ⟨?_,?_,?_,?_,?_,?_,hend.passIds,?_,hend.apart,hend.distinct,?_,?_,?_⟩
  · have hids : (commitPass w p).items.map Item.id = w.items.map Item.id := map_updateWhere Item.id fun _ _ _ => rfl
    rw [hids]
    exact h.itemIds
  · change ((w.runs ++ p.started.map Started.run).map (·.id)).Nodup
    rw [List.map_append, List.map_map]
    refine h.runIds.append ?_ ?_
    · refine (h.distinct p hp).map_on fun s hs s' hs' he => ?_
      exact (h.apart p hp p hp s hs s' hs' (Or.inr he)).2
    · intro id hid hid'
      obtain ⟨r,hr,rfl⟩ := List.mem_map.mp hid
      obtain ⟨s,hs,he⟩ := List.mem_map.mp hid'
      exact (hpass.fresh s hs).1 r hr he.symm
  · intro r hr r' hr' hsession hclient
    rcases List.mem_append.mp hr with hr | hr
    · rcases List.mem_append.mp hr' with hr' | hr'
      · exact h.turnKeys r hr r' hr' hsession hclient
      · obtain ⟨s,hs,rfl⟩ := hnewRun r' hr'
        exact absurd ⟨hsession,hclient⟩ ((hpass.fresh s hs).2 r hr)
    · obtain ⟨s,hs,rfl⟩ := hnewRun r hr
      rcases List.mem_append.mp hr' with hr' | hr'
      · exact absurd ⟨hsession.symm,hclient.symm⟩ ((hpass.fresh s hs).2 r' hr')
      · obtain ⟨s',hs',rfl⟩ := hnewRun r' hr'
        rw [(h.apart p hp p hp s hs s' hs' (Or.inl hsession)).2]
  · intro i hi
    rcases mem_commitPass_items hi with ⟨j,hj,rfl,-⟩ | ⟨hj,-⟩
    · obtain ⟨r,hr,hwhich⟩ := h.itemRuns j hj
      exact ⟨r,List.mem_append_left _ hr,hwhich⟩
    · obtain ⟨r,hr,hwhich⟩ := h.itemRuns i hj
      exact ⟨r,List.mem_append_left _ hr,hwhich⟩
  · intro m hm
    rcases List.mem_append.mp hm with hm | hm
    · obtain ⟨r,hr,hid⟩ := h.messageRuns m hm
      exact ⟨r,List.mem_append_left _ hr,hid⟩
    · obtain ⟨s,hs,rfl⟩ := List.mem_map.mp hm
      exact ⟨s.run,List.mem_append_right _ (List.mem_map_of_mem hs),rfl⟩
  · intro t ht
    rcases List.mem_append.mp ht with ht | ht
    · obtain ⟨r,hr,hid⟩ := h.turnRuns t ht
      exact ⟨r,List.mem_append_left _ hr,hid⟩
    · obtain ⟨s,hs,rfl⟩ := List.mem_map.mp ht
      exact ⟨s.run,List.mem_append_right _ (List.mem_map_of_mem hs),rfl⟩
  · intro q hq
    obtain ⟨hmem,hne⟩ := List.mem_filter.mp hq
    have hne := of_decide_eq_true hne
    refine (h.passes q hmem).grow (fun _ hw => hw) ?_ ?_ ?_
    · intro i hi
      exact ⟨_,List.mem_map_of_mem hi,by split <;> exact .refl i⟩
    · intro j hj
      rcases mem_commitPass_items hj with ⟨i,hi,rfl,-⟩ | ⟨hold,-⟩
      · exact Or.inl ⟨i,hi,.refl i,nofun⟩
      · exact Or.inl ⟨j,hold,.refl j,id⟩
    · intro s hs
      have hapart : ∀ s' ∈ p.started, ¬(s.item.sessionId = s'.item.sessionId ∨ s.runId = s'.runId) :=
        fun s' hs' hsame => hne (congrArg Pass.id (h.apart q hmem p hp s hs s' hs' hsame).1)
      constructor
      · intro r hr he
        rcases List.mem_append.mp hr with hr | hr
        · exact ((h.passes q hmem).fresh s hs).1 r hr he
        · obtain ⟨s',hs',rfl⟩ := hnewRun r hr
          exact hapart s' hs' (Or.inr he.symm)
      · intro r hr hmade
        rcases List.mem_append.mp hr with hr | hr
        · exact ((h.passes q hmem).fresh s hs).2 r hr hmade
        · obtain ⟨s',hs',rfl⟩ := hnewRun r hr
          exact hapart s' hs' (Or.inl hmade.1.symm)
  · intro i hi hsent
    rcases mem_commitPass_items hi with ⟨j,hj,rfl,s,hs,hid⟩ | ⟨hold,-⟩
    · exact sentOnce_commit h hp hs hj hid (htext s hs j hj hid.symm)
    · refine (h.sent i hold hsent).append ?_ ?_ rfl rfl rfl
      · intro m hm r hr
        obtain ⟨s,hs,rfl⟩ := List.mem_map.mp hm
        exact (hpass.fresh s hs).1 r hr
      · intro t ht r hr
        obtain ⟨s,hs,rfl⟩ := List.mem_map.mp ht
        exact (hpass.fresh s hs).1 r hr
  · intro i hi j hj hrun hlt hsent hqueued
    rcases mem_commitPass_items hi with ⟨k,hk,rfl,-⟩ | ⟨hold,-⟩
    · cases hqueued
    · rcases mem_commitPass_items hj with ⟨k,hk,rfl,s,hs,hid⟩ | ⟨hold',-⟩
      · -- the pass would have found it, and started it first
        have hrow := row_of_started h hp hs hk hid
        have hmatched := (hpass.page _ (hpass.started s hs).1).1
        obtain ⟨m,hm,hsame⟩ := hpass.before s.item hmatched i hold (hrun.trans hrow.2.1) (hrow.2.2.2 ▸ hlt) hqueued
        obtain ⟨r,hr,hrid,hrsession⟩ := h.itemRuns i hold
        obtain ⟨r',hr',hrid',hrsession'⟩ := h.itemRuns k hk
        obtain rfl : r = r' := List.inj_on_of_nodup_map h.runIds hr hr' (hrid.trans (hrun.trans hrid'.symm))
        have hfirst := hpass.first s hs m hm (hsame.2.2.1.symm.trans (hrsession.symm.trans (hrsession'.trans hrow.2.2.1)))
        rw [← hsame.2.2.2, ← hrow.2.2.2] at hfirst
        exact absurd hlt (Nat.not_lt.mpr hfirst)
      · exact h.ordered i hold j hold' hrun hlt hsent hqueued
  · intro i hi hstop hqueued
    rcases mem_commitPass_items hi with ⟨k,hk,rfl,-⟩ | ⟨hold,-⟩
    · cases hqueued
    · exact h.stopped i hold hstop hqueued

end Commits

section Steps

theorem loadRun_some (h : loadRun w sessionId runId = some r) :
    r ∈ w.runs ∧ r.id = runId ∧ r.sessionId = sessionId ∧ writable w sessionId = true := by
  unfold loadRun at h
  split_ifs at h with hw
  have hwhich := List.find?_some h
  rw [Bool.and_eq_true] at hwhich
  exact ⟨List.mem_of_find?_eq_some h,of_decide_eq_true hwhich.1,of_decide_eq_true hwhich.2,hw⟩

/-- Items keep their rows; what is edited, removed or paused was pending. -/
def TameItems (g : Item → Item) : Prop :=
  ∀ i, SameRow i (g i) ∧ ((g i).status = .sent → i.status = .sent ∧ (g i).text = i.text) ∧
    ((g i).status = .queued → i.status = .queued)

theorem tameItems_update {p : Item → Bool} {f : Item → Item} (hrow : ∀ i, SameRow i (f i))
    (hsent : ∀ i, p i = true → (f i).status ≠ .sent)
    (hqueued : ∀ i, p i = true → (f i).status = .queued → i.status = .queued) :
    TameItems fun i => if p i then f i else i := by
  intro i
  beta_reduce
  by_cases hp : p i = true
  · rw [if_pos hp]
    exact ⟨hrow i,fun hs => absurd hs (hsent i hp),hqueued i hp⟩
  · rw [if_neg hp]
    exact ⟨.refl i,fun hs => ⟨hs,rfl⟩,id⟩

theorem tameRuns_update {p : RunRow → Bool} {f : RunRow → RunRow} (hf : ∀ r, SameRun r (f r)) :
    ∀ r, SameRun r (if p r then f r else r) := by
  intro r
  by_cases hp : p r = true
  · rw [if_pos hp]
    exact hf r
  · rw [if_neg hp]
    exact ⟨rfl,rfl,rfl⟩

/-- Pending rows are edited or removed. -/
theorem Kept.pending (h : Kept w) {itemId : ItemId} {f : Item → Item} (hrow : ∀ i, SameRow i (f i))
    (hstatus : ∀ i, (f i).status = i.status ∨ (f i).status = .removed) :
    Kept { w with items := updateWhere (fun i => i.id = itemId && i.runId = runId && i.pending) f w.items } := by
  have hpending : ∀ i : Item, (decide (i.id = itemId) && decide (i.runId = runId) && i.pending) = true →
      i.status = .queued ∨ i.status = .paused := by
    intro i hi
    rw [Bool.and_eq_true] at hi
    simpa only [Item.pending, Bool.or_eq_true, decide_eq_true_eq] using hi.2
  have htame : TameItems fun i => if decide (i.id = itemId) && decide (i.runId = runId) && i.pending then f i else i := by
    refine tameItems_update hrow (fun i hi hs => ?_) fun i _ hq => ?_
    · rcases hstatus i with he | he
      · rw [he] at hs
        rcases hpending i hi with hp | hp <;> · rw [hp] at hs; cases hs
      · rw [he] at hs
        cases hs
    · rcases hstatus i with he | he
      · exact he ▸ hq
      · rw [he] at hq
        cases hq
  refine Kept.tame (w := w) ⟨fun _ hw => hw,⟨id,(List.map_id _).symm,fun _ => ⟨rfl,rfl,rfl⟩⟩,⟨_,rfl,htame⟩,rfl,rfl,rfl⟩ h ?_
  intro i hi hstop hq
  obtain ⟨j,hj,rfl⟩ := List.mem_map.mp hi
  exact h.stopped j hj ((htame j).1.2.1 ▸ hstop) ((htame j).2.2 hq)

/-- Runs change their status, and a person may resume some. -/
theorem Kept.runs (h : Kept w) {p : RunRow → Bool} {f : RunRow → RunRow} (hf : ∀ r, SameRun r (f r)) {stops : List RunId}
    (hstops : ∀ id ∈ stops, id ∈ w.stops) : Kept { w with runs := updateWhere p f w.runs, stops := stops } :=
  Kept.tame (w := w) ⟨fun _ hw => hw,⟨_,rfl,tameRuns_update hf⟩,⟨id,(List.map_id _).symm,
    fun i => ⟨.refl i,fun hs => ⟨hs,rfl⟩,id⟩⟩,rfl,rfl,rfl⟩ h fun i hi hstop => h.stopped i hi (hstops _ hstop)

theorem Kept.closes (h : Kept w) : Kept { w with
    sessions := updateWhere (fun s => decide (s.id = sessionId)) (fun s => { s with readOnly := true }) w.sessions } := by
  refine Kept.tame (w := w) ⟨?_,⟨id,(List.map_id _).symm,fun _ => ⟨rfl,rfl,rfl⟩⟩,⟨id,(List.map_id _).symm,
    fun i => ⟨.refl i,fun hs => ⟨hs,rfl⟩,id⟩⟩,rfl,rfl,rfl⟩ h h.stopped
  intro other hw
  obtain ⟨s,hs,hopen⟩ := List.any_eq_true.mp hw
  rcases mem_updateWhere.mp hs with ⟨s',-,-,rfl⟩ | ⟨hold,-⟩
  · simp only [Bool.not_true, Bool.and_false, Bool.false_eq_true] at hopen
  · exact List.any_eq_true.mpr ⟨s,hold,hopen⟩

theorem Kept.stopRun (h : Kept w) : Kept { w with
    runs := updateWhere (fun s => decide (s.id = runId)) (fun s => { s with status := .stopping, stopRequested := true }) w.runs,
    items := updateWhere (fun i => i.runId = runId && i.status = .queued) (fun i => { i with status := .paused }) w.items,
    stops := runId :: w.stops } := by
  have htame : TameItems fun i => if decide (i.runId = runId) && decide (i.status = .queued) then { i with status := .paused } else i :=
    tameItems_update (fun i => .refl i) (fun _ _ hs => by cases hs) fun _ _ hq => by cases hq
  refine Kept.tame (w := w) ⟨fun _ hw => hw,⟨_,rfl,tameRuns_update fun _ => ⟨rfl,rfl,rfl⟩⟩,⟨_,rfl,htame⟩,rfl,rfl,rfl⟩ h ?_
  intro i hi hstop hq
  rcases mem_updateWhere.mp hi with ⟨j,-,-,rfl⟩ | ⟨hold,hnot⟩
  · cases hq
  · rcases List.mem_cons.mp hstop with hrun | hstop
    · rw [hrun, hq] at hnot
      simp only [decide_true, Bool.and_self, Bool.true_eq_false] at hnot
    · exact h.stopped i hold hstop hq

/-- One item of a pass's page. -/
theorem Kept.send (h : Kept w) (hp : p ∈ w.passes) {item : Item} {rest : List Item} (htodo : p.todo = item :: rest)
    (hs : sendNext w p item rest runId = .ok w') : Kept w' := by
  unfold sendNext at hs
  split_ifs at hs with hseen hclosed hothers hbroken hfresh
  · cases hs
    exact h.passOver hp htodo p.seen (fun _ hs _ => hs) (fun _ hs => hs) hseen
  · cases hs
    refine h.passOver hp htodo (item.sessionId :: p.seen) (fun other hs hw => ?_) (fun _ hs => List.mem_cons_of_mem _ hs)
      (List.mem_cons_self ..)
    rcases List.mem_cons.mp hs with rfl | hs
    · rw [hw] at hclosed
      cases hclosed
    · exact hs
  · cases hs
    exact h.endPass p.id
  · cases hs
    simp only [Bool.or_eq_true, not_or, Bool.not_eq_true] at hbroken
    refine h.start hp htodo hseen ?_ ?_ (by simpa using hfresh)
    · intro q hq hne s hs hsession
      refine hothers (List.any_eq_true.mpr ⟨q,hq,?_⟩)
      rw [Bool.and_eq_true]
      exact ⟨decide_eq_true hne,List.any_eq_true.mpr ⟨s,hs,decide_eq_true hsession⟩⟩
    · intro r hr hmade
      refine List.any_eq_false.mp hbroken.2 r hr ?_
      rw [Bool.and_eq_true]
      exact ⟨decide_eq_true hmade.1,decide_eq_true hmade.2⟩

/-- What an admitted commit finds. -/
theorem admits_commit {passId : PassId} (h : admits w (.commit passId) = true) (hp : p ∈ w.passes) (hid : p.id = passId) :
    (∀ s ∈ p.started, ∀ i ∈ w.items, i.id = s.item.id → i.text = s.item.text ∧ i.status ≠ .paused) ∧
      ((∃ i ∈ p.page, writable w i.sessionId = true) ∨ ∀ i ∈ p.matched, writable w i.sessionId = false) := by
  have hpass := List.all_eq_true.mp h p hp
  simp only [hid, ne_eq, not_true_eq_false, decide_false, Bool.false_or, Bool.and_eq_true, Bool.or_eq_true] at hpass
  refine ⟨fun s hs i hi he => ?_,hpass.2.imp (fun hany => ?_) fun hall i hi => ?_⟩
  · have hrow := List.all_eq_true.mp (List.all_eq_true.mp hpass.1 s hs) i hi
    simpa [he] using hrow
  · exact List.any_eq_true.mp hany
  · simpa using List.all_eq_true.mp hall i hi

theorem Kept.step (h : Kept w) (hok : admits w e = true) (hs : Step w e w') : Kept w' := by
  unfold Step Applied at hs
  cases e with
  | closes sessionId =>
    cases hs
    exact h.closes
  | createTurn sessionId runId clientTurnId text =>
    simp only [apply] at hs
    split_ifs at hs with hrefused
    cases hs
    simp only [Bool.or_eq_true, not_or, Bool.not_eq_true, Bool.not_eq_false'] at hrefused
    refine h.createTurn hrefused.1.1.2 hrefused.1.2 fun r hr hsession hclient => ?_
    refine List.any_eq_false.mp hrefused.2 r hr ?_
    rw [Bool.and_eq_true]
    exact ⟨decide_eq_true hsession,decide_eq_true hclient⟩
  | queueMessage sessionId runId itemId text =>
    simp only [apply] at hs
    split at hs
    · rename_i r hload
      obtain ⟨hr,hid,hsession,-⟩ := loadRun_some hload
      split_ifs at hs with htaken hstopping
      · cases hs
        exact h.queueMessage hr hid hsession (fun i hi he => htaken (List.any_eq_true.mpr ⟨i,hi,decide_eq_true he⟩)) nofun nofun
      · cases hs
        refine h.queueMessage hr hid hsession (fun i hi he => htaken (List.any_eq_true.mpr ⟨i,hi,decide_eq_true he⟩)) nofun ?_
        intro hstop
        simp only [admits, Bool.or_eq_true, decide_eq_true_eq, List.all_eq_true] at hok
        rcases hok with hnot | hall
        · exact absurd hstop hnot
        · rcases hall r hr with (hne | hst) | hst
          · exact absurd hid hne
          · exact absurd (Or.inl hst) hstopping
          · exact absurd (Or.inr hst) hstopping
    · cases hs
  | stopRun sessionId runId =>
    simp only [apply] at hs
    split at hs
    · rename_i r hload
      obtain ⟨hr,hid,-,-⟩ := loadRun_some hload
      split_ifs at hs with hended hmarked
      · cases hs
        refine Kept.tame (w := w) ⟨fun _ hw => hw,⟨id,(List.map_id _).symm,fun _ => ⟨rfl,rfl,rfl⟩⟩,⟨id,(List.map_id _).symm,
          fun i => ⟨.refl i,fun hs => ⟨hs,rfl⟩,id⟩⟩,rfl,rfl,rfl⟩ h fun i hi hstop => ?_
        rcases List.mem_cons.mp hstop with hrun | hstop
        · simp only [admits, Bool.or_eq_true, List.any_eq_true, List.all_eq_true, Bool.and_eq_true, decide_eq_true_eq] at hok
          rcases hok with ⟨r',hr',hid',hlive⟩ | hall
          · obtain rfl : r' = r := List.inj_on_of_nodup_map h.runIds hr' hr (hid'.trans hid.symm)
            rw [hlive] at hended
            cases hended
          · exact (hall i hi).resolve_left fun hne => hne hrun
        · exact h.stopped i hi hstop
      · cases hs
        exact h.stopRun
    · cases hs
  | editQueueItem sessionId runId itemId text =>
    simp only [apply] at hs
    split_ifs at hs
    cases hs
    exact h.pending (fun i => .refl i) fun _ => Or.inl rfl
  | removeQueueItem sessionId runId itemId =>
    simp only [apply] at hs
    split_ifs at hs
    cases hs
    exact h.pending (fun i => .refl i) fun _ => Or.inr rfl
  | setRunStatus runId status =>
    cases hs
    exact h.runs (f := fun r => { r with status := status }) (fun _ => ⟨rfl,rfl,rfl⟩) fun _ hid => hid
  | retryTask runId automatic =>
    simp only [apply] at hs
    split at hs
    · split_ifs at hs
      · cases hs
        exact h.runs (f := fun s => { s with status := .working, stopRequested := false }) (fun _ => ⟨rfl,rfl,rfl⟩) fun _ hid => hid
      · cases hs
        exact h.runs (f := fun s => { s with status := .working, stopRequested := false }) (fun _ => ⟨rfl,rfl,rfl⟩) fun _ hid => (List.mem_filter.mp hid).1
    · cases hs
  | scan passId page =>
    simp only [apply] at hs
    split_ifs at hs with hrefused
    cases hs
    simp only [Bool.or_eq_true, not_or, Bool.not_eq_true, Bool.not_eq_false', decide_eq_true_eq] at hrefused
    exact h.scan (fun p hp he => List.any_eq_false.mp hrefused.1 p hp (decide_eq_true he)) hrefused.2
  | send passId runId =>
    simp only [apply] at hs
    split at hs
    · rename_i p hfind
      split at hs
      · rename_i htodo
        exact h.send (of_find?_key hfind).1 htodo hs
      · cases hs
    · cases hs
  | commit passId =>
    simp only [apply] at hs
    split at hs
    · rename_i p hfind
      obtain ⟨hp,hid⟩ := of_find?_key hfind
      split_ifs at hs
      cases hs
      exact h.commit hp fun s hs i hi he => ((admits_commit hok hp hid).1 s hs i hi he).1
    · cases hs
  | fail passId =>
    cases hs
    exact h.endPass passId

theorem Kept.initial (h : Initial w) : Kept w := by
  obtain ⟨sessions,rfl⟩ := h
  exact ⟨List.nodup_nil,List.nodup_nil,nofun,nofun,nofun,nofun,List.nodup_nil,nofun,nofun,nofun,nofun,nofun,nofun⟩

end Steps

end HermesEnterprise.RunQueue
