import HermesEnterprise.RunQueue.Items

/-! # What an open pass may rely on

An open pass holds a picture of the queue. Rows are never deleted, positions only grow, and nothing
goes back to queued, so the picture stays right about ids, sessions and positions; the unique
indexes keep what it started apart from what others write.
-/
namespace HermesEnterprise.RunQueue
open Foundation.Runs Foundation.Tables RunLog
variable {w w' : World} {e : Event} {p q : Pass} {i j : Item} {s : Started} {r : RunRow}
  {runId : RunId} {sessionId : SessionId}

/-- The row is where it was, whatever became of its text and status. -/
def SameRow (i j : Item) : Prop :=
  j.id = i.id ∧ j.runId = i.runId ∧ j.sessionId = i.sessionId ∧ j.position = i.position

/-- What one pass has read and started. -/
structure PassKept (w : World) (p : Pass) : Prop where
  sorted : p.todo.Pairwise fun i j => i.position ≤ j.position
  todo : ∀ i ∈ p.todo, i ∈ p.page
  page : ∀ i ∈ p.page, i ∈ p.matched ∧ (i ∈ p.todo ∨ i.sessionId ∈ p.seen)
  cut : ∀ i ∈ p.matched, i ∉ p.page → ∀ j ∈ p.page, j.position ≤ i.position
  rows : ∀ i ∈ p.matched, ∃ j ∈ w.items, SameRow i j
  /-- What is queued before a matched row of its run was matched too. -/
  before : ∀ i ∈ p.matched, ∀ j ∈ w.items, j.runId = i.runId → j.position < i.position → j.status = .queued →
    ∃ k ∈ p.matched, SameRow k j
  seen : ∀ sessionId ∈ p.seen, writable w sessionId = true → ∃ s ∈ p.started, s.item.sessionId = sessionId
  started : ∀ s ∈ p.started, s.item ∈ p.page ∧ s.item.sessionId ∈ p.seen
  first : ∀ s ∈ p.started, ∀ i ∈ p.matched, i.sessionId = s.item.sessionId → s.item.position ≤ i.position
  fresh : ∀ s ∈ p.started, (∀ r ∈ w.runs, r.id ≠ s.runId) ∧ ∀ r ∈ w.runs, ¬ madeOf s.item r

structure Kept (w : World) : Prop where
  itemIds : (w.items.map (·.id)).Nodup
  runIds : (w.runs.map (·.id)).Nodup
  turnKeys : ∀ r ∈ w.runs, ∀ r' ∈ w.runs, r.sessionId = r'.sessionId → r.clientTurnId = r'.clientTurnId → r = r'
  itemRuns : ∀ i ∈ w.items, ∃ r ∈ w.runs, r.id = i.runId ∧ r.sessionId = i.sessionId
  messageRuns : ∀ m ∈ w.messages, ∃ r ∈ w.runs, r.id = m.runId
  turnRuns : ∀ t ∈ w.turns, ∃ r ∈ w.runs, r.id = t.runId
  passIds : (w.passes.map (·.id)).Nodup
  passes : ∀ p ∈ w.passes, PassKept w p
  /-- Two starts that are not committed are of two sessions and two runs. -/
  apart : ∀ p ∈ w.passes, ∀ q ∈ w.passes, ∀ s ∈ p.started, ∀ s' ∈ q.started,
    s.item.sessionId = s'.item.sessionId ∨ s.runId = s'.runId → p = q ∧ s = s'
  distinct : ∀ p ∈ w.passes, p.started.Nodup
  sent : ∀ i ∈ w.items, i.status = .sent → SentOnce w i
  ordered : ∀ i ∈ w.items, ∀ j ∈ w.items, i.runId = j.runId → i.position < j.position → j.status = .sent → i.status ≠ .queued
  stopped : ∀ i ∈ w.items, i.runId ∈ w.stops → i.status ≠ .queued

section Rows

theorem SameRow.refl (i : Item) : SameRow i i := ⟨rfl,rfl,rfl,rfl⟩

theorem SameRow.trans {k : Item} (h : SameRow i j) (h' : SameRow j k) : SameRow i k :=
  ⟨h'.1.trans h.1,h'.2.1.trans h.2.1,h'.2.2.1.trans h.2.2.1,h'.2.2.2.trans h.2.2.2⟩

theorem lt_nextPosition (hi : i ∈ w.items) : i.position < nextPosition w i.runId := by
  have hmem : i ∈ w.items.filter fun j => j.runId = i.runId := List.mem_filter.mpr ⟨hi,decide_eq_true rfl⟩
  unfold nextPosition
  revert hmem
  generalize (w.items.filter fun j => j.runId = i.runId) = rows
  intro hmem
  induction rows with
  | nil => cases hmem
  | cons k rest ih =>
    rw [List.foldr_cons]
    rcases List.mem_cons.mp hmem with rfl | hrest
    · exact Nat.lt_of_lt_of_le (Nat.lt_succ_self _) (Nat.le_max_left _ _)
    · exact Nat.lt_of_lt_of_le (ih hrest) (Nat.le_max_right _ _)

/-- A pass's picture outlives what others write: rows stay, new ones come behind those of their run, and
nothing is queued again. -/
theorem PassKept.grow (hp : PassKept w p) (hwritable : ∀ sessionId, writable w' sessionId = true → writable w sessionId = true)
    (hrows : ∀ i ∈ w.items, ∃ j ∈ w'.items, SameRow i j)
    (hold : ∀ j ∈ w'.items, (∃ i ∈ w.items, SameRow i j ∧ (j.status = .queued → i.status = .queued)) ∨
      ∀ i ∈ w.items, i.runId = j.runId → i.position < j.position)
    (hfresh : ∀ s ∈ p.started, (∀ r ∈ w'.runs, r.id ≠ s.runId) ∧ ∀ r ∈ w'.runs, ¬ madeOf s.item r) : PassKept w' p where
  sorted := hp.sorted
  todo := hp.todo
  page := hp.page
  cut := hp.cut
  rows := by
    intro i hi
    obtain ⟨j,hj,hsame⟩ := hp.rows i hi
    obtain ⟨k,hk,hsame'⟩ := hrows j hj
    exact ⟨k,hk,hsame.trans hsame'⟩
  before := by
    intro i hi j hj hrun hlt hqueued
    rcases hold j hj with ⟨k,hk,hsame,hstatus⟩ | hbehind
    · obtain ⟨m,hm,hsame'⟩ := hp.before i hi k hk (hsame.2.1.symm.trans hrun) (hsame.2.2.2 ▸ hlt) (hstatus hqueued)
      exact ⟨m,hm,hsame'.trans hsame⟩
    · obtain ⟨k,hk,hsame⟩ := hp.rows i hi
      have hgt := hbehind k hk (hsame.2.1.trans hrun.symm)
      rw [hsame.2.2.2] at hgt
      omega
  seen := fun sessionId hseen hw => hp.seen sessionId hseen (hwritable sessionId hw)
  started := hp.started
  first := hp.first
  fresh := hfresh

end Rows

section Tame

def SameRun (r r' : RunRow) : Prop := r'.id = r.id ∧ r'.sessionId = r.sessionId ∧ r'.clientTurnId = r.clientTurnId

/-- A step that opens no session, makes no row, queues nothing again, and leaves alone what was sent. -/
structure Tame (w w' : World) : Prop where
  writable : ∀ sessionId, writable w' sessionId = true → writable w sessionId = true
  runs : ∃ f : RunRow → RunRow, w'.runs = w.runs.map f ∧ ∀ r, SameRun r (f r)
  items : ∃ g : Item → Item, w'.items = w.items.map g ∧ ∀ i, SameRow i (g i) ∧
    ((g i).status = .sent → i.status = .sent ∧ (g i).text = i.text) ∧ ((g i).status = .queued → i.status = .queued)
  messages : w'.messages = w.messages
  turns : w'.turns = w.turns
  passes : w'.passes = w.passes

theorem madeOf_congr {i i' : Item} {r r' : RunRow} (hi : SameRow i i') (hr : SameRun r r') :
    madeOf i' r' ↔ madeOf i r := by
  unfold madeOf
  rw [hr.2.1, hr.2.2, hi.2.2.1, hi.1]

variable (h : Tame w w')
include h

theorem Tame.run (hr : r ∈ w.runs) : ∃ r' ∈ w'.runs, SameRun r r' := by
  obtain ⟨f,hruns,hf⟩ := h.runs
  exact ⟨f r,hruns ▸ List.mem_map_of_mem hr,hf r⟩

theorem Tame.run_old (hr : r ∈ w'.runs) : ∃ r' ∈ w.runs, SameRun r' r := by
  obtain ⟨f,hruns,hf⟩ := h.runs
  rw [hruns] at hr
  obtain ⟨r',hr',rfl⟩ := List.mem_map.mp hr
  exact ⟨r',hr',hf r'⟩

theorem Tame.item (hi : i ∈ w.items) : ∃ j ∈ w'.items, SameRow i j := by
  obtain ⟨g,hitems,hg⟩ := h.items
  exact ⟨g i,hitems ▸ List.mem_map_of_mem hi,(hg i).1⟩

theorem Tame.item_old (hi : i ∈ w'.items) : ∃ j ∈ w.items, SameRow j i ∧
    (i.status = .sent → j.status = .sent ∧ i.text = j.text) ∧ (i.status = .queued → j.status = .queued) := by
  obtain ⟨g,hitems,hg⟩ := h.items
  rw [hitems] at hi
  obtain ⟨j,hj,rfl⟩ := List.mem_map.mp hi
  exact ⟨j,hj,hg j⟩

theorem PassKept.tame (hp : PassKept w p) : PassKept w' p := by
  refine hp.grow h.writable (fun _ hi => h.item hi) (fun i hi => ?_) ?_
  · obtain ⟨j,hj,hsame,-,hstatus⟩ := h.item_old hi
    exact Or.inl ⟨j,hj,hsame,hstatus⟩
  · intro s hs
    obtain ⟨hids,hkeys⟩ := hp.fresh s hs
    constructor
    · intro r hr
      obtain ⟨r',hr',hsame⟩ := h.run_old hr
      rw [hsame.1]
      exact hids r' hr'
    · intro r hr hmade
      obtain ⟨r',hr',hsame⟩ := h.run_old hr
      exact hkeys r' hr' ((madeOf_congr (SameRow.refl _) hsame).mp hmade)

theorem Kept.tame (hk : Kept w) (hstopped : ∀ i ∈ w'.items, i.runId ∈ w'.stops → i.status ≠ .queued) : Kept w' where
  itemIds := by
    obtain ⟨g,hitems,hg⟩ := h.items
    have hids : w'.items.map (·.id) = w.items.map (·.id) := by
      rw [hitems, List.map_map]
      exact List.map_congr_left fun i _ => (hg i).1.1
    rw [hids]
    exact hk.itemIds
  runIds := by
    obtain ⟨f,hruns,hf⟩ := h.runs
    have hids : w'.runs.map (·.id) = w.runs.map (·.id) := by
      rw [hruns, List.map_map]
      exact List.map_congr_left fun r _ => (hf r).1
    rw [hids]
    exact hk.runIds
  turnKeys := by
    obtain ⟨f,hruns,hf⟩ := h.runs
    intro r hr r' hr' hsession hclient
    rw [hruns] at hr hr'
    obtain ⟨q,hq,rfl⟩ := List.mem_map.mp hr
    obtain ⟨q',hq',rfl⟩ := List.mem_map.mp hr'
    rw [(hf q).2.1, (hf q').2.1] at hsession
    rw [(hf q).2.2, (hf q').2.2] at hclient
    rw [hk.turnKeys q hq q' hq' hsession hclient]
  itemRuns := by
    intro i hi
    obtain ⟨j,hj,hsame,-⟩ := h.item_old hi
    obtain ⟨r,hr,hid,hsession⟩ := hk.itemRuns j hj
    obtain ⟨r',hr',hrun⟩ := h.run hr
    exact ⟨r',hr',hrun.1.trans (hid.trans hsame.2.1.symm),hrun.2.1.trans (hsession.trans hsame.2.2.1.symm)⟩
  messageRuns := by
    intro m hm
    obtain ⟨r,hr,hid⟩ := hk.messageRuns m (h.messages ▸ hm)
    obtain ⟨r',hr',hrun⟩ := h.run hr
    exact ⟨r',hr',hrun.1.trans hid⟩
  turnRuns := by
    intro t ht
    obtain ⟨r,hr,hid⟩ := hk.turnRuns t (h.turns ▸ ht)
    obtain ⟨r',hr',hrun⟩ := h.run hr
    exact ⟨r',hr',hrun.1.trans hid⟩
  passIds := h.passes ▸ hk.passIds
  passes := fun p hp => (hk.passes p (h.passes ▸ hp)).tame h
  apart := h.passes ▸ hk.apart
  distinct := h.passes ▸ hk.distinct
  sent := by
    intro i hi hsent
    obtain ⟨j,hj,hsame,hsentOld,-⟩ := h.item_old hi
    obtain ⟨hstatus,htext⟩ := hsentOld hsent
    obtain ⟨r,hr,hmade,hmessages,hturns⟩ := hk.sent j hj hstatus
    obtain ⟨r',hr',hrun⟩ := h.run hr
    refine ⟨r',hr',(madeOf_congr hsame hrun).mpr hmade,?_,?_⟩
    · rw [h.messages, hrun.1, hmessages, hsame.2.2.1, htext]
    · rw [h.turns, hrun.1, hturns, htext]
  ordered := by
    intro i hi j hj hrun hlt hsent hqueued
    obtain ⟨i',hi',hsame,-,hstatus⟩ := h.item_old hi
    obtain ⟨j',hj',hsame',hsentOld,-⟩ := h.item_old hj
    refine hk.ordered i' hi' j' hj' ?_ ?_ (hsentOld hsent).1 (hstatus hqueued)
    · rw [← hsame.2.1, ← hsame'.2.1]
      exact hrun
    · rw [← hsame.2.2.2, ← hsame'.2.2.2]
      exact hlt
  stopped := hstopped

end Tame

section Rows

/-- A run's own message among those of runs that are there already. -/
theorem filter_fresh {α : Type} {rows : List α} {f : α → RunId} (hruns : ∀ m ∈ rows, ∃ r ∈ w.runs, r.id = f m)
    (hfresh : ∀ r ∈ w.runs, r.id ≠ runId) : rows.filter (fun m => decide (f m = runId)) = [] := by
  refine List.filter_eq_nil_iff.mpr fun m hm hid => ?_
  obtain ⟨r,hr,hrun⟩ := hruns m hm
  exact hfresh r hr (hrun.trans (of_decide_eq_true hid))

theorem SentOnce.append {runs : List RunRow} {messages : List Message} {turns : List FirstTurn} (h : SentOnce w i)
    (hmessages : ∀ m ∈ messages, ∀ r ∈ w.runs, r.id ≠ m.runId) (hturns : ∀ t ∈ turns, ∀ r ∈ w.runs, r.id ≠ t.runId)
    (hw : w'.runs = w.runs ++ runs) (hm : w'.messages = w.messages ++ messages) (ht : w'.turns = w.turns ++ turns) :
    SentOnce w' i := by
  obtain ⟨r,hr,hmade,hmessage,hturn⟩ := h
  refine ⟨r,hw ▸ List.mem_append_left _ hr,hmade,?_,?_⟩
  · rw [hm, List.filter_append, hmessage, List.filter_eq_nil_iff.mpr, List.append_nil]
    exact fun m hm' hid => hmessages m hm' r hr (of_decide_eq_true hid).symm
  · rw [ht, List.filter_append, hturn, List.filter_eq_nil_iff.mpr, List.append_nil]
    exact fun t ht' hid => hturns t ht' r hr (of_decide_eq_true hid).symm

end Rows

section Growth
variable {clientTurnId text : String} {itemId : ItemId} {status : ItemStatus}

theorem not_starting (h : starting w sessionId = false) (hp : p ∈ w.passes) (hs : s ∈ p.started) :
    s.item.sessionId ≠ sessionId := fun hsession =>
  List.any_eq_false.mp (Bool.eq_false_iff.mpr (List.any_eq_false.mp h p hp)) s hs (decide_eq_true hsession)

theorem freshRun_runs (h : freshRun w runId = true) (hr : r ∈ w.runs) : r.id ≠ runId := by
  unfold freshRun at h
  rw [Bool.and_eq_true] at h
  exact of_decide_eq_true (List.all_eq_true.mp h.1 r hr)

theorem freshRun_passes (h : freshRun w runId = true) (hp : p ∈ w.passes) (hs : s ∈ p.started) : s.runId ≠ runId := by
  unfold freshRun at h
  rw [Bool.and_eq_true] at h
  exact of_decide_eq_true (List.all_eq_true.mp (List.all_eq_true.mp h.2 p hp) s hs)

theorem nodup_append_new {α κ : Type} {rows : List α} {key : α → κ} {a : α} (h : (rows.map key).Nodup)
    (hnew : ∀ b ∈ rows, key b ≠ key a) : ((rows ++ [a]).map key).Nodup := by
  rw [List.map_append]
  refine h.append (List.nodup_singleton _) fun k hk hk' => ?_
  obtain ⟨b,hb,rfl⟩ := List.mem_map.mp hk
  exact hnew b hb (List.mem_singleton.mp hk')

theorem Kept.createTurn (h : Kept w) (hstarting : starting w sessionId = false) (hfresh : freshRun w runId = true)
    (hkey : ∀ r ∈ w.runs, r.sessionId = sessionId → r.clientTurnId ≠ clientTurnId) :
    Kept { w with
      runs := w.runs ++ [⟨runId,sessionId,.working,clientTurnId,false⟩],
      messages := w.messages ++ [⟨sessionId,runId,text⟩],
      turns := w.turns ++ [⟨runId,text⟩] } where
  itemIds := h.itemIds
  runIds := nodup_append_new h.runIds fun r hr => freshRun_runs hfresh hr
  turnKeys := by
    intro r hr r' hr' hsession hclient
    rcases List.mem_append.mp hr with hr | hr
    · rcases List.mem_append.mp hr' with hr' | hr'
      · exact h.turnKeys r hr r' hr' hsession hclient
      · cases List.mem_singleton.mp hr'
        exact absurd hclient (hkey r hr hsession)
    · cases List.mem_singleton.mp hr
      rcases List.mem_append.mp hr' with hr' | hr'
      · exact absurd hclient.symm (hkey r' hr' hsession.symm)
      · cases List.mem_singleton.mp hr'
        rfl
  itemRuns := by
    intro i hi
    obtain ⟨r,hr,hwhich⟩ := h.itemRuns i hi
    exact ⟨r,List.mem_append_left _ hr,hwhich⟩
  messageRuns := by
    intro m hm
    rcases List.mem_append.mp hm with hm | hm
    · obtain ⟨r,hr,hid⟩ := h.messageRuns m hm
      exact ⟨r,List.mem_append_left _ hr,hid⟩
    · cases List.mem_singleton.mp hm
      exact ⟨_,List.mem_append_right _ (List.mem_singleton_self _),rfl⟩
  turnRuns := by
    intro t ht
    rcases List.mem_append.mp ht with ht | ht
    · obtain ⟨r,hr,hid⟩ := h.turnRuns t ht
      exact ⟨r,List.mem_append_left _ hr,hid⟩
    · cases List.mem_singleton.mp ht
      exact ⟨_,List.mem_append_right _ (List.mem_singleton_self _),rfl⟩
  passIds := h.passIds
  passes := by
    intro p hp
    refine (h.passes p hp).grow (fun _ hw => hw) (fun i hi => ⟨i,hi,.refl i⟩) (fun i hi => Or.inl ⟨i,hi,.refl i,id⟩) ?_
    intro s hs
    constructor
    · intro r hr
      rcases List.mem_append.mp hr with hr | hr
      · exact ((h.passes p hp).fresh s hs).1 r hr
      · cases List.mem_singleton.mp hr
        exact (freshRun_passes hfresh hp hs).symm
    · intro r hr hmade
      rcases List.mem_append.mp hr with hr | hr
      · exact ((h.passes p hp).fresh s hs).2 r hr hmade
      · cases List.mem_singleton.mp hr
        exact not_starting hstarting hp hs hmade.1.symm
  apart := h.apart
  distinct := h.distinct
  sent := by
    intro i hi hsent
    refine (h.sent i hi hsent).append ?_ ?_ rfl rfl rfl
    · intro m hm r hr
      cases List.mem_singleton.mp hm
      exact freshRun_runs hfresh hr
    · intro t ht r hr
      cases List.mem_singleton.mp ht
      exact freshRun_runs hfresh hr
  ordered := h.ordered
  stopped := h.stopped

/-- A message queued behind a run comes behind the others of the run. -/
theorem Kept.queueMessage (h : Kept w) (hr : r ∈ w.runs) (hid : r.id = runId) (hsession : r.sessionId = sessionId)
    (hfresh : ∀ i ∈ w.items, i.id ≠ itemId) (hsent : status ≠ .sent) (hstopped : runId ∈ w.stops → status ≠ .queued) :
    Kept { w with items := w.items ++ [⟨itemId,runId,sessionId,text,status,nextPosition w runId⟩] } where
  itemIds := nodup_append_new h.itemIds hfresh
  runIds := h.runIds
  turnKeys := h.turnKeys
  itemRuns := by
    intro i hi
    rcases List.mem_append.mp hi with hi | hi
    · exact h.itemRuns i hi
    · cases List.mem_singleton.mp hi
      exact ⟨r,hr,hid,hsession⟩
  messageRuns := h.messageRuns
  turnRuns := h.turnRuns
  passIds := h.passIds
  passes := by
    intro p hp
    refine (h.passes p hp).grow (fun _ hw => hw) (fun i hi => ⟨i,List.mem_append_left _ hi,.refl i⟩) ?_ (h.passes p hp).fresh
    intro j hj
    rcases List.mem_append.mp hj with hj | hj
    · exact Or.inl ⟨j,hj,.refl j,id⟩
    · cases List.mem_singleton.mp hj
      refine Or.inr fun i hi hrun => ?_
      have hbehind := lt_nextPosition hi
      rwa [hrun] at hbehind
  apart := h.apart
  distinct := h.distinct
  sent := by
    intro i hi hstatus
    rcases List.mem_append.mp hi with hi | hi
    · exact h.sent i hi hstatus
    · cases List.mem_singleton.mp hi
      exact absurd hstatus hsent
  ordered := by
    intro i hi j hj hrun hlt hstatus
    rcases List.mem_append.mp hj with hj | hj
    · rcases List.mem_append.mp hi with hi | hi
      · exact h.ordered i hi j hj hrun hlt hstatus
      · cases List.mem_singleton.mp hi
        have hbehind := lt_nextPosition hj
        rw [← hrun] at hbehind
        exact absurd hlt (Nat.not_lt.mpr hbehind.le)
    · cases List.mem_singleton.mp hj
      exact absurd hstatus hsent
  stopped := by
    intro i hi hstop
    rcases List.mem_append.mp hi with hi | hi
    · exact h.stopped i hi hstop
    · cases List.mem_singleton.mp hi
      exact hstopped hstop

end Growth

section Passes
variable {next : Pass} {item : Item} {rest : List Item}

theorem mem_setPass (h : q ∈ (setPass w next).passes) : q = next ∨ (q ∈ w.passes ∧ q.id ≠ next.id) := by
  obtain ⟨p,hp,heq⟩ := List.mem_map.mp h
  by_cases hid : p.id = next.id
  · rw [if_pos hid] at heq
    exact Or.inl heq.symm
  · rw [if_neg hid] at heq
    exact Or.inr ⟨heq ▸ hp,heq ▸ hid⟩

theorem map_id_setPass (w : World) (next : Pass) : (setPass w next).passes.map (·.id) = w.passes.map (·.id) := by
  unfold setPass
  rw [List.map_map]
  refine List.map_congr_left fun q _ => ?_
  by_cases hid : q.id = next.id
  · simp only [Function.comp, hid, if_true]
  · simp only [Function.comp, hid, if_false]

theorem PassKept.same (h : PassKept w p) (hsessions : w'.sessions = w.sessions) (hitems : w'.items = w.items)
    (hruns : w'.runs = w.runs) : PassKept w' p := by
  refine h.grow (fun sessionId hw => ?_) (fun i hi => ⟨i,hitems ▸ hi,.refl i⟩)
    (fun i hi => Or.inl ⟨i,hitems ▸ hi,.refl i,id⟩) (hruns ▸ h.fresh)
  unfold writable at hw ⊢
  rw [← hsessions]
  exact hw

theorem Kept.setPass (h : Kept w) (hid : next.id = p.id) (hnext : PassKept w next) (hdistinct : next.started.Nodup)
    (hself : ∀ s ∈ next.started, ∀ s' ∈ next.started,
      s.item.sessionId = s'.item.sessionId ∨ s.runId = s'.runId → s = s')
    (hothers : ∀ s ∈ next.started, ∀ q ∈ w.passes, q.id ≠ p.id → ∀ s' ∈ q.started,
      ¬(s.item.sessionId = s'.item.sessionId ∨ s.runId = s'.runId)) : Kept (RunQueue.setPass w next) where
  itemIds := h.itemIds
  runIds := h.runIds
  turnKeys := h.turnKeys
  itemRuns := h.itemRuns
  messageRuns := h.messageRuns
  turnRuns := h.turnRuns
  passIds := by
    rw [map_id_setPass]
    exact h.passIds
  passes := by
    intro q hq
    rcases mem_setPass hq with rfl | ⟨hold,-⟩
    · exact hnext.same rfl rfl rfl
    · exact (h.passes q hold).same rfl rfl rfl
  apart := by
    intro a ha b hb s hs s' hs' hsame
    rcases mem_setPass ha with rfl | ⟨hold,hne⟩
    · rcases mem_setPass hb with rfl | ⟨hold',hne'⟩
      · exact ⟨rfl,hself s hs s' hs' hsame⟩
      · exact absurd hsame (hothers s hs b hold' (hid ▸ hne') s' hs')
    · rcases mem_setPass hb with rfl | ⟨hold',-⟩
      · exact absurd (hsame.imp Eq.symm Eq.symm) (hothers s' hs' a hold (hid ▸ hne) s hs)
      · exact h.apart a hold b hold' s hs s' hs' hsame
  distinct := by
    intro q hq
    rcases mem_setPass hq with rfl | ⟨hold,-⟩
    · exact hdistinct
    · exact h.distinct q hold
  sent := h.sent
  ordered := h.ordered
  stopped := h.stopped

theorem Kept.endPass (h : Kept w) (passId : PassId) : Kept (RunQueue.endPass w passId) where
  itemIds := h.itemIds
  runIds := h.runIds
  turnKeys := h.turnKeys
  itemRuns := h.itemRuns
  messageRuns := h.messageRuns
  turnRuns := h.turnRuns
  passIds := h.passIds.sublist (List.filter_sublist.map _)
  passes := fun q hq => (h.passes q (List.mem_filter.mp hq).1).same rfl rfl rfl
  apart := fun a ha b hb => h.apart a (List.mem_filter.mp ha).1 b (List.mem_filter.mp hb).1
  distinct := fun q hq => h.distinct q (List.mem_filter.mp hq).1
  sent := h.sent
  ordered := h.ordered
  stopped := h.stopped

/-- Rows of one run that are queued wait together. -/
theorem waits_of_run (h : Kept w) (hi : i ∈ w.items) (hj : j ∈ w.items) (hrun : j.runId = i.runId)
    (hwaits : waits w i = true) (hqueued : j.status = .queued) : waits w j = true := by
  obtain ⟨r,hr,hid,hsession⟩ := h.itemRuns i hi
  obtain ⟨r',hr',hid',hsession'⟩ := h.itemRuns j hj
  obtain rfl : r' = r := List.inj_on_of_nodup_map h.runIds hr' hr (hid'.trans (hrun.trans hid.symm))
  unfold waits at hwaits ⊢
  rw [hrun, ← hsession', hsession, hqueued]
  simp only [Bool.and_eq_true] at hwaits ⊢
  exact ⟨⟨rfl,hwaits.1.2⟩,hwaits.2⟩

theorem Kept.scan (h : Kept w) {passId : PassId} {page : List Item} (hid : ∀ p ∈ w.passes, p.id ≠ passId)
    (hpage : IsPage (w.items.filter (waits w)) page) :
    Kept { w with passes := w.passes ++ [⟨passId,w.items.filter (waits w),page,page,[],[]⟩] } := by
  obtain ⟨hsorted,-,hsub,-,hcut⟩ := hpage
  have hnew : PassKept w ⟨passId,w.items.filter (waits w),page,page,[],[]⟩ := by
    refine ⟨hsorted,fun i hi => hi,fun i hi => ⟨hsub i hi,Or.inl hi⟩,hcut,?_,?_,nofun,nofun,nofun,nofun⟩
    · exact fun i hi => ⟨i,(List.mem_filter.mp hi).1,.refl i⟩
    · intro i hi j hj hrun _ hqueued
      obtain ⟨hmem,hwaits⟩ := List.mem_filter.mp hi
      exact ⟨j,List.mem_filter.mpr ⟨hj,waits_of_run h hmem hj hrun hwaits hqueued⟩,.refl j⟩
  refine ⟨h.itemIds,h.runIds,h.turnKeys,h.itemRuns,h.messageRuns,h.turnRuns,nodup_append_new h.passIds hid,?_,?_,?_,
    h.sent,h.ordered,h.stopped⟩
  · intro p hp
    rcases List.mem_append.mp hp with hp | hp
    · exact (h.passes p hp).same rfl rfl rfl
    · cases List.mem_singleton.mp hp
      exact hnew.same rfl rfl rfl
  · intro a ha b hb s hs s' hs'
    rcases List.mem_append.mp ha with ha | ha
    · rcases List.mem_append.mp hb with hb | hb
      · exact h.apart a ha b hb s hs s' hs'
      · cases List.mem_singleton.mp hb
        cases hs'
    · cases List.mem_singleton.mp ha
      cases hs
  · intro p hp
    rcases List.mem_append.mp hp with hp | hp
    · exact h.distinct p hp
    · cases List.mem_singleton.mp hp
      exact List.nodup_nil

/-- A pass that does nothing but see one more row. -/
theorem Kept.passOver (h : Kept w) (hp : p ∈ w.passes) (htodo : p.todo = item :: rest) (seen : List SessionId)
    (hseen : ∀ sessionId ∈ seen, writable w sessionId = true → sessionId ∈ p.seen) (hsub : ∀ sessionId ∈ p.seen, sessionId ∈ seen)
    (hitem : item.sessionId ∈ seen) : Kept (RunQueue.setPass w { p with todo := rest, seen := seen }) := by
  have hpass := h.passes p hp
  refine h.setPass (p := p) rfl ?_ (h.distinct p hp) ?_ ?_
  · refine ⟨?_,?_,?_,hpass.cut,hpass.rows,hpass.before,?_,?_,hpass.first,hpass.fresh⟩
    · have hsorted := hpass.sorted
      rw [htodo] at hsorted
      exact (List.pairwise_cons.mp hsorted).2
    · exact fun i hi => hpass.todo i (htodo ▸ List.mem_cons_of_mem _ hi)
    · intro i hi
      obtain ⟨hmatched,hwhere⟩ := hpass.page i hi
      refine ⟨hmatched,?_⟩
      rw [htodo] at hwhere
      rcases hwhere with hmem | hs
      · rcases List.mem_cons.mp hmem with rfl | hrest
        · exact Or.inr hitem
        · exact Or.inl hrest
      · exact Or.inr (hsub _ hs)
    · exact fun sessionId hs hw => hpass.seen sessionId (hseen sessionId hs hw) hw
    · exact fun s hs => ⟨(hpass.started s hs).1,hsub _ (hpass.started s hs).2⟩
  · exact fun s hs s' hs' hsame => (h.apart p hp p hp s hs s' hs' hsame).2
  · exact fun s hs q hq hne s' hs' hsame => hne (congrArg Pass.id (h.apart p hp q hq s hs s' hs' hsame).1).symm

/-- The first row of a session that the page has. -/
theorem first_of_unseen (h : PassKept w p) (htodo : p.todo = item :: rest) (hseen : item.sessionId ∉ p.seen)
    (hi : i ∈ p.matched) (hsession : i.sessionId = item.sessionId) : item.position ≤ i.position := by
  have hitem : item ∈ p.page := h.todo item (htodo ▸ List.mem_cons_self ..)
  by_cases hpage : i ∈ p.page
  · rcases (h.page i hpage).2 with hmem | hs
    · have hsorted := h.sorted
      rw [htodo] at hmem hsorted
      rcases List.mem_cons.mp hmem with rfl | hrest
      · rfl
      · exact (List.pairwise_cons.mp hsorted).1 i hrest
    · exact absurd (hsession ▸ hs) hseen
  · exact h.cut i hi hpage item hitem

theorem Kept.start (h : Kept w) (hp : p ∈ w.passes) (htodo : p.todo = item :: rest) (hseen : item.sessionId ∉ p.seen)
    (hothers : ∀ q ∈ w.passes, q.id ≠ p.id → ∀ s ∈ q.started, s.item.sessionId ≠ item.sessionId)
    (hkey : ∀ r ∈ w.runs, ¬ madeOf item r) (hfresh : freshRun w runId = true) :
    Kept (RunQueue.setPass w { p with
      todo := rest, seen := item.sessionId :: p.seen, started := p.started ++ [⟨item,runId⟩] }) := by
  have hpass := h.passes p hp
  have hold : ∀ s ∈ p.started, s.item.sessionId ≠ item.sessionId := fun s hs hsession =>
    hseen (hsession ▸ (hpass.started s hs).2)
  refine h.setPass (p := p) rfl ?_ ?_ ?_ ?_
  · refine ⟨?_,?_,?_,hpass.cut,hpass.rows,hpass.before,?_,?_,?_,?_⟩
    · have hsorted := hpass.sorted
      rw [htodo] at hsorted
      exact (List.pairwise_cons.mp hsorted).2
    · exact fun i hi => hpass.todo i (htodo ▸ List.mem_cons_of_mem _ hi)
    · intro i hi
      obtain ⟨hmatched,hwhere⟩ := hpass.page i hi
      refine ⟨hmatched,?_⟩
      rw [htodo] at hwhere
      rcases hwhere with hmem | hs
      · rcases List.mem_cons.mp hmem with rfl | hrest
        · exact Or.inr (List.mem_cons_self ..)
        · exact Or.inl hrest
      · exact Or.inr (List.mem_cons_of_mem _ hs)
    · intro sessionId hs hw
      rcases List.mem_cons.mp hs with rfl | hs
      · exact ⟨⟨item,runId⟩,List.mem_append_right _ (List.mem_singleton_self _),rfl⟩
      · obtain ⟨s,hstarted,hsession⟩ := hpass.seen sessionId hs hw
        exact ⟨s,List.mem_append_left _ hstarted,hsession⟩
    · intro s hs
      rcases List.mem_append.mp hs with hs | hs
      · exact ⟨(hpass.started s hs).1,List.mem_cons_of_mem _ (hpass.started s hs).2⟩
      · cases List.mem_singleton.mp hs
        exact ⟨hpass.todo item (htodo ▸ List.mem_cons_self ..),List.mem_cons_self ..⟩
    · intro s hs i hi hsession
      rcases List.mem_append.mp hs with hs | hs
      · exact hpass.first s hs i hi hsession
      · cases List.mem_singleton.mp hs
        exact first_of_unseen hpass htodo hseen hi hsession
    · intro s hs
      rcases List.mem_append.mp hs with hs | hs
      · exact hpass.fresh s hs
      · cases List.mem_singleton.mp hs
        exact ⟨fun r hr => freshRun_runs hfresh hr,hkey⟩
  · refine (h.distinct p hp).append (List.nodup_singleton _) fun s hs hs' => ?_
    cases List.mem_singleton.mp hs'
    exact hold _ hs rfl
  · intro s hs s' hs' hsame
    rcases List.mem_append.mp hs with hs | hs
    · rcases List.mem_append.mp hs' with hs' | hs'
      · exact (h.apart p hp p hp s hs s' hs' hsame).2
      · cases List.mem_singleton.mp hs'
        exact (hsame.elim (hold s hs) (freshRun_passes hfresh hp hs)).elim
    · cases List.mem_singleton.mp hs
      rcases List.mem_append.mp hs' with hs' | hs'
      · exact (hsame.elim (fun he => hold s' hs' he.symm) fun he => freshRun_passes hfresh hp hs' he.symm).elim
      · cases List.mem_singleton.mp hs'
        rfl
  · intro s hs q hq hne s' hs' hsame
    rcases List.mem_append.mp hs with hs | hs
    · exact hne (congrArg Pass.id (h.apart p hp q hq s hs s' hs' hsame).1).symm
    · cases List.mem_singleton.mp hs
      exact hsame.elim (fun he => hothers q hq hne s' hs' he.symm) fun he => freshRun_passes hfresh hq hs' he.symm

end Passes

end HermesEnterprise.RunQueue
