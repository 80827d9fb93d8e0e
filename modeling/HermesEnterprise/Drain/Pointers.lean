import HermesEnterprise.Drain.Queue

/-! # Jobs and their pointers

In every reachable state the pointer table is exactly the undone jobs, each once,
with its workspace and due time. A drain that keeps asking gets every due job.
-/
namespace HermesEnterprise.Drain
open Approvals Foundation.Runs Foundation.Tables

/-- The pointer of an undone job. -/
def pointer (j : JobRow) : ReadyRow := ⟨j.id,j.workspaceId,j.nextAt,none⟩

/-- Pointers and undone jobs are the same, and no id occurs twice. -/
structure Paired (q : Queue) : Prop where
  ids : (q.rows.map JobRow.id).Nodup
  fresh : ∀ j ∈ q.rows, j.id < q.nextId
  once : (q.ready.map ReadyRow.jobId).Nodup
  ready : ∀ p, p ∈ q.ready ↔ ∃ j ∈ q.rows, j.doneAt = none ∧ p = pointer j

/-- A held claim is of a job of its own workspace. -/
def Owned (s : State) : Prop :=
  ∀ id c, s.claims id = some c →
    ∃ j ∈ s.queue.rows, j.id = c.jobId ∧ j.workspaceId = c.workspaceId

variable {q q' : Queue} {workspaceId : WorkspaceId} {now : ℕ} {j : JobRow}

theorem Paired.job_of_ready (h : Paired q) {p : ReadyRow} (hp : p ∈ q.ready) (hj : j ∈ q.rows)
    (hid : j.id = p.jobId) : j.doneAt = none ∧ p = pointer j := by
  obtain ⟨i,hi,hdone,rfl⟩ := (h.ready p).mp hp
  have hji : j = i := List.inj_on_of_nodup_map h.ids hj hi hid
  subst hji
  exact ⟨hdone,rfl⟩

/-- Rewriting some jobs, and the pointers exactly of those, keeps the pairing. -/
theorem Paired.update (h : Paired q) {p : JobRow → Bool} {f : JobRow → JobRow}
    {ready : List ReadyRow} (hid : ∀ j, (f j).id = j.id)
    (honce : (ready.map ReadyRow.jobId).Nodup)
    (hready : ∀ r, r ∈ ready ↔ (∃ j ∈ q.rows, p j = false ∧ j.doneAt = none ∧ r = pointer j) ∨
      ∃ j ∈ q.rows, p j = true ∧ (f j).doneAt = none ∧ r = pointer (f j)) :
    Paired { q with rows := updateWhere p f q.rows, ready := ready } := by
  refine ⟨?_,?_,honce,?_⟩
  · dsimp only
    rw [map_updateWhere _ (fun j _ _ => hid j)]
    exact h.ids
  · intro j hj
    rcases mem_updateWhere.mp hj with ⟨i,hi,-,rfl⟩ | ⟨hj,-⟩
    · rw [hid]; exact h.fresh i hi
    · exact h.fresh j hj
  · intro r
    rw [hready r]
    constructor
    · rintro (⟨j,hj,hp,hdone,rfl⟩ | ⟨j,hj,hp,hdone,rfl⟩)
      · exact ⟨j,mem_updateWhere.mpr (Or.inr ⟨hj,hp⟩),hdone,rfl⟩
      · exact ⟨f j,mem_updateWhere.mpr (Or.inl ⟨j,hj,hp,rfl⟩),hdone,rfl⟩
    · rintro ⟨j,hj,hdone,rfl⟩
      rcases mem_updateWhere.mp hj with ⟨i,hi,hp,rfl⟩ | ⟨hj,hp⟩
      · exact Or.inr ⟨i,hi,hp,hdone,rfl⟩
      · exact Or.inl ⟨j,hj,hp,hdone,rfl⟩

theorem Paired.claimed (h : Paired q) (id : JobId) :
    Paired { q with rows := updateWhere (fun r => r.id = id) (claimed now) q.rows } := by
  refine h.update (fun _ => rfl) h.once fun r => ?_
  rw [h.ready r]
  constructor
  · rintro ⟨j,hj,hdone,rfl⟩
    by_cases hid : j.id = id
    · exact Or.inr ⟨j,hj,decide_eq_true hid,hdone,rfl⟩
    · exact Or.inl ⟨j,hj,decide_eq_false hid,hdone,rfl⟩
  · rintro (⟨j,hj,-,hdone,rfl⟩ | ⟨j,hj,-,hdone,rfl⟩) <;> exact ⟨j,hj,hdone,rfl⟩

/-- Within its own workspace a job is found by its id alone. -/
theorem isJob_iff {jobId : JobId} (hown : ∀ j ∈ q.rows, j.id = jobId → j.workspaceId = workspaceId)
    (hj : j ∈ q.rows) : isJob workspaceId jobId j = true ↔ j.id = jobId := by
  simp only [isJob, decide_eq_true_eq]
  exact ⟨And.right,fun hid => ⟨hown j hj hid,hid⟩⟩

theorem Paired.retired (h : Paired q) {jobId : JobId} {f : JobRow → JobRow}
    (hid : ∀ j, (f j).id = j.id)
    (hown : ∀ j ∈ q.rows, j.id = jobId → j.workspaceId = workspaceId) :
    Paired (retireJob workspaceId now q jobId f) := by
  refine h.update hid (h.once.sublist (List.filter_sublist.map _)) fun r => ?_
  rw [List.mem_filter, h.ready r]
  constructor
  · rintro ⟨⟨j,hj,hdone,rfl⟩,hne⟩
    have hne : j.id ≠ jobId := of_decide_eq_true hne
    exact Or.inl ⟨j,hj,by simp [isJob, hne],hdone,rfl⟩
  · rintro (⟨j,hj,hp,hdone,rfl⟩ | ⟨j,hj,-,hdone,-⟩)
    · refine ⟨⟨j,hj,hdone,rfl⟩,?_⟩
      have hne : j.id ≠ jobId := fun he => by simp [(isJob_iff hown hj).mpr he] at hp
      exact decide_eq_true hne
    · cases hdone

theorem map_jobId_updateWhere {p : ReadyRow → Bool} {due : ℕ} (ready : List ReadyRow) :
    (updateWhere p (fun r => { r with nextAt := due }) ready).map ReadyRow.jobId =
      ready.map ReadyRow.jobId :=
  map_updateWhere _ fun _ _ _ => rfl

theorem Paired.rescheduled (h : Paired q) {jobId : JobId} {due : ℕ} {f : JobRow → JobRow}
    (hid : ∀ j, (f j).id = j.id) (hws : ∀ j, (f j).workspaceId = j.workspaceId)
    (hdone : ∀ j, (f j).doneAt = j.doneAt)
    (hown : ∀ j ∈ q.rows, j.id = jobId → j.workspaceId = workspaceId) :
    Paired (reschedule workspaceId q jobId due f) := by
  have hpointer : ∀ j, pointer { f j with nextAt := due } = { pointer j with nextAt := due } := by
    intro j
    simp [pointer, hid, hws]
  refine h.update hid (by rw [map_jobId_updateWhere]; exact h.once) fun r => ?_
  rw [mem_updateWhere]
  simp only [h.ready]
  constructor
  · rintro (⟨s,⟨j,hj,hj',rfl⟩,hs,rfl⟩ | ⟨⟨j,hj,hj',rfl⟩,hs⟩)
    · have hjob : j.id = jobId := of_decide_eq_true hs
      exact Or.inr ⟨j,hj,(isJob_iff hown hj).mpr hjob,(hdone j).trans hj',(hpointer j).symm⟩
    · have hjob : j.id ≠ jobId := of_decide_eq_false hs
      exact Or.inl ⟨j,hj,by simp [isJob, hjob],hj',rfl⟩
  · rintro (⟨j,hj,hp,hj',rfl⟩ | ⟨j,hj,hp,hj',rfl⟩)
    · refine Or.inr ⟨⟨j,hj,hj',rfl⟩,?_⟩
      have hne : j.id ≠ jobId := fun he => by simp [(isJob_iff hown hj).mpr he] at hp
      exact decide_eq_false hne
    · refine Or.inl ⟨pointer j,⟨j,hj,(hdone j).symm.trans hj',rfl⟩,?_,hpointer j⟩
      exact decide_eq_true ((isJob_iff hown hj).mp hp)

theorem Paired.inserted (h : Paired q) (kind key payload : String) (due : ℕ) :
    Paired (insertJob workspaceId q kind key payload due) := by
  have hfresh : ∀ p ∈ q.ready, p.jobId < q.nextId := by
    intro p hp
    obtain ⟨j,hj,-,rfl⟩ := (h.ready p).mp hp
    exact h.fresh j hj
  refine ⟨nodup_append_fresh h.ids h.fresh rfl,?_,nodup_append_fresh h.once hfresh rfl,?_⟩
  · intro j hj
    rcases List.mem_append.mp hj with hj | hj
    · exact Nat.lt_succ_of_lt (h.fresh j hj)
    · rw [List.mem_singleton.mp hj]
      exact Nat.lt_succ_self _
  · intro p
    simp only [insertJob, List.mem_append, List.mem_singleton, h.ready]
    constructor
    · rintro (⟨j,hj,hdone,rfl⟩ | rfl)
      · exact ⟨j,Or.inl hj,hdone,rfl⟩
      · exact ⟨_,Or.inr rfl,rfl,rfl⟩
    · rintro ⟨j,hj | rfl,hdone,rfl⟩
      · exact Or.inl ⟨j,hj,hdone,rfl⟩
      · exact Or.inr rfl

section Upserts

/-- Pointing at jobs that have no pointer appends theirs, in order. -/
theorem foldl_pointReady (workspaceId : WorkspaceId) (due : ℕ) {ready : List ReadyRow}
    {ids : List JobId} (hids : ids.Nodup)
    (hnew : ∀ id ∈ ids, ∀ p ∈ ready, p.jobId ≠ id) :
    ids.foldl (pointReady workspaceId due) ready =
      ready ++ ids.map fun id => ⟨id,workspaceId,due,none⟩ := by
  induction ids generalizing ready with
  | nil => simp
  | cons id rest ih =>
    have hnone : ready.any (fun p => p.jobId = id) = false := by
      simpa using hnew id List.mem_cons_self
    obtain ⟨hid,hrest⟩ := List.nodup_cons.mp hids
    rw [List.foldl_cons, pointReady, if_neg (by simp [hnone]), ih hrest]
    · simp
    · intro i hi p hp
      rcases List.mem_append.mp hp with hp | hp
      · exact hnew i (List.mem_cons_of_mem _ hi) p hp
      · rw [List.mem_singleton.mp hp]
        exact fun he : id = i => hid (he ▸ hi)

theorem Paired.revived (h : Paired q) {kind key : String} {f : JobRow → JobRow}
    (hid : ∀ j, (f j).id = j.id) (hws : ∀ j, (f j).workspaceId = j.workspaceId) :
    Paired (reviveJobs workspaceId now q kind key f) := by
  have hmine : ∀ j, isDoneWith workspaceId kind key j = true →
      j.workspaceId = workspaceId ∧ j.doneAt ≠ none := by
    intro j hj
    simp only [isDoneWith, decide_eq_true_eq] at hj
    exact ⟨hj.1,Option.isSome_iff_ne_none.mp hj.2.2⟩
  set done := q.rows.filter (isDoneWith workspaceId kind key) with hdone
  have hnew : ∀ id ∈ done.map JobRow.id, ∀ p ∈ q.ready, p.jobId ≠ id := by
    intro id hin p hp he
    obtain ⟨j,hj,rfl⟩ := List.mem_map.mp hin
    obtain ⟨hj,hd⟩ := List.mem_filter.mp hj
    exact (hmine j hd).2 (h.job_of_ready hp hj he.symm).1
  have hnodup : (done.map JobRow.id).Nodup := h.ids.sublist (List.filter_sublist.map _)
  have hready := foldl_pointReady workspaceId now hnodup hnew
  unfold reviveJobs
  rw [← hdone, hready]
  refine h.update hid ?_ fun r => ?_
  · rw [List.map_append, List.map_map]
    refine h.once.append (by simpa [Function.comp_def] using hnodup) ?_
    intro id hin hin'
    obtain ⟨p,hp,rfl⟩ := List.mem_map.mp hin
    obtain ⟨i,hi,he⟩ := List.mem_map.mp hin'
    exact hnew i hi p hp he.symm
  · rw [List.mem_append, h.ready r]
    constructor
    · rintro (⟨j,hj,hj',rfl⟩ | hr)
      · refine Or.inl ⟨j,hj,?_,hj',rfl⟩
        exact Bool.eq_false_iff.mpr fun hd => (hmine j hd).2 hj'
      · obtain ⟨id,hin,rfl⟩ := List.mem_map.mp hr
        obtain ⟨j,hj,rfl⟩ := List.mem_map.mp hin
        obtain ⟨hj,hd⟩ := List.mem_filter.mp hj
        refine Or.inr ⟨j,hj,hd,rfl,?_⟩
        simp [pointer, hid, hws, (hmine j hd).1]
    · rintro (⟨j,hj,-,hj',rfl⟩ | ⟨j,hj,hd,-,rfl⟩)
      · exact Or.inl ⟨j,hj,hj',rfl⟩
      · refine Or.inr (List.mem_map.mpr ⟨j.id,List.mem_map_of_mem (List.mem_filter.mpr ⟨hj,hd⟩),?_⟩)
        simp [pointer, hid, hws, (hmine j hd).1]

theorem Paired.reverified (h : Paired q) {payload : String} {due : ℕ} (hj : j ∈ q.rows)
    (hws : j.workspaceId = workspaceId) :
    Paired { q with
      rows := updateWhere (fun r => r.id = j.id) (reverified payload due) q.rows
      ready := pointReady workspaceId (Drain.reverified payload due j).nextAt q.ready j.id } := by
  have hkeep : ∀ i, (Drain.reverified payload due i).id = i.id ∧
      (Drain.reverified payload due i).workspaceId = i.workspaceId ∧
      (Drain.reverified payload due i).doneAt = none := by
    intro i
    unfold Drain.reverified
    split
    next hi => exact ⟨rfl,rfl,Option.isNone_iff_eq_none.mp hi⟩
    next => exact ⟨rfl,rfl,rfl⟩
  have hself : ∀ i ∈ q.rows, i.id = j.id → i = j := fun i hi =>
    List.inj_on_of_nodup_map h.ids hi hj
  have hpointer : pointer (Drain.reverified payload due j) =
      ⟨j.id,workspaceId,(Drain.reverified payload due j).nextAt,none⟩ := by
    simp [pointer, hkeep, hws]
  -- The rows that are not this job keep their pointers; this job points at its new time.
  have hspec : ∀ ready : List ReadyRow, (∀ r, r ∈ ready ↔ (r ∈ q.ready ∧ r.jobId ≠ j.id) ∨
      r = pointer (Drain.reverified payload due j)) → ∀ r, r ∈ ready ↔
      (∃ i ∈ q.rows, decide (i.id = j.id) = false ∧ i.doneAt = none ∧ r = pointer i) ∨
      ∃ i ∈ q.rows, decide (i.id = j.id) = true ∧ (Drain.reverified payload due i).doneAt = none ∧
        r = pointer (Drain.reverified payload due i) := by
    intro ready hready r
    rw [hready r]
    constructor
    · rintro (⟨hr,hne⟩ | rfl)
      · obtain ⟨i,hi,hdone,rfl⟩ := (h.ready r).mp hr
        exact Or.inl ⟨i,hi,decide_eq_false hne,hdone,rfl⟩
      · exact Or.inr ⟨j,hj,decide_eq_true rfl,(hkeep j).2.2,rfl⟩
    · rintro (⟨i,hi,hne,hdone,rfl⟩ | ⟨i,hi,he,-,rfl⟩)
      · exact Or.inl ⟨(h.ready _).mpr ⟨i,hi,hdone,rfl⟩,of_decide_eq_false hne⟩
      · rw [hself i hi (of_decide_eq_true he)]
        exact Or.inr rfl
  unfold pointReady
  split
  next hany =>
    obtain ⟨p,hp,hpj⟩ := List.any_eq_true.mp hany
    have hpj : p.jobId = j.id := of_decide_eq_true hpj
    refine h.update (fun i => (hkeep i).1) (by rw [map_jobId_updateWhere]; exact h.once)
      (hspec _ fun r => ?_)
    rw [mem_updateWhere, or_comm]
    constructor
    · rintro (⟨hr,hne⟩ | ⟨s,hs,hsj,rfl⟩)
      · exact Or.inl ⟨hr,of_decide_eq_false hne⟩
      · obtain ⟨-,rfl⟩ := h.job_of_ready hs hj (of_decide_eq_true hsj).symm
        refine Or.inr ?_
        rw [hpointer, ← hws]
        rfl
    · rintro (⟨hr,hne⟩ | rfl)
      · exact Or.inl ⟨hr,decide_eq_false hne⟩
      · obtain ⟨-,rfl⟩ := h.job_of_ready hp hj hpj.symm
        refine Or.inr ⟨pointer j,hp,decide_eq_true rfl,?_⟩
        rw [hpointer, ← hws]
        rfl
  next hany =>
    have hnone : ∀ p ∈ q.ready, p.jobId ≠ j.id := by simpa using hany
    refine h.update (fun i => (hkeep i).1) ?_ (hspec _ fun r => ?_)
    · rw [List.map_append, List.map_singleton]
      refine h.once.append (List.nodup_singleton _) ?_
      intro id hin hin'
      obtain ⟨p,hp,rfl⟩ := List.mem_map.mp hin
      exact hnone p hp (List.mem_singleton.mp hin')
    · rw [List.mem_append, List.mem_singleton, hpointer]
      constructor
      · rintro (hr | rfl)
        · exact Or.inl ⟨hr,hnone r hr⟩
        · exact Or.inr rfl
      · rintro (⟨hr,-⟩ | rfl)
        · exact Or.inl hr
        · exact Or.inr rfl

theorem Paired.postponedKey (h : Paired q) (kind key : String) (due : ℕ) :
    Paired (postponeKey workspaceId q kind key due) := by
  unfold postponeKey
  extract_lets mine
  have hany : ∀ j ∈ q.rows, (q.rows.any fun i => i.id = j.id && mine i) = mine j := by
    intro j hj
    rw [Bool.eq_iff_iff, List.any_eq_true]
    constructor
    · rintro ⟨i,hi,hij⟩
      rw [Bool.and_eq_true, decide_eq_true_eq] at hij
      rw [← List.inj_on_of_nodup_map h.ids hi hj hij.1]
      exact hij.2
    · exact fun hm => ⟨j,hj,by simp [hm]⟩
  refine h.update (fun _ => rfl) (by rw [map_jobId_updateWhere]; exact h.once) fun r => ?_
  rw [mem_updateWhere]
  simp only [h.ready]
  constructor
  · rintro (⟨s,⟨j,hj,hdone,rfl⟩,hs,rfl⟩ | ⟨⟨j,hj,hdone,rfl⟩,hs⟩)
    · have hm : mine j = true := (hany j hj).symm.trans hs
      exact Or.inr ⟨j,hj,by simp [hm, hdone],hdone,rfl⟩
    · have hm : mine j = false := (hany j hj).symm.trans hs
      exact Or.inl ⟨j,hj,by simp [hm],hdone,rfl⟩
  · rintro (⟨j,hj,hp,hdone,rfl⟩ | ⟨j,hj,hp,hdone,rfl⟩)
    · have hm : mine j = false := by simpa [hdone] using hp
      exact Or.inr ⟨⟨j,hj,hdone,rfl⟩,(hany j hj).trans hm⟩
    · have hm : mine j = true := by simpa [hdone] using hp
      exact Or.inl ⟨pointer j,⟨j,hj,hdone,rfl⟩,(hany j hj).trans hm,rfl⟩

end Upserts

section Runs
variable {s t : State} {e : Event}

/-- Every job stays, in its workspace. -/
def Keeps (q q' : Queue) : Prop :=
  ∀ j ∈ q.rows, ∃ j' ∈ q'.rows, j'.id = j.id ∧ j'.workspaceId = j.workspaceId

theorem Keeps.trans {r : Queue} (h : Keeps q q') (h' : Keeps q' r) : Keeps q r := by
  intro j hj
  obtain ⟨j',hj',hid,hws⟩ := h j hj
  obtain ⟨j'',hj'',hid',hws'⟩ := h' j' hj'
  exact ⟨j'',hj'',hid'.trans hid,hws'.trans hws⟩

theorem keeps_updateWhere {p : JobRow → Bool} {f : JobRow → JobRow} {ready : List ReadyRow}
    (hf : ∀ j, (f j).id = j.id ∧ (f j).workspaceId = j.workspaceId) :
    Keeps q { q with rows := updateWhere p f q.rows, ready := ready } := by
  intro j hj
  by_cases hp : p j = true
  · exact ⟨f j,mem_updateWhere.mpr (Or.inl ⟨j,hj,hp,rfl⟩),hf j⟩
  · exact ⟨j,mem_updateWhere.mpr (Or.inr ⟨hj,by simpa using hp⟩),rfl,rfl⟩

theorem keeps_insertJob (kind key payload : String) (due : ℕ) :
    Keeps q (insertJob workspaceId q kind key payload due) :=
  fun j hj => ⟨j,List.mem_append_left _ hj,rfl,rfl⟩

/-- The tables agree, and drainers hold jobs of their own workspaces. -/
structure Good (s : State) : Prop where
  paired : Paired s.queue
  owned : Owned s

theorem Good.queue (h : Good s) (hp : Paired q) (hk : Keeps s.queue q) :
    Good { s with queue := q } := by
  refine ⟨hp,fun id c hc => ?_⟩
  obtain ⟨j,hj,hid,hws⟩ := h.owned id c hc
  obtain ⟨j',hj',hid',hws'⟩ := hk j hj
  exact ⟨j',hj',hid'.trans hid,hws'.trans hws⟩

theorem Good.tables (h : Good s) (hq : Paired q ∧ Keeps s.queue q) : Good { s with queue := q } :=
  h.queue hq.1 hq.2

/-- A reported claim is forgotten after its job was rewritten. -/
theorem Good.report (h : Good s) {id : ClaimId} {f : Claim → Queue}
    (hf : ∀ c, s.claims id = some c →
      (∀ j ∈ s.queue.rows, j.id = c.jobId → j.workspaceId = c.workspaceId) →
      Paired (f c) ∧ Keeps s.queue (f c))
    (hr : Drain.report s id f = .ok t) : Good t := by
  unfold Drain.report at hr
  split at hr
  · cases hr
  next c hc =>
    cases hr
    obtain ⟨j,hj,hid,hws⟩ := h.owned id c hc
    have hmine : ∀ i ∈ s.queue.rows, i.id = c.jobId → i.workspaceId = c.workspaceId := by
      intro i hi hi'
      rw [List.inj_on_of_nodup_map h.paired.ids hi hj (hi'.trans hid.symm)]
      exact hws
    have hq := h.tables (hf c hc hmine)
    refine ⟨hq.paired,fun id' c' hc' => ?_⟩
    dsimp only at hc'
    by_cases he : id' = id
    · subst he
      simp at hc'
    · rw [Function.update_of_ne he] at hc'
      exact hq.owned id' c' hc'

theorem mem_of_claimJob {jobId : JobId} {r : Queue × JobRow}
    (h : claimJob workspaceId now q jobId = some r) : ∃ j ∈ q.rows,
      claimable workspaceId now q j = true ∧ r = takeJob now q j := by
  obtain ⟨j,hj,rfl⟩ := Option.map_eq_some_iff.mp h
  have hc := List.find?_some hj
  rw [decide_eq_true_eq] at hc
  exact ⟨j,List.mem_of_find?_eq_some hj,hc.2,rfl⟩

theorem mem_of_claimNextJob {r : Queue × JobRow} (h : claimNextJob workspaceId now q = some r) :
    ∃ j ∈ q.rows, claimable workspaceId now q j = true ∧ r = takeJob now q j := by
  obtain ⟨j,hj,rfl⟩ := Option.map_eq_some_iff.mp h
  obtain ⟨hj,hc⟩ := List.mem_filter.mp (List.argmin_mem hj)
  rw [decide_eq_true_eq] at hc
  exact ⟨j,hj,hc.1,rfl⟩

/-- A claim that was admitted took a claimable job. -/
theorem admitClaim_ok {id : ClaimId} {r : Option (Queue × JobRow)}
    (h : admitClaim s id workspaceId r = .ok t) : s.claims id = none ∧ ∃ queue job,
      r = some (queue,job) ∧ t = { s with
        queue := queue
        claims := Function.update s.claims id (some ⟨job.id,workspaceId,job.attempts,s.now⟩) } := by
  unfold admitClaim at h
  split at h
  next t' hnone hhold =>
    cases h
    cases r with
    | none => cases hhold
    | some p => cases hhold; exact ⟨hnone,p.1,p.2,rfl,rfl⟩
  next => cases h

theorem Good.claim (h : Good s) {id : ClaimId} {r : Option (Queue × JobRow)}
    (hr : ∀ p, r = some p → ∃ j ∈ s.queue.rows,
      claimable workspaceId s.now s.queue j = true ∧ p = takeJob s.now s.queue j)
    (ht : admitClaim s id workspaceId r = .ok t) : Good t := by
  obtain ⟨-,queue,job,hp,rfl⟩ := admitClaim_ok ht
  obtain ⟨j,hj,hc,he⟩ := hr _ hp
  cases he
  have hkeeps : Keeps s.queue { s.queue with
      rows := updateWhere (fun r => r.id = j.id) (Drain.claimed s.now) s.queue.rows } :=
    keeps_updateWhere fun _ => ⟨rfl,rfl⟩
  have hq := h.queue (h.paired.claimed j.id) hkeeps
  refine ⟨hq.paired,fun id' c hc' => ?_⟩
  dsimp only at hc'
  by_cases hid : id' = id
  · subst hid
    rw [Function.update_self, Option.some.injEq] at hc'
    subst hc'
    obtain ⟨j',hj',hid',hws'⟩ := hkeeps j hj
    exact ⟨j',hj',hid',hws'.trans (claimable_iff.mp hc).1⟩
  · rw [Function.update_of_ne hid] at hc'
    exact hq.owned id' c hc'

theorem Paired.enqueued (h : Paired q) (kind key payload : String) :
    Paired (enqueueJob workspaceId now q kind key payload) ∧
      Keeps q (enqueueJob workspaceId now q kind key payload) := by
  unfold enqueueJob
  split
  · exact ⟨h,fun j hj => ⟨j,hj,rfl,rfl⟩⟩
  · exact ⟨h.inserted kind key payload now,keeps_insertJob kind key payload now⟩

theorem Paired.enqueuedLater (h : Paired q) (kind key payload : String) (due : ℕ) :
    Paired (enqueueLater workspaceId now q kind key payload due) ∧
      Keeps q (enqueueLater workspaceId now q kind key payload due) := by
  unfold enqueueLater
  split
  · exact ⟨h,fun j hj => ⟨j,hj,rfl,rfl⟩⟩
  · constructor
    · refine (h.inserted kind key payload now).rescheduled (fun _ => rfl) (fun _ => rfl)
        (fun _ => rfl) ?_
      intro j hj hid
      rcases List.mem_append.mp hj with hj | hj
      · exact absurd (h.fresh j hj) (hid ▸ Nat.lt_irrefl _)
      · rw [List.mem_singleton.mp hj]
    · exact (keeps_insertJob kind key payload now).trans (keeps_updateWhere fun _ => ⟨rfl,rfl⟩)

theorem Paired.revivedSend (h : Paired q) (key payload : String) :
    Paired (Drain.reviveSend workspaceId now q key payload) ∧
      Keeps q (Drain.reviveSend workspaceId now q key payload) := by
  unfold Drain.reviveSend
  split
  · exact ⟨h.revived (fun _ => rfl) fun _ => rfl,keeps_updateWhere fun _ => ⟨rfl,rfl⟩⟩
  · exact ⟨h.inserted _ _ _ _,keeps_insertJob _ _ _ _⟩

theorem Paired.requeuedTriage (h : Paired q) {key payload : String}
    (hq : requeueTriage workspaceId now q key payload = some q') : Paired q' ∧ Keeps q q' := by
  unfold requeueTriage at hq
  split at hq
  · cases hq
  · split at hq
    · cases hq
      exact ⟨h.revived (fun _ => rfl) fun _ => rfl,keeps_updateWhere fun _ => ⟨rfl,rfl⟩⟩
    · cases hq
      exact ⟨h.inserted _ _ _ _,keeps_insertJob _ _ _ _⟩

theorem Paired.requeuedReverify (h : Paired q) {key payload : String} {due : ℕ}
    (hq : requeueReverify workspaceId q key payload due = some q') : Paired q' ∧ Keeps q q' := by
  unfold requeueReverify at hq
  split at hq
  · cases hq
  next hforeign =>
    split at hq
    next j hfind =>
      cases hq
      have hj := List.mem_of_find?_eq_some hfind
      have hkey : hasKey "reverify" key j = true := List.find?_some hfind
      have hws : j.workspaceId = workspaceId := by
        simp only [foreignKey, Bool.not_eq_true, List.any_eq_false, decide_eq_true_eq, not_and,
          not_not] at hforeign
        exact hforeign j hj hkey
      refine ⟨h.reverified hj hws,keeps_updateWhere fun i => ?_⟩
      unfold Drain.reverified
      split <;> exact ⟨rfl,rfl⟩
    next =>
      cases hq
      exact ⟨h.inserted _ _ _ _,keeps_insertJob _ _ _ _⟩

theorem Good.step (h : Good s) (hs : Step s e t) : Good t := by
  have hretire : ∀ {id : ClaimId} (f : Claim → JobRow → JobRow),
      (∀ c j, (f c j).id = j.id ∧ (f c j).workspaceId = j.workspaceId) →
      Drain.report s id (fun c => retireJob c.workspaceId s.now s.queue c.jobId (f c)) = .ok t →
      Good t := by
    intro id f hf hr
    exact h.report (fun c _ hown => ⟨h.paired.retired (fun j => (hf c j).1) hown,
      keeps_updateWhere fun j => hf c j⟩) hr
  have hupsert : ∀ {q' : Option Queue}, withQueue s q' = .ok t →
      (∀ q, q' = some q → Paired q ∧ Keeps s.queue q) → Good t := by
    intro q' hq hk
    cases q' with
    | none => cases hq
    | some q => cases hq; exact h.tables (hk q rfl)
  unfold Step Applied apply at hs
  cases e with
  | enqueue w kind key payload => cases hs; exact h.tables (h.paired.enqueued kind key payload)
  | enqueueLater w kind key payload due =>
    cases hs; exact h.tables (h.paired.enqueuedLater kind key payload due)
  | reviveSend w key payload => cases hs; exact h.tables (h.paired.revivedSend key payload)
  | requeueTriage w key payload => exact hupsert hs fun q hq => h.paired.requeuedTriage hq
  | requeueReverify w key payload due => exact hupsert hs fun q hq => h.paired.requeuedReverify hq
  | postponeKey w kind key due =>
    cases hs
    exact h.tables ⟨h.paired.postponedKey kind key due,keeps_updateWhere fun _ => ⟨rfl,rfl⟩⟩
  | claim id w jobId => exact h.claim (fun _ => mem_of_claimJob) hs
  | claimNext id w => exact h.claim (fun _ => mem_of_claimNextJob) hs
  | finish id => exact hretire (fun _ j => j) (fun _ _ => ⟨rfl,rfl⟩) hs
  | finishFailed id error =>
    exact hretire (fun _ j => { j with lastError := some (errorText error) }) (fun _ _ => ⟨rfl,rfl⟩) hs
  | fail id error retryAfterSeconds =>
    refine h.report (fun c _ hown => ⟨h.paired.rescheduled ?_ ?_ ?_ hown,?_⟩) hs
    · exact fun _ => rfl
    · exact fun _ => rfl
    · exact fun _ => rfl
    · exact keeps_updateWhere fun _ => ⟨rfl,rfl⟩
  | tick elapsed => cases hs; exact ⟨h.paired,h.owned⟩

theorem Initial.good (h : Initial s) : Good s := by
  refine ⟨⟨?_,?_,?_,?_⟩,?_⟩
  · simp [h.rows]
  · simp [h.rows]
  · simp [h.ready]
  · simp [h.rows, h.ready]
  · intro id c hc
    rw [h.claims] at hc
    cases hc

theorem ReachableState.good (h : ReachableState s) : Good s :=
  h.invariant (fun _ => Initial.good) fun _ _ _ hs hst => hs.step hst

end Runs

section Offering

/-- The jobs that `n` calls of `claimNextJob` take, one after another. -/
def offered (workspaceId : WorkspaceId) (now : ℕ) : ℕ → Queue → List JobRow
  | 0, _ => []
  | n + 1, q =>
    match claimNextJob workspaceId now q with
    | none => []
    | some (next,job) => job :: offered workspaceId now n next

/-- Claiming a job leaves the other candidates. -/
theorem candidates_takeJob (i : JobRow) :
    candidates workspaceId now (takeJob now q i).1 =
      (candidates workspaceId now q).filter fun j => j.id ≠ i.id := by
  unfold candidates
  have hsplit : ∀ rows : List JobRow,
      (updateWhere (fun r => r.id = i.id) (claimed now) rows).filter (fun j =>
        claimable workspaceId now (takeJob now q i).1 j ∧ j.nextAt ≤ now) =
      (rows.filter fun j => claimable workspaceId now q j ∧ j.nextAt ≤ now).filter
        fun j => j.id ≠ i.id := by
    intro rows
    induction rows with
    | nil => rfl
    | cons j rest ih =>
      have hcons : updateWhere (fun r => decide (r.id = i.id)) (claimed now) (j :: rest) =
          (if j.id = i.id then claimed now j else j) ::
            updateWhere (fun r => decide (r.id = i.id)) (claimed now) rest := by
        simp [updateWhere]
      have hlocked := not_claimable_claimed workspaceId now (takeJob now q i).1 j
      have hsame : claimable workspaceId now (takeJob now q i).1 j = claimable workspaceId now q j :=
        rfl
      rw [hcons, List.filter_cons, ih]
      by_cases hid : j.id = i.id
      · rw [if_pos hid, hlocked]
        by_cases hc : claimable workspaceId now q j = true ∧ j.nextAt ≤ now <;>
          simp [hc, hid]
      · rw [if_neg hid, hsame]
        by_cases hc : claimable workspaceId now q j = true ∧ j.nextAt ≤ now <;>
          simp [hc, hid]
  exact hsplit q.rows

/-- Asking as often as there are candidates gets each of them. -/
theorem offered_candidate {j : JobRow} {n : ℕ} (hn : (candidates workspaceId now q).length ≤ n)
    (hj : j ∈ candidates workspaceId now q) : ∃ k ∈ offered workspaceId now n q, k.id = j.id := by
  induction n generalizing q with
  | zero =>
    rw [List.length_eq_zero_iff.mp (Nat.le_zero.mp hn)] at hj
    cases hj
  | succ n ih =>
    cases hi : (candidates workspaceId now q).argmin JobRow.nextAt with
    | none =>
      rw [List.argmin_eq_none.mp hi] at hj
      cases hj
    | some i =>
      have hclaim : claimNextJob workspaceId now q = some (takeJob now q i) := by
        rw [claimNextJob, hi]
        rfl
      have hoffered : offered workspaceId now (n + 1) q =
          claimed now i :: offered workspaceId now n (takeJob now q i).1 := by
        rw [offered, hclaim]
        rfl
      rw [hoffered]
      by_cases hid : j.id = i.id
      · exact ⟨claimed now i,List.mem_cons_self,hid.symm⟩
      · have hmem : j ∈ candidates workspaceId now (takeJob now q i).1 := by
          rw [candidates_takeJob]
          exact List.mem_filter.mpr ⟨hj,by simpa using hid⟩
        have hlt : (candidates workspaceId now (takeJob now q i).1).length <
            (candidates workspaceId now q).length := by
          rw [candidates_takeJob, List.length_filter_lt_length_iff_exists]
          exact ⟨i,List.argmin_mem hi,by simp⟩
        obtain ⟨k,hk,hkj⟩ := ih (by omega) hmem
        exact ⟨k,List.mem_cons_of_mem _ hk,hkj⟩

/-- In every reachable state the pointers are the undone jobs: one for each, in its workspace and no
later than it is due; and a drain gets every job that is due and free. -/
theorem job_ready_matches_jobs {s : State} (h : ReachableState s) :
    (∀ j ∈ s.queue.rows, (∃ p ∈ s.queue.ready, p.jobId = j.id) ↔ j.doneAt = none) ∧
    (s.queue.ready.map ReadyRow.jobId).Nodup ∧
    (∀ p ∈ s.queue.ready, ∃ j ∈ s.queue.rows, j.id = p.jobId ∧ p.workspaceId = j.workspaceId ∧
      p.nextAt ≤ j.nextAt) ∧
    ∀ j ∈ s.queue.rows, j.doneAt = none → j.nextAt ≤ s.now → j.lockedUntil.all (fun l => l < s.now) →
      (∃ p ∈ dueReady s.now s.queue, p.jobId = j.id) ∧
      ∀ n, (candidates j.workspaceId s.now s.queue).length ≤ n →
        ∃ k ∈ offered j.workspaceId s.now n s.queue, k.id = j.id := by
  have hp := h.good.paired
  have hunpaused : ∀ p ∈ s.queue.ready, p.pauseReason = none := by
    intro p hmem
    obtain ⟨j,-,-,rfl⟩ := (hp.ready p).mp hmem
    rfl
  refine ⟨?_,hp.once,?_,?_⟩
  · intro j hj
    constructor
    · rintro ⟨p,hmem,hid⟩
      exact (hp.job_of_ready hmem hj hid.symm).1
    · exact fun hdone => ⟨pointer j,(hp.ready _).mpr ⟨j,hj,hdone,rfl⟩,rfl⟩
  · intro p hmem
    obtain ⟨j,hj,-,rfl⟩ := (hp.ready p).mp hmem
    exact ⟨j,hj,rfl,rfl,le_rfl⟩
  · intro j hj hdone hdue hfree
    have hmem : pointer j ∈ s.queue.ready := (hp.ready _).mpr ⟨j,hj,hdone,rfl⟩
    refine ⟨⟨pointer j,List.mem_filter.mpr ⟨hmem,by simpa [pointer] using hdue⟩,rfl⟩,fun n hn => ?_⟩
    refine offered_candidate hn (List.mem_filter.mpr ⟨hj,?_⟩)
    have hnot : paused s.queue j.id = false := by
      simp only [paused, List.any_eq_false, decide_eq_true_eq, not_and]
      intro p hp' _
      simp [hunpaused p hp']
    simp [claimable, hdone, hnot, hfree, hdue]

end Offering

section Sample

def emptyState : State := ⟨0,⟨[],[],0⟩,fun _ => none⟩

/-- A job that one drainer claimed, and a second one that is due. -/
def sampleEvents : List Event :=
  [.enqueue 1 "publish" "publish:1" "{}", .claimNext 1 1, .enqueue 1 "publish" "publish:2" "{}"]

theorem initial_emptyState : Initial emptyState := ⟨rfl,rfl,fun _ => rfl⟩

theorem job_ready_matches_jobs_publish :
    (∃ p ∈ dueReady 0 (afterAll apply emptyState sampleEvents).queue, p.jobId = 1) ∧
    ∃ k ∈ offered 1 0 2 (afterAll apply emptyState sampleEvents).queue, k.id = 1 := by
  have hreach : ReachableState (afterAll apply emptyState sampleEvents) :=
    ⟨emptyState,sampleEvents,initial_emptyState,run_afterAll (by decide)⟩
  have h := (job_ready_matches_jobs hreach).2.2.2
    ⟨1,1,"publish","publish:2","{}",0,0,none,none,none⟩ (by decide) rfl (by decide) rfl
  exact ⟨h.1,h.2 2 (by decide)⟩

end Sample

end HermesEnterprise.Drain
