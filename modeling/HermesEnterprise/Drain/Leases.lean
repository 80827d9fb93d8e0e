import HermesEnterprise.Drain.Pointers

/-! # Exclusive leases

A claim holds its job until the lease ends, as long as no drainer reports a job
that carries the lease of another claim. `finishJob`, `finishFailedJob` and
`failJob` address the row by its id alone, so they do not check that themselves.
-/
namespace HermesEnterprise.Drain
open Approvals Foundation.Runs Foundation.Tables

/-- The claim an event reports. -/
def Event.reports : Event → Option ClaimId
  | .finish id | .finishFailed id _ | .fail id _ _ => some id
  | _ => none

/-- A reported job carries no lease, or that of the reported claim. -/
def ReportsOwnLease (s : State) (e : Event) : Prop :=
  ∀ id c, e.reports = some id → s.claims id = some c →
    ∀ j ∈ s.queue.rows, j.id = c.jobId → ∀ l, j.lockedUntil = some l → l = c.lease

/-- Every held claim whose lease runs is the one on its undone job. -/
structure Leased (s : State) : Prop where
  past : ∀ id c, s.claims id = some c → c.claimedAt ≤ s.now
  locked : ∀ id c, s.claims id = some c → s.now ≤ c.lease →
    ∀ j ∈ s.queue.rows, j.id = c.jobId → j.doneAt = none ∧ j.lockedUntil = some c.lease
  alone : ∀ id c id' c', s.claims id = some c → s.claims id' = some c' → c.jobId = c'.jobId →
    c.lease = c'.lease → id = id'

variable {s t : State} {e : Event} {q : Queue} {workspaceId : WorkspaceId} {id : ClaimId}

/-- Jobs that existed keep their lease while they are undone. -/
def Quiet (q q' : Queue) : Prop :=
  ∀ j' ∈ q'.rows, j'.id < q.nextId → ∃ j ∈ q.rows, j.id = j'.id ∧
    (j.doneAt = none → j'.doneAt = none ∧ j'.lockedUntil = j.lockedUntil)

theorem quiet_updateWhere {p : JobRow → Bool} {f : JobRow → JobRow} {ready : List ReadyRow}
    (hid : ∀ j, (f j).id = j.id)
    (hf : ∀ j, p j = true → j.doneAt = none →
      (f j).doneAt = none ∧ (f j).lockedUntil = j.lockedUntil) :
    Quiet q { q with rows := updateWhere p f q.rows, ready := ready } := by
  intro j' hj' _
  rcases mem_updateWhere.mp hj' with ⟨j,hj,hp,rfl⟩ | ⟨hj',-⟩
  · exact ⟨j,hj,(hid j).symm,hf j hp⟩
  · exact ⟨j',hj',rfl,fun hdone => ⟨hdone,rfl⟩⟩

theorem quiet_insertJob (kind key payload : String) (due : ℕ) :
    Quiet q (insertJob workspaceId q kind key payload due) := by
  intro j' hj' hlt
  rcases List.mem_append.mp hj' with hj' | hj'
  · exact ⟨j',hj',rfl,fun hdone => ⟨hdone,rfl⟩⟩
  · rw [List.mem_singleton.mp hj'] at hlt
    exact absurd hlt (Nat.lt_irrefl _)

theorem quiet_reschedule (jobId : JobId) (due : ℕ) :
    Quiet q (reschedule workspaceId q jobId due fun j => j) :=
  quiet_updateWhere (fun _ => rfl) fun _ _ hdone => ⟨hdone,rfl⟩

theorem Quiet.refl (q : Queue) : Quiet q q := fun j hj _ => ⟨j,hj,rfl,fun hdone => ⟨hdone,rfl⟩⟩

theorem isDoneWith_not_undone {kind key : String} {j : JobRow}
    (h : isDoneWith workspaceId kind key j = true) : j.doneAt ≠ none := by
  simp only [isDoneWith, decide_eq_true_eq] at h
  exact Option.isSome_iff_ne_none.mp h.2.2

theorem quiet_reviveJobs {now : ℕ} {kind key : String} {f : JobRow → JobRow}
    (hid : ∀ j, (f j).id = j.id) : Quiet q (reviveJobs workspaceId now q kind key f) :=
  quiet_updateWhere hid fun _ hp hdone => absurd hdone (isDoneWith_not_undone hp)

/-- A change of the tables that leaves running leases alone. -/
theorem Leased.quiet (h : Leased s) (hg : Good s) (hq : Quiet s.queue q) :
    Leased { s with queue := q } := by
  refine ⟨h.past,fun id c hc hlive j' hj' hid => ?_,h.alone⟩
  obtain ⟨i,hi,hic,-⟩ := hg.owned id c hc
  have hlt : j'.id < s.queue.nextId := hid.trans hic.symm ▸ hg.paired.fresh i hi
  obtain ⟨j,hj,hjj,hkeep⟩ := hq j' hj' hlt
  obtain ⟨hdone,hlock⟩ := h.locked id c hc hlive j hj (hjj.trans hid)
  obtain ⟨hdone',hlock'⟩ := hkeep hdone
  exact ⟨hdone',hlock'.trans hlock⟩

/-- A job that can be claimed carries no running lease. -/
theorem Leased.claimable (h : Leased s) {c : Claim} (hc : s.claims id = some c) {j : JobRow}
    (hj : j ∈ s.queue.rows) (hid : j.id = c.jobId)
    (hcl : Drain.claimable workspaceId s.now s.queue j = true) : c.lease < s.now := by
  by_contra hlive
  obtain ⟨-,hlock⟩ := h.locked id c hc (Nat.le_of_not_lt hlive) j hj hid
  have hfree := (claimable_iff.mp hcl).2.2.2
  exact hlive (hfree _ hlock)

theorem Leased.claim (h : Leased s) (hg : Good s) {r : Option (Queue × JobRow)}
    (hr : ∀ p, r = some p → ∃ j ∈ s.queue.rows,
      Drain.claimable workspaceId s.now s.queue j = true ∧ p = takeJob s.now s.queue j)
    (ht : admitClaim s id workspaceId r = .ok t) : Leased t := by
  obtain ⟨hnone,queue,job,hp,rfl⟩ := admitClaim_ok ht
  obtain ⟨j,hj,hcl,he⟩ := hr _ hp
  cases he
  have hsplit : ∀ {id' : ClaimId} {c : Claim}, Function.update s.claims id
      (some ⟨j.id,workspaceId,j.attempts + 1,s.now⟩) id' = some c →
      (id' = id ∧ c = ⟨j.id,workspaceId,j.attempts + 1,s.now⟩) ∨ (id' ≠ id ∧ s.claims id' = some c) := by
    intro id' c hc
    by_cases hid : id' = id
    · subst hid
      rw [Function.update_self, Option.some.injEq] at hc
      exact Or.inl ⟨rfl,hc.symm⟩
    · rw [Function.update_of_ne hid] at hc
      exact Or.inr ⟨hid,hc⟩
  have hother : ∀ {id' : ClaimId} {c : Claim}, s.claims id' = some c → j.id = c.jobId →
      c.lease < s.now := fun hc hid => h.claimable hc hj hid hcl
  refine ⟨?_,?_,?_⟩
  · intro id' c hc
    rcases hsplit hc with ⟨-,rfl⟩ | ⟨-,hc⟩
    · exact le_rfl
    · exact h.past id' c hc
  · intro id' c hc hlive j' hj' hid'
    rcases hsplit hc with ⟨-,rfl⟩ | ⟨-,hc⟩
    · rcases mem_updateWhere.mp hj' with ⟨i,hi,hij,rfl⟩ | ⟨hj',hne⟩
      · have hdone : i.doneAt = none := by
          rw [List.inj_on_of_nodup_map hg.paired.ids hi hj (of_decide_eq_true hij)]
          exact (claimable_iff.mp hcl).2.1
        exact ⟨hdone,rfl⟩
      · exact absurd hid' (of_decide_eq_false hne)
    · rcases mem_updateWhere.mp hj' with ⟨i,hi,hij,rfl⟩ | ⟨hj',-⟩
      · have hij : i.id = j.id := of_decide_eq_true hij
        exact absurd (hother hc (hij.symm.trans hid')) (Nat.not_lt_of_le hlive)
      · exact h.locked id' c hc hlive j' hj' hid'
  · intro id₁ c₁ id₂ c₂ hc₁ hc₂ hjob hlease
    rcases hsplit hc₁ with ⟨rfl,rfl⟩ | ⟨-,hold₁⟩ <;> rcases hsplit hc₂ with ⟨rfl,rfl⟩ | ⟨-,hold₂⟩
    · rfl
    · have hlt := hother hold₂ hjob
      rw [← hlease] at hlt
      simp only [Claim.lease] at hlt
      omega
    · have hlt := hother hold₁ hjob.symm
      rw [hlease] at hlt
      simp only [Claim.lease] at hlt
      omega
    · exact h.alone id₁ c₁ id₂ c₂ hold₁ hold₂ hjob hlease

/-- A report that carries no other claim's lease leaves the other running leases alone. -/
theorem Leased.report (h : Leased s) {f : Claim → Queue}
    (hf : ∀ c, ∀ j' ∈ (f c).rows, ∃ j ∈ s.queue.rows, j.id = j'.id ∧
      (j.id ≠ c.jobId → j'.doneAt = j.doneAt ∧ j'.lockedUntil = j.lockedUntil))
    (hown : ∀ c, s.claims id = some c → ∀ j ∈ s.queue.rows, j.id = c.jobId →
      ∀ l, j.lockedUntil = some l → l = c.lease)
    (hr : Drain.report s id f = .ok t) : Leased t := by
  unfold Drain.report at hr
  split at hr
  · cases hr
  next c hc =>
    cases hr
    have hold : ∀ {id' c'}, Function.update s.claims id none id' = some c' →
        id' ≠ id ∧ s.claims id' = some c' := by
      intro id' c' hc'
      by_cases hid : id' = id
      · subst hid
        simp at hc'
      · rw [Function.update_of_ne hid] at hc'
        exact ⟨hid,hc'⟩
    refine ⟨fun id' c' hc' => h.past id' c' (hold hc').2,?_,?_⟩
    · intro id' c' hc' hlive j' hj' hid'
      obtain ⟨hne,hc'⟩ := hold hc'
      obtain ⟨j,hj,hjj,hsame⟩ := hf c j' hj'
      obtain ⟨hdone,hlock⟩ := h.locked id' c' hc' hlive j hj (hjj.trans hid')
      by_cases hjob : j.id = c.jobId
      · have hlease := hown c hc j hj hjob _ hlock
        exact absurd (h.alone id' c' id c hc' hc ((hjj.trans hid').symm.trans hjob) hlease) hne
      · obtain ⟨hdone',hlock'⟩ := hsame hjob
        exact ⟨hdone'.trans hdone,hlock'.trans hlock⟩
    · intro id₁ c₁ id₂ c₂ hc₁ hc₂
      exact h.alone id₁ c₁ id₂ c₂ (hold hc₁).2 (hold hc₂).2

/-- A row rewritten by its id is the old row, except for that id. -/
theorem rewritten_row {jobId : JobId} {f : JobRow → JobRow} (hid : ∀ j, (f j).id = j.id)
    {j' : JobRow} (hj' : j' ∈ updateWhere (isJob workspaceId jobId) f q.rows) :
    ∃ j ∈ q.rows, j.id = j'.id ∧
      (j.id ≠ jobId → j'.doneAt = j.doneAt ∧ j'.lockedUntil = j.lockedUntil) := by
  rcases mem_updateWhere.mp hj' with ⟨j,hj,hp,rfl⟩ | ⟨hj',-⟩
  · simp only [isJob, decide_eq_true_eq] at hp
    exact ⟨j,hj,(hid j).symm,fun hne => absurd hp.2 hne⟩
  · exact ⟨j',hj',rfl,fun _ => ⟨rfl,rfl⟩⟩

theorem retireJob_rows {now : ℕ} {jobId : JobId} {f : JobRow → JobRow} (hid : ∀ j, (f j).id = j.id) :
    ∀ j' ∈ (retireJob workspaceId now q jobId f).rows, ∃ j ∈ q.rows, j.id = j'.id ∧
      (j.id ≠ jobId → j'.doneAt = j.doneAt ∧ j'.lockedUntil = j.lockedUntil) := by
  have hid' : ∀ j, ({ f j with doneAt := some now, lockedUntil := none } : JobRow).id = j.id := hid
  exact fun j' hj' => rewritten_row hid' hj'

theorem failJob_rows {now : ℕ} {jobId : JobId} {error : String} {attempts retryAfterSeconds : ℕ} :
    ∀ j' ∈ (failJob workspaceId now q jobId error attempts retryAfterSeconds).rows,
      ∃ j ∈ q.rows, j.id = j'.id ∧
        (j.id ≠ jobId → j'.doneAt = j.doneAt ∧ j'.lockedUntil = j.lockedUntil) := by
  have hid : ∀ j : JobRow, ({ j with
      lockedUntil := none
      lastError := some (errorText error)
      nextAt := now + Jobs.backoffMs attempts retryAfterSeconds } : JobRow).id = j.id := fun _ => rfl
  exact fun j' hj' => rewritten_row hid hj'

theorem Leased.step (h : Leased s) (hg : Good s) (hok : ReportsOwnLease s e) (hs : Step s e t) :
    Leased t := by
  have hown : ∀ {id}, e.reports = some id → ∀ c, s.claims id = some c → ∀ j ∈ s.queue.rows,
      j.id = c.jobId → ∀ l, j.lockedUntil = some l → l = c.lease :=
    fun he c hc => hok _ c he hc
  have hupsert : ∀ {q' : Option Queue}, withQueue s q' = .ok t →
      (∀ q, q' = some q → Quiet s.queue q) → Leased t := by
    intro q' hq hk
    cases q' with
    | none => cases hq
    | some q => cases hq; exact h.quiet hg (hk q rfl)
  unfold Step Applied apply at hs
  cases e with
  | enqueue w kind key payload =>
    cases hs
    refine h.quiet hg ?_
    unfold enqueueJob
    split
    · exact .refl _
    · exact quiet_insertJob _ _ _ _
  | enqueueLater w kind key payload due =>
    cases hs
    refine h.quiet hg ?_
    unfold enqueueLater
    split
    · exact .refl _
    · intro j' hj' hlt
      have hlater : Quiet (insertJob w s.queue kind key payload s.now)
          (reschedule w (insertJob w s.queue kind key payload s.now) s.queue.nextId due id) :=
        quiet_reschedule s.queue.nextId due
      obtain ⟨j,hj,hid,hkeep⟩ := hlater j' hj' (Nat.lt_succ_of_lt hlt)
      obtain ⟨i,hi,hij,hkeep'⟩ := quiet_insertJob kind key payload s.now j hj (hid ▸ hlt)
      refine ⟨i,hi,hij.trans hid,fun hdone => ?_⟩
      obtain ⟨hdone,hlock⟩ := hkeep' hdone
      obtain ⟨hdone',hlock'⟩ := hkeep hdone
      exact ⟨hdone',hlock'.trans hlock⟩
  | reviveSend w key payload =>
    cases hs
    refine h.quiet hg ?_
    unfold Drain.reviveSend
    split
    · exact quiet_reviveJobs fun _ => rfl
    · exact quiet_insertJob _ _ _ _
  | requeueTriage w key payload =>
    refine hupsert hs fun q hq => ?_
    unfold requeueTriage at hq
    split at hq
    · cases hq
    · split at hq
      · cases hq; exact quiet_reviveJobs fun _ => rfl
      · cases hq; exact quiet_insertJob _ _ _ _
  | requeueReverify w key payload due =>
    refine hupsert hs fun q hq => ?_
    unfold requeueReverify at hq
    split at hq
    · cases hq
    · split at hq
      · cases hq
        refine quiet_updateWhere (fun j => ?_) fun j _ hdone => ?_
        · unfold reverified
          split <;> rfl
        · rw [reverified, if_pos (by simp [hdone])]
          exact ⟨hdone,rfl⟩
      · cases hq; exact quiet_insertJob _ _ _ _
  | postponeKey w kind key due =>
    cases hs
    exact h.quiet hg (quiet_updateWhere (fun _ => rfl) fun _ _ hdone => ⟨hdone,rfl⟩)
  | claim id w jobId => exact h.claim hg (fun _ => mem_of_claimJob) hs
  | claimNext id w => exact h.claim hg (fun _ => mem_of_claimNextJob) hs
  | finish i => exact h.report (fun c => retireJob_rows fun _ => rfl) (hown rfl) hs
  | finishFailed i error =>
    have hid : ∀ j : JobRow, ({ j with lastError := some (errorText error) } : JobRow).id = j.id :=
      fun _ => rfl
    exact h.report (fun c => retireJob_rows hid) (hown rfl) hs
  | fail i error retryAfterSeconds => exact h.report (fun c => failJob_rows) (hown rfl) hs
  | tick elapsed =>
    cases hs
    refine ⟨fun id c hc => (h.past id c hc).trans (Nat.le_add_right _ _),?_,h.alone⟩
    exact fun id c hc hlive => h.locked id c hc ((Nat.le_add_right _ _).trans hlive)

theorem Initial.leased (h : Initial s) : Leased s := by
  refine ⟨?_,?_,?_⟩ <;> simp [h.claims]

section Sample

end Sample

end HermesEnterprise.Drain
