import HermesEnterprise.Runtime.Store

/-! # An agent executes one run

Only a snapshot makes a run active, and it looks at the agent's other runs under the
agent's lock. Every other writer keeps the runs that are not active inactive.
-/
namespace HermesEnterprise.Runtime
open Foundation.Runs Foundation.Tables RunLog
variable {w w' : World} {e : Event} {runs : List RunRow} {r r' : RunRow} {agentId : AgentId} {runId : RunId}
variable {attempt : ℕ} {f : RunRow → RunRow} {p : RunRow → Bool}

/-- What any writer but a snapshot may do to a row. -/
structure Moves (r r' : RunRow) : Prop where
  id : r'.id = r.id
  agentId : r'.agentId = r.agentId
  request : r'.runtimeRequestAttempt = r.runtimeRequestAttempt
  attempt : (r'.attempt = r.attempt ∧ (r.status.terminal = true → r'.status.terminal = true)) ∨
    r.attempt < r'.attempt
  bound : r'.runtimeAttempt = r.runtimeAttempt ∨
    (r'.runtimeAttempt = some r'.attempt ∧ r.runtimeRequestAttempt = some r'.attempt)
  kind : r.runtimeKind = .hermes → r'.runtimeKind = .hermes

structure Exclusive (w : World) : Prop where
  ids : (w.runs.map (·.id)).Nodup
  one : OneActive w
  kind : ∀ r ∈ w.runs, r.runtimeAttempt.isSome = true ∨ r.runtimeRequestAttempt.isSome = true →
    r.runtimeKind = .hermes
  bounded : ∀ r ∈ w.runs, (∀ a, r.runtimeAttempt = some a → a ≤ r.attempt) ∧
    ∀ a, r.runtimeRequestAttempt = some a → a ≤ r.attempt
  returned : ∀ runId attempt, (runId,attempt) ∈ w.returned → ∃ r ∈ w.runs, r.id = runId ∧ attempt ≤ r.attempt ∧
    (r.attempt = attempt → r.runtimeRequestAttempt = some attempt)
  /-- A snapshot in progress is of its agent's run, and no other run of the agent is active. -/
  locked : ∀ agentId call, w.locks agentId = some call →
    (∃ r ∈ w.runs, r.id = call.runId ∧ r.agentId = some agentId) ∧
    ∀ r ∈ w.runs, r.agentId = some agentId → active r = true → r.id = call.runId

section Rows

theorem active_iff : active r = true ↔ r.status.terminal = false ∧
    (r.runtimeAttempt = some r.attempt ∨ r.runtimeRequestAttempt = some r.attempt) := by
  unfold active
  simp only [Bool.and_eq_true, Bool.or_eq_true, Bool.not_eq_true', decide_eq_true_eq]

theorem Moves.refl (r : RunRow) : Moves r r :=
  ⟨rfl,rfl,rfl,.inl ⟨rfl,fun h => h⟩,.inl rfl,fun h => h⟩

/-- No writer but a snapshot makes a run active. -/
theorem Moves.active (h : Moves r r') (hbounded : (∀ a, r.runtimeAttempt = some a → a ≤ r.attempt) ∧
    ∀ a, r.runtimeRequestAttempt = some a → a ≤ r.attempt) (hactive : active r' = true) :
    Runtime.active r = true := by
  rw [active_iff] at hactive ⊢
  obtain ⟨hlive,hcurrent⟩ := hactive
  rw [h.request] at hcurrent
  rcases h.attempt with ⟨hsame,hterminal⟩ | hlater
  · refine ⟨Bool.eq_false_iff.mpr fun ht => absurd (hterminal ht) (by rw [hlive]; exact Bool.false_ne_true),?_⟩
    rw [hsame] at hcurrent
    rcases hcurrent with hrun | hrequest
    · rcases h.bound with heq | ⟨-,hrequest⟩
      · exact .inl (heq ▸ hrun)
      · exact .inr (hsame ▸ hrequest)
    · exact .inr hrequest
  · -- a later attempt has no request yet, and is bound to none
    exfalso
    rcases hcurrent with hrun | hrequest
    · rcases h.bound with heq | ⟨-,hrequest⟩
      · have hle := hbounded.1 _ (heq ▸ hrun)
        omega
      · have hle := hbounded.2 _ hrequest
        omega
    · have hle := hbounded.2 _ hrequest
      omega

theorem mem_same (hids : (runs.map (·.id)).Nodup) (hr : r ∈ runs) (hr' : r' ∈ runs) (h : r.id = r'.id) : r = r' :=
  List.inj_on_of_nodup_map hids hr hr' h

end Rows

section Writers

/-- What writers keep, whatever rows they move. -/
theorem Exclusive.moves {g : RunRow → RunRow} (h : Exclusive w) (hmoves : ∀ r ∈ w.runs, Moves r (g r)) :
    Exclusive { w with runs := w.runs.map g } where
  ids := by
    have hids : (w.runs.map g).map (·.id) = w.runs.map (·.id) := by
      rw [List.map_map]
      exact List.map_congr_left fun r hr => (hmoves r hr).id
    exact hids.symm ▸ h.ids
  one := by
    intro agentId s hs s' hs' hagent hagent' hactive hactive'
    obtain ⟨r,hr,rfl⟩ := List.mem_map.mp hs
    obtain ⟨r',hr',rfl⟩ := List.mem_map.mp hs'
    have hsame := h.one agentId r hr r' hr' ((hmoves r hr).agentId ▸ hagent) ((hmoves r' hr').agentId ▸ hagent')
      ((hmoves r hr).active (h.bounded r hr) hactive) ((hmoves r' hr').active (h.bounded r' hr') hactive')
    rw [hsame]
  kind := by
    intro s hs hset
    obtain ⟨r,hr,rfl⟩ := List.mem_map.mp hs
    refine (hmoves r hr).kind (h.kind r hr ?_)
    rw [(hmoves r hr).request] at hset
    rcases hset with hrun | hrequest
    · rcases (hmoves r hr).bound with heq | ⟨-,hrequest⟩
      · exact .inl (heq ▸ hrun)
      · exact .inr (hrequest ▸ rfl)
    · exact .inr hrequest
  bounded := by
    intro s hs
    obtain ⟨r,hr,rfl⟩ := List.mem_map.mp hs
    have hle : r.attempt ≤ (g r).attempt := by
      rcases (hmoves r hr).attempt with ⟨hsame,-⟩ | hlater
      · exact hsame.ge
      · exact hlater.le
    refine ⟨fun a ha => ?_,fun a ha => ?_⟩
    · rcases (hmoves r hr).bound with heq | ⟨heq,-⟩
      · exact ((h.bounded r hr).1 a (heq ▸ ha)).trans hle
      · rw [heq] at ha
        exact (Option.some.inj ha).ge
    · rw [(hmoves r hr).request] at ha
      exact ((h.bounded r hr).2 a ha).trans hle
  returned := by
    intro runId attempt hmem
    obtain ⟨r,hr,hid,hle,hrequest⟩ := h.returned runId attempt hmem
    refine ⟨g r,List.mem_map_of_mem hr,(hmoves r hr).id.trans hid,?_,?_⟩
    · rcases (hmoves r hr).attempt with ⟨hsame,-⟩ | hlater
      · rwa [hsame]
      · exact hle.trans hlater.le
    · intro heq
      rw [(hmoves r hr).request]
      rcases (hmoves r hr).attempt with ⟨hsame,-⟩ | hlater
      · exact hrequest (hsame ▸ heq)
      · omega
  locked := by
    intro agentId call hlock
    obtain ⟨⟨r,hr,hid,hagent⟩,hother⟩ := h.locked agentId call hlock
    refine ⟨⟨g r,List.mem_map_of_mem hr,(hmoves r hr).id.trans hid,(hmoves r hr).agentId.trans hagent⟩,?_⟩
    intro s hs hs' hactive
    obtain ⟨r',hr',rfl⟩ := List.mem_map.mp hs
    rw [(hmoves r' hr').id]
    exact hother r' hr' ((hmoves r' hr').agentId ▸ hs') ((hmoves r' hr').active (h.bounded r' hr') hactive)

/-- One statement over the rows it matches. -/
theorem Exclusive.updates (h : Exclusive w) (hmoves : ∀ r ∈ w.runs, p r = true → Moves r (f r)) :
    Exclusive { w with runs := updateWhere p f w.runs } := by
  refine h.moves fun r hr => ?_
  by_cases hp : p r = true
  · rw [if_pos hp]
    exact hmoves r hr hp
  · rw [if_neg hp]
    exact .refl r

theorem Exclusive.startRuntimeWait (h : Exclusive w) (now : ℕ) :
    Exclusive { w with runs := startRuntimeWait w.runs now runId attempt } :=
  h.updates fun _ _ _ => ⟨rfl,rfl,rfl,.inl ⟨rfl,fun h => h⟩,.inl rfl,fun h => h⟩

theorem Exclusive.endRuntimeWait (h : Exclusive w) (now : ℕ) :
    Exclusive { w with runs := endRuntimeWait w.runs now runId attempt } :=
  h.updates fun _ _ _ => ⟨rfl,rfl,rfl,.inl ⟨rfl,fun h => h⟩,.inl rfl,fun h => h⟩

theorem Exclusive.setRunStatus (h : Exclusive w) (status : RunStatus)
    (detail : Option (Option String × Option String)) :
    Exclusive { w with runs := setRunStatus w.runs runId status detail } := by
  refine h.updates fun r _ hp => ⟨rfl,rfl,rfl,.inl ⟨rfl,fun hterminal => ?_⟩,.inl rfl,fun h => h⟩
  simp only [Bool.and_eq_true, Bool.not_eq_true'] at hp
  exact absurd (hp.2.symm.trans hterminal) Bool.false_ne_true

theorem Exclusive.park (h : Exclusive w) (now : ℕ) (r : RunRow) (key label : String) :
    Exclusive { w with runs := park w.runs now r key label } := by
  have hstarted := @Exclusive.startRuntimeWait w r.id r.attempt h now
  unfold Runtime.park
  dsimp only
  split
  · exact hstarted.setRunStatus .waiting _
  · exact hstarted

theorem Exclusive.resume (h : Exclusive w) (now : ℕ) (r : RunRow) (answered : Bool) :
    Exclusive { w with runs := resume w.runs now r answered } := by
  have hended := @Exclusive.endRuntimeWait w r.id r.attempt h now
  unfold Runtime.resume
  dsimp only
  split
  · split
    · exact hended.setRunStatus .working _
    · exact hended
  · exact h

theorem Exclusive.finalizeRuntime (h : Exclusive w) (status : RunStatus) :
    Exclusive { w with runs := finalizeRuntime w.runs runId attempt status } := by
  unfold Runtime.finalizeRuntime
  split
  · split
    · exact h
    · exact h.setRunStatus status _
  · exact h

theorem Exclusive.retryTask (h : Exclusive w) (runId : RunId) :
    Exclusive { w with runs := retryTask w.runs runId } :=
  h.updates fun _ _ _ => ⟨rfl,rfl,rfl,.inr (Nat.lt_succ_self _),.inl rfl,fun h => h⟩

theorem Exclusive.requestRunStop (h : Exclusive w) (runId : RunId) :
    Exclusive { w with runs := requestRunStop w.runs runId } := by
  refine h.updates fun r _ hp => ⟨rfl,rfl,rfl,.inl ⟨rfl,fun hterminal => ?_⟩,.inl rfl,fun h => h⟩
  simp only [Bool.and_eq_true, Bool.not_eq_true'] at hp
  exact absurd (hp.2.symm.trans hterminal) Bool.false_ne_true

theorem Exclusive.flagStop (h : Exclusive w) (runId : RunId) :
    Exclusive { w with runs := flagStop w.runs runId } :=
  h.updates fun _ _ _ => ⟨rfl,rfl,rfl,.inl ⟨rfl,fun h => h⟩,.inl rfl,fun h => h⟩

theorem working_iff : working runId attempt r = true ↔
    r.id = runId ∧ r.attempt = attempt ∧ r.stopRequested = false ∧ r.status = .working := by
  unfold working
  exact decide_eq_true_iff

/-- A bind follows a snapshot of its attempt, so the run is active already. -/
theorem Exclusive.binds (h : Exclusive w) (hreturned : (runId,attempt) ∈ w.returned)
    (remoteRunId sessionId profile : String) :
    Exclusive { w with runs :=
      (updateWhere (bindable runId attempt remoteRunId) (bindRow attempt remoteRunId sessionId profile) w.runs) } := by
  refine h.updates fun r hr hp => ?_
  unfold bindable at hp
  obtain ⟨hid,hattempt,-,-⟩ := working_iff.mp (Bool.and_eq_true_iff.mp hp).1
  obtain ⟨s,hs,hsid,-,hrequest⟩ := h.returned runId attempt hreturned
  obtain rfl := mem_same h.ids hs hr (hsid.trans hid.symm)
  exact ⟨rfl,rfl,rfl,.inl ⟨rfl,fun h => h⟩,.inr ⟨hattempt ▸ rfl,hattempt ▸ hrequest hattempt⟩,fun _ => rfl⟩

/-- A new run is not active. -/
theorem Exclusive.inserts (h : Exclusive w) (hfresh : ∀ s ∈ w.runs, s.id ≠ r.id)
    (hrun : r.runtimeAttempt = none) (hrequest : r.runtimeRequestAttempt = none) :
    Exclusive { w with runs := w.runs ++ [r] } := by
  have hidle : active r = false := by
    rw [Bool.eq_false_iff]
    intro hactive
    obtain ⟨-,hcurrent⟩ := active_iff.mp hactive
    rw [hrun, hrequest] at hcurrent
    rcases hcurrent with hnone | hnone <;> cases hnone
  have hold : ∀ s ∈ w.runs ++ [r], active s = true → s ∈ w.runs := by
    intro s hs hactive
    rcases List.mem_append.mp hs with hs | hs
    · exact hs
    · rw [List.mem_singleton.mp hs, hidle] at hactive
      cases hactive
  refine ⟨?_,?_,?_,?_,?_,?_⟩
  · rw [List.map_append, List.map_singleton]
    refine h.ids.append (List.nodup_singleton _) ?_
    intro id hmem hmem'
    obtain ⟨s,hs,rfl⟩ := List.mem_map.mp hmem
    exact hfresh s hs (List.mem_singleton.mp hmem')
  · intro agentId s hs s' hs' hagent hagent' hactive hactive'
    exact h.one agentId s (hold s hs hactive) s' (hold s' hs' hactive') hagent hagent' hactive hactive'
  · intro s hs hset
    rcases List.mem_append.mp hs with hs | hs
    · exact h.kind s hs hset
    · rw [List.mem_singleton.mp hs, hrun, hrequest] at hset
      rcases hset with hnone | hnone <;> cases hnone
  · intro s hs
    rcases List.mem_append.mp hs with hs | hs
    · exact h.bounded s hs
    · rw [List.mem_singleton.mp hs, hrun, hrequest]
      exact ⟨fun _ ha => (nomatch ha),fun _ ha => (nomatch ha)⟩
  · intro runId attempt hmem
    obtain ⟨s,hs,hrest⟩ := h.returned runId attempt hmem
    exact ⟨s,List.mem_append_left _ hs,hrest⟩
  · intro agentId call hlock
    obtain ⟨⟨s,hs,hrest⟩,hother⟩ := h.locked agentId call hlock
    exact ⟨⟨s,List.mem_append_left _ hs,hrest⟩,fun s hs hagent hactive => hother s (hold s hs hactive) hagent hactive⟩

end Writers

section Snapshots
variable {call : SnapshotCall}

theorem setLock_locks (a : AgentId) (call : Option SnapshotCall) :
    (setLock w agentId call).locks a = if a = agentId then call else w.locks a := rfl

theorem Exclusive.unlocks (h : Exclusive w) (agentId : AgentId) : Exclusive (setLock w agentId none) where
  ids := h.ids
  one := h.one
  kind := h.kind
  bounded := h.bounded
  returned := h.returned
  locked := by
    intro a call hlock
    rw [setLock_locks] at hlock
    split at hlock
    · cases hlock
    · exact h.locked a call hlock

/-- A snapshot begins while no other run of the agent is active. -/
theorem Exclusive.locks (h : Exclusive w) (hrun : ∃ r ∈ w.runs, r.id = call.runId ∧ r.agentId = some agentId)
    (hbusy : busy w.runs agentId call.runId = false) : Exclusive (setLock w agentId (some call)) where
  ids := h.ids
  one := h.one
  kind := h.kind
  bounded := h.bounded
  returned := h.returned
  locked := by
    intro a call' hlock
    rw [setLock_locks] at hlock
    split at hlock
    · rename_i ha
      cases hlock
      rw [ha]
      refine ⟨hrun,fun r hr hagent hactive => ?_⟩
      have hnot := List.any_eq_false.mp hbusy r hr
      by_contra hid
      refine hnot ?_
      have hkind : r.runtimeKind = .hermes := by
        refine h.kind r hr ?_
        obtain ⟨-,hcurrent | hcurrent⟩ := active_iff.mp hactive
        · exact .inl (hcurrent ▸ rfl)
        · exact .inr (hcurrent ▸ rfl)
      simp only [hagent, hkind, hactive, hid, decide_true, ne_eq, not_false_eq_true, Bool.and_self]
    · exact h.locked a call' hlock

/-- The row that a snapshot writes is its agent's, and becomes the active one. -/
theorem Exclusive.writes (h : Exclusive w) (hlock : w.locks agentId = some call) (now : ℕ)
    (hfound : w.runs.any (working call.runId call.attempt) = true) :
    Exclusive { setLock w agentId none with
      runs := updateWhere (working call.runId call.attempt) (snapshotRow call.attempt call.proposed now) w.runs,
      returned := (call.runId,call.attempt) :: w.returned } := by
  obtain ⟨⟨owner,howner,hoid,hoagent⟩,hother⟩ := h.locked agentId call hlock
  have hwritten : ∀ r ∈ w.runs, working call.runId call.attempt r = true → r.agentId = some agentId ∧
      r.id = call.runId ∧ r.attempt = call.attempt := by
    intro r hr hmatch
    obtain ⟨hid,hattempt,-,-⟩ := working_iff.mp hmatch
    obtain rfl := mem_same h.ids hr howner (hid.trans hoid.symm)
    exact ⟨hoagent,hid,hattempt⟩
  refine ⟨?_,?_,?_,?_,?_,?_⟩
  · rw [map_updateWhere]
    · exact h.ids
    · intro r hr hmatch
      rfl
  · intro a s hs s' hs' hagent hagent' hactive hactive'
    rcases mem_updateWhere.mp hs with ⟨r,hr,hmatch,rfl⟩ | ⟨hkept,hnot⟩
    · obtain ⟨hragent,hrid,-⟩ := hwritten r hr hmatch
      rcases mem_updateWhere.mp hs' with ⟨r',hr',hmatch',rfl⟩ | ⟨hkept',hnot'⟩
      · obtain ⟨-,hrid',-⟩ := hwritten r' hr' hmatch'
        rw [mem_same h.ids hr hr' (hrid.trans hrid'.symm)]
      · obtain rfl : a = agentId := Option.some.inj (hagent.symm.trans hragent)
        obtain rfl := mem_same h.ids hkept' hr ((hother s' hkept' hagent' hactive').trans hrid.symm)
        exact absurd (hnot'.symm.trans hmatch) Bool.false_ne_true
    · rcases mem_updateWhere.mp hs' with ⟨r',hr',hmatch',rfl⟩ | ⟨hkept',-⟩
      · obtain ⟨hragent',hrid',-⟩ := hwritten r' hr' hmatch'
        obtain rfl : a = agentId := Option.some.inj (hagent'.symm.trans hragent')
        obtain rfl := mem_same h.ids hkept hr' ((hother s hkept hagent hactive).trans hrid'.symm)
        exact absurd (hnot.symm.trans hmatch') Bool.false_ne_true
      · exact h.one a s hkept s' hkept' hagent hagent' hactive hactive'
  · intro s hs hset
    rcases mem_updateWhere.mp hs with ⟨r,hr,hmatch,rfl⟩ | ⟨hs,-⟩
    · rfl
    · exact h.kind s hs hset
  · intro s hs
    rcases mem_updateWhere.mp hs with ⟨r,hr,hmatch,rfl⟩ | ⟨hs,-⟩
    · refine ⟨(h.bounded r hr).1,?_⟩
      rintro a ⟨⟩
      exact (hwritten r hr hmatch).2.2.ge
    · exact h.bounded s hs
  · intro runId attempt hmem
    rcases List.mem_cons.mp hmem with heq | hmem
    · cases heq
      obtain ⟨r,hr,hmatch⟩ := List.any_eq_true.mp hfound
      obtain ⟨-,hid,hattempt⟩ := hwritten r hr hmatch
      exact ⟨_,mem_updateWhere.mpr (.inl ⟨r,hr,hmatch,rfl⟩),hid,hattempt.ge,fun _ => rfl⟩
    · obtain ⟨r,hr,hid,hle,hrequest⟩ := h.returned runId attempt hmem
      by_cases hmatch : working call.runId call.attempt r = true
      · refine ⟨_,mem_updateWhere.mpr (.inl ⟨r,hr,hmatch,rfl⟩),hid,hle,fun heq => ?_⟩
        obtain ⟨-,-,hattempt⟩ := hwritten r hr hmatch
        change some call.attempt = some attempt
        rw [← hattempt]
        exact congrArg some heq
      · exact ⟨r,mem_updateWhere.mpr (.inr ⟨hr,Bool.eq_false_iff.mpr hmatch⟩),hid,hle,hrequest⟩
  · intro a call' hlock'
    rw [setLock_locks] at hlock'
    split at hlock'
    · cases hlock'
    · rename_i hne
      obtain ⟨⟨r,hr,hid,hagent⟩,hother'⟩ := h.locked a call' hlock'
      have hunwritten : ∀ r ∈ w.runs, r.agentId = some a → working call.runId call.attempt r = false := by
        intro r hr hagent
        refine Bool.eq_false_iff.mpr fun hmatch => hne ?_
        exact Option.some.inj (hagent.symm.trans (hwritten r hr hmatch).1)
      refine ⟨⟨r,mem_updateWhere.mpr (.inr ⟨hr,hunwritten r hr hagent⟩),hid,hagent⟩,?_⟩
      intro s hs hsagent hactive
      rcases mem_updateWhere.mp hs with ⟨r',hr',hmatch,rfl⟩ | ⟨hs,-⟩
      · exact absurd ((hunwritten r' hr' hsagent).symm.trans hmatch) Bool.false_ne_true
      · exact hother' s hs hsagent hactive

end Snapshots

section Runs

theorem Exclusive.initial (h : Initial w) : Exclusive w := by
  obtain ⟨hruns,hlocks,hreturned⟩ := h
  refine ⟨?_,?_,?_,?_,?_,?_⟩
  · rw [hruns]
    exact List.nodup_nil
  · intro a r hr
    rw [hruns] at hr
    cases hr
  · intro r hr
    rw [hruns] at hr
    cases hr
  · intro r hr
    rw [hruns] at hr
    cases hr
  · intro runId attempt hmem
    rw [hreturned] at hmem
    cases hmem
  · intro a call hlock
    cases (hlocks a).symm.trans hlock

theorem Exclusive.step (h : Exclusive w) (hs : Step w e w') : Exclusive w' := by
  unfold Step Applied at hs
  cases e with
  | inserts id agentId status attempt createdAt =>
    simp only [apply] at hs
    split at hs
    · cases hs
    · rename_i hfresh
      cases hs
      refine h.inserts (fun s hs hid => hfresh ?_) rfl rfl
      exact List.any_eq_true.mpr ⟨s,hs,decide_eq_true hid⟩
  | snapshots runId attempt proposed =>
    simp only [apply] at hs
    split at hs
    · rename_i agentId hagent
      split at hs
      · rename_i hfree
        cases hs
        obtain ⟨r,hfind,hragent⟩ := Option.bind_eq_some_iff.mp hagent
        have hid : r.id = runId := of_decide_eq_true (List.find?_some (p := fun r : RunRow => decide (r.id = runId)) hfind)
        simp only [Bool.and_eq_true, Bool.not_eq_true'] at hfree
        exact h.locks ⟨r,List.mem_of_find?_eq_some hfind,hid,hragent⟩ hfree.2
      · cases hs
    · cases hs
  | writes agentId now =>
    simp only [apply] at hs
    split at hs
    · rename_i call hlock
      split at hs
      · rename_i hfound
        cases hs
        exact h.writes hlock now hfound
      · cases hs
        exact h.unlocks agentId
    · cases hs
  | abandons agentId =>
    simp only [apply] at hs
    cases hs
    exact h.unlocks agentId
  | binds runId attempt remoteRunId sessionId profile =>
    simp only [apply] at hs
    split at hs
    · rename_i hreturned
      split at hs
      · cases hs
        exact h.binds hreturned remoteRunId sessionId profile
      · cases hs
    · cases hs
  | parks agentId remoteRunId key label now =>
    simp only [apply] at hs
    split at hs
    · cases hs
      exact h.park now _ key label
    · cases hs
  | resumes agentId remoteRunId answered now =>
    simp only [apply] at hs
    split at hs
    · cases hs
      exact h.resume now _ answered
    · cases hs
  | finalizes runId attempt status =>
    simp only [apply] at hs
    cases hs
    exact h.finalizeRuntime status
  | setsStatus runId status =>
    simp only [apply] at hs
    cases hs
    exact h.setRunStatus status none
  | stops runId =>
    simp only [apply] at hs
    cases hs
    exact h.requestRunStop runId
  | flags runId =>
    simp only [apply] at hs
    cases hs
    exact h.flagStop runId
  | retries runId =>
    simp only [apply] at hs
    cases hs
    exact h.retryTask runId

theorem unmatched (hr : r ∈ runs) (hnot : p r = false) : r ∈ updateWhere p f runs :=
  mem_updateWhere.mpr (.inr ⟨hr,hnot⟩)

/-- A run that is over for an attempt is not working on it. -/
theorem not_working (hover : attempt < r.attempt ∨ r.status.terminal = true) : working runId attempt r = false := by
  refine Bool.eq_false_iff.mpr fun hworking => ?_
  obtain ⟨-,hattempt,-,hstatus⟩ := working_iff.mp hworking
  rcases hover with hlater | hterminal
  · omega
  · rw [hstatus] at hterminal
    cases hterminal

/-- A wait is written for no later attempt. -/
theorem startRuntimeWait_fenced (now : ℕ) (hr : r ∈ runs) (hlater : attempt < r.attempt) :
    r ∈ startRuntimeWait runs now runId attempt ∧ r ∈ endRuntimeWait runs now runId attempt := by
  have hnot : waitable runId attempt r = false := by
    refine Bool.eq_false_iff.mpr fun hwaitable => ?_
    unfold waitable at hwaitable
    have hattempt := (of_decide_eq_true hwaitable).2.1
    omega
  refine ⟨unmatched hr ?_,unmatched hr ?_⟩
  · rw [hnot, Bool.false_and]
  · rw [hnot, Bool.false_and]

/-- The run of a tool call is in its table, and neither terminal nor about to stop. -/
theorem toolRun_some {remoteRunId : String} (h : toolRun w agentId remoteRunId = some r) :
    r ∈ w.runs ∧ r.status.terminal = false := by
  unfold toolRun at h
  split at h
  · obtain ⟨hfind,hactive⟩ := Option.filter_eq_some_iff.mp h
    refine ⟨List.mem_of_find?_eq_some hfind,?_⟩
    unfold requireActive at hactive
    simp only [Bool.and_eq_true, Bool.or_eq_true, decide_eq_true_eq] at hactive
    rcases hactive.2 with hstatus | hstatus
    · rw [hstatus]
      rfl
    · rw [hstatus]
      rfl
  · cases h

/-- What is issued for an attempt that is over changes nothing of its run. -/
theorem Exclusive.fenced (h : Exclusive w) (hs : Step w e w') : Fenced w e w' := by
  intro runId attempt hissued r hr hid hover
  unfold Step Applied at hs
  cases e with
  | writes agentId now =>
    obtain ⟨call,hlock,heq⟩ := Option.map_eq_some_iff.mp hissued
    cases heq
    simp only [apply, hlock] at hs
    split at hs
    · cases hs
      exact unmatched hr (not_working hover)
    · cases hs
      exact hr
  | binds runId' attempt' remoteRunId sessionId profile =>
    cases hissued
    simp only [apply] at hs
    split at hs
    · split at hs
      · cases hs
        refine unmatched hr ?_
        unfold bindable
        rw [not_working hover, Bool.false_and]
      · cases hs
    · cases hs
  | parks agentId remoteRunId key label now =>
    obtain ⟨found,hfound,heq⟩ := Option.map_eq_some_iff.mp hissued
    cases heq
    obtain ⟨hmem,hlive⟩ := toolRun_some hfound
    obtain rfl := mem_same h.ids hr hmem hid
    rcases hover with hlater | hterminal
    · omega
    · exact absurd (hlive.symm.trans hterminal) Bool.false_ne_true
  | resumes agentId remoteRunId answered now =>
    obtain ⟨found,hfound,heq⟩ := Option.map_eq_some_iff.mp hissued
    cases heq
    obtain ⟨hmem,hlive⟩ := toolRun_some hfound
    obtain rfl := mem_same h.ids hr hmem hid
    rcases hover with hlater | hterminal
    · omega
    · exact absurd (hlive.symm.trans hterminal) Bool.false_ne_true
  | finalizes runId' attempt' status =>
    cases hissued
    simp only [apply] at hs
    cases hs
    dsimp only
    have hfind : w.runs.find? (fun s => s.id = runId) = some r := hid ▸ find?_key h.ids hr
    unfold Runtime.finalizeRuntime
    rw [hfind]
    dsimp only
    rw [if_pos]
    · exact hr
    · rcases hover with hlater | hterminal
      · simp only [Bool.or_eq_true, decide_eq_true_eq]
        exact .inl hlater.ne'
      · rw [hterminal, Bool.or_true]
  | inserts id agentId status attempt createdAt => cases hissued
  | snapshots runId attempt proposed => cases hissued
  | abandons agentId => cases hissued
  | setsStatus runId status => cases hissued
  | stops runId => cases hissued
  | flags runId => cases hissued
  | retries runId => cases hissued

/-- The run that a profile is working on is found. -/
theorem Exclusive.activeProfileRun (h : Exclusive w) (hr : r ∈ w.runs) (hagent : r.agentId = some agentId)
    (hprofile : r.runtimeKind = .hermes ∧ r.runtimeProfile = some (agentProfile agentId))
    (hstatus : r.status = .working ∧ r.stopRequested = false) (hactive : active r = true) :
    activeProfileRun w.runs agentId = some r := by
  let found := fun s : RunRow => s.agentId = some agentId && s.runtimeKind = .hermes &&
    s.runtimeProfile = some (agentProfile agentId) && s.status = .working && !s.stopRequested && active s
  have hmem : r ∈ w.runs.filter found := by
    refine List.mem_filter.mpr ⟨hr,?_⟩
    simp only [found, hagent, hprofile, hstatus, hactive, decide_true, Bool.not_false, Bool.and_self]
  have hall : ∀ s ∈ w.runs.filter found, s = r := by
    intro s hs
    obtain ⟨hsmem,hsfound⟩ := List.mem_filter.mp hs
    simp only [found, Bool.and_eq_true, decide_eq_true_eq] at hsfound
    exact h.one agentId s hsmem r hr hsfound.1.1.1.1.1 hagent hsfound.2 hactive
  have hnodup : (w.runs.filter found).Nodup := h.ids.of_map.filter _
  have hone : w.runs.filter found = [r] := by
    have hreplicate := List.eq_replicate_of_mem hall
    have hlength : (w.runs.filter found).length ≤ 1 := by
      rw [hreplicate] at hnodup ⊢
      rw [List.length_replicate]
      exact List.nodup_replicate.mp hnodup
    cases hlist : w.runs.filter found with
    | nil =>
      rw [hlist] at hmem
      cases hmem
    | cons s rest =>
      rw [hlist] at hlength hall
      have hrest : rest = [] := List.eq_nil_of_length_eq_zero (by simpa using hlength)
      rw [hrest, hall s List.mem_cons_self]
  unfold Runtime.activeProfileRun
  rw [hone]

/-- An agent executes at most one run, and what is issued for an attempt that is over is fenced off. -/
theorem agent_executes_one_run (h : Reachable Initial Step w) :
    OneActive w ∧ ∀ e w', Step w e w' → Fenced w e w' := by
  have hw : Exclusive w := h.invariant (fun _ => .initial) fun _ _ _ hw hs => hw.step hs
  exact ⟨hw.one,fun _ _ hs => hw.fenced hs⟩

section Example

/-- Two runs of an agent; the first is bound, waits, ends and is retried, and then the second runs. -/
def twoRuns : List Event :=
  [.inserts "a" (some "iris") .working 1 0,.inserts "b" (some "iris") .working 1 1,.snapshots "a" 1 "{}",
    .writes "iris" 10,.binds "a" 1 "run_a" "a" "agent-iris",.parks "iris" "run_a" "operation_approval:1" "Approve" 20,
    .resumes "iris" "run_a" false 30,.finalizes "a" 1 .error,.snapshots "b" 1 "{}",.writes "iris" 40,.retries "a"]

theorem agent_executes_one_run_retried :
    OneActive (afterAll apply ⟨[],fun _ => none,[]⟩ twoRuns) ∧
      ∀ e w', Step (afterAll apply ⟨[],fun _ => none,[]⟩ twoRuns) e w' →
        Fenced (afterAll apply ⟨[],fun _ => none,[]⟩ twoRuns) e w' := by
  have haccepted : acceptedAll apply ⟨[],fun _ => none,[]⟩ twoRuns = true := by decide
  exact agent_executes_one_run ⟨⟨[],fun _ => none,[]⟩,twoRuns,⟨rfl,fun _ => rfl,rfl⟩,run_afterAll haccepted⟩

end Example

end Runs
end HermesEnterprise.Runtime
