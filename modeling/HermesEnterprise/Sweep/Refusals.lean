import HermesEnterprise.Sweep.KeyMarks

/-! # Keys are marked for their own failures

What the columns of keys and runs say about refusals and verifications is what happened, so
a pass marks a key for a failure of its own exactly when one stands under its id.
-/
namespace HermesEnterprise.Sweep.KeyMarks
open Foundation.Tables Foundation.Runs

variable {catalog : String → Option String} {w w' : World} {bound : ℕ} {k row : KeyRow} {run : RunRow}

theorem Recorded.empty : Recorded .empty 0 := by
  constructor <;> simp [World.empty]

theorem Recorded.mono {bound' : ℕ} (h : Recorded w bound) (hle : bound ≤ bound') : Recorded w bound' :=
  ⟨h.runIds,fun r hr => ⟨(h.runs r hr).1,fun t ht => ((h.runs r hr).2 t ht).trans hle⟩,h.used,h.facts,
    fun k hk => ⟨(h.keys k hk).1,fun t ht => ((h.keys k hk).2 t ht).trans hle⟩,h.recorded⟩

theorem Recorded.begun (h : Recorded w bound) (e : Event) : Recorded (w.begun e) bound :=
  ⟨h.runIds,h.runs,h.used,h.facts,h.keys,h.recorded⟩

theorem refusedSinceVerified_eq_false {id : KeyId} {history : List Fact}
    (h : ∀ i, .refused i ∈ history → i ≠ id) : refusedSinceVerified id history = false := by
  induction history with
  | nil => rfl
  | cons fact rest ih =>
    have hrest := ih fun i hi => h i (List.mem_cons_of_mem _ hi)
    cases fact with
    | refused i => simp [refusedSinceVerified, hrest, h i List.mem_cons_self]
    | verified i => simp [refusedSinceVerified, hrest]

section Keys

/-- Updates of columns that tell nothing about verification keep the record. -/
theorem Recorded.updateKeys (h : Recorded w bound) (p : KeyRow → Bool) (f : KeyRow → KeyRow)
    (hid : ∀ k, (f k).id = k.id) (hverified : ∀ k, (f k).verifiedAt = k.verifiedAt) :
    Recorded { w with keys := updateWhere p f w.keys } bound := by
  have hold : ∀ k ∈ updateWhere p f w.keys, ∃ o ∈ w.keys, k.id = o.id ∧ k.verifiedAt = o.verifiedAt := by
    intro k hk
    rcases mem_updateWhere.mp hk with ⟨o,ho,-,rfl⟩ | ⟨hk,-⟩
    · exact ⟨o,ho,hid o,hverified o⟩
    · exact ⟨k,hk,rfl,rfl⟩
  refine ⟨h.runIds,h.runs,h.used,h.facts,fun k hk => ?_,fun k hk => ?_⟩
  · obtain ⟨o,ho,hoid,hov⟩ := hold k hk
    rw [hoid, hov]
    exact h.keys o ho
  · obtain ⟨o,ho,hoid,hov⟩ := hold k hk
    have hrec := h.recorded o ho
    simp only [ownRefusal, hoid, hov] at hrec ⊢
    exact hrec

theorem Recorded.revoke (h : Recorded w bound) (keyId : KeyId) (rotatedAt : Option ℕ) :
    Recorded (revoke keyId rotatedAt w) bound :=
  h.updateKeys _ _ (fun _ => rfl) fun _ => rfl

/-- A new row has no past. -/
theorem Recorded.insertKey (h : Recorded w bound) (hrow : row.id = w.nextKey)
    (hverified : row.verifiedAt = none) (hw : insertKey w row = some w') : Recorded w' bound := by
  unfold KeyMarks.insertKey at hw
  split at hw
  · cases hw
  · cases hw
    refine ⟨h.runIds,h.runs,fun r hr id hid => (h.used r hr id hid).trans (Nat.lt_succ_self _),
      fun id hid => (h.facts id hid).trans (Nat.lt_succ_self _),fun k hk => ?_,fun k hk => ?_⟩
    · rcases List.mem_append.mp hk with hk | hk
      · exact ⟨(h.keys k hk).1.trans (Nat.lt_succ_self _),(h.keys k hk).2⟩
      · obtain rfl := List.mem_singleton.mp hk
        rw [hverified, hrow]
        exact ⟨Nat.lt_succ_self _,fun t ht => absurd ht (Option.not_mem_none t)⟩
    · rcases List.mem_append.mp hk with hk | hk
      · exact h.recorded k hk
      · obtain rfl := List.mem_singleton.mp hk
        have hnone : ownRefusal w k = false := by
          rw [ownRefusal, List.any_eq_false]
          intro r hr hown
          simp only [Bool.and_eq_true, decide_eq_true_eq] at hown
          exact absurd (h.used r hr k.id hown.1.1) (hrow ▸ Nat.lt_irrefl _)
        refine (refusedSinceVerified_eq_false fun i hi hik => ?_).trans hnone.symm
        exact absurd (h.facts i hi) (by rw [hik, hrow]; exact Nat.lt_irrefl _)

/-- A verification is later than every refusal before it. -/
theorem Recorded.setKeyStatus {keyId : KeyId} {status : KeyStatus} {models : List String}
    (h : Recorded w bound) (hbound : bound < w.now) (hw : setKeyStatus w keyId status models = some w') :
    Recorded w' w.now := by
  have h' := h.mono hbound.le
  unfold KeyMarks.setKeyStatus at hw
  split at hw
  swap
  · cases hw
  cases hw
  by_cases husable : usable status = true
  · simp only [if_pos husable]
    have hmem : ∀ k ∈ updateWhere (fun k => decide (k.id = keyId))
        (fun k => { k with status := status, verifiedModels := models, verifiedAt := some w.now }) w.keys,
        ∃ o ∈ w.keys, k.id = o.id ∧ ((o.id = keyId ∧ k.verifiedAt = some w.now) ∨
          (o.id ≠ keyId ∧ k = o)) := by
      intro k hk
      rcases mem_updateWhere.mp hk with ⟨o,ho,hid,rfl⟩ | ⟨hk,hid⟩
      · exact ⟨o,ho,rfl,Or.inl ⟨of_decide_eq_true hid,rfl⟩⟩
      · exact ⟨k,hk,rfl,Or.inr ⟨of_decide_eq_false hid,rfl⟩⟩
    refine ⟨h'.runIds,h'.runs,h'.used,?_,fun k hk => ?_,fun k hk => ?_⟩
    · intro id hid
      rcases List.mem_cons.mp hid with hid | hid
      · cases hid
      · exact h'.facts id hid
    · obtain ⟨o,ho,hid,⟨-,hv⟩ | ⟨-,rfl⟩⟩ := hmem k hk
      · rw [hid, hv]
        refine ⟨(h'.keys o ho).1,fun t ht => ?_⟩
        rw [Option.mem_def, Option.some.injEq] at ht
        exact ht.ge
      · exact h'.keys k ho
    · obtain ⟨o,ho,hid,⟨hkey,hv⟩ | ⟨hkey,rfl⟩⟩ := hmem k hk
      · have hnone : refusedSinceVerified k.id (.verified keyId :: w.history) = false := by
          simp [refusedSinceVerified, hid, hkey]
        refine hnone.trans (Eq.symm (List.any_eq_false.mpr fun r hr hown => ?_))
        simp only [hv, Bool.and_eq_true, Option.all_some] at hown
        obtain ⟨t,ht,hlt⟩ := (Option.any_eq_true ..).mp hown.2
        -- every failure so far ended before this verification
        have hended := (h.runs r hr).2 t ht
        have hlt := of_decide_eq_true hlt
        omega
      · have hsame : refusedSinceVerified k.id (.verified keyId :: w.history) =
            refusedSinceVerified k.id w.history := by
          simp [refusedSinceVerified, Ne.symm hkey]
        exact hsame.trans (h.recorded k ho)
  · simp only [if_neg husable]
    exact h'.updateKeys _ _ (fun _ => rfl) fun _ => rfl

end Keys

section Runs

theorem any_setRun {p : RunRow → Bool} {old : RunRow} (h : (w.runs.map RunRow.id).Nodup) (hold : old ∈ w.runs)
    (hid : run.id = old.id) (hp : p old = false) : (setRun w run).runs.any p = (p run || w.runs.any p) := by
  rw [Bool.eq_iff_iff, Bool.or_eq_true, List.any_eq_true, List.any_eq_true]
  constructor
  · rintro ⟨r,hr,hpr⟩
    rw [setRun, hid] at hr
    rcases mem_updateWhere_key h hold hr with rfl | ⟨hr,-⟩
    · exact Or.inl hpr
    · exact Or.inr ⟨r,hr,hpr⟩
  · rintro (hpr | ⟨r,hr,hpr⟩)
    · exact ⟨run,mem_updateWhere.mpr (Or.inl ⟨old,hold,decide_eq_true hid.symm,rfl⟩),hpr⟩
    · refine ⟨r,mem_updateWhere.mpr (Or.inr ⟨hr,decide_eq_false fun he => ?_⟩),hpr⟩
      obtain rfl := List.inj_on_of_nodup_map h hr hold (he.trans hid)
      rw [hp] at hpr
      cases hpr

theorem workingRun_some {runId : RunId} (h : workingRun w runId = some run) :
    run ∈ w.runs ∧ run.keyInvalid = false := by
  obtain ⟨hfind,hworking⟩ := Option.filter_eq_some_iff.mp h
  refine ⟨List.mem_of_find?_eq_some hfind,?_⟩
  rw [RunRow.keyInvalid, of_decide_eq_true hworking]
  rfl

theorem mem_setRun {r : RunRow} (h : r ∈ (setRun w run).runs) : r = run ∨ r ∈ w.runs := by
  rcases mem_updateWhere.mp h with ⟨_,-,-,rfl⟩ | ⟨hr,-⟩
  · exact Or.inl rfl
  · exact Or.inr hr

theorem ids_setRun : (setRun w run).runs.map RunRow.id = w.runs.map RunRow.id :=
  map_updateWhere RunRow.id fun _ _ hs => (of_decide_eq_true hs).symm

/-- A run's own columns change and no key is refused. -/
theorem Recorded.setRun {old : RunRow} (h : Recorded w bound) (hold : old ∈ w.runs) (hid : run.id = old.id)
    (hworking : old.keyInvalid = false) (hrun : run.keyInvalid = false)
    (hended : ∀ t ∈ run.endedAt, t ≤ bound) (hused : ∀ id ∈ run.keyId, id < w.nextKey) :
    Recorded (setRun w run) bound := by
  refine ⟨?_,fun r hr => ?_,fun r hr => ?_,h.facts,h.keys,fun k hk => ?_⟩
  · rw [ids_setRun]
    exact h.runIds
  · rcases mem_setRun hr with rfl | hr
    · exact ⟨hid ▸ (h.runs old hold).1,hended⟩
    · exact h.runs r hr
  · rcases mem_setRun hr with rfl | hr
    · exact hused
    · exact h.used r hr
  · refine (h.recorded k hk).trans ?_
    rw [ownRefusal, ownRefusal, any_setRun h.runIds hold hid]
    · simp [hrun]
    · simp [hworking]

/-- The refusal of a run is one of the key it used last. -/
theorem Recorded.refuse {runId : RunId} (h : Recorded w bound) (hbound : bound < w.now)
    (hw : refuse w runId = some w') : Recorded w' w.now := by
  simp only [KeyMarks.refuse, Option.bind_eq_bind, Option.bind_eq_some_iff, Option.pure_def, Option.some.injEq] at hw
  obtain ⟨old,hold,keyId,hkey,rfl⟩ := hw
  obtain ⟨hold,hworking⟩ := workingRun_some hold
  set run : RunRow := { old with status := .error, reason := some "key_invalid", endedAt := some w.now }
  refine ⟨?_,fun r hr => ?_,fun r hr => ?_,fun id hid => ?_,(h.mono hbound.le).keys,fun k hk => ?_⟩
  · rw [ids_setRun]
    exact h.runIds
  · rcases mem_setRun hr with rfl | hr
    · refine ⟨(h.runs old hold).1,fun t ht => ?_⟩
      cases ht
      exact le_rfl
    · exact (h.mono hbound.le).runs r hr
  · rcases mem_setRun hr with rfl | hr
    · exact h.used old hold
    · exact h.used r hr
  · rcases List.mem_cons.mp hid with hid | hid
    · cases hid
      exact h.used old hold keyId hkey
    · exact h.facts id hid
  · -- the key was last verified before this refusal
    have hverified : (k.verifiedAt.all fun v => decide (v < w.now)) = true := by
      rw [Option.all_eq_true]
      exact fun v hv => decide_eq_true (((h.keys k hk).2 v hv).trans_lt hbound)
    have hnew : ownRefusal { KeyMarks.setRun w run with history := .refused keyId :: w.history } k =
        ((decide (run.keyId = some k.id) && run.keyInvalid && run.endedAt.any fun t =>
          k.verifiedAt.all fun v => decide (v < t)) || ownRefusal w k) :=
      any_setRun h.runIds hold rfl (by simp [hworking])
    rw [hnew, ← h.recorded k hk]
    simp [refusedSinceVerified, run, RunRow.keyInvalid, hkey, hverified]

theorem Recorded.createRun (h : Recorded w bound) (modelId : String) :
    Recorded (createRun w modelId) bound := by
  have hfresh : w.nextRun ∉ w.runs.map RunRow.id := by
    intro hid
    obtain ⟨r,hr,hid⟩ := List.mem_map.mp hid
    exact absurd (h.runs r hr).1 (hid ▸ Nat.lt_irrefl _)
  refine ⟨?_,fun r hr => ?_,fun r hr => ?_,h.facts,h.keys,fun k hk => (h.recorded k hk).trans ?_⟩
  · rw [KeyMarks.createRun, List.map_append]
    exact h.runIds.append (List.nodup_singleton _) (List.disjoint_singleton.mpr hfresh)
  · rcases List.mem_append.mp hr with hr | hr
    · exact ⟨(h.runs r hr).1.trans (Nat.lt_succ_self _),(h.runs r hr).2⟩
    · obtain rfl := List.mem_singleton.mp hr
      exact ⟨Nat.lt_succ_self _,fun t ht => absurd ht (Option.not_mem_none t)⟩
  · rcases List.mem_append.mp hr with hr | hr
    · exact h.used r hr
    · obtain rfl := List.mem_singleton.mp hr
      exact fun id hid => absurd hid (Option.not_mem_none id)
  · simp [ownRefusal, KeyMarks.createRun]

end Runs

section Steps
variable {e : Event}

theorem Recorded.resolveCredential {runId : RunId} (h : Recorded w bound)
    (hw : resolveCredential catalog w runId = some w') : Recorded w' bound := by
  simp only [KeyMarks.resolveCredential, Option.bind_eq_bind, Option.bind_eq_some_iff, Option.pure_def,
    Option.some.injEq] at hw
  obtain ⟨old,hold,provider,-,key,hkey,rfl⟩ := hw
  obtain ⟨hold,hworking⟩ := workingRun_some hold
  refine h.setRun hold rfl hworking hworking (h.runs old hold).2 fun id hid => ?_
  rw [Option.mem_def, Option.some.injEq] at hid
  exact hid ▸ (h.keys key (List.mem_of_find?_eq_some (Option.filter_eq_some_iff.mp hkey).1)).1

theorem Recorded.finish {runId : RunId} {status : RunStatus} {reason : Option String} (h : Recorded w bound)
    (hbound : bound < w.now) (hw : finish w runId status reason = some w') : Recorded w' w.now := by
  simp only [KeyMarks.finish, Option.bind_eq_bind, Option.bind_eq_some_iff] at hw
  obtain ⟨old,hold,hw⟩ := hw
  obtain ⟨hold,hworking⟩ := workingRun_some hold
  split at hw
  · cases hw
  next hno =>
    cases hw
    refine (h.mono hbound.le).setRun hold rfl hworking ?_ ?_ (h.used old hold)
    · simp [RunRow.keyInvalid, (not_or.mp hno).2]
    · intro t ht
      cases ht
      exact le_rfl

theorem insertKey_now (hw : insertKey w row = some w') : w'.now = w.now := by
  unfold insertKey at hw
  split at hw
  · cases hw
  · cases hw
    rfl

/-- Every operation keeps the record and takes place at its own time. -/
theorem Recorded.applyOp (h : Recorded w bound) (hbound : bound < w.now) {op : Op}
    (hw : applyOp catalog w op = some w') : Recorded w' w'.now := by
  have h' := h.mono hbound.le
  suffices H : Recorded w' w.now ∧ w'.now = w.now from H.2 ▸ H.1
  cases op with
  | addKey provider label => exact ⟨h'.insertKey rfl rfl hw,insertKey_now hw⟩
  | rotateKey previousKeyId label =>
    simp only [KeyMarks.applyOp, rotateProviderKey, Option.bind_eq_bind, Option.bind_eq_some_iff] at hw
    obtain ⟨previous,-,hw⟩ := hw
    have hnow := insertKey_now hw
    exact ⟨(h'.revoke previousKeyId (some w.now)).insertKey rfl rfl hw,hnow⟩
  | removeKey keyId =>
    simp only [KeyMarks.applyOp, removeProviderKey, Option.bind_eq_bind, Option.bind_eq_some_iff,
      Option.pure_def, Option.some.injEq] at hw
    obtain ⟨_,-,rfl⟩ := hw
    exact ⟨(h'.revoke keyId none).updateKeys _ _ (fun _ => rfl) fun _ => rfl,rfl⟩
  | reconnect =>
    simp only [KeyMarks.applyOp, addProviderOAuthConnection] at hw
    split at hw
    next keyId _ =>
      have hnow := insertKey_now hw
      exact ⟨(h'.revoke keyId (some w.now)).insertKey rfl rfl hw,hnow⟩
    next => exact ⟨h'.insertKey rfl rfl hw,insertKey_now hw⟩
  | verify keyId status models =>
    refine ⟨h.setKeyStatus hbound hw,?_⟩
    simp only [KeyMarks.applyOp, KeyMarks.setKeyStatus] at hw
    split at hw <;> cases hw
    rfl
  | quarantine keyId =>
    cases hw
    exact ⟨h'.updateKeys _ _ (fun _ => rfl) fun _ => rfl,rfl⟩
  | create modelId =>
    cases hw
    exact ⟨h'.createRun modelId,rfl⟩
  | resolve runId =>
    refine ⟨h'.resolveCredential hw,?_⟩
    simp only [KeyMarks.applyOp, KeyMarks.resolveCredential, Option.bind_eq_bind, Option.bind_eq_some_iff,
      Option.pure_def, Option.some.injEq] at hw
    obtain ⟨_,-,_,-,_,-,rfl⟩ := hw
    rfl
  | refuse runId =>
    refine ⟨h.refuse hbound hw,?_⟩
    simp only [KeyMarks.applyOp, KeyMarks.refuse, Option.bind_eq_bind, Option.bind_eq_some_iff,
      Option.pure_def, Option.some.injEq] at hw
    obtain ⟨_,-,_,-,rfl⟩ := hw
    rfl
  | finish runId status reason =>
    refine ⟨h.finish hbound hw,?_⟩
    simp only [KeyMarks.applyOp, KeyMarks.finish, Option.bind_eq_bind, Option.bind_eq_some_iff] at hw
    obtain ⟨_,-,hw⟩ := hw
    split at hw <;> cases hw
    rfl
  | cron =>
    cases hw
    exact ⟨h'.updateKeys _ _ (fun _ => rfl) fun _ => rfl,rfl⟩

theorem Recorded.step (h : Recorded w w.now) (hw : Steps catalog w e w') : Recorded w' w'.now :=
  (h.begun e).applyOp (by simp only [World.begun]; omega) hw

/-- A pass marks only own failures exactly when it is admitted. -/
theorem marksOwn_iff_admits (h : Recorded w w.now) (hw : Steps catalog w e w') :
    (e.op = .cron → MarksOwn w w') ↔ admits catalog w e = true := by
  cases hop : e.op with
  | cron =>
    unfold Steps apply at hw
    rw [hop] at hw
    cases hw
    rw [admits, hop]
    simp only [forall_const, MarksOwn, markKeysFromRunErrors, updateWhere, List.forall₂_map_right_iff,
      List.all_eq_true]
    change List.Forall₂ _ w.keys w.keys ↔ ∀ k ∈ w.keys, _
    rw [List.forall₂_same]
    refine forall₂_congr fun k hk => ?_
    rw [h.recorded k hk]
    by_cases hlive : k.live = true
    · by_cases hvalid : k.status = .invalid
      · simp [hlive, hvalid]
      · cases hlately : refusedLately catalog (w.begun e) k.provider <;>
          simp [marks, hlive, hvalid, hlately]
    · simp [hlive]
  | _ => simp [admits, hop]

end Steps

/-- Along a run every pass marks keys for their own failures only, exactly when no pass finds a live key
that is not invalid, a failure of the last day on its provider, and none of its own since it was verified. -/
theorem marks_own_iff {es : List Event} :
    Run (fun s e t => Steps catalog s e t ∧ (e.op = .cron → MarksOwn s t)) .empty es w ↔
      Run (Guarded (Steps catalog) fun s e => admits catalog s e = true) .empty es w :=
  Run.guarded_iff (P := fun s => Recorded s s.now) .empty
    (fun _ _ _ hs hst => marksOwn_iff_admits hs hst) fun _ _ _ hs hst _ => hs.step hst

section Sample

def sampleCatalog (modelId : String) : Option String := if modelId = "model" then some "anthropic" else none

/-- A run is refused, and the Admin rotates the key and verifies the new one. -/
def replacedInTime : List Event :=
  [⟨0,.addKey "anthropic" "First"⟩,⟨0,.verify 0 .verified []⟩,⟨0,.create "model"⟩,⟨0,.resolve 0⟩,
    ⟨0,.refuse 0⟩,⟨0,.rotateKey 0 "Second"⟩,⟨0,.verify 1 .verified []⟩]

/-- The minute Cron makes the good key unusable for the failure of the one it replaced. -/
theorem not_marks_own : ¬∀ (catalog : String → Option String) (es : List Event) (w w' : World),
    Run (Steps catalog) .empty es w → Steps catalog w ⟨60000000,.cron⟩ w' → MarksOwn w w' := by
  intro hclaim
  have hmarks := hclaim sampleCatalog replacedInTime _ _ (run_of_foldlM rfl) rfl
  have hsecond := (List.forall₂_cons.mp (List.forall₂_cons.mp hmarks).2).1
  exact absurd (hsecond (by decide) (by decide) (by decide)) (by decide)

end Sample

end HermesEnterprise.Sweep.KeyMarks
