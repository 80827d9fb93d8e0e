import HermesEnterprise.Watch.Checks

/-! # What a partner watch tells

Completed rows keep what they hold, so the baseline of a completion and the check that last saw a candidate are
both read off the table; a completion tells what changed exactly when the two agree where it matters.
-/
namespace HermesEnterprise.Watch
open Foundation.Runs Foundation.Tables
variable {α β : Type} {source : Source α β} {w w' : World α β} {check c : WatchCheck β}

section Owed
variable {x : CandidateId} {digest : Digest}

end Owed

section Outcomes
variable {rows : List (Candidate α)} {row : Candidate α}

theorem outcomeOf_status_ne (w : World α β) (check : WatchCheck β) : (outcomeOf source w check).status ≠ .checking := by
  simp only [outcomeOf]
  split
  · simp
  · split
    · simp
    · simp

end Outcomes

section Completions
variable {id : CheckId} {authorized : Bool}

theorem completeWatchCheck_stored (hfind : w.checks.find? (fun c => c.id = id) = some check)
    (hstatus : check.outcome.status ≠ .checking) : completeWatchCheck source w id authorized = .ok (w,check) := by
  simp [completeWatchCheck,hfind,hstatus]

/-- What a completion that does not throw did. -/
theorem completeWatchCheck_ok {result : WatchCheck β} (h : completeWatchCheck source w id authorized = .ok (w',result)) :
    ∃ check, w.checks.find? (fun c => c.id = id) = some check ∧
      (check.outcome.status ≠ .checking ∧ w' = w ∧ result = check ∨
        check.outcome.status = .checking ∧ authorized = true ∧ check.cancelled = false ∧
          result = { check with outcome := outcomeOf source w check, seen := lastSeen source w check } ∧
          w' = { w with
            checks := result :: w.checks.filter fun c => c.id ≠ id
            results := (id,result.outcome) :: w.results }) := by
  unfold completeWatchCheck at h
  split at h
  · exact nomatch h
  rename_i check hfind
  refine ⟨check,hfind,?_⟩
  split at h
  · rename_i hstatus
    cases h
    exact Or.inl ⟨hstatus,rfl,rfl⟩
  rename_i hstatus
  split at h
  · exact nomatch h
  rename_i hauth
  simp only [Bool.or_eq_true,Bool.not_eq_true',not_or,Bool.not_eq_false,Bool.not_eq_true] at hauth
  cases h
  exact Or.inr ⟨not_not.mp hstatus,hauth.1,hauth.2,rfl,rfl⟩

end Completions

section Stored

/-- Rows have ids of their own, and what a completion returned is what its row holds. -/
structure Stored (w : World α β) : Prop where
  ids : (w.checks.map WatchCheck.id).Nodup
  results : ∀ r ∈ w.results, ∃ c ∈ w.checks, c.id = r.1 ∧ c.outcome = r.2 ∧ c.outcome.status ≠ .checking

/-- No check began. -/
def start : World α β := ⟨[],[],[]⟩

/-- An update keeps what a completed row holds. -/
theorem Stored.update (h : Stored w) (p : WatchCheck β → Bool) (f : WatchCheck β → WatchCheck β)
    (hid : ∀ c, (f c).id = c.id)
    (houtcome : ∀ c, p c = true → c.outcome.status ≠ .checking → (f c).outcome = c.outcome) :
    Stored { w with checks := updateWhere p f w.checks } := by
  refine ⟨?_,fun r hr => ?_⟩
  · simpa only [map_updateWhere WatchCheck.id fun c _ _ => hid c] using h.ids
  · obtain ⟨c,hc,hcid,hout,hdone⟩ := h.results r hr
    by_cases hp : p c = true
    · refine ⟨f c,mem_updateWhere.mpr (Or.inl ⟨c,hc,hp,rfl⟩),(hid c).trans hcid,?_,?_⟩
      · rw [houtcome c hp hdone,hout]
      · rw [houtcome c hp hdone]
        exact hdone
    · exact ⟨c,mem_updateWhere.mpr (Or.inr ⟨hc,by simpa using hp⟩),hcid,hout,hdone⟩

theorem Stored.begin (h : Stored w) {n : NewCheck} (hw : beginWatchCheck w n = some w') : Stored w' := by
  unfold beginWatchCheck at hw
  split at hw
  · exact Option.some_inj.mp hw ▸ h
  split at hw
  · exact nomatch hw
  rename_i hnew
  cases hw
  refine ⟨?_,fun r hr => ?_⟩
  · have hfresh : n.id ∉ w.checks.map WatchCheck.id := by
      intro hmem
      obtain ⟨c,hc,hid⟩ := List.mem_map.mp hmem
      exact hnew (List.any_eq_true.mpr ⟨c,hc,decide_eq_true hid⟩)
    simpa [List.nodup_append] using ⟨h.ids,fun c hc hid => hfresh (List.mem_map.mpr ⟨c,hc,hid⟩)⟩
  · obtain ⟨c,hc,hcid,hout,hdone⟩ := h.results r hr
    exact ⟨c,List.mem_append_left _ hc,hcid,hout,hdone⟩

theorem Stored.complete (h : Stored w) {id : CheckId} {authorized : Bool} {result : WatchCheck β}
    (hw : completeWatchCheck source w id authorized = .ok (w',result)) : Stored w' := by
  obtain ⟨check,hfind,⟨_,rfl,_⟩ | ⟨hstatus,_,_,rfl,rfl⟩⟩ := completeWatchCheck_ok hw
  · exact h
  have hcheck := List.mem_of_find?_eq_some hfind
  have hid : check.id = id := by simpa using List.find?_some hfind
  refine ⟨?_,fun r hr => ?_⟩
  · rw [List.map_cons,List.nodup_cons]
    refine ⟨fun hmem => ?_,h.ids.sublist (List.filter_sublist.map _)⟩
    obtain ⟨c,hc,hcid⟩ := List.mem_map.mp hmem
    exact (of_decide_eq_true (List.mem_filter.mp hc).2) (hcid.trans hid)
  · rcases List.mem_cons.mp hr with rfl | hr
    · exact ⟨_,List.mem_cons_self,hid,rfl,outcomeOf_status_ne w check⟩
    · obtain ⟨c,hc,hcid,hout,hdone⟩ := h.results r hr
      refine ⟨c,List.mem_cons_of_mem _ (List.mem_filter.mpr ⟨hc,decide_eq_true fun hsame => ?_⟩),hcid,hout,hdone⟩
      exact hdone (List.inj_on_of_nodup_map h.ids hc hcheck (hsame.trans hid.symm) ▸ hstatus)

theorem Stored.step (h : Stored w) {e : Event α} (hstep : Steps source w e w') : Stored w' := by
  cases e with
  | begins n => exact h.begin hstep
  | screened run screening =>
    cases hstep
    unfold storeScreening
    split
    · exact h
    · exact ⟨h.ids,h.results⟩
  | complete id authorized =>
    simp only [Steps,apply] at hstep
    cases hcomplete : completeWatchCheck source w id authorized with
    | error error =>
      rw [hcomplete] at hstep
      exact nomatch hstep
    | ok written =>
      rw [hcomplete] at hstep
      cases hstep
      exact h.complete hcomplete
  | fails id =>
    cases hstep
    refine h.update _ _ (fun _ => rfl) fun c hp hdone => absurd ?_ hdone
    exact of_decide_eq_true ((Bool.and_eq_true _ _).mp hp).2
  | update agentId assignmentId revision =>
    cases hstep
    exact h.update _ _ (fun _ => rfl) fun _ _ _ => rfl
  | handoff id run =>
    cases hstep
    exact h.update _ _ (fun _ => rfl) fun _ _ _ => rfl
  | review id review =>
    cases hstep
    exact h.update _ _ (fun _ => rfl) fun _ _ _ => rfl
  | stop run =>
    cases hstep
    exact h.update _ _ (fun _ => rfl) fun _ _ _ => rfl

end Stored

section Alarms

/-- It is enough that the check before agrees with what was last seen of every candidate and that no older change
of one at or above the minimum is owed. -/
theorem admits_of_agrees {id : CheckId} {authorized : Bool} (hfind : w.checks.find? (fun c => c.id = id) = some check)
    (hagrees : ∀ row ∈ rowsOf w check.screeningRunId,
      (previousOf w check).bind (fun p => p.fingerprint source row.candidateId) =
        lastSeen source w check row.candidateId)
    (howed : ∀ row ∈ rowsOf w check.screeningRunId, minimumOf w check.screeningRunId ≤ row.deterministicPriority →
      owed source check row.candidateId (fingerprintOf source row) w.checks = false) :
    admits source w (.complete id authorized) = true := by
  simp only [admits,hfind]
  split
  · rfl
  simp only [Bool.and_eq_true,List.all_eq_true,Bool.or_eq_true,decide_eq_true_eq,Bool.not_eq_true']
  constructor
  · cases hrow : (rowsOf w check.screeningRunId).find? fun row => (previousOf w check).any fun p =>
        differs source p (minimumOf w check.screeningRunId) row with
    | none => rfl
    | some row =>
      have hany : (previousOf w check).any (fun p => differs source p (minimumOf w check.screeningRunId) row) = true := by
        simpa using List.find?_some hrow
      obtain ⟨p,hp,hdiffers⟩ := (Option.any_eq_true ..).mp hany
      have hseen := hagrees row (List.mem_of_find?_eq_some hrow)
      rw [hp,Option.bind_some] at hseen
      rw [Option.all_some,← hseen]
      exact decide_eq_true (of_decide_eq_true hdiffers).1
  · intro row hrow
    by_cases hmin : row.deterministicPriority < minimumOf w check.screeningRunId
    · exact Or.inl (Or.inl hmin)
    have hseen := hagrees row hrow
    cases hlast : lastSeen source w check row.candidateId with
    | none => exact Or.inl (Or.inr (by simp [howed row hrow (not_lt.mp hmin)]))
    | some old =>
      by_cases hold : old = fingerprintOf source row
      · exact Or.inl (Or.inr (by simp [hold,howed row hrow (not_lt.mp hmin)]))
      · obtain ⟨p,hp,hfp⟩ := Option.bind_eq_some_iff.mp (hseen.trans hlast)
        exact Or.inr ((Option.any_eq_true ..).mpr ⟨p,hp,by simp [hfp,hold]⟩)

end Alarms

section Samples

end Samples

end HermesEnterprise.Watch
