import HermesEnterprise.Sweep.Passes
import Mathlib.Data.List.Nodup

/-! # Only runs that deserve it are ended

Every observation on record was recorded when it says, and nothing else was observed of the
run since; every run that a pass still has to settle was read by it.
-/
namespace HermesEnterprise.Sweep
open Foundation.Runs Foundation.Tables RunLog
variable {w w' : World} {e : Event} {pass : PassId} {p : Pass} {run : LiveRun} {rest : List LiveRun}
variable {verdict : Verdict} {now : ℕ} {db : Tables} {row row' : RunRow}

/-- An observation was recorded, and nothing else of its run since. -/
def Stands (log : List Entry) (o : Observation) : Prop :=
  ∃ before between, log = before ++ .missing o :: between ∧ .seen o.runId ∉ between

structure Watched (w : World) : Prop where
  ids : (w.db.runs.map (·.id)).Nodup
  observed : ∀ o ∈ w.db.observations, Stands w.log o
  todo : ∀ pass p, w.passes pass = some p → ∀ run ∈ p.todo, ∃ now row, .read pass now row ∈ w.log ∧
    run = liveRun now row ∧ row.status.terminal = false ∧ now ≤ w.clock
  concluded : ∀ pass p, w.passes pass = some p → ∀ run rest, p.todo = run :: rest →
    ∀ verdict, p.stage = .concluded verdict ∨ (∃ now, p.stage = .writing verdict now) →
      ∃ answer, verdict = verdictFor run p.currentEngineVersion answer

section Observations

theorem Stands.append {log more : List Entry} {o : Observation} (h : Stands log o) (hmore : .seen o.runId ∉ more) :
    Stands (log ++ more) o := by
  obtain ⟨before,between,hlog,hbetween⟩ := h
  refine ⟨before,between ++ more,?_,?_⟩
  · rw [hlog, List.append_assoc, List.cons_append]
  · intro hmem
    rcases List.mem_append.mp hmem with hmem | hmem
    · exact hbetween hmem
    · exact hmore hmem

theorem mem_forget {observations : List Observation} {o : Observation} :
    o ∈ forget observations run ↔ o ∈ observations ∧ o.runId ≠ run.id := by
  unfold forget
  rw [List.mem_filter, decide_eq_true_iff]

/-- A recorded absence: it is the standing one again, or it starts now. -/
theorem firstMissing_cases (observations : List Observation) (run : LiveRun) (now : ℕ) :
    (∃ o ∈ observations, o = ⟨run.id,run.attempt,run.workflowInstanceId,run.status,run.progressAt,
      firstMissing now observations run⟩) ∨ firstMissing now observations run = now := by
  unfold firstMissing
  split
  · rename_i o hfind
    split
    · rename_i hsame
      simp only [Observation.sameAs, decide_eq_true_eq] at hsame
      obtain ⟨hattempt,hinstance,hstatus,hprogress⟩ := hsame
      have hid : o.runId = run.id :=
        of_decide_eq_true (List.find?_some (p := fun o : Observation => decide (o.runId = run.id)) hfind)
      refine Or.inl ⟨o,List.mem_of_find?_eq_some hfind,?_⟩
      rw [← hid, ← hattempt, ← hinstance, ← hstatus, ← hprogress]
    · exact Or.inr rfl
  · exact Or.inr rfl

/-- What stands behind a settlement. -/
theorem settle_observed {log : List Entry} (h : ∀ o ∈ db.observations, Stands log o) :
    ∀ o ∈ (settle now db run verdict).1.observations, Stands (log ++ recorded now db run verdict) o := by
  intro o ho
  unfold settle at ho
  unfold recorded
  split at ho
  · rename_i hlocked
    rw [if_pos hlocked]
    have hforgotten : ∀ o ∈ forget db.observations run, Stands (log ++ [.seen run.id]) o := by
      intro o ho
      obtain ⟨hold,hother⟩ := mem_forget.mp ho
      refine (h o hold).append fun hmem => hother ?_
      exact (Entry.seen.inj (List.mem_singleton.mp hmem))
    have hmissing : ∀ o ∈ observeMissing now db.observations run,
        Stands (log ++ [.missing ⟨run.id,run.attempt,run.workflowInstanceId,run.status,run.progressAt,now⟩]) o := by
      intro o ho
      rcases List.mem_append.mp ho with ho | ho
      · exact (h o (mem_forget.mp ho).1).append (by simp)
      · have hthis := List.mem_singleton.mp ho
        rcases firstMissing_cases db.observations run now with ⟨standing,hmem,heq⟩ | hnow
        · rw [hthis, ← heq]
          exact (h standing hmem).append (by simp)
        · rw [hthis, hnow]
          exact ⟨log,[],rfl,List.not_mem_nil⟩
    cases verdict with
    | missing =>
      dsimp only at ho ⊢
      split at ho
      · exact hmissing o (mem_forget.mp ho).1
      · exact hmissing o ho
    | ok => exact hforgotten o ho
    | deferred reason => exact hforgotten o ho
    | terminal terminal => exact hforgotten o ho
  · rename_i hlost
    rw [if_neg hlost, List.append_nil]
    exact h o ho

end Observations

section Rows

/-- A settlement leaves the runs as they are, or ends the run it is about. -/
theorem settle_runs : (settle now db run verdict).1.runs = db.runs ∨
    ∃ terminal, (settle now db run verdict).1.runs = updateWhere (unchanged run) (ended now terminal) db.runs ∧
      ((verdict = .terminal terminal ∧ ∃ r ∈ db.runs, unchanged run r = true) ∨
        (verdict = .missing ∧ terminal = .error ⟨"instance_missing","the run attempt no longer exists"⟩ ∧
          firstMissing now db.observations run + missingConfirm ≤ now)) := by
  unfold settle
  split
  · rename_i hlocked
    cases verdict with
    | missing =>
      dsimp only
      split
      · rename_i hconfirmed
        exact Or.inr ⟨_,rfl,Or.inr ⟨rfl,rfl,hconfirmed⟩⟩
      · exact Or.inl rfl
    | terminal terminal => exact Or.inr ⟨terminal,rfl,Or.inl ⟨rfl,List.any_eq_true.mp hlocked⟩⟩
    | ok => exact Or.inl rfl
    | deferred reason => exact Or.inl rfl
  · exact Or.inl rfl

theorem unchanged_iff {r : RunRow} : unchanged run r = true ↔ r.id = run.id ∧ r.attempt = run.attempt ∧
    r.workflowInstanceId = run.workflowInstanceId ∧ r.status = run.status ∧ r.updatedAt = run.progressAt ∧
    r.stopRequested = run.stopRequested ∧ r.engineVersion = run.engineVersion := by
  unfold unchanged
  exact decide_eq_true_iff

theorem settle_ids (h : (db.runs.map (·.id)).Nodup) : ((settle now db run verdict).1.runs.map (·.id)).Nodup := by
  rcases @settle_runs run verdict now db with hsame | ⟨terminal,hrows,-⟩
  · rwa [hsame]
  · rw [hrows, map_updateWhere]
    · exact h
    · intro r hr hmatch
      rfl

theorem setRun_ids {runs : List RunRow} (h : (runs.map (·.id)).Nodup) (row : RunRow) :
    ((setRun runs row).map (·.id)).Nodup := by
  unfold setRun
  split
  · have hids : (runs.map fun r => if r.id = row.id then row else r).map (·.id) = runs.map (·.id) := by
      rw [List.map_map]
      refine List.map_congr_left fun r _ => ?_
      by_cases hid : r.id = row.id
      · simp only [Function.comp, hid, if_true]
      · simp only [Function.comp, hid, if_false]
    rwa [hids]
  · rename_i hnew
    rw [List.map_append, List.map_singleton]
    refine h.append (List.nodup_singleton _) ?_
    intro id hmem hmem'
    obtain ⟨r,hr,rfl⟩ := List.mem_map.mp hmem
    exact hnew (List.any_eq_true.mpr ⟨r,hr,decide_eq_true (List.mem_singleton.mp hmem')⟩)

theorem mem_liveRuns {runs : List RunRow} (h : row ∈ liveRuns runs) : row ∈ runs ∧ row.status.terminal = false := by
  unfold liveRuns at h
  have hsorted := List.mem_of_mem_take h
  rw [List.mem_mergeSort] at hsorted
  obtain ⟨hmem,hlive⟩ := List.mem_filter.mp hsorted
  exact ⟨hmem,by simpa using hlive⟩

end Rows

section Steps

theorem setPass_passes (next : Option Pass) (k : PassId) :
    (setPass w pass next).passes k = if k = pass then next else w.passes k := rfl

/-- A pass goes on over runs it has read, with a conclusion of its own. -/
theorem Watched.setPass {next : Pass} (h : Watched w)
    (htodo : ∀ run ∈ next.todo, ∃ now row, .read pass now row ∈ w.log ∧ run = liveRun now row ∧
      row.status.terminal = false ∧ now ≤ w.clock)
    (hconcluded : ∀ run rest, next.todo = run :: rest → ∀ verdict, next.stage = .concluded verdict ∨
      (∃ now, next.stage = .writing verdict now) →
        ∃ answer, verdict = verdictFor run next.currentEngineVersion answer) :
    Watched (Sweep.setPass w pass (some next)) where
  ids := h.ids
  observed := h.observed
  todo := by
    intro k q hq
    rw [setPass_passes] at hq
    split at hq
    · rename_i hk
      cases hq
      exact hk ▸ htodo
    · exact h.todo k q hq
  concluded := by
    intro k q hq
    rw [setPass_passes] at hq
    split at hq
    · cases hq
      exact hconcluded
    · exact h.concluded k q hq

/-- The tables and the log move on together. -/
theorem Watched.commits {more : List Entry} (h : Watched w) (hids : (db.runs.map (·.id)).Nodup)
    (hobserved : ∀ o ∈ db.observations, Stands (w.log ++ more) o) :
    Watched { w with db := db, log := w.log ++ more } where
  ids := hids
  observed := hobserved
  todo := by
    intro k q hq run hrun
    obtain ⟨now,row,hread,hrest⟩ := h.todo k q hq run hrun
    exact ⟨now,row,List.mem_append_left _ hread,hrest⟩
  concluded := h.concluded

theorem Watched.initial (h : Initial w) : Watched w where
  ids := h.1
  observed := fun o ho => by rw [h.2.1] at ho; cases ho
  todo := fun pass p hp => by rw [h.2.2.1] at hp; cases hp
  concluded := fun pass p hp => by rw [h.2.2.1] at hp; cases hp

theorem Watched.step (h : Watched w) (hs : Step w e w') : Watched w' := by
  unfold Step Applied at hs
  cases e with
  | tick elapsed =>
    simp only [apply] at hs
    cases hs
    exact ⟨h.ids,h.observed,fun pass p hp run hrun => by
      obtain ⟨now,row,hread,heq,hlive,hle⟩ := h.todo pass p hp run hrun
      exact ⟨now,row,hread,heq,hlive,Nat.le_add_right_of_le hle⟩,h.concluded⟩
  | change row =>
    simp only [apply] at hs
    cases hs
    exact ⟨setRun_ids h.ids row,h.observed,h.todo,h.concluded⟩
  | remove runId =>
    simp only [apply] at hs
    cases hs
    refine ⟨?_,fun o ho => h.observed o (List.mem_filter.mp ho).1,h.todo,h.concluded⟩
    exact h.ids.sublist (List.filter_sublist.map _)
  | reads pass currentEngineVersion now =>
    simp only [apply] at hs
    split at hs
    · split at hs
      · rename_i hnow
        cases hs
        have hgrown : Watched { w with log := w.log ++ readEntries pass now (liveRuns w.db.runs) } := by
          refine h.commits h.ids fun o ho => (h.observed o ho).append ?_
          intro hmem
          obtain ⟨r,-,heq⟩ := List.mem_map.mp hmem
          cases heq
        refine hgrown.setPass ?_ ?_
        · intro run hrun
          obtain ⟨r,hr,rfl⟩ := List.mem_map.mp hrun
          exact ⟨now,r,List.mem_append_right _ (List.mem_map_of_mem hr),rfl,(mem_liveRuns hr).2,hnow⟩
        · rintro run rest - verdict (hstage | ⟨_,hstage⟩) <;> cases hstage
      · cases hs
    · cases hs
  | looks pass instanceStatus =>
    simp only [apply] at hs
    split at hs
    · rename_i p hp
      split at hs
      · rename_i run rest htodo hstage
        cases hs
        refine h.setPass (h.todo pass p hp) ?_
        rintro run' rest' heq verdict (hstage | ⟨_,hstage⟩)
        · cases hstage
          cases htodo.symm.trans heq
          exact ⟨instanceStatus,rfl⟩
        · cases hstage
      · cases hs
    · cases hs
  | begins pass =>
    simp only [apply] at hs
    split at hs
    · rename_i p hp
      split at hs
      · rename_i verdict hstage
        cases hs
        refine h.setPass (h.todo pass p hp) ?_
        rintro run rest heq verdict' (hstage' | ⟨_,hstage'⟩)
        · cases hstage'
        · cases hstage'
          exact h.concluded pass p hp run rest heq verdict (.inl hstage)
      · cases hs
    · cases hs
  | settles pass =>
    simp only [apply] at hs
    split at hs
    · rename_i p hp
      split at hs
      · rename_i run rest verdict now htodo hstage
        cases hs
        have hcommitted := h.commits (@settle_ids run verdict now w.db h.ids)
          (@settle_observed run verdict now w.db w.log h.observed)
        refine Watched.setPass hcommitted ?_ ?_
        · intro run' hrun'
          have hmem : run' ∈ p.todo := htodo ▸ List.mem_cons_of_mem _ hrun'
          obtain ⟨now',row,hread,hrest⟩ := h.todo pass p hp run' hmem
          exact ⟨now',row,List.mem_append_left _ hread,hrest⟩
        · rintro run' rest' - verdict' (hstage' | ⟨_,hstage'⟩) <;> cases hstage'
      · cases hs
    · cases hs
  | fails pass =>
    simp only [apply] at hs
    split at hs
    · cases hs
      refine h.setPass (fun run hrun => nomatch hrun) ?_
      rintro run rest heq
      cases heq
    · cases hs

/-- Every step of a pass but a settlement leaves the tables as they are. -/
theorem swept_cases (hs : Step w e w') (hswept : e.swept = true) : w'.db = w.db ∨
    ∃ pass p run rest verdict now, e = .settles pass ∧ w.passes pass = some p ∧ p.todo = run :: rest ∧
      p.stage = .writing verdict now ∧ w'.db = (settle now w.db run verdict).1 ∧
      w'.log = w.log ++ recorded now w.db run verdict := by
  unfold Step Applied at hs
  cases e with
  | settles pass =>
    simp only [apply] at hs
    split at hs
    · rename_i p hp
      split at hs
      · rename_i run rest verdict now htodo hstage
        cases hs
        exact Or.inr ⟨pass,p,run,rest,verdict,now,rfl,hp,htodo,hstage,rfl,rfl⟩
      · cases hs
    · cases hs
  | tick elapsed => cases hswept
  | change row => cases hswept
  | remove runId => cases hswept
  | reads pass currentEngineVersion now =>
    simp only [apply] at hs
    split at hs
    · split at hs
      · cases hs
        exact Or.inl rfl
      · cases hs
    · cases hs
  | looks pass instanceStatus =>
    simp only [apply] at hs
    split at hs
    · split at hs
      · cases hs
        exact Or.inl rfl
      · cases hs
    · cases hs
  | begins pass =>
    simp only [apply] at hs
    split at hs
    · split at hs
      · cases hs
        exact Or.inl rfl
      · cases hs
    · cases hs
  | fails pass =>
    simp only [apply] at hs
    split at hs
    · cases hs
      exact Or.inl rfl
    · cases hs

end Steps

section Verdicts
variable {version : ℕ} {answer : Lookup} {terminal : Terminal}

/-- A run is ended because it should stop, or with an error of which none is that its instance is
missing. -/
theorem verdictFor_terminal (h : verdictFor run version answer = .terminal terminal) :
    (run.stopRequested = true ∧ terminal = .stopped) ∨
    (run.stopRequested = false ∧ (run.engineVersion ≠ version ∨ run.inGrace = false) ∧
      ∃ error, terminal = .error error ∧ error.reason ≠ "instance_missing") := by
  unfold verdictFor at h
  split at h
  · rename_i hstop
    cases h
    exact Or.inl ⟨hstop,rfl⟩
  · rename_i hstop
    right
    refine ⟨Bool.eq_false_iff.mpr hstop,?_⟩
    split at h
    · rename_i hengine
      cases h
      exact ⟨.inl hengine,_,rfl,(by decide : "engine_version_changed" ≠ "instance_missing")⟩
    · split at h
      · cases h
      · rename_i hgrace
        refine ⟨.inr (Bool.eq_false_iff.mpr hgrace),?_⟩
        cases answer with
        | throws error =>
          dsimp only at h
          split at h <;> cases h
        | status status =>
          cases status with
          | none => cases h
          | some status =>
            dsimp only at h
            split at h
            · cases h
              exact ⟨_,rfl,(by decide : "instance_dead" ≠ "instance_missing")⟩
            · split at h
              · cases h
              · split at h
                · cases h
                  exact ⟨_,rfl,(by decide : "no_progress" ≠ "instance_missing")⟩
                · cases h

theorem verdictFor_missing (h : verdictFor run version answer = .missing) :
    run.stopRequested = false ∧ run.inGrace = false := by
  unfold verdictFor at h
  split at h
  · cases h
  · rename_i hstop
    refine ⟨Bool.eq_false_iff.mpr hstop,?_⟩
    split at h
    · cases h
    · split at h
      · cases h
      · rename_i hgrace
        exact Bool.eq_false_iff.mpr hgrace

theorem liveRun_grace (h : (liveRun now row).inGrace = false) : row.updatedAt + startupGrace ≤ now := by
  unfold liveRun at h
  exact Nat.le_of_not_lt (of_decide_eq_false h)

end Verdicts

/-- Whatever row a pass changes, it deserved it. -/
theorem orphan_sweep_deserved (h : Reachable Initial Step w) (hs : Step w e w') (hswept : e.swept = true)
    (hrow : row ∈ w.db.runs) (hrow' : row' ∈ w'.db.runs) (hid : row'.id = row.id) (hchanged : row' ≠ row) :
    Deserved w w' e row row' := by
  have hw : Watched w := h.invariant (fun _ => .initial) fun _ _ _ hw hs => hw.step hs
  rcases swept_cases hs hswept with hsame | ⟨pass,p,run,rest,verdict,now,rfl,hp,htodo,hstage,hdb,hlog⟩
  · -- the tables are the same, and ids are distinct
    rw [hsame] at hrow'
    exact absurd (List.inj_on_of_nodup_map hw.ids hrow' hrow hid) hchanged
  obtain ⟨answer,hverdict⟩ := hw.concluded pass p hp run rest htodo verdict (.inr ⟨now,hstage⟩)
  obtain ⟨start,read,hread,hrun,hlive,hstart⟩ := hw.todo pass p hp run (htodo ▸ List.mem_cons_self)
  rw [hdb] at hrow'
  rcases @settle_runs run verdict now w.db with hsame | ⟨terminal,hrows,hwhy⟩
  · rw [hsame] at hrow'
    exact absurd (List.inj_on_of_nodup_map hw.ids hrow' hrow hid) hchanged
  rw [hrows] at hrow'
  rcases mem_updateWhere.mp hrow' with ⟨old,hold,hmatch,rfl⟩ | ⟨hkept,-⟩
  swap
  · exact absurd (List.inj_on_of_nodup_map hw.ids hkept hrow hid) hchanged
  obtain rfl : old = row := List.inj_on_of_nodup_map hw.ids hold hrow hid
  obtain ⟨hmid,hmattempt,hminstance,hmstatus,hmupdated,hmstop,hmengine⟩ := unchanged_iff.mp hmatch
  rw [hrun] at hmid hmattempt hminstance hmstatus hmupdated hmstop hmengine
  have hreason : (old.stopRequested = true ∧ terminal = .stopped) ∨ (old.stopRequested = false ∧
      (old.engineVersion ≠ p.currentEngineVersion ∨ run.inGrace = false) ∧ ∃ error, terminal = .error error ∧
        (error.reason = "instance_missing" → verdict = .missing)) := by
    rw [hmstop, hmengine]
    rcases hwhy with ⟨hterminal,-⟩ | ⟨hmissing,herror,-⟩
    · rcases verdictFor_terminal (hverdict.symm.trans hterminal) with hstop | ⟨hstop,hgrace,error,heq,hne⟩
      · exact Or.inl (hrun ▸ hstop)
      · refine Or.inr ⟨by rw [hrun] at hstop; exact hstop,?_,error,heq,fun hreason => absurd hreason hne⟩
        rcases hgrace with hengine | hgrace
        · rw [hrun] at hengine
          exact .inl hengine
        · exact .inr hgrace
    · obtain ⟨hstop,hgrace⟩ := verdictFor_missing (hverdict.symm.trans hmissing)
      exact Or.inr ⟨by rw [hrun] at hstop; exact hstop,.inr hgrace,_,herror,fun _ => hmissing⟩
  refine ⟨⟨pass,start,read,rfl,hread,hmid,hmattempt,hminstance,hmstatus,hmupdated,hmstop,hmengine⟩,?_,?_,
    ⟨rfl,rfl,rfl,rfl,rfl⟩,?_,?_⟩
  · rw [hmstatus]
    exact hlive
  · rcases hreason with ⟨hstop,rfl⟩ | ⟨hstop,-,error,rfl,-⟩
    · rw [hstop]
      rfl
    · rw [hstop]
      rfl
  · rcases hreason with ⟨hstop,-⟩ | ⟨-,hengine | hgrace,-⟩
    · exact .inl hstop
    · exact .inr (.inl ⟨pass,p,rfl,hp,hengine⟩)
    · have hupdated := liveRun_grace (hrun ▸ hgrace)
      refine .inr (.inr ?_)
      rw [hmupdated]
      exact hupdated.trans hstart
  · intro reason herror hmissing
    have hverdict : verdict = .missing := by
      rcases hreason with ⟨-,rfl⟩ | ⟨-,-,error,rfl,himplies⟩
      · cases herror
      · cases herror
        exact himplies hmissing
    rcases hwhy with ⟨hterminal,-⟩ | ⟨-,-,hconfirmed⟩
    · cases hverdict.symm.trans hterminal
    -- the absence that stands on record is the first of the two
    have hseconds : 0 < missingConfirm := by decide
    rcases firstMissing_cases w.db.observations run now with ⟨first,hfirst,heq⟩ | hnow
    swap
    · omega
    obtain ⟨before,between,hbefore,hbetween⟩ := hw.observed first hfirst
    have hlocked : w.db.runs.any (unchanged run) = true := List.any_eq_true.mpr ⟨old,hold,hmatch⟩
    refine ⟨before,between,first,⟨run.id,run.attempt,run.workflowInstanceId,run.status,run.progressAt,now⟩,
      hbefore,?_,?_,?_,?_⟩
    · rw [heq] at hbetween
      rw [hmid]
      rw [hrun] at hbetween
      exact hbetween
    · rw [hlog, hverdict]
      unfold recorded
      rw [if_pos hlocked]
    · rw [heq]
      exact hconfirmed
    · rw [hmid, hmattempt, hminstance, hmstatus, hmupdated]
      intro o ho
      rw [hrun] at heq ho
      simp only [List.mem_cons, List.not_mem_nil, or_false] at ho
      rcases ho with rfl | rfl
      · rw [heq]
        exact ⟨rfl,rfl,rfl,rfl,rfl⟩
      · exact ⟨rfl,rfl,rfl,rfl,rfl⟩

section Example

def silentRun : RunRow := ⟨"run-1","session-1",.working,1,1,none,false,0,none,none⟩

def watched : World := ⟨1000 * second,⟨[silentRun],[]⟩,fun _ => none,[]⟩

theorem watched_initial : Initial watched := ⟨by decide,rfl,fun _ => rfl,rfl⟩

/-- Two passes a minute apart find the instance missing; the second is about to settle. -/
def missingTwice : List Event :=
  let notFound := Lookup.throws (some ⟨none,some "instance.not_found",none,none⟩)
  [.reads 0 1 (1000 * second),.looks 0 notFound,.begins 0,.settles 0,.tick (60 * second),
    .reads 1 1 (1060 * second),.looks 1 notFound,.begins 1]

theorem orphan_sweep_deserved_missing :
    ∃ w w' : World, ∃ row', Step w (.settles 1) w' ∧ row' ∈ w'.db.runs ∧ row'.status = .error ∧
      Deserved w w' (.settles 1) silentRun row' := by
  have haccepted : acceptedAll apply watched missingTwice = true := by decide +kernel
  have hsettles : accepted apply (afterAll apply watched missingTwice) (.settles 1) = true := by decide +kernel
  have hrow : silentRun ∈ (afterAll apply watched missingTwice).db.runs := by decide +kernel
  have hended : ended (1060 * second) (.error ⟨"instance_missing","the run attempt no longer exists"⟩) silentRun ∈
      (after apply (afterAll apply watched missingTwice) (.settles 1)).db.runs := by decide +kernel
  refine ⟨_,_,_,step_after hsettles,hended,rfl,?_⟩
  exact orphan_sweep_deserved ⟨watched,missingTwice,watched_initial,run_afterAll haccepted⟩ (step_after hsettles) rfl
    hrow hended rfl (by decide)

end Example
end HermesEnterprise.Sweep
