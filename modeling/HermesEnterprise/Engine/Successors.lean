import HermesEnterprise.Engine.Writes

/-! # An old attempt beside a newer one

The status is guarded by the status itself and messages by their turn, neither by the attempt. So a run
is undisturbed exactly when its older attempts write nothing that those guards let through.
-/
namespace HermesEnterprise.Engine
open Foundation.Runs Foundation.Tables
open RunLog (RunStatus)
variable {s t : Store} {e : Event} {attempt : ℕ}

theorem old_eq_some {write : Write} : old s e = some (attempt,write) ↔ e = .write attempt write ∧ attempt < s.run.attempt := by
  cases e with
  | write a w =>
    simp only [old, Option.ite_none_right_eq_some, Option.some.injEq, Prod.mk.injEq, Event.write.injEq]
    constructor
    · rintro ⟨hlt,rfl,rfl⟩
      exact ⟨⟨rfl,rfl⟩,hlt⟩
    · rintro ⟨⟨rfl,rfl⟩,hlt⟩
      exact ⟨hlt,rfl,rfl⟩
  | sweep _ _ _ => simp [old]
  | requestRunStop => simp [old]
  | retryTask => simp [old]

/-- How the run stands, as far as an old attempt must leave it. -/
def SameStanding (run run' : RunRow) : Prop :=
  run'.status = run.status ∧ run'.error = run.error ∧ run'.waitingFor = run.waitingFor ∧ run'.endedAt = run.endedAt

theorem sameStanding_rfl (run : RunRow) : SameStanding run run := ⟨rfl,rfl,rfl,rfl⟩

theorem setRunStatus_standing_iff {run : RunRow} {status : RunStatus} {detail : StatusDetail} {now : ℕ} :
    SameStanding run (setRunStatus run status detail now) ↔ statusFits run status detail = true := by
  unfold setRunStatus statusFits SameStanding
  cases hterminal : run.status.terminal with
  | true => simp
  | false =>
    simp only [Bool.false_eq_true, if_false, Bool.false_or, Bool.and_eq_true, decide_eq_true_eq]
    constructor
    · rintro ⟨hstatus,herror,hwaiting,-⟩
      exact ⟨⟨hstatus,hwaiting⟩,herror⟩
    · rintro ⟨⟨hstatus,hwaiting⟩,herror⟩
      refine ⟨hstatus,herror,hwaiting,?_⟩
      rw [hstatus, hterminal]
      rfl

/-- A message that a later attempt has written stays, unless it is that of the turn. -/
theorem upsert_keeps_iff {messages : List MessageRow} {turn : ℕ} {text : String} {blocks : List String}
    {status : MessageStatus} {workedMs : Option ℕ} :
    (∀ m ∈ messages, attempt < m.writtenBy → m ∈ upsertAssistantMessage messages attempt turn text blocks status workedMs) ↔
      (messages.all fun m => m.turn ≠ turn || m.writtenBy ≤ attempt) = true := by
  simp only [List.all_eq_true, Bool.or_eq_true, decide_eq_true_eq]
  constructor
  · intro h m hm
    by_contra hno
    rw [not_or, not_not, Nat.not_le] at hno
    obtain ⟨hturn,hlater⟩ := hno
    have hkept := h m hm hlater
    have hany : (messages.any fun m => decide (m.turn = turn)) = true := List.any_eq_true.mpr ⟨m,hm,decide_eq_true hturn⟩
    rw [upsertAssistantMessage, if_pos hany] at hkept
    obtain ⟨-,-,-,heq⟩ | ⟨-,hother⟩ := mem_updateWhere.mp hkept
    · rw [heq] at hlater
      exact Nat.lt_irrefl _ hlater
    · exact absurd hturn (of_decide_eq_false hother)
  · intro h m hm hlater
    have hturn : m.turn ≠ turn := (h m hm).resolve_right (Nat.not_le.mpr hlater)
    unfold upsertAssistantMessage
    split
    · exact mem_updateWhere.mpr (.inr ⟨hm,decide_eq_false hturn⟩)
    · exact List.mem_append_left _ hm

theorem appendTurn_keeps {turns : List TurnRow} {row r : TurnRow} (h : r ∈ turns) : r ∈ appendTurn turns row := by
  unfold appendTurn
  split
  · exact h
  · exact List.mem_append_left _ h

/-- What one write of an old attempt disturbs. -/
theorem write_undisturbed_iff (write : Write) :
    (SameStanding s.run (s.write attempt write).run ∧
        (∀ m ∈ s.messages, attempt < m.writtenBy → m ∈ (s.write attempt write).messages) ∧
        ∀ r ∈ s.turns, attempt < r.writtenBy → r ∈ (s.write attempt write).turns) ↔
      writeFits s attempt write = true := by
  have hmessages : ∀ m ∈ s.messages, attempt < m.writtenBy → m ∈ s.messages := fun _ hm _ => hm
  have hturns : ∀ r ∈ s.turns, attempt < r.writtenBy → r ∈ s.turns := fun _ hr _ => hr
  cases write with
  | setRunStatus status detail now =>
    exact (and_iff_left ⟨hmessages,hturns⟩).trans setRunStatus_standing_iff
  | enterStep turn stepId label state toolCallId => exact iff_of_true ⟨sameStanding_rfl _,hmessages,hturns⟩ rfl
  | finishStep turn stepId state => exact iff_of_true ⟨sameStanding_rfl _,hmessages,hturns⟩ rfl
  | upsertAssistantMessage turn text blocks status workedMs =>
    rw [writeFits, ← upsert_keeps_iff]
    exact ⟨fun h => h.2.1,fun h => ⟨sameStanding_rfl _,h,hturns⟩⟩
  | appendTurn turn seq role providerMessage toolCallId =>
    exact iff_of_true ⟨sameStanding_rfl _,hmessages,fun r hr _ => appendTurn_keeps hr⟩ rfl
  | addActiveMs ms => exact iff_of_true ⟨sameStanding_rfl _,hmessages,hturns⟩ rfl
  | emit kind => exact iff_of_true ⟨sameStanding_rfl _,hmessages,hturns⟩ rfl

theorem write_status {write : Write} (h : s.run.status.terminal = true) :
    (s.write attempt write).run.status = s.run.status := by
  cases write with
  | setRunStatus status detail now => simp only [Store.write, setRunStatus, if_pos h]
  | _ => rfl

/-- Whoever ends a run ends it for good, but for a retry. -/
theorem ended_stays (h : apply s e = some t) (hterminal : s.run.status.terminal = true) (hne : t.run.status ≠ s.run.status) :
    e = .retryTask := by
  cases e with
  | write attempt write =>
    obtain ⟨-,hwrite⟩ := Option.ite_none_right_eq_some.mp h
    cases hwrite
    exact absurd (write_status hterminal) hne
  | sweep attempt error now =>
    obtain ⟨⟨-,hlive⟩,-⟩ := Option.ite_none_right_eq_some.mp h
    rw [hterminal] at hlive
    cases hlive
  | requestRunStop =>
    obtain ⟨hlive,-⟩ := Option.ite_none_left_eq_some.mp h
    exact absurd hterminal hlive
  | retryTask => rfl

/-- One event. -/
theorem undisturbed_iff (h : apply s e = some t) : Undisturbed s e t ↔ fits s e = true := by
  cases hold : old s e with
  | none =>
    refine iff_of_true ⟨?_,?_,?_,ended_stays h⟩ (by rw [fits, hold, Option.all_none])
    · exact fun _ _ hsome => by rw [hold] at hsome; cases hsome
    · exact fun _ _ hsome => by rw [hold] at hsome; cases hsome
    · exact fun _ _ hsome => by rw [hold] at hsome; cases hsome
  | some own =>
    obtain ⟨attempt,write⟩ := own
    obtain ⟨rfl,hlt⟩ := old_eq_some.mp hold
    have ht : t = s.write attempt write := by
      obtain ⟨-,hwrite⟩ := Option.ite_none_right_eq_some.mp h
      exact (Option.some.inj hwrite).symm
    subst ht
    have hfits : fits s (.write attempt write) = writeFits s attempt write := by rw [fits, hold, Option.all_some]
    rw [hfits, ← write_undisturbed_iff]
    constructor
    · exact fun hundisturbed => ⟨hundisturbed.run _ _ hold,hundisturbed.messages _ _ hold,hundisturbed.turns _ _ hold⟩
    · rintro ⟨hrun,hmessages,hturns⟩
      refine ⟨?_,?_,?_,ended_stays h⟩
      · intro a w hsome
        obtain ⟨rfl,rfl⟩ := Prod.mk.inj (Option.some.inj (hold.symm.trans hsome))
        exact hrun
      · intro a w hsome
        obtain ⟨rfl,rfl⟩ := Prod.mk.inj (Option.some.inj (hold.symm.trans hsome))
        exact hmessages
      · intro a w hsome
        obtain ⟨rfl,rfl⟩ := Prod.mk.inj (Option.some.inj (hold.symm.trans hsome))
        exact hturns

/-- A run is undisturbed at each of its steps exactly when each write of an older attempt fits. -/
theorem undisturbed_run_iff (s t : Store) (events : List Event) :
    Run (fun s e t => apply s e = some t ∧ Undisturbed s e t) s events t ↔
      Run (Guarded (fun s e t => apply s e = some t) fun s e => fits s e = true) s events t := by
  constructor
  · exact fun h => h.mono fun _ _ _ hst => ⟨(undisturbed_iff hst.1).mp hst.2,hst.1⟩
  · exact fun h => h.mono fun _ _ _ hst => ⟨hst.2,(undisturbed_iff hst.2).mpr hst.1⟩

section Sample

/-- A run whose first attempt is working. -/
def sampleStore : Store := ⟨⟨.working,1,none,none,none,none,false,0⟩,[],[],[],[]⟩

/-- The sweep ends the first attempt, and a retry admits the second. -/
def sampleEvents : List Event :=
  [.sweep 1 (some ⟨"transient",true,"orphaned","The task stopped before it finished.",none⟩) 5,.retryTask,
    .write 2 (.setRunStatus .working ⟨none,none⟩ 6)]

/-- Then the first comes to its end, and completes the run. -/
theorem successor_disturbed : ∃ s t, Run (fun s e t => apply s e = some t) sampleStore sampleEvents s ∧
    ∃ write ∈ finish .completed none 9, apply s (.write 1 write) = some t ∧ ¬ Undisturbed s (.write 1 write) t := by
  refine ⟨_,_,run_of_foldlM rfl,.setRunStatus .completed ⟨none,some none⟩ 9,by decide,rfl,fun h => ?_⟩
  have hstatus := (h.run 1 _ rfl).1
  cases hstatus

end Sample

end HermesEnterprise.Engine
