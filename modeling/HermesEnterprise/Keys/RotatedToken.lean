import HermesEnterprise.Keys.TokenRefresh
import Mathlib.Data.List.Basic
import Mathlib.Order.Nat

/-! # A rotated token is kept

Credentials are numbered in the order of issue. The row's number only grows as long as no
attempt to write an answer again meets a later credential, and then nothing is spent again.
-/
namespace HermesEnterprise.Keys
open Foundation.Runs
variable {C : Type} {w w' : World C} {call : CallId} {c : Call C}

section Log
variable {α : Type} {log before later : List α} {e x : α}

/-- The place of an entry in a log that has grown: the new entry, or an old one. -/
theorem split_grown (h : log ++ [e] = before ++ x :: later) :
    (x = e ∧ before = log) ∨ ∃ rest, log = before ++ x :: rest := by
  rcases List.eq_nil_or_concat later with rfl | ⟨rest,last,rfl⟩
  · obtain ⟨hbefore,hlast⟩ := List.append_inj' h rfl
    exact Or.inl ⟨(List.cons.inj hlast).1.symm,hbefore.symm⟩
  · have hgrown : log ++ [e] = (before ++ x :: rest) ++ [last] := by
      rw [h, List.concat_eq_append, List.append_assoc, List.cons_append]
    exact Or.inr ⟨rest,(List.append_inj' hgrown rfl).1⟩

end Log

/-- The credential that a call has read from the row. -/
def Call.reads (c : Call C) : Option (Credential C) :=
  match c.stage with
  | .locked current => some current
  | .asking current => some current
  | _ => none

/-- Numbers of what is stored, remembered and about to be stored. -/
structure Ordered (w : World C) : Prop where
  row_issued : w.row.issue < w.nextIssue
  wrote_le : ∀ call c, .wrote call c ∈ w.log → c.issue ≤ w.row.issue
  successor_later : ∀ call c next, .exchanged call c next ∈ w.log → c.issue < next.issue
  read_issued : ∀ call c current, w.calls call = some c → c.reads = some current → current.issue < w.nextIssue
  lock_call : ∀ h, w.lock = some h → ∃ c, w.calls h.call = some c ∧ h.attempt ≤ c.attempt
  written_later : ∀ h value, w.lock = some h → h.written = some value → w.row.issue ≤ value.issue ∧ value.issue < w.nextIssue
  answered_issued : ∀ call c value, w.calls call = some c → c.answered = some value → value.issue < w.nextIssue
  answered_later : ∀ h c value, w.lock = some h → w.calls h.call = some c → c.attempt = h.attempt →
    c.answered = some value → w.row.issue ≤ value.issue
  read_row : ∀ h c current, w.lock = some h → w.calls h.call = some c → c.attempt = h.attempt →
    c.reads = some current → current = w.row

section Calls

theorem setCall_calls (c : Call C) (k : CallId) :
    (setCall w call c).calls k = if k = call then some c else w.calls k := rfl

/-- A call goes on: what it knows stays issued, and it stays behind the attempt that holds the lock. -/
theorem Ordered.setCall (h : Ordered w) (hread : ∀ current, c.reads = some current → current.issue < w.nextIssue)
    (hanswered : ∀ value, c.answered = some value → value.issue < w.nextIssue)
    (hlock : ∀ hold, w.lock = some hold → hold.call = call → hold.attempt ≤ c.attempt ∧
      (c.attempt = hold.attempt → (∀ value, c.answered = some value → w.row.issue ≤ value.issue) ∧
        ∀ current, c.reads = some current → current = w.row)) :
    Ordered (setCall w call c) where
  row_issued := h.row_issued
  wrote_le := h.wrote_le
  successor_later := h.successor_later
  read_issued := by
    intro k d current hk hd
    rw [setCall_calls] at hk
    split at hk
    · cases hk
      exact hread current hd
    · exact h.read_issued k d current hk hd
  lock_call := by
    intro hold hh
    rw [setCall_calls]
    split
    · rename_i heq
      exact ⟨c,rfl,(hlock hold hh heq).1⟩
    · exact h.lock_call hold hh
  written_later := h.written_later
  answered_issued := by
    intro k d value hk hd
    rw [setCall_calls] at hk
    split at hk
    · cases hk
      exact hanswered value hd
    · exact h.answered_issued k d value hk hd
  answered_later := by
    intro hold d value hh hk hattempt hd
    rw [setCall_calls] at hk
    split at hk
    · rename_i heq
      cases hk
      exact ((hlock hold hh heq).2 hattempt).1 value hd
    · exact h.answered_later hold d value hh hk hattempt hd
  read_row := by
    intro hold d current hh hk hattempt hd
    rw [setCall_calls] at hk
    split at hk
    · rename_i heq
      cases hk
      exact ((hlock hold hh heq).2 hattempt).2 current hd
    · exact h.read_row hold d current hh hk hattempt hd

/-- A call that keeps its attempt and its answer. -/
theorem Ordered.moves {d : Call C} (h : Ordered w) (hc : w.calls call = some c) (hattempt : d.attempt = c.attempt)
    (hanswered : d.answered = c.answered)
    (hreads : ∀ current, d.reads = some current → c.reads = some current) :
    Ordered (Keys.setCall w call d) := by
  refine h.setCall (fun current hd => h.read_issued call c current hc (hreads current hd))
    (fun value hv => h.answered_issued call c value hc (hanswered ▸ hv)) ?_
  intro hold hh heq
  obtain ⟨c',hc',hle⟩ := h.lock_call hold hh
  rw [heq, hc] at hc'
  cases hc'
  refine ⟨hattempt ▸ hle,fun hsame => ⟨fun value hv => ?_,fun current hd => ?_⟩⟩
  · exact h.answered_later hold c value hh (heq ▸ hc) (hattempt ▸ hsame) (hanswered ▸ hv)
  · exact h.read_row hold c current hh (heq ▸ hc) (hattempt ▸ hsame) (hreads current hd)

/-- The lock is released. -/
theorem Ordered.unlocks (h : Ordered w) (committed : List (CallId × ℕ)) :
    Ordered { w with lock := none, committed := committed } where
  row_issued := h.row_issued
  wrote_le := h.wrote_le
  successor_later := h.successor_later
  read_issued := h.read_issued
  lock_call := fun _ hh => nomatch hh
  written_later := fun _ _ hh => nomatch hh
  answered_issued := h.answered_issued
  answered_later := fun _ _ _ hh => nomatch hh
  read_row := fun _ _ _ hh => nomatch hh

/-- The holder of the lock goes on, with the same value or its call's answer. -/
theorem Ordered.holds {hold next : Holder C} (h : Ordered w) (hh : w.lock = some hold)
    (hcall : next.call = hold.call) (hattempt : next.attempt = hold.attempt)
    (hwritten : next.written = hold.written ∨
      ∃ c, w.calls hold.call = some c ∧ c.attempt = hold.attempt ∧ next.written = c.answered) :
    Ordered { w with lock := some next } where
  row_issued := h.row_issued
  wrote_le := h.wrote_le
  successor_later := h.successor_later
  read_issued := h.read_issued
  lock_call := by
    rintro _ ⟨⟩
    rw [hcall, hattempt]
    exact h.lock_call hold hh
  written_later := by
    rintro _ value ⟨⟩ hv
    rcases hwritten with hsame | ⟨c,hc,hc',heq⟩
    · exact h.written_later hold value hh (hsame ▸ hv)
    · have hanswered := heq ▸ hv
      exact ⟨h.answered_later hold c value hh hc hc' hanswered,h.answered_issued _ c value hc hanswered⟩
  answered_issued := h.answered_issued
  answered_later := by
    rintro _ c value ⟨⟩ hc hc' hv
    rw [hcall] at hc
    rw [hattempt] at hc'
    exact h.answered_later hold c value hh hc hc' hv
  read_row := by
    rintro _ c current ⟨⟩ hc hc' hread
    rw [hcall] at hc
    rw [hattempt] at hc'
    exact h.read_row hold c current hh hc hc' hread

theorem held_some {hold : Holder C} (h : held w call c = some hold) :
    w.lock = some hold ∧ hold.call = call ∧ hold.attempt = c.attempt := by
  obtain ⟨hlock,hsame⟩ := Option.filter_eq_some_iff.mp h
  obtain ⟨hcall,hattempt⟩ := of_decide_eq_true hsame
  exact ⟨hlock,hcall,hattempt⟩

end Calls

section Logs
variable {entry : Entry C}

/-- A token is spent while the row holds its credential. -/
theorem Ordered.spends (h : Ordered w) (call : CallId) (credential : Credential C) :
    Ordered { w with log := w.log ++ [.spent call credential] } where
  row_issued := h.row_issued
  wrote_le := by
    intro k c hmem
    rcases List.mem_append.mp hmem with hmem | hmem
    · exact h.wrote_le k c hmem
    · cases List.mem_singleton.mp hmem
  successor_later := by
    intro k c next hmem
    rcases List.mem_append.mp hmem with hmem | hmem
    · exact h.successor_later k c next hmem
    · cases List.mem_singleton.mp hmem
  read_issued := h.read_issued
  lock_call := h.lock_call
  written_later := h.written_later
  answered_issued := h.answered_issued
  answered_later := h.answered_later
  read_row := h.read_row

/-- The provider issues the next credential. -/
theorem Ordered.issues (h : Ordered w) {current : Credential C} (hcurrent : current.issue < w.nextIssue)
    (call : CallId) (token : C) :
    Ordered { w with nextIssue := w.nextIssue + 1,
                     log := w.log ++ [.exchanged call current ⟨w.nextIssue,token⟩] } where
  row_issued := Nat.lt_succ_of_lt h.row_issued
  wrote_le := by
    intro k c hmem
    rcases List.mem_append.mp hmem with hmem | hmem
    · exact h.wrote_le k c hmem
    · cases List.mem_singleton.mp hmem
  successor_later := by
    intro k c next hmem
    rcases List.mem_append.mp hmem with hmem | hmem
    · exact h.successor_later k c next hmem
    · cases List.mem_singleton.mp hmem
      exact hcurrent
  read_issued := fun k c current hk hc => Nat.lt_succ_of_lt (h.read_issued k c current hk hc)
  lock_call := h.lock_call
  written_later := fun hold value hh hv =>
    ⟨(h.written_later hold value hh hv).1,Nat.lt_succ_of_lt (h.written_later hold value hh hv).2⟩
  answered_issued := fun k c value hk hc => Nat.lt_succ_of_lt (h.answered_issued k c value hk hc)
  answered_later := h.answered_later
  read_row := h.read_row

/-- The row takes a credential that was issued no earlier, and the lock is free. -/
theorem Ordered.writes (h : Ordered w) {next : Credential C} {bound : ℕ} (hlater : w.row.issue ≤ next.issue)
    (hissued : next.issue < bound) (hbound : w.nextIssue ≤ bound) (writer : Option CallId)
    (committed : List (CallId × ℕ)) :
    Ordered { w with row := next, lock := none, nextIssue := bound, committed := committed,
                     log := w.log ++ [.wrote writer next] } where
  row_issued := hissued
  wrote_le := by
    intro k c hmem
    rcases List.mem_append.mp hmem with hmem | hmem
    · exact (h.wrote_le k c hmem).trans hlater
    · cases List.mem_singleton.mp hmem
      exact le_rfl
  successor_later := by
    intro k c successor hmem
    rcases List.mem_append.mp hmem with hmem | hmem
    · exact h.successor_later k c successor hmem
    · cases List.mem_singleton.mp hmem
  read_issued := fun k c current hk hc => (h.read_issued k c current hk hc).trans_le hbound
  lock_call := fun _ hh => nomatch hh
  written_later := fun _ _ hh => nomatch hh
  answered_issued := fun k c value hk hc => (h.answered_issued k c value hk hc).trans_le hbound
  answered_later := fun _ _ _ hh => nomatch hh
  read_row := fun _ _ _ hh => nomatch hh

end Logs

/-- What an admitted step keeps. -/
theorem Ordered.step {e : Event C} (h : Ordered w) (hok : admits w e = true) (hs : Step w e w') : Ordered w' := by
  unfold Step Applied at hs
  cases e with
  | begins call =>
    simp only [apply] at hs
    split at hs
    · rename_i hnone
      cases hs
      refine h.setCall (fun _ hread => nomatch hread) (fun _ hv => nomatch hv) fun hold hh heq => ?_
      obtain ⟨c,hc,-⟩ := h.lock_call hold hh
      rw [heq, hnone] at hc
      cases hc
    · cases hs
  | locks call =>
    simp only [apply] at hs
    split at hs
    · rename_i c hc hfree
      split at hs
      · cases hs
        -- an answer that waits to be written again was issued no earlier than the row
        have hlater : ∀ value, c.answered = some value → w.row.issue ≤ value.issue := by
          intro value hv
          simp only [admits, hc, hv, Option.all_some, decide_eq_true_eq] at hok
          exact hok
        have hread : ∀ d : Call C, d.stage = (if c.answered.isNone then .locked w.row else .storing) →
            ∀ current, d.reads = some current → current = w.row := by
          intro d hd current hcurrent
          unfold Call.reads at hcurrent
          rw [hd] at hcurrent
          cases hanswered : c.answered with
          | none =>
            rw [hanswered] at hcurrent
            exact (Option.some.inj hcurrent).symm
          | some value =>
            rw [hanswered] at hcurrent
            cases hcurrent
        have hset := @Ordered.setCall _ { w with lock := none } call
          { c with stage := if c.answered.isNone then .locked w.row else .storing } (h.unlocks w.committed) (fun current hd => hread _ rfl current hd ▸ h.row_issued)
          (fun value hv => h.answered_issued call c value hc hv) (fun _ hh => nomatch hh)
        exact {
          row_issued := h.row_issued
          wrote_le := h.wrote_le
          successor_later := h.successor_later
          read_issued := hset.read_issued
          lock_call := by
            rintro _ ⟨⟩
            exact ⟨_,if_pos rfl,le_rfl⟩
          written_later := by
            rintro _ value ⟨⟩ hv
            cases hv
          answered_issued := hset.answered_issued
          answered_later := by
            rintro _ d value ⟨⟩ hd - hv
            rw [setCall_calls, if_pos rfl] at hd
            cases hd
            exact hlater value hv
          read_row := by
            rintro _ d current ⟨⟩ hd - hv
            rw [setCall_calls, if_pos rfl] at hd
            cases hd
            exact hread _ rfl current hv }
      · cases hs
    · cases hs
  | reuses call =>
    simp only [apply] at hs
    split at hs
    · rename_i c hc
      split at hs
      · rename_i hold _ hheld
        cases hs
        obtain ⟨hh,-,-⟩ := held_some hheld
        have hmoved := h.moves (d := { c with stage := .committing }) hc rfl rfl fun _ hread => nomatch hread
        exact hmoved.holds hh rfl rfl (.inl rfl)
      · cases hs
    · cases hs
  | asks call =>
    simp only [apply] at hs
    split at hs
    · rename_i c hc
      split at hs
      · rename_i current hstage
        cases hs
        have hread : c.reads = some current := by
          unfold Call.reads
          rw [hstage]
        have hmoved := h.moves (d := { c with stage := .asking current }) hc rfl rfl fun _ hd => hread.trans hd
        exact hmoved.spends call current
      · cases hs
    · cases hs
  | answers call token =>
    simp only [apply] at hs
    split at hs
    · rename_i c hc
      split at hs
      · rename_i current hstage
        cases hs
        have hissued : current.issue < w.nextIssue := by
          refine h.read_issued call c current hc ?_
          unfold Call.reads
          rw [hstage]
        have hgrown := h.issues hissued call token
        refine hgrown.setCall (fun _ hread => nomatch hread) ?_ ?_
        · rintro _ ⟨⟩
          exact Nat.lt_succ_self _
        · intro hold hh heq
          obtain ⟨d,hd,hle⟩ := h.lock_call hold hh
          rw [heq, hc] at hd
          cases hd
          refine ⟨hle,fun _ => ⟨?_,fun _ hread => nomatch hread⟩⟩
          rintro _ ⟨⟩
          exact h.row_issued.le
      · cases hs
    · cases hs
  | stores call =>
    simp only [apply] at hs
    split at hs
    · rename_i c hc
      split at hs
      · rename_i value hold _ hanswered hheld
        cases hs
        obtain ⟨hh,hcall,hattempt⟩ := held_some hheld
        have hmoved := h.moves (d := { c with stage := .stored }) hc rfl rfl fun _ hread => nomatch hread
        refine hmoved.holds hh rfl rfl (.inr ⟨{ c with stage := .stored },?_,hattempt.symm,hanswered.symm⟩)
        rw [setCall_calls, if_pos hcall]
      · cases hs
    · cases hs
  | sendsCommit call =>
    simp only [apply] at hs
    split at hs
    · rename_i c hc
      split at hs
      · rename_i hold _ hheld
        cases hs
        obtain ⟨hh,-,-⟩ := held_some hheld
        have hmoved := h.moves (d := { c with stage := .committing }) hc rfl rfl fun _ hread => nomatch hread
        exact hmoved.holds hh rfl rfl (.inl rfl)
      · cases hs
    · cases hs
  | acknowledged call =>
    simp only [apply] at hs
    split at hs
    · rename_i c hc
      split at hs
      · split at hs
        · cases hs
          exact h.moves hc rfl rfl fun _ hread => nomatch hread
        · cases hs
      · cases hs
    · cases hs
  | throws call =>
    simp only [apply] at hs
    split at hs
    · rename_i c hc
      have hcaught : Ordered (Keys.setCall w call c.caught) := by
        unfold Call.caught
        split
        · exact h.moves hc rfl rfl fun _ hread => nomatch hread
        · rename_i value hanswered
          split
          · refine h.setCall (fun _ hread => nomatch hread) ?_ ?_
            · exact fun v hv => h.answered_issued call c v hc hv
            · -- the lock is held by an earlier attempt, if at all
              intro hold hh heq
              obtain ⟨d,hd,hle⟩ := h.lock_call hold hh
              rw [heq, hc] at hd
              cases hd
              refine ⟨Nat.le_succ_of_le hle,fun hsame => ?_⟩
              dsimp only at hsame
              omega
          · exact h.moves hc rfl rfl fun _ hread => nomatch hread
      split at hs
      · cases hs
      · cases hs
      · cases hs
        exact hcaught
    · cases hs
  | crashes call =>
    simp only [apply] at hs
    split at hs
    · rename_i c hc
      cases hs
      exact h.moves hc rfl rfl fun _ hread => nomatch hread
    · cases hs
  | commits =>
    simp only [apply] at hs
    split at hs
    · rename_i hold hh
      split at hs
      · split at hs
        · rename_i value hv
          cases hs
          obtain ⟨hlater,hissued⟩ := h.written_later hold value hh hv
          exact h.writes hlater hissued le_rfl (some hold.call) _
        · cases hs
          exact h.unlocks _
      · cases hs
    · cases hs
  | aborts =>
    simp only [apply] at hs
    split at hs
    · cases hs
      exact h.unlocks _
    · cases hs
  | reconnects token =>
    simp only [apply] at hs
    split at hs
    · rename_i hfree
      cases hs
      have hlater : w.row.issue ≤ (⟨w.nextIssue,token⟩ : Credential C).issue := h.row_issued.le
      have hwritten := h.writes hlater (Nat.lt_succ_self _) (Nat.le_succ _) none w.committed
      rwa [← hfree] at hwritten
    · cases hs

/-- What an admitted step writes to the log. -/
theorem Ordered.log_cases {e : Event C} (h : Ordered w) (hok : admits w e = true) (hs : Step w e w') :
    w'.log = w.log ∨ (∃ call, w'.log = w.log ++ [.spent call w.row]) ∨
      (∃ call current next, w'.log = w.log ++ [.exchanged call current next]) ∨
      ∃ writer next, w'.log = w.log ++ [.wrote writer next] ∧ w.row.issue ≤ next.issue := by
  unfold Step Applied at hs
  cases e with
  | asks call =>
    simp only [apply] at hs
    split at hs
    · rename_i c hc
      split at hs
      · rename_i current hstage
        cases hs
        have hread : c.reads = some current := by
          unfold Call.reads
          rw [hstage]
        simp only [admits, hc, Option.all_some] at hok
        obtain ⟨hold,hheld⟩ := Option.isSome_iff_exists.mp hok
        obtain ⟨hh,hcall,hattempt⟩ := held_some hheld
        have hrow := h.read_row hold c current hh (hcall ▸ hc) hattempt.symm hread
        exact .inr (.inl ⟨call,by rw [hrow]⟩)
      · cases hs
    · cases hs
  | answers call token =>
    simp only [apply] at hs
    split at hs
    · split at hs
      · rename_i current _
        cases hs
        exact .inr (.inr (.inl ⟨call,current,_,rfl⟩))
      · cases hs
    · cases hs
  | commits =>
    simp only [apply] at hs
    split at hs
    · rename_i hold hh
      split at hs
      · split at hs
        · rename_i value hv
          cases hs
          exact .inr (.inr (.inr ⟨_,value,rfl,(h.written_later hold value hh hv).1⟩))
        · cases hs
          exact .inl rfl
      · cases hs
    · cases hs
  | reconnects token =>
    simp only [apply] at hs
    split at hs
    · cases hs
      exact .inr (.inr (.inr ⟨none,_,rfl,h.row_issued.le⟩))
    · cases hs
  | _ =>
    left
    simp only [apply] at hs
    repeat' split at hs
    all_goals first | cases hs; rfl | cases hs

theorem Ordered.initial (h : Initial w) : Ordered w := by
  obtain ⟨hlock,hcalls,-,hlog,hissued⟩ := h
  refine ⟨hissued,?_,?_,?_,?_,?_,?_,?_,?_⟩
  · intro call c hmem
    rw [hlog] at hmem
    cases List.mem_singleton.mp hmem
    exact le_rfl
  · intro call c next hmem
    rw [hlog] at hmem
    cases List.mem_singleton.mp hmem
  · intro call c current hc
    cases (hcalls call).symm.trans hc
  · intro hold hh
    cases hlock.symm.trans hh
  · intro hold value hh
    cases hlock.symm.trans hh
  · intro call c value hc
    cases (hcalls call).symm.trans hc
  · intro hold c value hh
    cases hlock.symm.trans hh
  · intro hold c current hh
    cases hlock.symm.trans hh

section Histories
variable {e : Event C}

theorem NeverRolledBack.step (hlog : NeverRolledBack w) (h : Ordered w) (hok : admits w e = true)
    (hs : Step w e w') : NeverRolledBack w' := by
  intro before call credential later heq other earlier hmem
  rcases h.log_cases hok hs with hsame | ⟨k,hgrown⟩ | ⟨k,current,next,hgrown⟩ | ⟨writer,next,hgrown,hlater⟩
  · exact hlog before call credential later (hsame ▸ heq) other earlier hmem
  · rcases split_grown (hgrown ▸ heq) with ⟨hentry,-⟩ | ⟨rest,hold⟩
    · cases hentry
    · exact hlog before call credential rest hold other earlier hmem
  · rcases split_grown (hgrown ▸ heq) with ⟨hentry,-⟩ | ⟨rest,hold⟩
    · cases hentry
    · exact hlog before call credential rest hold other earlier hmem
  · rcases split_grown (hgrown ▸ heq) with ⟨hentry,hbefore⟩ | ⟨rest,hold⟩
    · cases hentry
      exact (h.wrote_le other earlier (hbefore ▸ hmem)).trans hlater
    · exact hlog before call credential rest hold other earlier hmem

theorem NeverRespent.step (hlog : NeverRespent w) (h : Ordered w) (hok : admits w e = true)
    (hs : Step w e w') : NeverRespent w' := by
  intro before call credential later heq other successor hexchanged writer hwrote
  rcases h.log_cases hok hs with hsame | ⟨k,hgrown⟩ | ⟨k,current,next,hgrown⟩ | ⟨_,next,hgrown,-⟩
  · exact hlog before call credential later (hsame ▸ heq) other successor hexchanged writer hwrote
  · rcases split_grown (hgrown ▸ heq) with ⟨hentry,rfl⟩ | ⟨rest,hold⟩
    · -- the row holds a credential no later than the one that is spent
      cases hentry
      have hlater := h.successor_later other _ successor hexchanged
      have hstored := h.wrote_le writer successor hwrote
      omega
    · exact hlog before call credential rest hold other successor hexchanged writer hwrote
  · rcases split_grown (hgrown ▸ heq) with ⟨hentry,-⟩ | ⟨rest,hold⟩
    · cases hentry
    · exact hlog before call credential rest hold other successor hexchanged writer hwrote
  · rcases split_grown (hgrown ▸ heq) with ⟨hentry,-⟩ | ⟨rest,hold⟩
    · cases hentry
    · exact hlog before call credential rest hold other successor hexchanged writer hwrote

end Histories

section Examples

def stored : World String := ⟨⟨0,"t0"⟩,none,fun _ => none,[],1,[.wrote none ⟨0,"t0"⟩]⟩

/-- The acknowledgement of a commit is lost, and the answer is written again. -/
def rewritten : List (Event String) :=
  [.begins 0,.locks 0,.asks 0,.answers 0 "t1",.stores 0,.sendsCommit 0,.commits,.throws 0,
    .locks 0,.stores 0,.sendsCommit 0,.commits,.acknowledged 0]

end Examples
end HermesEnterprise.Keys
