import Mathlib.Logic.Relation

/-! # Runs of a labelled transition system

A step relates a state, an event and the state after it. What one step preserves
holds along every run, and a run may be restricted to steps that meet a condition.
-/
namespace HermesEnterprise.Foundation.Runs
variable {σ ε : Type*}

/-- The events of a run, in order, take the first state to the last. -/
inductive Run (step : σ → ε → σ → Prop) : σ → List ε → σ → Prop
  | nil (s : σ) : Run step s [] s
  | cons {s t u : σ} {e : ε} {es : List ε} : step s e t → Run step t es u → Run step s (e :: es) u

/-- A step whose event is admitted in the state before it. -/
def Guarded (step : σ → ε → σ → Prop) (ok : σ → ε → Prop) (s : σ) (e : ε) (t : σ) : Prop :=
  ok s e ∧ step s e t

/-- Some run from an initial state ends here. -/
def Reachable (init : σ → Prop) (step : σ → ε → σ → Prop) (t : σ) : Prop :=
  ∃ s es, init s ∧ Run step s es t

variable {step : σ → ε → σ → Prop} {ok : σ → ε → Prop} {init P Q : σ → Prop}
variable {s t u : σ} {e : ε} {es fs : List ε}

theorem Run.single (h : step s e t) : Run step s [e] t := .cons h (.nil t)

theorem Run.append (h : Run step s es t) (h' : Run step t fs u) : Run step s (es ++ fs) u := by
  induction h with
  | nil => exact h'
  | cons hs _ ih => exact .cons hs (ih h')

theorem Run.invariant (h : Run step s es t) (hs : P s)
    (hstep : ∀ s e t, P s → step s e t → P t) : P t := by
  induction h with
  | nil => exact hs
  | cons hst _ ih => exact ih (hstep _ _ _ hs hst)

theorem Run.mono {step' : σ → ε → σ → Prop} (h : Run step s es t)
    (hm : ∀ s e t, step s e t → step' s e t) : Run step' s es t := by
  induction h with
  | nil => exact .nil _
  | cons hst _ ih => exact .cons (hm _ _ _ hst) ih

/-- What a run comes to have, one of its steps brought. -/
theorem Run.brought (h : Run step s es t) (hs : ¬ P s) (ht : P t) :
    ∃ before e later u v, es = before ++ e :: later ∧ Run step s before u ∧ step u e v ∧
      Run step v later t ∧ ¬ P u ∧ P v := by
  induction h with
  | nil => exact absurd ht hs
  | @cons s v t e es hst hrun ih =>
    by_cases hv : P v
    · exact ⟨[],e,es,s,v,rfl,.nil s,hst,hrun,hs,hv⟩
    · obtain ⟨before,e',later,u,w,rfl,h₁,h₂,h₃,h₄,h₅⟩ := ih hv ht
      exact ⟨e :: before,e',later,u,w,rfl,.cons hst h₁,h₂,h₃,h₄,h₅⟩

/-- Every state of a run has what its last state has, or some step brought it for good. -/
theorem Run.always_or_brought (h : Run step s es t) (ht : P t) :
    (P s ∧ Run (fun a e b => step a e b ∧ P b) s es t) ∨
      ∃ before e later u v, es = before ++ e :: later ∧ Run step s before u ∧ step u e v ∧ ¬ P u ∧ P v ∧
        Run (fun a e b => step a e b ∧ P b) v later t := by
  induction h with
  | nil => exact Or.inl ⟨ht,.nil _⟩
  | @cons s v t e es hst hrun ih =>
    rcases ih ht with ⟨hv,hall⟩ | ⟨before,e',later,u,w,rfl,hbefore,hbrings,hu,hw,hlater⟩
    · by_cases hs : P s
      · exact Or.inl ⟨hs,.cons ⟨hst,hv⟩ hall⟩
      · exact Or.inr ⟨[],e,es,s,v,rfl,.nil s,hst,hs,hv,hall⟩
    · exact Or.inr ⟨e :: before,e',later,u,w,rfl,.cons hst hbefore,hbrings,hu,hw,hlater⟩

/-- What the last state of a run has and the first had not, some step brought, and no step since took away. -/
theorem Run.brought_since (h : Run step s es t) (hs : ¬ P s) (ht : P t) :
    ∃ before e later u v, es = before ++ e :: later ∧ Run step s before u ∧ step u e v ∧ ¬ P u ∧ P v ∧
      Run (fun a e b => step a e b ∧ P b) v later t :=
  (h.always_or_brought ht).resolve_left fun hall => hs hall.1

/-- Forgetting the condition of a restricted run. -/
theorem Run.unguard (h : Run (Guarded step ok) s es t) : Run step s es t :=
  h.mono fun _ _ _ h => h.2

/-- A run whose events are admitted in every state is a restricted one. -/
theorem Run.guard (h : Run step s es t) (hok : ∀ e ∈ es, ∀ s, ok s e) :
    Run (Guarded step ok) s es t := by
  induction h with
  | nil => exact .nil _
  | cons hst _ ih =>
    exact .cons ⟨hok _ List.mem_cons_self _,hst⟩ (ih fun e he => hok e (List.mem_cons_of_mem _ he))

/-- The runs that have a property of each step are those restricted to its condition, if the condition
decides the property and keeps what decides it. -/
theorem Run.guarded_iff {Q : σ → ε → σ → Prop} (hs : P s)
    (hiff : ∀ s e t, P s → step s e t → (Q s e t ↔ ok s e))
    (hkeep : ∀ s e t, P s → step s e t → ok s e → P t) :
    Run (fun s e t => step s e t ∧ Q s e t) s es t ↔ Run (Guarded step ok) s es t := by
  constructor
  · intro h
    induction h with
    | nil => exact .nil _
    | cons hst _ ih =>
      have hok := (hiff _ _ _ hs hst.1).mp hst.2
      exact .cons ⟨hok,hst.1⟩ (ih (hkeep _ _ _ hs hst.1 hok))
  · intro h
    induction h with
    | nil => exact .nil _
    | cons hst _ ih =>
      exact .cons ⟨hst.2,(hiff _ _ _ hs hst.2).mpr hst.1⟩ (ih (hkeep _ _ _ hs hst.2 hst.1))

theorem Reachable.invariant (h : Reachable init step t) (hinit : ∀ s, init s → P s)
    (hstep : ∀ s e t, P s → step s e t → P t) : P t := by
  obtain ⟨s,es,hs,hrun⟩ := h
  exact hrun.invariant (hinit s hs) hstep

/-- An invariant proved with the help of one already known to hold. -/
theorem Reachable.invariant_of (h : Reachable init step t)
    (hQ : ∀ t, Reachable init step t → Q t) (hinit : ∀ s, init s → P s)
    (hstep : ∀ s e t, Q s → P s → step s e t → P t) : P t := by
  obtain ⟨s,es,hs,hrun⟩ := h
  suffices H : ∀ {s t : σ} {es : List ε}, Run step s es t → Reachable init step s → P s → P t from
    H hrun ⟨s,[],hs,.nil s⟩ (hinit s hs)
  intro s t es hrun
  induction hrun with
  | nil => exact fun _ hp => hp
  | cons hst _ ih =>
    rintro ⟨r,fs,hr,hfs⟩ hp
    exact ih ⟨r,_,hr,hfs.append (.single hst)⟩ (hstep _ _ _ (hQ _ ⟨r,fs,hr,hfs⟩) hp hst)

theorem Reachable.tail (h : Reachable init step s) (hst : step s e t) : Reachable init step t := by
  obtain ⟨r,es,hr,hrun⟩ := h
  exact ⟨r,_,hr,hrun.append (.single hst)⟩

section Executable
variable {φ : Type*} {apply : σ → ε → Except φ σ}

/-- The step relation of a function that may refuse an event. -/
def Applied (apply : σ → ε → Except φ σ) (s : σ) (e : ε) (t : σ) : Prop := apply s e = .ok t

/-- The state after an event, unchanged by a refused one. -/
def after (apply : σ → ε → Except φ σ) (s : σ) (e : ε) : σ :=
  match apply s e with
  | .ok t => t
  | .error _ => s

def accepted (apply : σ → ε → Except φ σ) (s : σ) (e : ε) : Bool :=
  match apply s e with
  | .ok _ => true
  | .error _ => false

/-- Whether every event of a list is accepted in turn. -/
def acceptedAll (apply : σ → ε → Except φ σ) : σ → List ε → Bool
  | _, [] => true
  | s, e :: rest => accepted apply s e && acceptedAll apply (after apply s e) rest

def afterAll (apply : σ → ε → Except φ σ) (s : σ) (events : List ε) : σ :=
  events.foldl (after apply) s

theorem step_after (h : accepted apply s e = true) : Applied apply s e (after apply s e) := by
  unfold accepted at h
  unfold Applied after
  split at h
  next next hn => rw [hn]
  next => cases h

/-- Accepted events run. -/
theorem run_afterAll (h : acceptedAll apply s es = true) :
    Run (Applied apply) s es (afterAll apply s es) := by
  induction es generalizing s with
  | nil => exact .nil s
  | cons e rest ih =>
    simp only [acceptedAll, Bool.and_eq_true] at h
    exact .cons (step_after h.1) (ih h.2)

/-- Whether every event of a list is admitted by the condition, and accepted. -/
def admittedAll (admits : σ → ε → Bool) (apply : σ → ε → Except φ σ) : σ → List ε → Bool
  | _, [] => true
  | s, e :: rest =>
    admits s e && accepted apply s e && admittedAll admits apply (after apply s e) rest

/-- Admitted events make a restricted run. -/
theorem run_admittedAll {admits : σ → ε → Bool} (h : admittedAll admits apply s es = true) :
    Run (Guarded (Applied apply) fun s e => admits s e = true) s es (afterAll apply s es) := by
  induction es generalizing s with
  | nil => exact .nil s
  | cons e rest ih =>
    simp only [admittedAll, Bool.and_eq_true] at h
    exact .cons ⟨h.1.1,step_after h.1.2⟩ (ih h.2)

end Executable

/-- The run of a function that may refuse an event, from its fold over the events. -/
theorem run_of_foldlM {apply : σ → ε → Option σ} (h : es.foldlM apply s = some t) :
    Run (fun s e t => apply s e = some t) s es t := by
  induction es generalizing s with
  | nil =>
    cases h
    exact .nil _
  | cons e rest ih =>
    rw [List.foldlM_cons] at h
    obtain ⟨u,hu,h⟩ := Option.bind_eq_some_iff.mp h
    exact .cons hu (ih h)

end HermesEnterprise.Foundation.Runs
