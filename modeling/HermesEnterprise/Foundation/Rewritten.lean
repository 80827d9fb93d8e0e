import HermesEnterprise.Foundation.Tables

/-! # Rows changed in their place

A transaction succeeds where each of its parts does. One that neither inserts nor deletes rows maps each to
a row that a relation allows.
-/
namespace HermesEnterprise.Foundation.Tables
variable {α κ : Type*} {R S : α → α → Prop} {p : α → Bool} {f : α → α} {rows rows' rows'' : List α} {r r' : α}

universe u

section Outcomes
variable {ε : Type*} {β γ : Type u} {x : Except ε β} {k : β → Except ε γ} {c : γ} {e : ε}

theorem bind_eq_ok : (x >>= k) = .ok c ↔ ∃ b, x = .ok b ∧ k b = .ok c := by
  constructor
  · intro h
    cases x with
    | error e => cases h
    | ok b => exact ⟨b,rfl,h⟩
  · rintro ⟨b,rfl,h⟩
    exact h

theorem pure_eq_ok {b c : β} : (pure b : Except ε β) = .ok c ↔ b = c := by
  constructor
  · intro h
    cases h
    rfl
  · rintro rfl
    rfl

end Outcomes

section Places

/-- Every row stands where it stood, as the relation allows. -/
def Rewritten (R : α → α → Prop) (rows rows' : List α) : Prop := ∃ f : α → α, rows' = rows.map f ∧ ∀ r ∈ rows, R r (f r)

theorem Rewritten.refl (hR : ∀ r, R r r) (rows : List α) : Rewritten R rows rows :=
  ⟨id,(List.map_id _).symm,fun r _ => hR r⟩

theorem Rewritten.trans (hR : ∀ r s t, R r s → R s t → R r t) (h : Rewritten R rows rows') (h' : Rewritten R rows' rows'') :
    Rewritten R rows rows'' := by
  obtain ⟨f,rfl,hf⟩ := h
  obtain ⟨g,rfl,hg⟩ := h'
  refine ⟨g ∘ f,List.map_map,fun r hr => ?_⟩
  exact hR _ _ _ (hf r hr) (hg _ (List.mem_map_of_mem hr))

theorem Rewritten.mono (hRS : ∀ r s, R r s → S r s) (h : Rewritten R rows rows') : Rewritten S rows rows' := by
  obtain ⟨f,rfl,hf⟩ := h
  exact ⟨f,rfl,fun r hr => hRS _ _ (hf r hr)⟩

theorem Rewritten.updateWhere (hR : ∀ r, R r r) (h : ∀ r ∈ rows, p r = true → R r (f r)) :
    Rewritten R rows (Tables.updateWhere p f rows) := by
  refine ⟨fun r => if p r then f r else r,rfl,fun r hr => ?_⟩
  dsimp only
  split
  next hp => exact h r hr hp
  next => exact hR r

theorem Rewritten.source (h : Rewritten R rows rows') (hr : r' ∈ rows') : ∃ r ∈ rows, R r r' := by
  obtain ⟨f,rfl,hf⟩ := h
  obtain ⟨r,hold,rfl⟩ := List.mem_map.mp hr
  exact ⟨r,hold,hf r hold⟩

theorem Rewritten.target (h : Rewritten R rows rows') (hr : r ∈ rows) : ∃ r' ∈ rows', R r r' := by
  obtain ⟨f,rfl,hf⟩ := h
  exact ⟨f r,List.mem_map_of_mem hr,hf r hr⟩

/-- A row that the relation does not let change is still there. -/
theorem Rewritten.fixed (h : Rewritten R rows rows') (hr : r ∈ rows) (hfix : ∀ s, R r s → s = r) : r ∈ rows' := by
  obtain ⟨s,hs,hrs⟩ := h.target hr
  exact hfix s hrs ▸ hs

/-- A column that the relation keeps. -/
theorem Rewritten.column (h : Rewritten R rows rows') (key : α → κ) (hkey : ∀ r s, R r s → key s = key r) :
    rows'.map key = rows.map key := by
  obtain ⟨f,rfl,hf⟩ := h
  rw [List.map_map]
  exact List.map_congr_left fun r hr => hkey _ _ (hf r hr)

/-- A column of unique values that the relation keeps or clears. -/
theorem UniqueColumn.rewritten {val : α → Option κ} (hu : UniqueColumn val rows) (h : Rewritten R rows rows')
    (hval : ∀ r ∈ rows, ∀ s, R r s → val s = none ∨ val s = val r) : UniqueColumn val rows' := by
  obtain ⟨f,rfl,hf⟩ := h
  intro r' hr' s' hs' hsome heq
  obtain ⟨r,hr,rfl⟩ := List.mem_map.mp hr'
  obtain ⟨s,hs,rfl⟩ := List.mem_map.mp hs'
  rcases hval r hr _ (hf r hr) with hnone | hrow
  · rw [hnone] at hsome
    cases hsome
  · rcases hval s hs _ (hf s hs) with hnone | hrow'
    · rw [heq, hnone] at hsome
      cases hsome
    · rw [hrow] at hsome heq
      rw [hu r hr s hs hsome (heq.trans hrow')]

end Places

end HermesEnterprise.Foundation.Tables
