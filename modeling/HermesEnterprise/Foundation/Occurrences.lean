import Mathlib.Data.List.Infix

/-! # Where a word occurs

A word does not reach across a letter that it lacks. Between such letters its occurrences are those of the parts,
and a word that stands between two of them occurs there once.
-/
namespace HermesEnterprise.Foundation.Occurrences
variable {α : Type*} {m x y before after : List α} {c : α}

/-- An occurrence lies on one side of a letter that the word lacks. -/
theorem occurs_beside (hm : m ≠ []) (hc : c ∉ m) (h : before ++ m ++ after = x ++ c :: y) :
    (∃ t, x = before ++ m ++ t ∧ after = t ++ c :: y) ∨ ∃ t, before = x ++ c :: t ∧ y = t ++ m ++ after := by
  rw [List.append_assoc] at h
  rcases List.append_eq_append_iff.mp h with ⟨a,hx,ha⟩ | ⟨a,hbefore,ha⟩
  · rcases List.append_eq_append_iff.mp ha with ⟨t,rfl,hafter⟩ | ⟨t,hmt,ht⟩
    · exact Or.inl ⟨t,by rw [hx, List.append_assoc],hafter⟩
    · cases t with
      | nil => exact Or.inl ⟨[],by rw [hx, hmt, List.append_nil, List.append_nil],ht.symm⟩
      | cons d t =>
        have hd := (List.cons.inj ht).1
        exact absurd (by rw [hmt, hd]; simp) hc
  · cases a with
    | nil =>
      cases m with
      | nil => exact absurd rfl hm
      | cons d m => exact absurd (by rw [(List.cons.inj ha).1]; exact List.mem_cons_self) hc
    | cons d t =>
      obtain ⟨rfl,hy⟩ := List.cons.inj ha
      exact Or.inr ⟨t,hbefore,hy.trans (List.append_assoc t m after).symm⟩

theorem infix_beside (hm : m ≠ []) (hc : c ∉ m) : m <:+: x ++ c :: y ↔ m <:+: x ∨ m <:+: y := by
  constructor
  · rintro ⟨before,after,h⟩
    rcases occurs_beside hm hc h with ⟨t,hx,-⟩ | ⟨t,-,hy⟩
    · exact Or.inl ⟨before,t,hx.symm⟩
    · exact Or.inr ⟨t,after,hy.symm⟩
  · rintro (h | h)
    · exact h.trans (List.prefix_append _ _).isInfix
    · exact h.trans ⟨x ++ [c],[],by simp⟩

theorem infix_append_cons (hm : m ≠ []) (hc : c ∉ m) : m <:+: x ++ c :: y ↔ m <:+: x ∨ m <:+: c :: y := by
  have hsingle : m <:+: c :: y ↔ m <:+: ([] : List α) ∨ m <:+: y := by
    simpa only [List.nil_append] using @infix_beside α m [] y c hm hc
  rw [infix_beside hm hc, hsingle, List.infix_nil]
  simp [hm]

theorem infix_concat_append (hm : m ≠ []) (hc : c ∉ m) : m <:+: (x ++ [c]) ++ y ↔ m <:+: x ++ [c] ∨ m <:+: y := by
  have hlast : m <:+: x ++ [c] ↔ m <:+: x ∨ m <:+: ([] : List α) := infix_beside hm hc
  rw [List.append_assoc, List.singleton_append, infix_beside hm hc, hlast, List.infix_nil]
  simp [hm]

/-- A word that stands apart occurs there, or further on. -/
theorem occurs_apart {d : α} (hm : m ≠ []) (hc : c ∉ m) (hd : d ∉ m) (hx : ¬m <:+: x)
    (h : before ++ m ++ after = (x ++ [c]) ++ (m ++ d :: y)) :
    (before = x ++ [c] ∧ after = d :: y) ∨ ∃ t, before = x ++ [c] ++ m ++ t ∧ d :: y = t ++ m ++ after := by
  rw [List.append_assoc x, List.singleton_append] at h
  rcases occurs_beside hm hc h with ⟨t,ht,-⟩ | ⟨t,hbefore,hrest⟩
  · exact absurd ⟨before,t,ht.symm⟩ hx
  · rcases occurs_beside hm hd hrest.symm with ⟨u,hu,hafter⟩ | ⟨u,htu,hy⟩
    · have hlength := congrArg List.length hu
      simp only [List.length_append] at hlength
      have ht : t = [] := List.eq_nil_of_length_eq_zero (by omega)
      have hu' : u = [] := List.eq_nil_of_length_eq_zero (by omega)
      subst ht hu'
      exact Or.inl ⟨hbefore,hafter⟩
    · refine Or.inr ⟨d :: u,?_,?_⟩
      · rw [hbefore, htu]
        simp
      · rw [hy]
        simp

end HermesEnterprise.Foundation.Occurrences
