import HermesEnterprise.Providers.Proxy

/-! # Bounded and settled once

Whatever the provider and the caller do, a reserved call passes its bytes on and is settled once, by its
end and its bytes. Its output is bounded when the proxy has understood every limit that it forwards.
-/
namespace HermesEnterprise.Providers
open Inbound Foundation Foundation.Runs

section Accounting
variable {P : Platform} {prepared : PreparedRuntimeBudget} {s t : Proxied} {e : Event} {exit : Exit}
variable {usage : Option ParsedProviderUsage} {bytes : List UInt8}

/-- What holds of a call between two events. -/
structure Proxying (P : Platform) (prepared : PreparedRuntimeBudget) (s : Proxied) : Prop where
  accounted : Accounted P prepared s
  parser : s.parser = s.received.foldl (ProviderUsageParser.push P) .fresh
  calling : s.stage = .calling → s.exit = none
  idle : s.stage ≠ .metering → s.reading = false ∧ s.cancelling = false
  readable : s.stage = .metering → s.stream = .readable → s.exit = none
  /-- The reader has nothing more to say once it has reported the end. -/
  finished : s.exit = some .finished → s.reading = false
  reading : s.reading = true → s.stream = .readable ∨ s.stream = .cancelled
  cancelling : s.cancelling = true → s.stream = .cancelled

theorem proxying_start : Proxying P prepared .start where
  accounted := ⟨fun _ => rfl,List.prefix_rfl,rfl,fun h => by simp [Proxied.ended, Proxied.start] at h⟩
  parser := rfl
  calling _ := rfl
  idle _ := ⟨rfl,rfl⟩
  readable h := by cases h
  finished h := by cases h
  reading h := by cases h
  cancelling h := by cases h

theorem settlementOf_congr (h : exit ≠ .finished) (xs ys : List UInt8) :
    settlementOf P prepared exit xs = settlementOf P prepared exit ys := by
  cases exit <;> first | rfl | exact absurd rfl h

/-- A call that was not settled before is settled now. -/
theorem settled_settleOnce
    (h : s.settlements = (s.exit.map fun exit => settlementOf P prepared exit s.received.flatten).toList)
    (hs : settleMetered prepared usage = settlementOf P prepared exit s.received.flatten) :
    (s.settleOnce prepared exit usage).settlements =
      ((s.settleOnce prepared exit usage).exit.map fun exit => settlementOf P prepared exit s.received.flatten).toList := by
  unfold Proxied.settleOnce
  split
  · exact h
  · rename_i hnone
    rw [Option.not_isSome_iff_eq_none] at hnone
    rw [hnone] at h
    rw [hs, h]
    rfl

theorem settleOnce_exit (prepared : PreparedRuntimeBudget) (s : Proxied) (exit : Exit) (usage : Option ParsedProviderUsage) :
    (s.settleOnce prepared exit usage).exit = some (s.exit.getD exit) := by
  unfold Proxied.settleOnce
  split
  · rename_i hsome
    obtain ⟨first,hfirst⟩ := Option.isSome_iff_exists.mp hsome
    rw [hfirst]
    rfl
  · rename_i hnone
    rw [Option.not_isSome_iff_eq_none] at hnone
    rw [hnone]
    rfl

/-- Settling changes nothing else. -/
theorem settleOnce_frame (prepared : PreparedRuntimeBudget) (s : Proxied) (exit : Exit) (usage : Option ParsedProviderUsage) :
    ∃ first settlements, s.settleOnce prepared exit usage = { s with exit := first, settlements := settlements } := by
  unfold Proxied.settleOnce
  split
  · exact ⟨s.exit,s.settlements,rfl⟩
  · exact ⟨_,_,rfl⟩

theorem Proxying.now (h : Proxying P prepared s) (hcalling : s.stage = .calling) {settlement : Settlement}
    (hne : exit ≠ .finished) (hs : ∀ bytes, settlement = settlementOf P prepared exit bytes) :
    Proxying P prepared (s.settleNow exit settlement) where
  accounted := by
    have hsettled := h.accounted.settled
    rw [h.calling hcalling] at hsettled
    refine ⟨h.accounted.delivered,h.accounted.before,?_,fun _ => rfl⟩
    simp only [Proxied.settleNow, hsettled, hs s.received.flatten]
    rfl
  parser := h.parser
  calling hstage := by cases hstage
  idle _ := h.idle (by rw [hcalling]; decide)
  readable hstage := by cases hstage
  finished hexit := absurd (Option.some.inj hexit) hne
  reading := h.reading
  cancelling := h.cancelling

/-- The provider answers with a body. -/
theorem Proxying.answer (h : Proxying P prepared s) (hcalling : s.stage = .calling) :
    Proxying P prepared { s with stage := .metering } where
  accounted := ⟨h.accounted.delivered,h.accounted.before,h.accounted.settled,fun hended => by
    obtain hover | ⟨hstream,hcancelling⟩ := hended
    · cases hover
    · exact h.accounted.ended (.inr ⟨hstream,hcancelling⟩)⟩
  parser := h.parser
  calling hstage := by cases hstage
  idle hne := absurd rfl hne
  readable _ _ := h.calling hcalling
  finished := h.finished
  reading := h.reading
  cancelling := h.cancelling

theorem Proxying.pull (h : Proxying P prepared s) (hstage : s.stage = .metering) (hstream : s.stream = .readable) :
    Proxying P prepared { s with reading := true } where
  accounted := ⟨h.accounted.delivered,h.accounted.before,h.accounted.settled,h.accounted.ended⟩
  parser := h.parser
  calling := h.calling
  idle hne := absurd hstage hne
  readable := h.readable
  finished hexit := by
    have hnone := h.readable hstage hstream
    rw [hnone] at hexit
    cases hexit
  reading _ := .inl hstream
  cancelling := h.cancelling

theorem Proxying.metering (h : Proxying P prepared s) (hreading : s.reading = true) : s.stage = .metering := by
  by_contra hne
  have hidle := (h.idle hne).1
  rw [hidle] at hreading
  cases hreading

/-- A chunk that is passed on. -/
theorem Proxying.pass (h : Proxying P prepared s) (hreading : s.reading = true) (hstream : s.stream = .readable)
    (bytes : List UInt8) :
    Proxying P prepared { s.read P bytes with delivered := s.delivered ++ [bytes] } where
  accounted := by
    have hnone := h.readable (h.metering hreading) hstream
    have hdelivered := h.accounted.delivered (by rw [hstream]; decide)
    have hsettled := h.accounted.settled
    rw [hnone] at hsettled
    refine ⟨fun _ => ?_,?_,?_,fun hended => ?_⟩
    · simp only [Proxied.read, hdelivered]
    · simp only [Proxied.read, hdelivered, List.prefix_rfl]
    · simp only [Proxied.read, hnone, hsettled]
      rfl
    · obtain hover | ⟨hne,-⟩ := hended
      · have hstage := (h.metering hreading).symm.trans hover
        cases hstage
      · exact absurd hstream hne
  parser := by
    simp only [Proxied.read, h.parser, List.foldl_append]
    rfl
  calling := h.calling
  idle hne := absurd (h.metering hreading) hne
  readable := h.readable
  finished _ := rfl
  reading hread := by cases hread
  cancelling := h.cancelling

/-- A chunk settles nothing anew. -/
theorem Proxying.settled_read (h : Proxying P prepared s) (hreading : s.reading = true) (bytes : List UInt8) :
    (s.read P bytes).settlements =
      ((s.read P bytes).exit.map fun exit => settlementOf P prepared exit (s.read P bytes).received.flatten).toList := by
  have hsettled := h.accounted.settled
  change s.settlements = (s.exit.map fun exit => settlementOf P prepared exit (s.received ++ [bytes]).flatten).toList
  rw [hsettled]
  cases hs : s.exit with
  | none => rfl
  | some exit =>
    have hne : exit ≠ .finished := fun heq => by
      have hread := h.finished (by rw [hs, heq])
      rw [hread] at hreading
      cases hreading
    simp only [Option.map_some, settlementOf_congr hne s.received.flatten (s.received ++ [bytes]).flatten]

/-- A chunk for a caller who has cancelled. -/
theorem Proxying.drop (h : Proxying P prepared s) (hreading : s.reading = true) (hstream : s.stream ≠ .readable)
    (bytes : List UInt8) : Proxying P prepared ((s.read P bytes).settleOnce prepared .broken none) := by
  have hcancelled := (h.reading hreading).resolve_left hstream
  have hstage := h.metering hreading
  have hnow : ((s.read P bytes).settleOnce prepared .broken none).settlements = _ :=
    settled_settleOnce (h.settled_read hreading bytes) rfl
  have hexit := settleOnce_exit prepared (s.read P bytes) .broken none
  obtain ⟨first,settlements,heq⟩ := settleOnce_frame prepared (s.read P bytes) .broken none
  rw [heq] at hnow hexit ⊢
  exact {
    accounted := ⟨fun hne => absurd hcancelled hne,h.accounted.before.trans (List.prefix_append _ _),hnow,
      fun _ => by rw [hexit]; rfl⟩
    parser := by
      simp only [Proxied.read, h.parser, List.foldl_append]
      rfl
    calling := fun hcalling => by cases hstage.symm.trans hcalling
    idle := fun hne => absurd hstage hne
    readable := fun _ hreadable => absurd hreadable hstream
    finished := fun _ => rfl
    reading := fun hread => by cases hread
    cancelling := h.cancelling }

theorem Proxying.take (h : Proxying P prepared s) (hreading : s.reading = true) (bytes : List UInt8) :
    Proxying P prepared (s.take P prepared bytes) := by
  simp only [Proxied.take]
  split
  · rename_i hstream
    exact h.pass hreading hstream bytes
  · rename_i hstream
    exact h.drop hreading hstream bytes

/-- The reader reports the end of the reply or its failure. -/
theorem Proxying.stop (h : Proxying P prepared s) (hreading : s.reading = true) {last : StreamState}
    (hlast : last ≠ .readable) (hs : settleMetered prepared usage = settlementOf P prepared exit s.received.flatten) :
    Proxying P prepared ((s.settleOnce prepared exit usage).stop last) := by
  have hstage := h.metering hreading
  have hnow := settled_settleOnce h.accounted.settled hs
  have hexit := settleOnce_exit prepared s exit usage
  obtain ⟨first,settlements,heq⟩ := settleOnce_frame prepared s exit usage
  rw [heq] at hnow hexit ⊢
  replace hexit : first = some (s.exit.getD exit) := hexit
  exact {
    accounted := ⟨fun hne => h.accounted.delivered fun hcancelled => hne (by
        simp [Proxied.stop, hcancelled]),h.accounted.before,hnow,fun _ => by
      simp only [Proxied.stop, hexit, Option.isSome_some]⟩
    parser := h.parser
    calling := fun hcalling => by cases hstage.symm.trans hcalling
    idle := fun hne => absurd hstage hne
    readable := fun _ hreadable => by
      simp only [Proxied.stop] at hreadable
      split at hreadable
      · exact absurd hreadable hlast
      · exact absurd hreadable ‹_›
    finished := fun _ => rfl
    reading := fun hread => by cases hread
    cancelling := fun hcancelling => by
      have hcancelled := h.cancelling hcancelling
      simp [Proxied.stop, hcancelled] }

theorem Proxying.cancel (h : Proxying P prepared s) (hstage : s.stage = .metering) :
    Proxying P prepared { s with stream := .cancelled, cancelling := true } where
  accounted := ⟨fun hne => absurd rfl hne,h.accounted.before,h.accounted.settled,fun hended => by
    obtain hover | ⟨-,hcancelling⟩ := hended
    · cases hstage.symm.trans hover
    · cases hcancelling⟩
  parser := h.parser
  calling := h.calling
  idle hne := absurd hstage hne
  readable _ hreadable := by cases hreadable
  finished := h.finished
  reading _ := .inr rfl
  cancelling _ := rfl

/-- The reader is cancelled. -/
theorem Proxying.cancelled (h : Proxying P prepared s) (hcancelling : s.cancelling = true) :
    Proxying P prepared { s.settleOnce prepared .cancelled none with cancelling := false } := by
  have hcancelled := h.cancelling hcancelling
  have hstage : s.stage = .metering := by
    by_contra hne
    have hidle := (h.idle hne).2
    rw [hidle] at hcancelling
    cases hcancelling
  have hnow : (s.settleOnce prepared .cancelled none).settlements = _ := settled_settleOnce h.accounted.settled rfl
  have hexit := settleOnce_exit prepared s .cancelled none
  obtain ⟨first,settlements,heq⟩ := settleOnce_frame prepared s .cancelled none
  rw [heq] at hnow hexit ⊢
  replace hexit : first = some (s.exit.getD .cancelled) := hexit
  exact {
    accounted := ⟨h.accounted.delivered,h.accounted.before,hnow,fun _ => by
      simp only [hexit, Option.isSome_some]⟩
    parser := h.parser
    calling := fun hcalling => by cases hstage.symm.trans hcalling
    idle := fun hne => absurd hstage hne
    readable := fun _ hreadable => by cases hcancelled.symm.trans hreadable
    finished := fun hfinished => by
      have hfirst : first = some .finished := hfinished
      rw [hexit] at hfirst
      cases hs : s.exit with
      | none => simp [hs] at hfirst
      | some exit =>
        refine h.finished ?_
        rw [hs] at hfirst
        rw [hs]
        exact hfirst
    reading := h.reading
    cancelling := fun hc => by cases hc }

/-- One event. -/
theorem Proxying.step (h : Proxying P prepared s) (hstep : apply P prepared s e = some t) : Proxying P prepared t := by
  cases e with
  | throws =>
    obtain ⟨hcalling,hnow⟩ := Option.ite_none_right_eq_some.mp hstep
    cases hnow
    exact h.now hcalling (by decide) fun _ => rfl
  | refuses =>
    obtain ⟨hcalling,hnow⟩ := Option.ite_none_right_eq_some.mp hstep
    cases hnow
    exact h.now hcalling (by decide) fun _ => rfl
  | answers body =>
    obtain ⟨hcalling,hnow⟩ := Option.ite_none_left_eq_some.mp hstep
    rw [not_not] at hcalling
    cases body with
    | true =>
      cases hnow
      exact h.answer hcalling
    | false =>
      cases hnow
      exact h.now hcalling (by decide) fun _ => rfl
  | pull =>
    obtain ⟨hready,hnow⟩ := Option.ite_none_right_eq_some.mp hstep
    cases hnow
    exact h.pull hready.1 hready.2.1
  | chunk bytes =>
    obtain ⟨hreading,hnow⟩ := Option.ite_none_right_eq_some.mp hstep
    cases hnow
    exact h.take hreading bytes
  | done =>
    obtain ⟨hreading,hnow⟩ := Option.ite_none_right_eq_some.mp hstep
    cases hnow
    refine h.stop hreading (by decide) ?_
    rw [h.parser, finish_pushAll]
    rfl
  | fails =>
    obtain ⟨hreading,hnow⟩ := Option.ite_none_right_eq_some.mp hstep
    cases hnow
    exact h.stop hreading (by decide) rfl
  | cancel =>
    obtain ⟨hready,hnow⟩ := Option.ite_none_right_eq_some.mp hstep
    cases hnow
    exact h.cancel hready.1
  | cancelled =>
    obtain ⟨hcancelling,hnow⟩ := Option.ite_none_right_eq_some.mp hstep
    cases hnow
    exact h.cancelled hcancelling

abbrev Calls (P : Platform) (prepared : PreparedRuntimeBudget) : List Event → Proxied → Prop :=
  Run (fun s e t => apply P prepared s e = some t) .start

/-- Whatever the provider and the caller do. -/
theorem accounted {events : List Event} (h : Calls P prepared events s) : Accounted P prepared s :=
  (h.invariant (P := Proxying P prepared) proxying_start fun _ _ _ hs hst => hs.step hst).accounted

end Accounting

end HermesEnterprise.Providers
