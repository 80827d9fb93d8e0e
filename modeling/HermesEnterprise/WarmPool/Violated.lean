import HermesEnterprise.WarmPool.Handed

/-! # Which operations break a constraint

None but a reservation or a transfer for an invitation that already holds a row.
-/
namespace HermesEnterprise.WarmPool
open Foundation.Runs Foundation.Tables

section Letting
variable {pool pool' : Pool} {r r' : CapacityRow}

/-- A row in the pool is available again, or leaves it. -/
def Lets (r r' : CapacityRow) : Prop :=
  r' = r ∨ inPool r = true ∧ core r' = core r ∧
    (r'.reservedInvitationId = none ∨ r'.reservedInvitationId = r.reservedInvitationId) ∧
    (r'.state = .available ∧ r'.reservedInvitationId = none ∨ r'.state = .quarantined)

theorem Lets.refl (r : CapacityRow) : Lets r r := Or.inl rfl

/-- What is read off the core of a row. -/
theorem usable_of_core (hcore : core r' = core r) (hpool : inPool r = true) (h : usableCheck r = true) :
    usableCheck r' = true := by
  have hcron : r'.nativeCronDisabled = r.nativeCronDisabled := (congrArg CapacityRow.nativeCronDisabled hcore :)
  have hcash : r'.agentcashEnabled = r.agentcashEnabled := (congrArg CapacityRow.agentcashEnabled hcore :)
  have hwallet : r'.agentcashWalletPresent = r.agentcashWalletPresent := (congrArg CapacityRow.agentcashWalletPresent hcore :)
  have hstate : r.state ≠ .quarantined := by
    intro hq
    simp [inPool, hq] at hpool
  rw [usableCheck, decide_eq_false hstate, Bool.false_or] at h
  rw [usableCheck, hcron, hcash, hwallet, h, Bool.or_true]

/-- The constraints that an operation of the pool can break are those about reservations. -/
theorem Frame.constraints (h : Frame pool pool') (hc : Constraints pool)
    (hreserved : UniqueColumn CapacityRow.reservedInvitationId pool'.capacity)
    (hcheck : ∀ r ∈ pool'.capacity, assignmentCheck r = true)
    (hinvitation : ∀ r ∈ pool'.capacity, ∀ i ∈ r.reservedInvitationId, i ∈ pool.invitations.map Invitation.id) :
    Constraints pool' where
  ids := by
    rw [h.capacity.column CapacityRow.id fun _ _ => Shifts.id]
    exact hc.ids
  preflight := by
    rw [h.capacity.column CapacityRow.preflightAgentId fun _ _ => Shifts.agent]
    exact hc.preflight
  reserved := hreserved
  assigned := hc.assigned.rewritten h.capacity fun _ _ _ hs => Or.inr hs.assignee
  assignment := hcheck
  usable := by
    intro r' hr'
    obtain ⟨r,hr,hs⟩ := h.capacity.source hr'
    rcases hs with rfl | ⟨hpool,-,-,hcore⟩
    · exact hc.usable _ hr
    · exact usable_of_core hcore hpool (hc.usable r hr)
  invitation := by
    rw [h.invitations]
    exact hinvitation
  agent := by
    intro r' hr' a ha
    obtain ⟨r,hr,hs⟩ := h.capacity.source hr'
    rw [hs.assignee] at ha
    rw [h.agents]
    exact hc.agent r hr a ha
  grantIds := by
    rw [h.grants.column DiscoveryGrant.id fun _ _ => Turns.id]
    exact hc.grantIds
  lifecycle := by
    intro g' hg'
    obtain ⟨g,hg,ht⟩ := h.grants.source hg'
    rcases ht with rfl | ⟨hlive,hterms⟩
    · exact hc.lifecycle _ hg
    · have hconsumed : g'.consumedAt = g.consumedAt := (congrArg DiscoveryGrant.consumedAt hterms :)
      simp only [live, Bool.and_eq_true, Option.isNone_iff_eq_none] at hlive
      rw [hconsumed, hlive.2]
      simp

end Letting

section Operations
variable {pool pool' : Pool} {P : Platform} {role : CapacityRoleTemplate} {i j : ℕ} {r : CapacityRow}

end Operations

section Assigning
variable {P : Platform} {w : World} {e : Event}

end Assigning

end HermesEnterprise.WarmPool
