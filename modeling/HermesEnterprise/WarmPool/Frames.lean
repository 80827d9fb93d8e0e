import HermesEnterprise.Foundation.Rewritten
import HermesEnterprise.WarmPool.System

/-! # What an operation changes

Of a row only its reservation and its place in the pool, and of a grant only what is still live; assigned
rows and consumed grants stay as they are. Each operation keeps the constraints of the tables.
-/
namespace HermesEnterprise.WarmPool
open Foundation.Runs Foundation.Tables

section Rows
variable {r r' r'' : CapacityRow} {g g' g'' : DiscoveryGrant}

def inPool (r : CapacityRow) : Bool := decide (r.state = .available) || decide (r.state = .reserved)

/-- What of a row an operation on the pool leaves. -/
def core (r : CapacityRow) : CapacityRow := { r with state := .available, reservedInvitationId := none, quarantinedAt := none }

/-- What an operation but an assignment may do to a row. -/
def Shifts (r r' : CapacityRow) : Prop :=
  r' = r ∨ inPool r = true ∧ r'.state ≠ .assigning ∧ r'.state ≠ .assigned ∧ core r' = core r

/-- A grant that may be consumed or revoked. -/
def live (g : DiscoveryGrant) : Bool := g.revokedAt.isNone && g.consumedAt.isNone

def terms (g : DiscoveryGrant) : DiscoveryGrant := { g with assignment := none, revokedAt := none }

/-- What an operation but an assignment may do to a grant. -/
def Turns (g g' : DiscoveryGrant) : Prop := g' = g ∨ live g = true ∧ terms g' = terms g

theorem Shifts.refl (r : CapacityRow) : Shifts r r := Or.inl rfl

theorem Shifts.trans (h : Shifts r r') (h' : Shifts r' r'') : Shifts r r'' := by
  rcases h with rfl | ⟨hpool,hopen,hfree,hcore⟩
  · exact h'
  · rcases h' with rfl | ⟨-,hassigning,hassigned,hcore'⟩
    · exact Or.inr ⟨hpool,hopen,hfree,hcore⟩
    · exact Or.inr ⟨hpool,hassigning,hassigned,hcore'.trans hcore⟩

theorem Turns.refl (g : DiscoveryGrant) : Turns g g := Or.inl rfl

theorem Turns.trans (h : Turns g g') (h' : Turns g' g'') : Turns g g'' := by
  rcases h with rfl | ⟨hlive,hterms⟩
  · exact h'
  · rcases h' with rfl | ⟨-,hterms'⟩
    · exact Or.inr ⟨hlive,hterms⟩
    · exact Or.inr ⟨hlive,hterms'.trans hterms⟩

theorem Shifts.core (h : Shifts r r') : core r' = core r := by
  rcases h with rfl | ⟨-,-,-,hcore⟩
  · rfl
  · exact hcore

theorem Shifts.id (h : Shifts r r') : r'.id = r.id := (congrArg CapacityRow.id h.core :)

theorem Shifts.agent (h : Shifts r r') : r'.preflightAgentId = r.preflightAgentId := (congrArg CapacityRow.preflightAgentId h.core :)

theorem Shifts.assignee (h : Shifts r r') : r'.assignedAgentId = r.assignedAgentId := (congrArg CapacityRow.assignedAgentId h.core :)

/-- A row that is out of the pool stays what it is. -/
theorem Shifts.fixed (h : Shifts r r') (hout : inPool r = false) : r' = r := by
  rcases h with rfl | ⟨hpool,-,-,-⟩
  · rfl
  · rw [hout] at hpool
    cases hpool

theorem Turns.terms (h : Turns g g') : terms g' = terms g := by
  rcases h with rfl | ⟨-,hterms⟩
  · rfl
  · exact hterms

theorem Turns.id (h : Turns g g') : g'.id = g.id := (congrArg DiscoveryGrant.id h.terms :)

theorem Turns.consumedAt (h : Turns g g') : g'.consumedAt = g.consumedAt := (congrArg DiscoveryGrant.consumedAt h.terms :)

theorem Turns.fixed (h : Turns g g') (hspent : live g = false) : g' = g := by
  rcases h with rfl | ⟨hlive,-⟩
  · rfl
  · rw [hspent] at hlive
    cases hlive

theorem inPool_reserved (h : r.state = .reserved) : inPool r = true := by simp [inPool, h]

theorem inPool_available (h : r.state = .available) : inPool r = true := by simp [inPool, h]

theorem of_reservedFor {i : ℕ} (h : reservedFor i r = true) : r.state = .reserved ∧ r.reservedInvitationId = some i := by
  simpa [reservedFor] using h

theorem shifts_vacate (h : r.state = .reserved) : Shifts r (vacate r) :=
  Or.inr ⟨inPool_reserved h,by simp [vacate],by simp [vacate],rfl⟩

end Rows

section Framing
variable {pool pool' pool'' : Pool} {P : Platform} {role : CapacityRoleTemplate} {i j capacityId grantId : ℕ}

/-- An operation but an assignment. -/
structure Frame (pool pool' : Pool) : Prop where
  capacity : Rewritten Shifts pool.capacity pool'.capacity
  grants : Rewritten Turns pool.grants pool'.grants
  invitations : pool'.invitations.map Invitation.id = pool.invitations.map Invitation.id
  agents : pool'.agents = pool.agents
  now : pool'.now = pool.now

/-- It commits tables that meet their constraints. -/
structure Commits (pool pool' : Pool) : Prop extends Frame pool pool' where
  constraints : Constraints pool → Constraints pool'

theorem Frame.refl (pool : Pool) : Frame pool pool := ⟨.refl .refl _,.refl .refl _,rfl,rfl,rfl⟩

theorem Frame.trans (h : Frame pool pool') (h' : Frame pool' pool'') : Frame pool pool'' :=
  ⟨h.capacity.trans (fun _ _ _ => .trans) h'.capacity,h.grants.trans (fun _ _ _ => .trans) h'.grants,
    h'.invitations.trans h.invitations,h'.agents.trans h.agents,h'.now.trans h.now⟩

theorem Commits.refl (pool : Pool) : Commits pool pool := ⟨.refl pool,id⟩

theorem Commits.trans (h : Commits pool pool') (h' : Commits pool' pool'') : Commits pool pool'' :=
  ⟨h.toFrame.trans h'.toFrame,fun hc => h'.constraints (h.constraints hc)⟩

theorem of_checked (h : pool.checked = .ok pool') : pool' = pool ∧ Constraints pool := by
  unfold Pool.checked at h
  split at h
  next hc =>
    cases h
    exact ⟨rfl,hc⟩
  next => cases h

theorem Frame.commits (h : Frame pool pool') (hchecked : pool'.checked = .ok pool'') : Commits pool pool'' := by
  obtain ⟨rfl,hc⟩ := of_checked hchecked
  exact ⟨h,fun _ => hc⟩

/-- Grants that turn keep to the constraints of their table. -/
theorem Constraints.turns (h : Constraints pool) (hcapacity : pool'.capacity = pool.capacity)
    (hgrants : Rewritten Turns pool.grants pool'.grants) (hinvitations : pool'.invitations = pool.invitations)
    (hagents : pool'.agents = pool.agents) : Constraints pool' where
  ids := hcapacity ▸ h.ids
  preflight := hcapacity ▸ h.preflight
  reserved := hcapacity ▸ h.reserved
  assigned := hcapacity ▸ h.assigned
  assignment := hcapacity ▸ h.assignment
  usable := hcapacity ▸ h.usable
  invitation := by
    rw [hcapacity, hinvitations]
    exact h.invitation
  agent := by
    rw [hcapacity, hagents]
    exact h.agent
  grantIds := by
    rw [hgrants.column DiscoveryGrant.id fun _ _ => Turns.id]
    exact h.grantIds
  lifecycle := by
    intro g' hg'
    obtain ⟨g,hg,hturns⟩ := hgrants.source hg'
    rcases hturns with rfl | ⟨hlive,hterms⟩
    · exact h.lifecycle _ hg
    · have hconsumed : g'.consumedAt = g.consumedAt := (congrArg DiscoveryGrant.consumedAt hterms :)
      simp only [live, Bool.and_eq_true, Option.isNone_iff_eq_none] at hlive
      rw [hconsumed, hlive.2]
      simp

/-- An update of the rows alone. -/
theorem frame_capacity {p : CapacityRow → Bool} {f : CapacityRow → CapacityRow}
    (h : ∀ r ∈ pool.capacity, p r = true → Shifts r (f r)) :
    Frame pool { pool with capacity := updateWhere p f pool.capacity } :=
  ⟨.updateWhere .refl h,.refl .refl _,rfl,rfl,rfl⟩

theorem frame_expired (pool : Pool) : Frame pool pool.expired := by
  refine ⟨.updateWhere .refl fun r _ hp => ?_,.refl .refl _,map_updateWhere _ fun _ _ _ => rfl,rfl,rfl⟩
  obtain ⟨i,-,hi⟩ := List.any_eq_true.mp hp
  exact shifts_vacate (of_reservedFor hi).1

theorem frame_released (pool : Pool) (i : ℕ) : Frame pool (pool.released i) :=
  frame_capacity fun _ _ hp => shifts_vacate (of_reservedFor hp).1

theorem frame_claimed (pool : Pool) (capacityId i : ℕ) : Frame pool (pool.claimed capacityId i) := by
  refine frame_capacity fun r _ hp => Or.inr ⟨inPool_available ?_,by simp,by simp,rfl⟩
  simp only [claimable, Bool.and_eq_true, decide_eq_true_eq] at hp
  exact hp.2

theorem frame_moved (pool : Pool) (capacityId i j : ℕ) : Frame pool (pool.moved capacityId i j) := by
  refine frame_capacity fun r _ hp => ?_
  simp only [movable, Bool.and_eq_true] at hp
  have hstate := (of_reservedFor hp.2).1
  exact Or.inr ⟨inPool_reserved hstate,by simp [hstate],by simp [hstate],rfl⟩

theorem turns_revoke {g : DiscoveryGrant} (h : live g = true) (at' : Option ℕ) : Turns g { g with revokedAt := at' } :=
  Or.inr ⟨h,rfl⟩

theorem frame_quarantined (pool : Pool) (capacityId grantId : ℕ) : Frame pool (pool.quarantined capacityId grantId) := by
  refine ⟨.updateWhere .refl fun r _ hp => ?_,.updateWhere .refl fun g _ hp => ?_,rfl,rfl,rfl⟩
  · simp only [pooled, Bool.and_eq_true] at hp
    exact Or.inr ⟨hp.2,by simp,by simp,rfl⟩
  · rw [Bool.and_assoc, Bool.and_eq_true] at hp
    exact turns_revoke hp.2 _

theorem frame_withdrawn (pool : Pool) (g : DiscoveryGrant) : Frame pool (pool.withdrawn g) := by
  refine ⟨.updateWhere .refl fun r _ hp => ?_,.updateWhere .refl fun h _ hp => ?_,rfl,rfl,rfl⟩
  · simp only [Bool.and_eq_true, decide_eq_true_eq] at hp
    exact Or.inr ⟨inPool_available hp.2,by simp,by simp,rfl⟩
  · rw [Bool.and_assoc, Bool.and_eq_true] at hp
    exact turns_revoke hp.2 _

end Framing

section Grants
variable {pool pool' : Pool} {P : Platform} {role : CapacityRoleTemplate} {capacityId grantId : ℕ} {allow : Bool}
variable {g g' : DiscoveryGrant} {c : CapacityRow} {x : Option DiscoveryGrant}

theorem of_linked (h : pool.linked capacityId grantId = some (g,c)) :
    g ∈ pool.grants ∧ g.id = grantId ∧ c ∈ pool.capacity ∧ c.id = capacityId ∧ g.linkedCapacityId = some capacityId ∧
      c.discoveryGrantId = some grantId ∧ c.preflightAgentId = g.agentId := by
  simp only [Pool.linked, Option.bind_eq_bind, Option.bind_eq_some_iff] at h
  obtain ⟨g₀,hg,c₀,hc,h⟩ := h
  obtain ⟨hgrant,hgid⟩ := of_find?_key hg
  obtain ⟨hrow,hcid⟩ := of_find?_key hc
  split at h
  next hlinks =>
    cases h
    exact ⟨hgrant,hgid,hrow,hcid,hcid ▸ hlinks.1,hgid ▸ hlinks.2.1,hlinks.2.2⟩
  next => cases h

/-- Only the first materialization of an assignment is written. -/
theorem of_requireCurrentGrantConfig (hg : g ∈ pool.grants) (h : requireCurrentGrantConfig P pool g allow = .ok (g',pool')) :
    Rewritten Turns pool.grants pool'.grants ∧ pool' = { pool with grants := pool'.grants } ∧ g' ∈ pool'.grants ∧
      terms g' = terms g ∧ g'.revokedAt = g.revokedAt ∧ (allow = false → pool' = pool) := by
  simp only [requireCurrentGrantConfig, bind_eq_ok] at h
  obtain ⟨definition,-,h⟩ := h
  split at h
  next => cases h
  next current hcurrent =>
    split at h
    next =>
      cases h
      exact ⟨.refl .refl _,rfl,hg,rfl,rfl,fun _ => rfl⟩
    next =>
      split at h
      next hfirst =>
        split at h
        next hlive =>
          cases h
          refine ⟨.updateWhere .refl fun h _ hp => Or.inr ⟨?_,rfl⟩,rfl,?_,rfl,rfl,fun hallow => ?_⟩
          · simp only [Bool.and_eq_true] at hp
            rw [live, hp.1.2, hp.2]
            rfl
          · refine mem_updateWhere.mpr (Or.inl ⟨g,hg,?_,rfl⟩)
            rw [Bool.and_eq_true] at hlive
            simp [hlive.1, hlive.2, hfirst.2.1]
          · rw [hfirst.1] at hallow
            cases hallow
        next => cases h
      next => cases h

/-- A grant that is found current is live and linked to its row. -/
structure CurrentGrant (pool : Pool) (capacityId grantId : ℕ) (role : CapacityRoleTemplate) (g : DiscoveryGrant) : Prop where
  stored : g ∈ pool.grants
  id : g.id = grantId
  linked : g.linkedCapacityId = some capacityId
  live : live g = true
  role : g.role = role
  agent : ∃ c ∈ pool.capacity, c.id = capacityId ∧ c.preflightAgentId = g.agentId

theorem linkedGrantIsCurrent_spec (h : linkedGrantIsCurrent P pool capacityId grantId role allow = .ok (x,pool')) :
    Commits pool pool' ∧ pool'.capacity = pool.capacity ∧ (allow = false → pool' = pool) ∧
      ∀ g ∈ x, CurrentGrant pool' capacityId grantId role g := by
  unfold linkedGrantIsCurrent at h
  split at h
  next => cases h
  next g c hlinked =>
    obtain ⟨hg,hgid,hc,hcid,hcapacity,-,hagent⟩ := of_linked hlinked
    split at h
    next => cases h
    next hcurrent =>
      split at h
      next g' pool'' hconfig =>
        cases h
        obtain ⟨hturns,hpool,hg',hterms,hrevoked,hsame⟩ := of_requireCurrentGrantConfig hg hconfig
        have hrows : pool'.capacity = pool.capacity := by rw [hpool]
        refine ⟨⟨⟨?_,hturns,?_,?_,?_⟩,fun hc => ?_⟩,hrows,hsame,fun current hx => ?_⟩
        · rw [hrows]
          exact .refl .refl _
        · rw [hpool]
        · rw [hpool]
        · rw [hpool]
        · exact hc.turns hrows hturns (by rw [hpool]) (by rw [hpool])
        · rw [Option.mem_def] at hx
          split at hx
          next hrole =>
            cases hx
            have hfields : ∀ {β : Type} (field : DiscoveryGrant → β), field (terms g') = field (terms g) :=
              fun field => congrArg field hterms
            simp only [Bool.or_eq_true, not_or, Bool.not_eq_true, Option.isSome_eq_false_iff] at hcurrent
            obtain ⟨⟨⟨hlive,hunspent⟩,-⟩,-⟩ := hcurrent
            refine ⟨hg',(hfields DiscoveryGrant.id).trans hgid,(hfields DiscoveryGrant.linkedCapacityId).trans hcapacity,?_,?_,?_⟩
            · have hconsumed : g'.consumedAt = g.consumedAt := hfields DiscoveryGrant.consumedAt
              rw [WarmPool.live, hrevoked, hconsumed, hlive, hunspent]
              rfl
            · exact of_decide_eq_true hrole
            · exact ⟨c,hrows ▸ hc,hcid,hagent.trans (hfields DiscoveryGrant.agentId).symm⟩
          next => cases hx
      next => cases h
      next => cases h

theorem currentGrantOf_spec (h : currentGrantOf P pool c role allow = .ok (x,pool')) :
    Commits pool pool' ∧ pool'.capacity = pool.capacity ∧ (allow = false → pool' = pool) ∧
      ∀ g ∈ x, c.discoveryGrantId = some g.id ∧ CurrentGrant pool' c.id g.id role g := by
  unfold currentGrantOf at h
  split at h
  next =>
    cases h
    exact ⟨.refl _,rfl,fun _ => rfl,fun g hg => by cases hg⟩
  next grantId hgrant =>
    obtain ⟨hcommits,hrows,hsame,hcurrent⟩ := linkedGrantIsCurrent_spec h
    refine ⟨hcommits,hrows,hsame,fun g hg => ?_⟩
    have hid := (hcurrent g hg).id
    exact ⟨hid ▸ hgrant,hid ▸ hcurrent g hg⟩

end Grants

section Operations
variable {pool pool' : Pool} {P : Platform} {role : CapacityRoleTemplate} {i j : ℕ}

theorem expire_commits (h : expireInvitationReservations pool = .ok pool') : Commits pool pool' := by
  unfold expireInvitationReservations at h
  split at h
  next => exact (frame_expired pool).commits h
  next =>
    cases h
    exact .refl _

theorem claimFirst_commits {rows : List CapacityRow} {x : Option ℕ}
    (h : claimFirst P i role pool rows = .ok (x,pool')) : Commits pool pool' := by
  induction rows generalizing pool with
  | nil =>
    cases h
    exact .refl _
  | cons c rows ih =>
    simp only [claimFirst, bind_eq_ok] at h
    obtain ⟨⟨grant,mid⟩,hgrant,h⟩ := h
    have hmid := (currentGrantOf_spec hgrant).1
    cases grant with
    | none => exact hmid.trans (ih h)
    | some g =>
      dsimp only at h
      split at h
      next =>
        simp only [bind_eq_ok, pure_eq_ok] at h
        obtain ⟨claimed,hclaimed,h⟩ := h
        cases h
        exact hmid.trans ((frame_claimed mid c.id i).commits hclaimed)
      next => exact hmid.trans (ih h)

theorem reserve_commits {locked : List ℕ} {x : Option (ℕ × ℕ)}
    (h : reserveCapacityForInvitation P locked pool i role = .ok (x,pool')) : Commits pool pool' := by
  simp only [reserveCapacityForInvitation, bind_eq_ok] at h
  obtain ⟨mid,hexpire,kept,-,h⟩ := h
  have hmid := expire_commits hexpire
  cases kept with
  | some id =>
    simp only [bind_eq_ok] at h
    obtain ⟨pair,hpair,h⟩ := h
    cases hpair
    simp only [bind_eq_ok, pure_eq_ok] at h
    obtain ⟨remaining,-,h⟩ := h
    cases h
    exact hmid
  | none =>
    simp only [bind_eq_ok] at h
    obtain ⟨⟨id,claimed⟩,hclaim,h⟩ := h
    have hclaimed := hmid.trans (claimFirst_commits hclaim)
    cases id with
    | none =>
      cases h
      exact hclaimed
    | some id =>
      simp only [bind_eq_ok, pure_eq_ok] at h
      obtain ⟨remaining,-,h⟩ := h
      cases h
      exact hclaimed

theorem transfer_commits {x : Bool} (h : transferInvitationCapacity P pool i j role = .ok (x,pool')) : Commits pool pool' := by
  unfold transferInvitationCapacity at h
  split at h
  next =>
    cases h
    exact .refl _
  next row _ =>
    simp only [bind_eq_ok] at h
    obtain ⟨⟨grant,mid⟩,hgrant,h⟩ := h
    have hmid := (currentGrantOf_spec hgrant).1
    cases grant with
    | none =>
      cases h
      exact hmid
    | some g =>
      simp only [bind_eq_ok, pure_eq_ok] at h
      obtain ⟨moved,hmoved,h⟩ := h
      cases h
      exact hmid.trans ((frame_moved mid row.id i j).commits hmoved)

theorem revoke_commits {grantId : ℕ} (h : revokeRuntimeDiscoveryGrant pool grantId = .ok pool') : Commits pool pool' := by
  unfold revokeRuntimeDiscoveryGrant at h
  split at h
  next => cases h
  next g _ =>
    split_ifs at h
    · cases h
      exact .refl _
    · exact (frame_withdrawn pool g).commits h

end Operations

end HermesEnterprise.WarmPool
