import HermesEnterprise.WarmPool.Frames

/-! # Capacity is handed out once

Every assigned row has the record of its one assignment: for the invitation that held it, on a check of that
reservation at most thirty seconds old, and with its grant consumed by the same transaction. Assigned and
quarantined rows, and grants that are consumed or revoked, stay what they are.
-/
namespace HermesEnterprise.WarmPool
open Foundation.Runs Foundation.Tables

section Handing

/-- An assignment, with the row and the grant as they stand. -/
structure Hands (a : Assignment) (r : CapacityRow) (g : DiscoveryGrant) : Prop where
  row : r.id = a.capacityId ∧ r.state = .assigned
  invitation : r.reservedInvitationId = some a.invitationId
  agent : r.assignedAgentId = some a.agentId ∧ r.preflightAgentId = a.agentId ∧ g.agentId = a.agentId
  linked : r.discoveryGrantId = some g.id ∧ g.linkedCapacityId = some r.id ∧ g.role = a.role
  consumed : r.assignedAt = some a.assignedAt ∧ g.consumedAt = some a.assignedAt ∧ g.revokedAt = none
  checked : a.proof.invitationId = a.invitationId ∧ a.proof.capacityId = r.id ∧ a.proof.discoveryGrantId = g.id ∧
    a.proof.agentId = a.agentId ∧ a.proof.connectorUrl = r.connectorUrl ∧ a.proof.role = a.role ∧
    a.proof.pluginVersion = r.pluginVersion ∧ configFits a.proof g = true
  fresh : a.proof.checkedAt ≤ a.assignedAt ∧ a.assignedAt ≤ a.proof.checkedAt + 30000

def Handed (pool : Pool) (a : Assignment) : Prop := ∃ r ∈ pool.capacity, ∃ g ∈ pool.grants, Hands a r g

/-- What a check was begun on: a row reserved for the invitation, with a live grant of the role. -/
structure Held (s : Snapshot) : Prop where
  reserved : reservedFor s.invitationId s.capacity = true
  linked : s.capacity.discoveryGrantId = some s.grant.id ∧ s.grant.linkedCapacityId = some s.capacity.id
  current : live s.grant = true ∧ s.grant.role = s.role

/-- A proof that a check of a held reservation gave. -/
def Attested (w : World) (p : CapacityAcceptanceProof) : Prop :=
  ∃ s ∈ w.snapshots, Held s ∧ ∃ pluginVersion checkedAt, p = s.proof pluginVersion checkedAt ∧ checkedAt ≤ w.pool.now

structure Kept (w : World) : Prop where
  constraints : Constraints w.pool
  once : (w.assignments.map Assignment.capacityId).Nodup
  handed : ∀ a ∈ w.assignments, Handed w.pool a
  recorded : ∀ r ∈ w.pool.capacity, r.state = .assigned → r.id ∈ w.assignments.map Assignment.capacityId
  settled : ∀ r ∈ w.pool.capacity, r.state ≠ .assigning ∧ (r.state = .quarantined → r.assignedAgentId = none)
  snapshots : ∀ s ∈ w.snapshots, Held s
  proofs : ∀ p ∈ w.proofs, Attested w p
  used : ∀ a ∈ w.assignments, a.proof ∈ w.proofs

end Handing

section Consuming
variable {P : Platform} {pool pool' : Pool} {i agentId : ℕ} {role : CapacityRoleTemplate}
variable {proof : Option CapacityAcceptanceProof} {row r : CapacityRow} {s : Snapshot}

theorem verifySnapshot_held (h : verifySnapshot P pool i role = .ok s) : Held s := by
  unfold verifySnapshot at h
  split at h
  next => cases h
  next c hfind =>
    simp only [bind_eq_ok] at h
    obtain ⟨⟨grant,mid⟩,hgrant,h⟩ := h
    cases grant with
    | none => cases h
    | some g =>
      cases h
      obtain ⟨hid,hcurrent⟩ := (currentGrantOf_spec hgrant).2.2.2 g rfl
      exact ⟨List.find?_some hfind,⟨hid,hcurrent.linked⟩,hcurrent.live,hcurrent.role⟩

/-- An assignment under way: what is checked of the reserved row, its proof and its grant. -/
structure Consumes (pool mid : Pool) (i agentId : ℕ) (role : CapacityRoleTemplate) (p : CapacityAcceptanceProof)
    (row : CapacityRow) (g : DiscoveryGrant) : Prop where
  commits : Commits pool mid
  rows : mid.capacity = pool.capacity
  stored : row ∈ pool.capacity
  reserved : reservedFor i row = true
  agent : row.preflightAgentId = agentId
  fits : proofFits p pool i row role = true
  linked : row.discoveryGrantId = some g.id
  current : CurrentGrant mid row.id g.id role g
  config : configFits p g = true

theorem consume_spec (h : consumeReservedCapacity P pool i agentId role proof = .ok (row,pool')) :
    ∃ p g mid, proof = some p ∧ Consumes pool mid i agentId role p row g ∧
      pool' = (mid.assigned row.id agentId p).consumed g.id row.id ∧ Constraints pool' := by
  unfold consumeReservedCapacity at h
  split at h
  next c p hfind =>
    split at h
    next => cases h
    next hagent =>
      split at h
      next hfits =>
        simp only [bind_eq_ok] at h
        obtain ⟨⟨grant,mid⟩,hgrant,h⟩ := h
        cases grant with
        | none => cases h
        | some g =>
          obtain ⟨hcommits,hrows,-,hcurrent⟩ := currentGrantOf_spec hgrant
          obtain ⟨hlinked,hcurrent⟩ := hcurrent g rfl
          dsimp only at h
          split_ifs at h with hconfig hany
          simp only [bind_eq_ok] at h
          obtain ⟨assigned,hassigned,h⟩ := h
          obtain ⟨rfl,-⟩ := of_checked hassigned
          split_ifs at h
          simp only [bind_eq_ok, pure_eq_ok] at h
          obtain ⟨consumed,hconsumed,h⟩ := h
          cases h
          obtain ⟨rfl,hconstraints⟩ := of_checked hconsumed
          have hid : p.discoveryGrantId = g.id := by
            simp only [proofFits, Bool.and_eq_true, decide_eq_true_eq] at hfits
            exact Option.some.inj (hfits.1.1.1.1.1.2.symm.trans hlinked)
          refine ⟨p,g,mid,rfl,⟨hcommits,hrows,List.mem_of_find?_eq_some hfind,List.find?_some hfind,?_,hfits,hlinked,
            hcurrent,hconfig⟩,?_,hconstraints⟩
          · exact not_not.mp hagent
          · rw [hid]
      next => cases h
  next => cases h

end Consuming

section Steps
variable {P : Platform} {w w' : World} {e : Event} {es : List Event}

/-- What any step but an assignment and a registration does. -/
structure Goes (w w' : World) : Prop where
  capacity : Rewritten Shifts w.pool.capacity w'.pool.capacity
  grants : Rewritten Turns w.pool.grants w'.pool.grants
  constraints : Constraints w.pool → Constraints w'.pool
  now : w.pool.now ≤ w'.pool.now
  assignments : w'.assignments = w.assignments
  snapshots : ∀ s ∈ w.snapshots, s ∈ w'.snapshots
  held : ∀ s ∈ w'.snapshots, s ∈ w.snapshots ∨ Held s
  proofs : ∀ p ∈ w.proofs, p ∈ w'.proofs
  attested : ∀ p ∈ w'.proofs, p ∈ w.proofs ∨ Attested w' p

inductive Acts (w w' : World) : Prop
  | goes (h : Goes w w')
  | registers (row : CapacityRow) (grant : DiscoveryGrant) (state : row.state = .available)
      (hc : Constraints { w.pool with capacity := w.pool.capacity ++ [row], grants := w.pool.grants ++ [grant] })
      (h : w' = { w with pool := { w.pool with capacity := w.pool.capacity ++ [row], grants := w.pool.grants ++ [grant] } })
  | assigns (mid : Pool) (i agentId : ℕ) (role : CapacityRoleTemplate) (p : CapacityAcceptanceProof) (row : CapacityRow)
      (g : DiscoveryGrant) (spec : Consumes w.pool mid i agentId role p row g) (proof : p ∈ w.proofs)
      (hc : Constraints w'.pool)
      (h : w' = { w with
        pool := (mid.assigned row.id agentId p).consumed g.id row.id
        assignments := w.assignments ++ [⟨row.id,i,agentId,role,p,w.pool.now⟩] })

/-- A step that leaves what the workers hold. -/
theorem Goes.ofPool {pool : Pool} (hcapacity : Rewritten Shifts w.pool.capacity pool.capacity)
    (hgrants : Rewritten Turns w.pool.grants pool.grants) (hc : Constraints w.pool → Constraints pool)
    (hnow : w.pool.now ≤ pool.now) (drifts : List (ℕ × ℕ)) : Goes w { w with pool := pool, drifts := drifts } :=
  ⟨hcapacity,hgrants,hc,hnow,rfl,fun _ hs => hs,fun _ hs => Or.inl hs,fun _ hp => hp,fun _ hp => Or.inl hp⟩

theorem Commits.goes {pool : Pool} (h : Commits w.pool pool) (drifts : List (ℕ × ℕ)) :
    Goes w { w with pool := pool, drifts := drifts } :=
  .ofPool h.capacity h.grants h.constraints h.now.ge drifts

theorem Goes.refl (w : World) : Goes w w := (Commits.refl w.pool).goes w.drifts

theorem Goes.failed (w : World) (failure : Failure) : Goes w (settled w (.error failure)) := by
  cases failure with
  | drift capacityId grantId => exact (Commits.refl w.pool).goes _
  | refused => exact .refl w
  | violated => exact .refl w

/-- A changed environment of the pool: invitations and agents are added, the clock goes on. -/
theorem Constraints.wider {pool pool' : Pool} (h : Constraints pool) (hcapacity : pool'.capacity = pool.capacity)
    (hgrants : pool'.grants = pool.grants)
    (hinvitations : ∀ i ∈ pool.invitations.map Invitation.id, i ∈ pool'.invitations.map Invitation.id)
    (hagents : ∀ a ∈ pool.agents, a ∈ pool'.agents) : Constraints pool' where
  ids := hcapacity ▸ h.ids
  preflight := hcapacity ▸ h.preflight
  reserved := hcapacity ▸ h.reserved
  assigned := hcapacity ▸ h.assigned
  assignment := hcapacity ▸ h.assignment
  usable := hcapacity ▸ h.usable
  invitation := fun r hr i hi => hinvitations i (h.invitation r (hcapacity ▸ hr) i hi)
  agent := fun r hr a ha => hagents a (h.agent r (hcapacity ▸ hr) a ha)
  grantIds := hgrants ▸ h.grantIds
  lifecycle := hgrants ▸ h.lifecycle

theorem Goes.around {pool : Pool} (hcapacity : pool.capacity = w.pool.capacity) (hgrants : pool.grants = w.pool.grants)
    (hinvitations : ∀ i ∈ w.pool.invitations.map Invitation.id, i ∈ pool.invitations.map Invitation.id)
    (hagents : ∀ a ∈ w.pool.agents, a ∈ pool.agents) (hnow : w.pool.now ≤ pool.now) : Goes w { w with pool := pool } := by
  refine .ofPool ?_ ?_ (fun hc => hc.wider hcapacity hgrants hinvitations hagents) hnow w.drifts
  · rw [hcapacity]
    exact .refl .refl _
  · rw [hgrants]
    exact .refl .refl _

theorem Goes.rewrites {p : Invitation → Bool} {f : Invitation → Invitation} (hf : ∀ v, (f v).id = v.id) :
    Goes w { w with pool := { w.pool with invitations := updateWhere p f w.pool.invitations } } := by
  refine .around rfl rfl (fun i hi => ?_) (fun _ ha => ha) le_rfl
  rw [map_updateWhere Invitation.id fun v _ _ => hf v]
  exact hi

/-- No row of an agent waits to be verified again. -/
theorem Kept.verified (h : Kept w) (agentId : ℕ) : ∀ r ∈ w.pool.capacity, unverified agentId r = false := by
  intro r hr
  obtain ⟨hassigning,hquarantined⟩ := h.settled r hr
  rw [Bool.eq_false_iff]
  intro hun
  simp only [unverified, Bool.and_eq_true, Bool.or_eq_true, decide_eq_true_eq] at hun
  rcases hun.2 with hstate | hstate
  · exact hassigning hstate
  · rw [hquarantined hstate] at hun
    cases hun.1

/-- So verifying a Cloud profile again leaves the pool as it is. -/
theorem verifyProfile_same (h : Kept w) (agentId : ℕ) (pluginVersion : Option ℕ) :
    verifyProfile w.pool agentId pluginVersion = .ok w.pool := by
  cases pluginVersion with
  | none =>
    rw [verifyProfile, updateWhere_eq_self (h.verified agentId)]
    exact if_pos h.constraints
  | some version =>
    rw [verifyProfile, updateWhere_eq_self (h.verified agentId)]
    exact if_pos h.constraints

theorem acts (h : Kept w) (hs : Step P w e w') : Acts w w' := by
  obtain ⟨henabled,rfl⟩ := hs
  cases hresult : perform P w e with
  | error failure => exact .goes (.failed w failure)
  | ok next =>
    change Acts w next
    cases e with
    | expire =>
      simp only [perform, bind_eq_ok, pure_eq_ok] at hresult
      obtain ⟨pool,hpool,rfl⟩ := hresult
      exact .goes ((expire_commits hpool).goes _)
    | reserve locked i role =>
      simp only [perform, bind_eq_ok, pure_eq_ok] at hresult
      obtain ⟨⟨x,pool⟩,hpool,rfl⟩ := hresult
      exact .goes ((reserve_commits hpool).goes _)
    | release i =>
      simp only [perform, bind_eq_ok, pure_eq_ok] at hresult
      obtain ⟨pool,hpool,rfl⟩ := hresult
      exact .goes (((frame_released w.pool i).commits hpool).goes _)
    | transfer source target role =>
      simp only [perform, bind_eq_ok, pure_eq_ok] at hresult
      obtain ⟨⟨x,pool⟩,hpool,rfl⟩ := hresult
      exact .goes ((transfer_commits hpool).goes _)
    | snapshot i role =>
      simp only [perform, bind_eq_ok, pure_eq_ok] at hresult
      obtain ⟨s,hsnapshot,rfl⟩ := hresult
      refine .goes { Goes.refl w with snapshots := ?_, held := ?_, attested := fun _ hp => Or.inl hp }
      · exact fun s hs => List.mem_append_left _ hs
      · intro s' hs'
        rcases List.mem_append.mp hs' with hs' | hs'
        · exact Or.inl hs'
        · rw [List.mem_singleton.mp hs']
          exact Or.inr (verifySnapshot_held hsnapshot)
    | attest s pluginVersion =>
      cases hresult
      refine .goes { Goes.refl w with proofs := ?_, attested := ?_ }
      · exact fun p hp => List.mem_append_left _ hp
      · intro p hp
        rcases List.mem_append.mp hp with hp | hp
        · exact Or.inl hp
        · exact Or.inr ⟨s,henabled,h.snapshots s henabled,pluginVersion,w.pool.now,List.mem_singleton.mp hp,le_rfl⟩
    | consume i agentId role proof =>
      simp only [perform, bind_eq_ok] at hresult
      obtain ⟨⟨row,pool⟩,hpool,hresult⟩ := hresult
      obtain ⟨p,g,mid,rfl,hspec,rfl,hc⟩ := consume_spec hpool
      cases hresult
      exact .assigns mid i agentId role p row g hspec (henabled.2 p rfl) hc rfl
    | quarantine capacityId grantId =>
      simp only [perform, bind_eq_ok, pure_eq_ok] at hresult
      obtain ⟨pool,hpool,rfl⟩ := hresult
      exact .goes (((frame_quarantined w.pool capacityId grantId).commits hpool).goes _)
    | revoke grantId =>
      simp only [perform, bind_eq_ok, pure_eq_ok] at hresult
      obtain ⟨pool,hpool,rfl⟩ := hresult
      exact .goes ((revoke_commits hpool).goes _)
    | verify agentId pluginVersion =>
      simp only [perform, bind_eq_ok, pure_eq_ok, verifyProfile_same h] at hresult
      obtain ⟨pool,hpool,rfl⟩ := hresult
      cases hpool
      exact .goes (.refl w)
    | invite invitation =>
      cases hresult
      refine .goes (.around rfl rfl (fun i hi => ?_) (fun _ ha => ha) le_rfl)
      rw [List.map_append]
      exact List.mem_append_left _ hi
    | settle i status =>
      cases hresult
      exact .goes (.rewrites fun _ => rfl)
    | reschedule i expiresAt workosInvitationId =>
      cases hresult
      exact .goes (.rewrites fun _ => rfl)
    | register row grant =>
      cases hresult
      exact .registers row grant henabled.1 henabled.2 rfl
    | materialize agentId =>
      cases hresult
      exact .goes (.around rfl rfl (fun _ hi => hi) (fun _ ha => List.mem_cons_of_mem _ ha) le_rfl)
    | review config =>
      cases hresult
      exact .goes (.around rfl rfl (fun _ hi => hi) (fun _ ha => ha) le_rfl)
    | tick now =>
      cases hresult
      exact .goes (.around rfl rfl (fun _ hi => hi) (fun _ ha => ha) henabled)

end Steps

section Keeping
variable {P : Platform} {w w' : World} {e : Event} {es : List Event}

def ReachableWorld (P : Platform) (w : World) : Prop := Reachable (· = initial) (Step P) w

theorem kept_initial : Kept initial := by
  refine ⟨by decide,List.nodup_nil,?_,?_,?_,?_,?_,?_⟩ <;> exact fun _ hx => absurd hx List.not_mem_nil

theorem Attested.mono {p : CapacityAcceptanceProof} (h : Attested w p) (hs : ∀ s ∈ w.snapshots, s ∈ w'.snapshots)
    (hnow : w.pool.now ≤ w'.pool.now) : Attested w' p := by
  obtain ⟨s,hmem,hheld,version,checkedAt,rfl,hle⟩ := h
  exact ⟨s,hs s hmem,hheld,version,checkedAt,rfl,hle.trans hnow⟩

theorem Hands.out {a : Assignment} {r : CapacityRow} {g : DiscoveryGrant} (h : Hands a r g) :
    inPool r = false ∧ live g = false := by
  constructor
  · simp [inPool, h.row.2]
  · simp [live, h.consumed.2.1]

/-- A row in the pool is assigned to nobody. -/
theorem Kept.unassigned (h : Kept w) {r : CapacityRow} (hr : r ∈ w.pool.capacity) (hpool : inPool r = true) :
    r.assignedAgentId = none := by
  have hcheck := h.constraints.assignment r hr
  rw [inPool, Bool.or_eq_true, decide_eq_true_eq, decide_eq_true_eq] at hpool
  rcases hpool with hstate | hstate
  · simp only [assignmentCheck, hstate, Bool.and_eq_true, Option.isNone_iff_eq_none] at hcheck
    exact hcheck.2
  · simp only [assignmentCheck, hstate, Bool.and_eq_true, Option.isNone_iff_eq_none] at hcheck
    exact hcheck.2

theorem Kept.goes (h : Kept w) (hg : Goes w w') : Kept w' where
  constraints := hg.constraints h.constraints
  once := by
    rw [hg.assignments]
    exact h.once
  handed := by
    intro a ha
    obtain ⟨r,hr,g,hgrant,hands⟩ := h.handed a (hg.assignments ▸ ha)
    exact ⟨r,hg.capacity.fixed hr fun _ hs => hs.fixed hands.out.1,g,hg.grants.fixed hgrant fun _ ht => ht.fixed hands.out.2,
      hands⟩
  recorded := by
    intro r' hr' hstate
    rw [hg.assignments]
    obtain ⟨r,hr,hshift⟩ := hg.capacity.source hr'
    rcases hshift with rfl | ⟨-,-,hassigned,-⟩
    · exact h.recorded _ hr hstate
    · exact absurd hstate hassigned
  settled := by
    intro r' hr'
    obtain ⟨r,hr,hshift⟩ := hg.capacity.source hr'
    have hassignee := hshift.assignee
    rcases hshift with rfl | ⟨hpool,hassigning,-,-⟩
    · exact h.settled _ hr
    · exact ⟨hassigning,fun _ => hassignee.trans (h.unassigned hr hpool)⟩
  snapshots := by
    intro s hs
    rcases hg.held s hs with hold | hnew
    · exact h.snapshots s hold
    · exact hnew
  proofs := by
    intro p hp
    rcases hg.attested p hp with hold | hnew
    · exact (h.proofs p hold).mono hg.snapshots hg.now
    · exact hnew
  used := by
    intro a ha
    exact hg.proofs _ (h.used a (hg.assignments ▸ ha))

theorem Kept.registers (h : Kept w) {row : CapacityRow} {grant : DiscoveryGrant} (hstate : row.state = .available)
    (hc : Constraints { w.pool with capacity := w.pool.capacity ++ [row], grants := w.pool.grants ++ [grant] }) :
    Kept { w with pool := { w.pool with capacity := w.pool.capacity ++ [row], grants := w.pool.grants ++ [grant] } } where
  constraints := hc
  once := h.once
  handed := by
    intro a ha
    obtain ⟨r,hr,g,hg,hands⟩ := h.handed a ha
    exact ⟨r,List.mem_append_left _ hr,g,List.mem_append_left _ hg,hands⟩
  recorded := by
    intro r hr hassigned
    rcases List.mem_append.mp hr with hr | hr
    · exact h.recorded r hr hassigned
    · rw [List.mem_singleton.mp hr, hstate] at hassigned
      cases hassigned
  settled := by
    intro r hr
    rcases List.mem_append.mp hr with hr | hr
    · exact h.settled r hr
    · rw [List.mem_singleton.mp hr, hstate]
      exact ⟨by simp,by simp⟩
  snapshots := h.snapshots
  proofs := h.proofs
  used := h.used

/-- The row and the grant of an assignment, once it is committed. -/
theorem Consumes.hands {pool mid : Pool} {i agentId : ℕ} {role : CapacityRoleTemplate} {p : CapacityAcceptanceProof}
    {row : CapacityRow} {g : DiscoveryGrant} (h : Consumes pool mid i agentId role p row g)
    (hids : (pool.capacity.map CapacityRow.id).Nodup) :
    Handed ((mid.assigned row.id agentId p).consumed g.id row.id) ⟨row.id,i,agentId,role,p,pool.now⟩ := by
  have hnow : mid.now = pool.now := h.commits.now
  have hstate := of_reservedFor h.reserved
  have hlive := h.current.live
  simp only [live, Bool.and_eq_true, Option.isNone_iff_eq_none] at hlive
  obtain ⟨c,hc,hcid,hagent⟩ := h.current.agent
  have hrow : c = row := List.inj_on_of_nodup_map hids (h.rows ▸ hc) h.stored hcid
  have hfits := h.fits
  simp only [proofFits, Bool.and_eq_true, decide_eq_true_eq] at hfits
  obtain ⟨⟨⟨⟨⟨⟨⟨hinvitation,hcapacity⟩,hgrant⟩,hproofAgent⟩,hurl⟩,hrole⟩,hbefore⟩,hfresh⟩ := hfits
  refine ⟨_,mem_updateWhere.mpr (Or.inl ⟨row,h.rows ▸ h.stored,?_,rfl⟩),_,
    mem_updateWhere.mpr (Or.inl ⟨g,h.current.stored,?_,rfl⟩),?_⟩
  · simp [assignable, hstate.1]
  · simp [spendable, h.current.linked, hlive.1, hlive.2]
  · exact
      { row := ⟨rfl,rfl⟩
        invitation := hstate.2
        agent := ⟨rfl,h.agent,hagent.symm.trans (hrow ▸ h.agent)⟩
        linked := ⟨h.linked,h.current.linked,h.current.role⟩
        consumed := ⟨congrArg some hnow,congrArg some hnow,hlive.1⟩
        checked := ⟨hinvitation,hcapacity,Option.some.inj (hgrant.symm.trans h.linked),hproofAgent.trans h.agent,hurl,hrole,
          rfl,h.config⟩
        fresh := ⟨hbefore,by dsimp only; omega⟩ }

theorem Kept.assigns (h : Kept w) {mid : Pool} {i agentId : ℕ} {role : CapacityRoleTemplate} {p : CapacityAcceptanceProof}
    {row : CapacityRow} {g : DiscoveryGrant} (hspec : Consumes w.pool mid i agentId role p row g) (hp : p ∈ w.proofs)
    (hc : Constraints ((mid.assigned row.id agentId p).consumed g.id row.id)) :
    Kept { w with
      pool := (mid.assigned row.id agentId p).consumed g.id row.id
      assignments := w.assignments ++ [⟨row.id,i,agentId,role,p,w.pool.now⟩] } where
  constraints := hc
  once := by
    rw [List.map_append, List.nodup_append]
    refine ⟨h.once,List.nodup_singleton _,fun x hx y hy hxy => ?_⟩
    rw [List.map_singleton, List.mem_singleton] at hy
    obtain ⟨a,ha,rfl⟩ := List.mem_map.mp hx
    obtain ⟨r,hr,g',-,hands⟩ := h.handed a ha
    have hsame : r = row := List.inj_on_of_nodup_map h.constraints.ids hr hspec.stored (hands.row.1.trans (hxy.trans hy))
    have hstate := (of_reservedFor hspec.reserved).1
    rw [← hsame, hands.row.2] at hstate
    cases hstate
  handed := by
    intro a ha
    rcases List.mem_append.mp ha with ha | ha
    · obtain ⟨r,hr,g',hg,hands⟩ := h.handed a ha
      have hkept := hspec.commits.grants.fixed hg fun _ ht => ht.fixed hands.out.2
      refine ⟨r,mem_updateWhere.mpr (Or.inr ⟨hspec.rows ▸ hr,?_⟩),g',mem_updateWhere.mpr (Or.inr ⟨hkept,?_⟩),hands⟩
      · simp [assignable, hands.row.2]
      · simp [spendable, hands.consumed.2.1]
    · rw [List.mem_singleton.mp ha]
      exact hspec.hands h.constraints.ids
  recorded := by
    intro r hr hstate
    rw [List.map_append, List.mem_append]
    rcases mem_updateWhere.mp hr with ⟨s,-,hs,rfl⟩ | ⟨hold,-⟩
    · right
      simp only [assignable, Bool.and_eq_true, decide_eq_true_eq] at hs
      exact List.mem_singleton.mpr hs.1
    · exact Or.inl (h.recorded r (hspec.rows ▸ hold) hstate)
  settled := by
    intro r hr
    rcases mem_updateWhere.mp hr with ⟨s,-,-,rfl⟩ | ⟨hold,-⟩
    · exact ⟨by simp,by simp⟩
    · exact h.settled r (hspec.rows ▸ hold)
  snapshots := h.snapshots
  proofs := fun p hp => (h.proofs p hp).mono (fun _ hs => hs) hspec.commits.now.ge
  used := by
    intro a ha
    rcases List.mem_append.mp ha with ha | ha
    · exact h.used a ha
    · rw [List.mem_singleton.mp ha]
      exact hp

theorem Kept.step (h : Kept w) (hs : Step P w e w') : Kept w' := by
  cases acts h hs with
  | goes hg => exact h.goes hg
  | registers row grant hstate hc heq =>
    subst heq
    exact h.registers hstate hc
  | assigns mid i agentId role p row g hspec hp hc heq =>
    subst heq
    exact h.assigns hspec hp hc

theorem ReachableWorld.kept (h : ReachableWorld P w) : Kept w :=
  h.invariant (fun _ hs => hs ▸ kept_initial) fun _ _ _ hk hs => hk.step hs

end Keeping

section Results
variable {P : Platform} {w w' : World} {e : Event} {es : List Event}

/-- Assignments of one invitation are one, and so are those of one agent. -/
theorem Kept.injective (h : Kept w) {κ : Type} {field : Assignment → κ} (hfield : ∀ a ∈ w.assignments, ∀ b ∈ w.assignments,
    ∀ r ∈ w.pool.capacity, ∀ s ∈ w.pool.capacity, ∀ g g', Hands a r g → Hands b s g' → field a = field b → r = s) :
    (w.assignments.map field).Nodup := by
  refine List.Nodup.map_on (fun a ha b hb hab => ?_) (List.Nodup.of_map _ h.once)
  obtain ⟨r,hr,g,-,hands⟩ := h.handed a ha
  obtain ⟨s,hs,g',-,hands'⟩ := h.handed b hb
  have hrow := hfield a ha b hb r hr s hs g g' hands hands' hab
  have hid : a.capacityId = b.capacityId := by rw [← hands.row.1, ← hands'.row.1, hrow]
  exact List.inj_on_of_nodup_map h.once ha hb hid

/-- No row, no invitation and no agent is in two assignments. Each of them was made for the invitation that
held the row, within thirty seconds of a check of that reservation, and consumed the row's grant; and every
assigned row comes from one. -/
theorem handed_once (h : ReachableWorld P w) :
    (w.assignments.map Assignment.capacityId).Nodup ∧ (w.assignments.map Assignment.invitationId).Nodup ∧
      (w.assignments.map Assignment.agentId).Nodup ∧
      (∀ a ∈ w.assignments, Handed w.pool a ∧ Attested w a.proof) ∧
      ∀ r ∈ w.pool.capacity, r.state = .assigned ↔ r.id ∈ w.assignments.map Assignment.capacityId := by
  have hk := h.kept
  refine ⟨hk.once,hk.injective ?_,hk.injective ?_,fun a ha => ?_,fun r hr => ⟨hk.recorded r hr,fun hid => ?_⟩⟩
  · intro a _ b _ r hr s hs g g' hands hands' hab
    refine hk.constraints.reserved r hr s hs ?_ ?_
    · rw [hands.invitation]
      rfl
    · rw [hands.invitation, hands'.invitation, hab]
  · intro a _ b _ r hr s hs g g' hands hands' hab
    refine List.inj_on_of_nodup_map hk.constraints.preflight hr hs ?_
    rw [hands.agent.2.1, hands'.agent.2.1, hab]
  · exact ⟨hk.handed a ha,hk.proofs _ (hk.used a ha)⟩
  · obtain ⟨a,ha,hid⟩ := List.mem_map.mp hid
    obtain ⟨s,hs,g,-,hands⟩ := hk.handed a ha
    have hsame : s = r := List.inj_on_of_nodup_map hk.constraints.ids hs hr (hands.row.1.trans hid)
    exact hsame ▸ hands.row.2

/-! Two rows of the partnerships role, and a member who was invited and accepted. -/

def sampleRole : CapacityRoleTemplate := ⟨.partnershipsAgent,1⟩

def samplePlatform : Platform := ⟨1,fun _ => ⟨1,1,1,1⟩⟩

def sampleRow (id agentId grantId : ℕ) : CapacityRow :=
  ⟨id,agentId,id,.available,none,none,some grantId,1,true,true,true,0,0,none,none⟩

def sampleGrant (id agentId capacityId : ℕ) : DiscoveryGrant :=
  ⟨id,agentId,sampleRole,1,1,1,1,none,5,1,some capacityId,none,none,none⟩

def sampleSnapshot : Snapshot :=
  ⟨20,{ sampleRow 1 10 7 with state := .reserved, reservedInvitationId := some 20 },sampleGrant 7 10 1,sampleRole⟩

def acceptance : List Event :=
  [.review fun _ _ => some ⟨none,5⟩,.register (sampleRow 1 10 7) (sampleGrant 7 10 1),
    .register (sampleRow 2 11 8) (sampleGrant 8 11 2),.invite ⟨20,.pending,100000,none,false⟩,.reserve [] 20 sampleRole,
    .snapshot 20 sampleRole,.attest sampleSnapshot 1,.materialize 10,.tick 30000,
    .consume 20 10 sampleRole (some (sampleSnapshot.proof 1 0))]

def acceptedWorld : World := runOf samplePlatform initial acceptance

theorem reachable_accepted : ReachableWorld samplePlatform acceptedWorld :=
  ⟨initial,acceptance,rfl,run_of_enabled (by decide +kernel)⟩

/-- The member has the first row, half a minute after its check. -/
theorem handed_once_accepted : acceptedWorld.assignments.map Assignment.capacityId = [1] ∧
    ∀ a ∈ acceptedWorld.assignments, Handed acceptedWorld.pool a :=
  ⟨by decide +kernel,fun a ha => ((handed_once reachable_accepted).2.2.2.1 a ha).1⟩

/-- What a step keeps: rows that left the pool, grants that are spent, and the place of every row. -/
structure Stays (w w' : World) : Prop where
  assignments : w.assignments <+: w'.assignments
  rows : ∀ r ∈ w.pool.capacity, inPool r = false → r ∈ w'.pool.capacity
  grants : ∀ g ∈ w.pool.grants, live g = false → g ∈ w'.pool.grants
  ids : w.pool.capacity.map CapacityRow.id <+: w'.pool.capacity.map CapacityRow.id

theorem Stays.refl (w : World) : Stays w w := ⟨List.prefix_rfl,fun _ hr _ => hr,fun _ hg _ => hg,List.prefix_rfl⟩

theorem Stays.trans {w'' : World} (h : Stays w w') (h' : Stays w' w'') : Stays w w'' :=
  ⟨h.assignments.trans h'.assignments,fun r hr hout => h'.rows r (h.rows r hr hout) hout,
    fun g hg hspent => h'.grants g (h.grants g hg hspent) hspent,h.ids.trans h'.ids⟩

theorem stays_step (h : Kept w) (hs : Step P w e w') : Stays w w' := by
  cases acts h hs with
  | goes hg =>
    refine ⟨?_,?_,?_,?_⟩
    · exact hg.assignments ▸ List.prefix_rfl
    · exact fun r hr hout => hg.capacity.fixed hr fun _ hs => hs.fixed hout
    · exact fun g hgrant hspent => hg.grants.fixed hgrant fun _ ht => ht.fixed hspent
    · exact hg.capacity.column CapacityRow.id (fun _ _ => Shifts.id) ▸ List.prefix_rfl
  | registers row grant hstate hc heq =>
    subst heq
    refine ⟨List.prefix_rfl,fun _ hr _ => List.mem_append_left _ hr,fun _ hg _ => List.mem_append_left _ hg,?_⟩
    rw [List.map_append]
    exact List.prefix_append _ _
  | assigns mid i agentId role p row g hspec hp hc heq =>
    subst heq
    refine ⟨List.prefix_append _ _,fun r hr hout => ?_,fun g' hg hspent => ?_,?_⟩
    · refine mem_updateWhere.mpr (Or.inr ⟨hspec.rows ▸ hr,?_⟩)
      simp only [inPool, Bool.or_eq_false_iff] at hout
      rw [assignable, hout.2, Bool.and_false]
    · have hkept := hspec.commits.grants.fixed hg fun _ ht => ht.fixed hspent
      refine mem_updateWhere.mpr (Or.inr ⟨hkept,?_⟩)
      rw [live] at hspent
      rw [spendable, Bool.and_assoc, hspent, Bool.and_false]
    · have hids : ((mid.assigned row.id agentId p).consumed g.id row.id).capacity.map CapacityRow.id =
          w.pool.capacity.map CapacityRow.id := by
        rw [← hspec.rows]
        exact map_updateWhere _ fun _ _ _ => rfl
      exact hids ▸ List.prefix_rfl

/-- Whatever follows, a row that is assigned or quarantined stays exactly what it is, a consumed or revoked
grant does too, no assignment is taken back and no row is lost. -/
theorem stays_run (h : ReachableWorld P w) (hrun : Run (Step P) w es w') :
    w.assignments <+: w'.assignments ∧ (∀ r ∈ w.pool.capacity, inPool r = false → r ∈ w'.pool.capacity) ∧
      (∀ g ∈ w.pool.grants, live g = false → g ∈ w'.pool.grants) ∧
      w.pool.capacity.map CapacityRow.id <+: w'.pool.capacity.map CapacityRow.id := by
  have hall : Stays w w' := by
    have hk := h.kept
    clear h
    induction hrun with
    | nil => exact .refl _
    | cons hs _ ih => exact (stays_step hk hs).trans (ih (hk.step hs))
  exact ⟨hall.assignments,hall.rows,hall.grants,hall.ids⟩

def afterwards : List Event := [.settle 20 .accepted,.release 20,.revoke 7,.verify 10 none]

/-- Neither a release nor a revocation takes the row back. -/
theorem stays_run_accepted :
    acceptedWorld.assignments <+: (runOf samplePlatform acceptedWorld afterwards).assignments :=
  (stays_run reachable_accepted (run_of_enabled (by decide +kernel))).1

end Results

end HermesEnterprise.WarmPool
