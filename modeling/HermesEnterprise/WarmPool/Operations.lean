import HermesEnterprise.WarmPool.Capacity

/-! # Reserving and assigning capacity

The operations on the pool, each as one transaction under its caller's locks: it gives the tables it commits,
or the failure that rolls it back.
-/
namespace HermesEnterprise.WarmPool
open Foundation.Tables

inductive Failure
  /-- A linked grant is not the reviewed one any more. -/
  | drift (capacityId grantId : ℕ)
  | refused
  /-- A constraint of a table is broken. -/
  | violated
  deriving DecidableEq

instance (pool : Pool) : Decidable (Constraints pool) :=
  decidable_of_iff ((pool.capacity.map CapacityRow.id).Nodup ∧ (pool.capacity.map CapacityRow.preflightAgentId).Nodup ∧
      UniqueColumn CapacityRow.reservedInvitationId pool.capacity ∧
      UniqueColumn CapacityRow.assignedAgentId pool.capacity ∧ (∀ r ∈ pool.capacity, assignmentCheck r = true) ∧
      (∀ r ∈ pool.capacity, usableCheck r = true) ∧
      (∀ r ∈ pool.capacity, ∀ i ∈ r.reservedInvitationId, i ∈ pool.invitations.map Invitation.id) ∧
      (∀ r ∈ pool.capacity, ∀ a ∈ r.assignedAgentId, a ∈ pool.agents) ∧
      (pool.grants.map DiscoveryGrant.id).Nodup ∧
      ∀ g ∈ pool.grants, ¬ (g.revokedAt.isSome = true ∧ g.consumedAt.isSome = true))
    ⟨fun ⟨h₁,h₂,h₃,h₄,h₅,h₆,h₇,h₈,h₉,h₁₀⟩ => ⟨h₁,h₂,h₃,h₄,h₅,h₆,h₇,h₈,h₉,h₁₀⟩,
      fun h => ⟨h.ids,h.preflight,h.reserved,h.assigned,h.assignment,h.usable,h.invitation,h.agent,h.grantIds,h.lifecycle⟩⟩

/-- A statement is refused by the database where it breaks a constraint. -/
def Pool.checked (pool : Pool) : Except Failure Pool :=
  if Constraints pool then .ok pool else .error .violated

section Grants

def sameRole (g : DiscoveryGrant) (expected : CapacityRoleTemplate) : Bool := decide (g.role = expected)

/-- The two reasons for which a grant's profile is refused. -/
inductive ProfileError
  | changed
  | mismatch
  deriving DecidableEq

def discoveryProfileDescriptor (P : Platform) (role : CapacityRoleTemplate) : Except ProfileError SkillDefinition :=
  if role.roleTemplateVersion = P.templateVersion then .ok (P.definition role.roleTemplateKey) else .error .mismatch

def requireExactGrantMetadata (P : Platform) (g : DiscoveryGrant) : Except ProfileError SkillDefinition := do
  let definition ← discoveryProfileDescriptor P g.role
  if definition = ⟨g.skillKey,g.skillVersion,g.runtimeName,g.artifactDigest⟩ then .ok definition else .error .changed

/-- The update that records the first assignment made for the grant's identity. -/
def promote (pool : Pool) (g : DiscoveryGrant) (assignment : Option (ℕ × ℕ)) : Pool :=
  { pool with
    grants := updateWhere
      (fun h => decide (h.id = g.id) && h.assignment.isNone && h.revokedAt.isNone && h.consumedAt.isNone)
      (fun h => { h with assignment := assignment }) pool.grants }

/-- The grant and the tables, with the first materialization recorded where that is allowed. -/
def requireCurrentGrantConfig (P : Platform) (pool : Pool) (g : DiscoveryGrant) (allowAssignmentPromotion : Bool) :
    Except ProfileError (DiscoveryGrant × Pool) := do
  let _ ← requireExactGrantMetadata P g
  match pool.config g.agentId g.role.roleTemplateKey with
  | none => .error .mismatch
  | some current =>
    if current.assignment = g.assignment ∧ current.configDigest = g.configDigest then .ok (g,pool)
    else if allowAssignmentPromotion = true ∧ g.assignment = none ∧ current.assignment.map Prod.snd = some 1 ∧
        current.configDigest = g.configDigest then
      if g.revokedAt.isNone && g.consumedAt.isNone then
        .ok ({ g with assignment := current.assignment },promote pool g current.assignment)
      else .error .changed
    else .error .changed

/-- The grant of a capacity row, by both links between them. -/
def Pool.linked (pool : Pool) (capacityId grantId : ℕ) : Option (DiscoveryGrant × CapacityRow) := do
  let g ← pool.grants.find? fun g => decide (g.id = grantId)
  let c ← pool.capacity.find? fun c => decide (c.id = capacityId)
  if g.linkedCapacityId = some c.id ∧ c.discoveryGrantId = some g.id ∧ c.preflightAgentId = g.agentId then some (g,c)
  else none

/-- The linked grant if it is of the expected role. A grant that is not current aborts the transaction. -/
def linkedGrantIsCurrent (P : Platform) (pool : Pool) (capacityId grantId : ℕ) (expectedRole : CapacityRoleTemplate)
    (allowAssignmentPromotion : Bool) : Except Failure (Option DiscoveryGrant × Pool) :=
  match pool.linked capacityId grantId with
  | none => .error (.drift capacityId grantId)
  | some (g,c) =>
    if g.revokedAt.isSome || g.consumedAt.isSome || g.expiresAt.isSome ||
        !(decide (c.state = .available) || decide (c.state = .reserved)) then
      .error (.drift capacityId grantId)
    else match requireCurrentGrantConfig P pool g allowAssignmentPromotion with
      | .ok (g,pool) => .ok (if sameRole g expectedRole then some g else none,pool)
      | .error .changed => .error (.drift capacityId grantId)
      | .error .mismatch => .error .refused

end Grants

section Reservations

/-- A pending invitation past its time, unless its setup is unfinished and it was never sent. -/
def lapsed (now : ℕ) (i : Invitation) : Bool :=
  decide (i.status = .pending) && decide (i.expiresAt ≤ now) && !(i.setupOpen && i.workosInvitationId.isNone)

/-- The row is reserved for an invitation. -/
def reservedFor (invitationId : ℕ) (r : CapacityRow) : Bool :=
  decide (r.state = .reserved) && decide (r.reservedInvitationId = some invitationId)

def vacate (r : CapacityRow) : CapacityRow := { r with state := .available, reservedInvitationId := none }

/-- The invitations past their time, expired, their setup completed and their rows available again. -/
def Pool.expired (pool : Pool) : Pool :=
  { pool with
    invitations := updateWhere (lapsed pool.now) (fun i => { i with status := .expired, setupOpen := false }) pool.invitations
    capacity := updateWhere
      (fun r => (pool.invitations.filter (lapsed pool.now)).any fun i => reservedFor i.id r) vacate pool.capacity }

def expireInvitationReservations (pool : Pool) : Except Failure Pool :=
  if pool.invitations.any (lapsed pool.now) then pool.expired.checked else .ok pool

/-- The available rows whose linked grant is of a role, in the order they are tried. -/
def candidates (pool : Pool) (role : CapacityRoleTemplate) : List CapacityRow :=
  (pool.capacity.filter fun c => decide (c.state = .available) &&
    (pool.grants.any fun g => decide (c.discoveryGrantId = some g.id) && decide (g.linkedCapacityId = some c.id) &&
      decide (g.agentId = c.preflightAgentId) && sameRole g role) &&
    c.nativeCronDisabled && c.agentcashEnabled == decide (role.roleTemplateKey = .partnershipsAgent) &&
    c.agentcashWalletPresent == decide (role.roleTemplateKey = .partnershipsAgent)).insertionSort
  fun a b => a.readinessCheckedAt < b.readinessCheckedAt ∨
    a.readinessCheckedAt = b.readinessCheckedAt ∧ a.createdAt ≤ b.createdAt

/-- The linked grant of a row, for a row that has one. -/
def currentGrantOf (P : Platform) (pool : Pool) (c : CapacityRow) (role : CapacityRoleTemplate)
    (allowAssignmentPromotion : Bool) : Except Failure (Option DiscoveryGrant × Pool) :=
  match c.discoveryGrantId with
  | none => .ok (none,pool)
  | some grantId => linkedGrantIsCurrent P pool c.id grantId role allowAssignmentPromotion

def claimable (capacityId : ℕ) (r : CapacityRow) : Bool := decide (r.id = capacityId) && decide (r.state = .available)

/-- `UPDATE … SET state='reserved'` of a row that is available. -/
def Pool.claimed (pool : Pool) (capacityId invitationId : ℕ) : Pool :=
  { pool with
    capacity := updateWhere (claimable capacityId)
      (fun r => { r with state := .reserved, reservedInvitationId := some invitationId }) pool.capacity }

/-- The first candidate that is current and still available is claimed. -/
def claimFirst (P : Platform) (invitationId : ℕ) (role : CapacityRoleTemplate) :
    Pool → List CapacityRow → Except Failure (Option ℕ × Pool)
  | pool, [] => .ok (none,pool)
  | pool, c :: rest => do
    match ← currentGrantOf P pool c role false with
    | (none,pool) => claimFirst P invitationId role pool rest
    | (some _,pool) =>
      if pool.capacity.any (claimable c.id) then do
        let pool ← (pool.claimed c.id invitationId).checked
        return (some c.id,pool)
      else claimFirst P invitationId role pool rest

def countCurrent (P : Platform) (role : CapacityRoleTemplate) (pool : Pool) : List CapacityRow → Except Failure ℕ
  | [] => .ok 0
  | c :: rest => do
    let (grant,pool) ← currentGrantOf P pool c role false
    let remaining ← countCurrent P role pool rest
    return (if grant.isSome then 1 else 0) + remaining

/-- The row already reserved for the invitation, if its grant is of the role. -/
def keptRow (P : Platform) (pool : Pool) (invitationId : ℕ) (role : CapacityRoleTemplate) : Except Failure (Option ℕ) :=
  match pool.capacity.find? (reservedFor invitationId) with
  | none => .ok none
  | some current => do
    let (grant,_) ← currentGrantOf P pool current role false
    return if grant.isSome then some current.id else none

/-- A reservation, with how many rows of the role are left. Rows that other transactions hold locked are
skipped. -/
def reserveCapacityForInvitation (P : Platform) (locked : List ℕ) (pool : Pool) (invitationId : ℕ)
    (expectedRole : CapacityRoleTemplate) : Except Failure (Option (ℕ × ℕ) × Pool) := do
  let pool ← expireInvitationReservations pool
  let kept ← keptRow P pool invitationId expectedRole
  let (id,pool) ← match kept with
    | some id => .ok (some id,pool)
    | none =>
      claimFirst P invitationId expectedRole pool ((candidates pool expectedRole).filter fun c => !locked.contains c.id)
  match id with
  | none => return (none,pool)
  | some id => do
    let remaining ← countCurrent P expectedRole pool (candidates pool expectedRole)
    return (some (id,remaining),pool)

def Pool.released (pool : Pool) (invitationId : ℕ) : Pool :=
  { pool with capacity := updateWhere (reservedFor invitationId) vacate pool.capacity }

def releaseInvitationCapacity (pool : Pool) (invitationId : ℕ) : Except Failure Pool :=
  (pool.released invitationId).checked

def movable (capacityId fromInvitationId : ℕ) (r : CapacityRow) : Bool :=
  decide (r.id = capacityId) && reservedFor fromInvitationId r

def Pool.moved (pool : Pool) (capacityId fromInvitationId toInvitationId : ℕ) : Pool :=
  { pool with
    capacity := updateWhere (movable capacityId fromInvitationId)
      (fun r => { r with reservedInvitationId := some toInvitationId }) pool.capacity }

def transferInvitationCapacity (P : Platform) (pool : Pool) (fromInvitationId toInvitationId : ℕ)
    (expectedRole : CapacityRoleTemplate) : Except Failure (Bool × Pool) :=
  match pool.capacity.find? (reservedFor fromInvitationId) with
  | none => .ok (false,pool)
  | some capacity => do
    match ← currentGrantOf P pool capacity expectedRole false with
    | (none,pool) => return (false,pool)
    | (some _,pool) => do
      let moved ← (pool.moved capacity.id fromInvitationId toInvitationId).checked
      return (decide ((pool.capacity.filter (movable capacity.id fromInvitationId)).length = 1),moved)

end Reservations

section Assignment

/-- What a readiness check of a reserved row found, and when. -/
structure CapacityAcceptanceProof where
  invitationId : ℕ
  capacityId : ℕ
  discoveryGrantId : ℕ
  agentId : ℕ
  connectorUrl : ℕ
  role : CapacityRoleTemplate
  skillKey : ℕ
  skillVersion : ℕ
  artifactDigest : ℕ
  grantRevision : ℕ
  configDigest : ℕ
  pluginVersion : ℕ
  checkedAt : ℕ
  deriving DecidableEq

/-- What is read before the connector is asked. -/
structure Snapshot where
  invitationId : ℕ
  capacity : CapacityRow
  grant : DiscoveryGrant
  role : CapacityRoleTemplate
  deriving DecidableEq

/-- The first half of `verifyReservedCapacityForInvitation`. -/
def verifySnapshot (P : Platform) (pool : Pool) (invitationId : ℕ) (role : CapacityRoleTemplate) : Except Failure Snapshot :=
  match pool.capacity.find? (reservedFor invitationId) with
  | none => .error .refused
  | some capacity => do
    match ← currentGrantOf P pool capacity role false with
    | (some grant,_) => return ⟨invitationId,capacity,grant,role⟩
    | (none,_) => .error .refused

/-- The second half: the proof, once the connector's readiness is attested. -/
def Snapshot.proof (s : Snapshot) (pluginVersion now : ℕ) : CapacityAcceptanceProof :=
  ⟨s.invitationId,s.capacity.id,s.grant.id,s.capacity.preflightAgentId,s.capacity.connectorUrl,s.role,s.grant.skillKey,
    s.grant.skillVersion,s.grant.artifactDigest,s.grant.grantRevision,s.grant.configDigest,pluginVersion,now⟩

def proofFits (p : CapacityAcceptanceProof) (pool : Pool) (invitationId : ℕ) (row : CapacityRow)
    (expectedRole : CapacityRoleTemplate) : Bool :=
  decide (p.invitationId = invitationId) && decide (p.capacityId = row.id) &&
    decide (row.discoveryGrantId = some p.discoveryGrantId) && decide (p.agentId = row.preflightAgentId) &&
    decide (p.connectorUrl = row.connectorUrl) && decide (p.role = expectedRole) &&
    decide (p.checkedAt ≤ pool.now) && decide (pool.now - p.checkedAt ≤ 30000)

def configFits (p : CapacityAcceptanceProof) (g : DiscoveryGrant) : Bool :=
  decide (p.skillKey = g.skillKey) && decide (p.skillVersion = g.skillVersion) &&
    decide (p.artifactDigest = g.artifactDigest) && decide (p.grantRevision = g.grantRevision) &&
    decide (p.configDigest = g.configDigest)

def assignable (capacityId : ℕ) (r : CapacityRow) : Bool := decide (r.id = capacityId) && decide (r.state = .reserved)

/-- `UPDATE … SET state='assigned'` of a reserved row. -/
def Pool.assigned (pool : Pool) (capacityId agentId : ℕ) (p : CapacityAcceptanceProof) : Pool :=
  { pool with
    capacity := updateWhere (assignable capacityId)
      (fun r => { r with
        state := .assigned, assignedAgentId := some agentId, assignedAt := some pool.now,
        pluginVersion := p.pluginVersion, readinessCheckedAt := p.checkedAt }) pool.capacity }

/-- The grant that may still be consumed. -/
def spendable (grantId capacityId : ℕ) (g : DiscoveryGrant) : Bool :=
  decide (g.id = grantId) && decide (g.linkedCapacityId = some capacityId) && g.revokedAt.isNone && g.consumedAt.isNone

def Pool.consumed (pool : Pool) (grantId capacityId : ℕ) : Pool :=
  { pool with
    grants := updateWhere (spendable grantId capacityId)
      (fun g => { g with consumedAt := some pool.now }) pool.grants }

/-- The row assigned to the invitee's agent, and the grant consumed with it. -/
def consumeReservedCapacity (P : Platform) (pool : Pool) (invitationId agentId : ℕ) (expectedRole : CapacityRoleTemplate)
    (proof : Option CapacityAcceptanceProof) : Except Failure (CapacityRow × Pool) :=
  match pool.capacity.find? (reservedFor invitationId), proof with
  | some row, some p =>
    if row.preflightAgentId ≠ agentId then .error .refused
    else if proofFits p pool invitationId row expectedRole then do
      match ← currentGrantOf P pool row expectedRole true with
      | (none,_) => .error .refused
      | (some g,pool) =>
        if configFits p g then
          if pool.grants.any (spendable p.discoveryGrantId row.id) then do
            -- the binding's foreign key is the agent's, as the row's is
            let pool ← (pool.assigned row.id agentId p).checked
            if (pool.grants.filter (spendable p.discoveryGrantId row.id)).length = 1 then do
              let pool ← (pool.consumed p.discoveryGrantId row.id).checked
              return (row,pool)
            else .error .refused
          else .error .refused
        else .error .refused
    else .error .refused
  | _, _ => .error .refused

def pooled (capacityId : ℕ) (r : CapacityRow) : Bool :=
  decide (r.id = capacityId) && (decide (r.state = .available) || decide (r.state = .reserved))

/-- A drifted row is taken out of the pool and its grant revoked. -/
def Pool.quarantined (pool : Pool) (capacityId grantId : ℕ) : Pool :=
  { pool with
    capacity := updateWhere (pooled capacityId)
      (fun r => { r with state := .quarantined, reservedInvitationId := none, quarantinedAt := some pool.now }) pool.capacity
    grants := updateWhere (fun g => decide (g.id = grantId) && g.revokedAt.isNone && g.consumedAt.isNone)
      (fun g => { g with revokedAt := some pool.now }) pool.grants }

def persistCapacityGrantDrift (pool : Pool) (capacityId grantId : ℕ) : Except Failure Pool :=
  (pool.quarantined capacityId grantId).checked

end Assignment

section Routes

def Pool.linkedState (pool : Pool) (g : DiscoveryGrant) : Option CapacityState :=
  (g.linkedCapacityId.bind fun id => pool.capacity.find? fun c => decide (c.id = id)).map CapacityRow.state

def Pool.withdrawn (pool : Pool) (g : DiscoveryGrant) : Pool :=
  { pool with
    capacity := updateWhere (fun c => decide (g.linkedCapacityId = some c.id) && decide (c.state = .available))
      (fun c => { c with state := .quarantined, quarantinedAt := some pool.now }) pool.capacity
    grants := updateWhere (fun h => decide (h.id = g.id) && h.revokedAt.isNone && h.consumedAt.isNone)
      (fun h => { h with revokedAt := some pool.now }) pool.grants }

/-- An Admin revokes a grant that is not consumed. Its row leaves the pool, unless it is reserved. -/
def revokeRuntimeDiscoveryGrant (pool : Pool) (grantId : ℕ) : Except Failure Pool :=
  match pool.grants.find? fun g => decide (g.id = grantId) with
  | none => .error .refused
  | some g =>
    if g.consumedAt.isSome then .error .refused
    else if g.revokedAt.isSome then .ok pool
    else if pool.linkedState g = some .reserved then .error .refused
    else if g.linkedCapacityId.isSome && decide (pool.linkedState g ≠ some .available) then .error .refused
    else (pool.withdrawn g).checked

/-- The row of an agent whose Cloud profile is verified again. -/
def unverified (agentId : ℕ) (r : CapacityRow) : Bool :=
  decide (r.assignedAgentId = some agentId) && (decide (r.state = .assigning) || decide (r.state = .quarantined))

/-- What the verification of an agent's Cloud profile writes to the pool, with the plugin that was found
there, or none where the profile is not ready. -/
def verifyProfile (pool : Pool) (agentId : ℕ) : Option ℕ → Except Failure Pool
  | some pluginVersion => Pool.checked { pool with
      capacity := updateWhere (unverified agentId)
        (fun r => { r with
          state := .assigned, pluginVersion := pluginVersion, readinessCheckedAt := pool.now,
          assignedAt := r.assignedAt.or (some pool.now), quarantinedAt := none }) pool.capacity }
  | none => Pool.checked { pool with
      capacity := updateWhere (unverified agentId)
        (fun r => { r with state := .quarantined, quarantinedAt := some pool.now }) pool.capacity }

end Routes

end HermesEnterprise.WarmPool
