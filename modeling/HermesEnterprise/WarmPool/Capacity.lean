import HermesEnterprise.Foundation.Tables
import Mathlib.Data.List.Sort

/-! # The warm pool

Rows of ready runtimes, the discovery grants they are linked to and the invitations they are reserved for,
with the constraints of the tables. An id, a digest, a version and a URL are only ever compared.
-/
namespace HermesEnterprise.WarmPool
open Foundation.Tables

inductive RoleTemplateKey
  | partnershipsAgent
  | financeAgent
  deriving DecidableEq

structure CapacityRoleTemplate where
  roleTemplateKey : RoleTemplateKey
  roleTemplateVersion : ℕ
  deriving DecidableEq

inductive CapacityState
  | available
  | reserved
  | assigning
  | assigned
  | quarantined
  deriving DecidableEq

structure CapacityRow where
  id : ℕ
  preflightAgentId : ℕ
  connectorUrl : ℕ
  state : CapacityState
  reservedInvitationId : Option ℕ
  assignedAgentId : Option ℕ
  discoveryGrantId : Option ℕ
  pluginVersion : ℕ
  agentcashEnabled : Bool
  agentcashWalletPresent : Bool
  nativeCronDisabled : Bool
  readinessCheckedAt : ℕ
  createdAt : ℕ
  assignedAt : Option ℕ
  quarantinedAt : Option ℕ
  deriving DecidableEq

structure DiscoveryGrant where
  id : ℕ
  agentId : ℕ
  role : CapacityRoleTemplate
  skillKey : ℕ
  skillVersion : ℕ
  runtimeName : ℕ
  artifactDigest : ℕ
  /-- The assignment's id and revision: both, or neither. -/
  assignment : Option (ℕ × ℕ)
  configDigest : ℕ
  grantRevision : ℕ
  linkedCapacityId : Option ℕ
  expiresAt : Option ℕ
  revokedAt : Option ℕ
  consumedAt : Option ℕ
  deriving DecidableEq

inductive InvitationStatus
  | pending
  | accepted
  | expired
  | withdrawn
  | resent
  deriving DecidableEq

/-- An invitation, with whether a setup operation of it is unfinished. -/
structure Invitation where
  id : ℕ
  status : InvitationStatus
  expiresAt : ℕ
  workosInvitationId : Option ℕ
  setupOpen : Bool
  deriving DecidableEq

/-- What the skill registry says of a role's reviewed skill. -/
structure SkillDefinition where
  key : ℕ
  version : ℕ
  runtimeName : ℕ
  artifactDigest : ℕ
  deriving DecidableEq

/-- The reviewed configuration of an identity as it stands. -/
structure DiscoveryConfig where
  assignment : Option (ℕ × ℕ)
  configDigest : ℕ
  deriving DecidableEq

structure Platform where
  templateVersion : ℕ
  definition : RoleTemplateKey → SkillDefinition

/-- The tables of one workspace, its clock, and what `exactDiscoveryConfig` finds for an identity and a
role: nothing where it throws. -/
structure Pool where
  capacity : List CapacityRow
  grants : List DiscoveryGrant
  invitations : List Invitation
  agents : List ℕ
  now : ℕ
  config : ℕ → RoleTemplateKey → Option DiscoveryConfig

section Constraints

def assignmentCheck (r : CapacityRow) : Bool :=
  match r.state with
  | .available => r.reservedInvitationId.isNone && r.assignedAgentId.isNone
  | .reserved => r.reservedInvitationId.isSome && r.assignedAgentId.isNone
  | .assigning | .assigned => r.reservedInvitationId.isSome && r.assignedAgentId.isSome
  | .quarantined => true

def usableCheck (r : CapacityRow) : Bool :=
  decide (r.state = .quarantined) || (r.nativeCronDisabled && r.agentcashEnabled == r.agentcashWalletPresent)

/-- The constraints of the two tables that an operation of the pool could break. -/
structure Constraints (pool : Pool) : Prop where
  ids : (pool.capacity.map CapacityRow.id).Nodup
  preflight : (pool.capacity.map CapacityRow.preflightAgentId).Nodup
  reserved : UniqueColumn CapacityRow.reservedInvitationId pool.capacity
  assigned : UniqueColumn CapacityRow.assignedAgentId pool.capacity
  assignment : ∀ r ∈ pool.capacity, assignmentCheck r = true
  usable : ∀ r ∈ pool.capacity, usableCheck r = true
  invitation : ∀ r ∈ pool.capacity, ∀ i ∈ r.reservedInvitationId, i ∈ pool.invitations.map Invitation.id
  agent : ∀ r ∈ pool.capacity, ∀ a ∈ r.assignedAgentId, a ∈ pool.agents
  grantIds : (pool.grants.map DiscoveryGrant.id).Nodup
  lifecycle : ∀ g ∈ pool.grants, ¬ (g.revokedAt.isSome = true ∧ g.consumedAt.isSome = true)

end Constraints

end HermesEnterprise.WarmPool
