import HermesEnterprise.WarmPool.Operations
import HermesEnterprise.Foundation.Runs

/-! # The pool in use

Operations of any callers in any order, with what goes on beside them: invitations are made and settled,
capacity is registered, agents are created and profiles are reviewed.
-/
namespace HermesEnterprise.WarmPool
open Foundation.Runs Foundation.Tables

/-- A row that became assigned. -/
structure Assignment where
  capacityId : ℕ
  invitationId : ℕ
  agentId : ℕ
  role : CapacityRoleTemplate
  proof : CapacityAcceptanceProof
  assignedAt : ℕ
  deriving DecidableEq

/-- The tables, what the workers hold between their transactions, and a record of the assignments. -/
structure World where
  pool : Pool
  snapshots : List Snapshot
  proofs : List CapacityAcceptanceProof
  drifts : List (ℕ × ℕ)
  assignments : List Assignment

inductive Event
  | expire
  | reserve (locked : List ℕ) (invitationId : ℕ) (role : CapacityRoleTemplate)
  | release (invitationId : ℕ)
  | transfer (fromInvitationId toInvitationId : ℕ) (role : CapacityRoleTemplate)
  | snapshot (invitationId : ℕ) (role : CapacityRoleTemplate)
  | attest (snapshot : Snapshot) (pluginVersion : ℕ)
  | consume (invitationId agentId : ℕ) (role : CapacityRoleTemplate) (proof : Option CapacityAcceptanceProof)
  | quarantine (capacityId grantId : ℕ)
  | revoke (grantId : ℕ)
  | verify (agentId : ℕ) (pluginVersion : Option ℕ)
  | invite (invitation : Invitation)
  | settle (invitationId : ℕ) (status : InvitationStatus)
  | reschedule (invitationId expiresAt : ℕ) (workosInvitationId : Option ℕ)
  | register (row : CapacityRow) (grant : DiscoveryGrant)
  | materialize (agentId : ℕ)
  | review (config : ℕ → RoleTemplateKey → Option DiscoveryConfig)
  | tick (now : ℕ)

/-- What the callers see to: the invitation that capacity is reserved for or moved to is stored and the
agent it is assigned to is created in the caller's transaction, and a proof is one that a check gave. -/
def enabled (w : World) : Event → Prop
  | .reserve _ i _ => i ∈ w.pool.invitations.map Invitation.id
  | .transfer _ target _ => target ∈ w.pool.invitations.map Invitation.id
  | .attest snapshot _ => snapshot ∈ w.snapshots
  | .consume _ agentId _ proof => agentId ∈ w.pool.agents ∧ ∀ p ∈ proof, p ∈ w.proofs
  | .quarantine capacityId grantId => (capacityId,grantId) ∈ w.drifts
  | .invite invitation => invitation.status = .pending ∧ invitation.id ∉ w.pool.invitations.map Invitation.id
  | .settle _ status => status ≠ .pending ∧ status ≠ .expired
  | .register row grant => row.state = .available ∧
      Constraints { w.pool with capacity := w.pool.capacity ++ [row], grants := w.pool.grants ++ [grant] }
  | .tick now => w.pool.now ≤ now
  | _ => True

/-- What an event does, or how the transaction of an operation fails. -/
def perform (P : Platform) (w : World) : Event → Except Failure World
  | .expire => do
    let pool ← expireInvitationReservations w.pool
    return { w with pool := pool }
  | .reserve locked i role => do
    let (_,pool) ← reserveCapacityForInvitation P locked w.pool i role
    return { w with pool := pool }
  | .release i => do
    let pool ← releaseInvitationCapacity w.pool i
    return { w with pool := pool }
  | .transfer source target role => do
    let (_,pool) ← transferInvitationCapacity P w.pool source target role
    return { w with pool := pool }
  | .snapshot i role => do
    let snapshot ← verifySnapshot P w.pool i role
    return { w with snapshots := w.snapshots ++ [snapshot] }
  | .attest snapshot pluginVersion =>
    .ok { w with proofs := w.proofs ++ [snapshot.proof pluginVersion w.pool.now] }
  | .consume i agentId role proof => do
    let (row,pool) ← consumeReservedCapacity P w.pool i agentId role proof
    match proof with
    | none => .error .refused
    | some p => return { w with pool := pool, assignments := w.assignments ++ [⟨row.id,i,agentId,role,p,w.pool.now⟩] }
  | .quarantine capacityId grantId => do
    let pool ← persistCapacityGrantDrift w.pool capacityId grantId
    return { w with pool := pool, drifts := w.drifts.erase (capacityId,grantId) }
  | .revoke grantId => do
    let pool ← revokeRuntimeDiscoveryGrant w.pool grantId
    return { w with pool := pool }
  | .verify agentId pluginVersion => do
    let pool ← verifyProfile w.pool agentId pluginVersion
    return { w with pool := pool }
  | .invite invitation => .ok { w with pool := { w.pool with invitations := w.pool.invitations ++ [invitation] } }
  | .settle i status => .ok { w with pool := { w.pool with
      invitations := updateWhere (fun v => decide (v.id = i)) (fun v => { v with status := status }) w.pool.invitations } }
  | .reschedule i expiresAt workosInvitationId => .ok { w with pool := { w.pool with
      invitations := updateWhere (fun v => decide (v.id = i))
        (fun v => { v with expiresAt := expiresAt, workosInvitationId := workosInvitationId }) w.pool.invitations } }
  | .register row grant => .ok { w with pool := { w.pool with
      capacity := w.pool.capacity ++ [row], grants := w.pool.grants ++ [grant] } }
  | .materialize agentId => .ok { w with pool := { w.pool with agents := agentId :: w.pool.agents } }
  | .review config => .ok { w with pool := { w.pool with config := config } }
  | .tick now => .ok { w with pool := { w.pool with now := now } }

/-- A failure rolls the transaction back. A drift is kept, to be persisted when the locks are gone. -/
def settled (w : World) : Except Failure World → World
  | .ok w => w
  | .error (.drift capacityId grantId) => { w with drifts := w.drifts ++ [(capacityId,grantId)] }
  | .error _ => w

def Step (P : Platform) (w : World) (e : Event) (w' : World) : Prop := enabled w e ∧ w' = settled w (perform P w e)

instance (w : World) : (e : Event) → Decidable (enabled w e)
  | .reserve _ i _ => inferInstanceAs (Decidable (i ∈ w.pool.invitations.map Invitation.id))
  | .transfer _ target _ => inferInstanceAs (Decidable (target ∈ w.pool.invitations.map Invitation.id))
  | .attest snapshot _ => inferInstanceAs (Decidable (snapshot ∈ w.snapshots))
  | .consume _ agentId _ proof => inferInstanceAs (Decidable (agentId ∈ w.pool.agents ∧ ∀ p ∈ proof, p ∈ w.proofs))
  | .quarantine capacityId grantId => inferInstanceAs (Decidable ((capacityId,grantId) ∈ w.drifts))
  | .invite invitation => inferInstanceAs
      (Decidable (invitation.status = .pending ∧ invitation.id ∉ w.pool.invitations.map Invitation.id))
  | .settle _ status => inferInstanceAs (Decidable (status ≠ .pending ∧ status ≠ .expired))
  | .register row grant => inferInstanceAs (Decidable (row.state = .available ∧
      Constraints { w.pool with capacity := w.pool.capacity ++ [row], grants := w.pool.grants ++ [grant] }))
  | .tick now => inferInstanceAs (Decidable (w.pool.now ≤ now))
  | .expire | .release _ | .snapshot _ _ | .revoke _ | .verify _ _ | .reschedule _ _ _ | .materialize _ | .review _ =>
    inferInstanceAs (Decidable True)

def runOf (P : Platform) (w : World) (es : List Event) : World := es.foldl (fun w e => settled w (perform P w e)) w

def enabledAll (P : Platform) : World → List Event → Bool
  | _, [] => true
  | w, e :: es => decide (enabled w e) && enabledAll P (settled w (perform P w e)) es

theorem run_of_enabled {P : Platform} {w : World} {es : List Event} (h : enabledAll P w es = true) :
    Run (Step P) w es (runOf P w es) := by
  induction es generalizing w with
  | nil => exact .nil w
  | cons e es ih =>
    rw [enabledAll, Bool.and_eq_true, decide_eq_true_eq] at h
    exact .cons ⟨h.1,rfl⟩ (ih h.2)

/-- No capacity, no invitation and nothing under way. -/
def initial : World := ⟨⟨[],[],[],[],0,fun _ _ => none⟩,[],[],[],[]⟩

end HermesEnterprise.WarmPool
