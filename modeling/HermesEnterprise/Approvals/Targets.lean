import HermesEnterprise.Approvals.Bindings

/-! # Targets, owners and the selected policy

The server derives every target from the typed proposal, finds the owners whose
review is needed, and selects the policy itself; a caller only names it.
-/
namespace HermesEnterprise.Approvals
open Foundation.CanonicalJson

structure TargetInput where
  targetAgentIds : List AgentId
  targetMemberIds : List MemberId
  targetResourceIds : List String
  dependentRequestIds : List RequestId
  deriving DecidableEq, Repr

structure TargetContext where
  targetAgentIds : List AgentId
  targetMemberIds : List MemberId
  targetResourceIds : List String
  dependentRequestIds : List RequestId
  requiredOwnerIds : List MemberId
  deriving DecidableEq, Repr

def derivedAgents : ProposalDetails → List AgentId
  | .teamCommitment _ recipientAgentId _ => [recipientAgentId]
  | .access _ requestedAgentId => [requestedAgentId]
  | .agentGovernance agentId => [agentId]
  | .runPlan participatingAgents _ => participatingAgents
  | _ => []

def derivedMembers : ProposalDetails → List MemberId
  | .teamCommitment _ _ receivingOwnerMemberId => [receivingOwnerMemberId]
  | .communication d => [d.sender.memberId]
  | _ => []

/-- Every id names a row of this workspace that is still usable. -/
def validateIds (table : String) (usable : ℕ → Bool) (ids : List ℕ) : Result Unit :=
  require (ids.all usable) (table ++ " include an unknown or inactive tenant id") "invalid_target" 422

def agentUsable (dir : Directory) (id : AgentId) : Bool :=
  (dir.agents id).any fun s => s = .draft ∨ s = .started

def memberUsable (dir : Directory) (id : MemberId) : Bool :=
  (activeMembers dir.members).any fun m => m.id = id

def ownerForAgent (dir : Directory) (agentId : AgentId) : Result MemberId :=
  match (dir.agentOwners agentId).filter (memberUsable dir) with
  | some owner => .ok owner
  | none => refuse "the target agent has no active responsible human" "missing_agent_owner" 422

/-- The active rows of the named resources. -/
def resourceRows (dir : Directory) (resourceIds : List String) (resourceId : String) :
    Option ResourceRow :=
  if resourceId ∈ resourceIds then (dir.resources resourceId).filter (fun r => r.active) else none

/-- The owner of every resource the proposal acts on. -/
def resourceOwners (resources : String → Option ResourceRow) : List String → Result (List MemberId)
  | [] => .ok []
  | resourceId :: rest =>
    match resources resourceId with
    | none => refuse ("resource " ++ resourceId ++ " is not registered in this workspace")
        "invalid_resource" 422
    | some row => do
      let owners ← resourceOwners resources rest
      return row.ownerMemberId :: owners

/-- The owners a proposal type adds to those of its resources. -/
def detailOwners (dir : Directory) : ProposalDetails → Result (List MemberId)
  | .teamCommitment _ recipientAgentId receivingOwnerMemberId => do
    let owner ← ownerForAgent dir recipientAgentId
    require (owner = receivingOwnerMemberId) "the receiving owner does not own the recipient agent"
      "receiving_owner_mismatch" 422
    return [owner]
  | .agentGovernance agentId => do
    let owner ← ownerForAgent dir agentId
    return [owner]
  | .communication d => .ok [d.sender.memberId]
  | _ => .ok []

def validatedTargetContext (env : Platform) (db : Db) (proposal : ApprovalProposal)
    (input : TargetInput) : Result TargetContext := do
  let dir := db.directory
  let agents := derivedAgents proposal.details
  let members := derivedMembers proposal.details
  let derivedResourceIds := sortedUnique (proposalResourceIds env.uuidText proposal)
  require (input.targetAgentIds.all fun id => id ∈ agents)
    "target agents must be derived from the typed proposal" "invalid_target" 422
  require (input.targetResourceIds.all fun id => id ∈ derivedResourceIds)
    "target resources must be derived from the typed proposal" "invalid_target" 422
  let targetAgentIds := sortedUniqueIds (input.targetAgentIds ++ agents)
  let targetMemberIds := sortedUniqueIds (input.targetMemberIds ++ members)
  let targetResourceIds := sortedUnique (input.targetResourceIds ++ derivedResourceIds)
  let dependentRequestIds := sortedUniqueIds input.dependentRequestIds
  validateIds "agents" (agentUsable dir) targetAgentIds
  validateIds "members" (memberUsable dir) targetMemberIds
  validateIds "requests" (fun id => (db.requests id).isSome || (dir.evidence.requests id).isSome)
    dependentRequestIds
  let resources := resourceRows dir targetResourceIds
  let owners ← resourceOwners resources (proposalResourceIds env.uuidText proposal)
  let more ← detailOwners dir proposal.details
  let requiredOwnerIds := (owners ++ more).dedup
  require (input.targetMemberIds.all fun id => id ∈ members ++ requiredOwnerIds)
    "target members must be derived from verified proposal authority" "invalid_target" 422
  return ⟨targetAgentIds,sortedUniqueIds (targetMemberIds ++ requiredOwnerIds),targetResourceIds,
    dependentRequestIds,requiredOwnerIds⟩

def proposalCap (proposal : ApprovalProposal) : Option ℕ :=
  match proposal.details with
  | .runPlan _ budget => some budget.capMinor
  | _ => none

def applicable (proposal : ApprovalProposal) (requesterAgentId : AgentId)
    (targetResourceIds : List String) (row : PolicyRow) : Bool :=
  row.approvalType = proposal.approvalType && row.active &&
    row.requesterAgentId.all (fun a => a = requesterAgentId) &&
    row.targetResourceIds.all (fun id => id ∈ targetResourceIds) &&
    match proposalCap proposal, row.maxBudgetMinor with
    | some cap, some limit => cap ≤ limit
    | _, _ => true

/-- `Number.MAX_SAFE_INTEGER`, the budget of a policy without one. -/
def maxSafeInteger : ℕ := 9007199254740991

/-- Most specific first: requester, targets, budget, priority, then key. -/
def policyBefore (env : Platform) (requesterAgentId : AgentId) (a b : PolicyRow) : Bool :=
  let requesterA := a.requesterAgentId = some requesterAgentId
  let requesterB := b.requesterAgentId = some requesterAgentId
  let budgetA := a.maxBudgetMinor.getD maxSafeInteger
  let budgetB := b.maxBudgetMinor.getD maxSafeInteger
  if requesterA ≠ requesterB then requesterA
  else if a.targetResourceIds.length ≠ b.targetResourceIds.length then
    b.targetResourceIds.length < a.targetResourceIds.length
  else if budgetA ≠ budgetB then budgetA < budgetB
  else if a.priority ≠ b.priority then b.priority < a.priority
  else env.localeBefore a.fields.key b.fields.key || a.fields.key = b.fields.key

structure SelectedPolicy where
  row : PolicyRow
  policy : ApprovalPolicy

def selectPolicy (env : Platform) (dir : Directory) (proposal : ApprovalProposal)
    (requesterAgentId : AgentId) (targetResourceIds : List String) (requestedKey : String) :
    Result SelectedPolicy :=
  let candidates := (dir.policies.filter (applicable proposal requesterAgentId
    targetResourceIds)).insertionSort (fun a b => policyBefore env requesterAgentId a b = true)
  match candidates.head? with
  | none => refuse "no server policy authorizes this proposal" "no_applicable_policy" 422
  | some selected => do
    require (selected.fields.key = requestedKey)
      "the requested policy is not the server-selected policy for these limits and targets"
      "policy_key_mismatch" 403
    let policy ← approvalPolicySchema selected.fields
    return ⟨selected,policy⟩

end HermesEnterprise.Approvals
