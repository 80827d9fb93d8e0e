import HermesEnterprise.Foundation.Representatives
import HermesEnterprise.Foundation.Tables
import Mathlib.Data.List.Sort

/-! # Approval policies and their reviewers

A policy is a list of steps, each with selectors and a quorum. The stored policy
carries the facts its schema checks. Feasibility decides by bipartite matching
whether distinct active members can fill every step.
-/
namespace HermesEnterprise.Approvals
open Foundation.Representatives

abbrev MemberId := ℕ
abbrev UserId := ℕ
abbrev AgentId := ℕ
abbrev RequestId := ℕ
abbrev SessionId := ℕ
abbrev RunId := ℕ
abbrev PolicyId := ℕ

/-- A typed refusal of a route; the transaction rolls back. -/
structure RouteError where
  message : String
  reason : String
  status : ℕ
  deriving DecidableEq, Repr

/-- What an operation can throw: a typed refusal, or any other error by its message. -/
inductive Failure
  | route (error : RouteError)
  | error (message : String)
  deriving DecidableEq, Repr

abbrev Result (α : Type) := Except Failure α

def refuse {α : Type} (message reason : String) (status : ℕ) : Result α :=
  .error (.route ⟨message,reason,status⟩)

/-- Refuse unless the condition holds. -/
def require (condition : Bool) (message reason : String) (status : ℕ) : Result Unit :=
  if condition then .ok () else refuse message reason status

theorem Result.bind_eq_ok {α β : Type} {x : Result α} {f : α → Result β} {b : β} :
    (x >>= f) = .ok b ↔ ∃ a, x = .ok a ∧ f a = .ok b := by
  cases x with
  | error e => simp [bind, Except.bind]
  | ok a => simp [bind, Except.bind]

theorem Result.pure_eq_ok {α : Type} {a b : α} : (pure a : Result α) = .ok b ↔ a = b := by
  simp [pure, Except.pure]

theorem Result.forM_eq_ok {α : Type} {xs : List α} {f : α → Result Unit} :
    xs.forM f = .ok () ↔ ∀ x ∈ xs, f x = .ok () := by
  induction xs with
  | nil => simp [List.forM, pure, Except.pure]
  | cons x xs ih =>
    have hcons : (x :: xs).forM f = (f x >>= fun _ => xs.forM f) := rfl
    rw [hcons, Result.bind_eq_ok]
    simp only [ih, List.mem_cons, forall_eq_or_imp]
    exact ⟨fun ⟨_,hx,hs⟩ => ⟨hx,hs⟩,fun ⟨hx,hs⟩ => ⟨(),hx,hs⟩⟩

@[simp] theorem refuse_ne_ok {α : Type} {message reason : String} {status : ℕ} {a : α} :
    (refuse message reason status : Result α) = .ok a ↔ False := by
  simp [refuse]

theorem require_eq_ok {condition : Bool} {message reason : String} {status : ℕ} {u : Unit} :
    require condition message reason status = .ok u ↔ condition = true := by
  cases condition <;> simp [require]

inductive MemberStatus
  | active
  | inactive
  deriving DecidableEq, Repr

structure MemberRow where
  id : MemberId
  userId : UserId
  name : String
  email : String
  status : MemberStatus
  role : String
  reviewerRoles : List String
  deriving DecidableEq, Repr

/-- The members of one workspace, under the table's two unique keys. -/
structure MemberTable where
  rows : List MemberRow
  ids : (rows.map MemberRow.id).Nodup
  users : (rows.map MemberRow.userId).Nodup

def activeMembers (t : MemberTable) : List MemberRow := t.rows.filter fun m => m.status = .active

inductive ReviewerSelector
  | member (memberId : MemberId)
  | role (role : String) (minimumDistinctMembers : ℕ)
  deriving DecidableEq, Repr

inductive PolicyMode
  | sequential
  | parallel
  deriving DecidableEq, Repr

structure PolicyStep where
  id : String
  label : String
  order : ℕ
  reviewers : List ReviewerSelector
  quorum : ℕ
  deriving DecidableEq, Repr

/-- The fields of a policy before its schema is checked. -/
structure PolicyFields where
  id : PolicyId
  key : String
  version : ℕ
  mode : PolicyMode
  preventSelfReview : Bool
  requireDistinctReviewers : Bool
  steps : List PolicyStep
  deriving DecidableEq, Repr

def ReviewerSelector.wellFormed : ReviewerSelector → Bool
  | .member _ => true
  | .role _ n => 1 ≤ n ∧ n ≤ 25

def PolicyStep.wellFormed (s : PolicyStep) : Bool :=
  s.order ≤ 100 ∧ 1 ≤ s.reviewers.length ∧ s.reviewers.length ≤ 50 ∧
    s.reviewers.all ReviewerSelector.wellFormed ∧ 1 ≤ s.quorum ∧ s.quorum ≤ 25

/-- What `approvalPolicySchema` accepts. -/
structure PolicyFields.Valid (p : PolicyFields) : Prop where
  version : 1 ≤ p.version
  distinct : p.requireDistinctReviewers = true
  nonempty : 1 ≤ p.steps.length
  bounded : p.steps.length ≤ 25
  steps : ∀ s ∈ p.steps, s.wellFormed = true
  ids : (p.steps.map PolicyStep.id).Nodup
  orders : (p.steps.map PolicyStep.order).Nodup

theorem PolicyFields.valid_iff (p : PolicyFields) : p.Valid ↔ 1 ≤ p.version ∧
    p.requireDistinctReviewers = true ∧ 1 ≤ p.steps.length ∧ p.steps.length ≤ 25 ∧
    (∀ s ∈ p.steps, s.wellFormed = true) ∧ (p.steps.map PolicyStep.id).Nodup ∧
    (p.steps.map PolicyStep.order).Nodup :=
  ⟨fun ⟨a,b,c,d,e,f,g⟩ => ⟨a,b,c,d,e,f,g⟩,fun ⟨a,b,c,d,e,f,g⟩ => ⟨a,b,c,d,e,f,g⟩⟩

instance (p : PolicyFields) : Decidable p.Valid := decidable_of_iff _ p.valid_iff.symm

/-- A policy that passed its schema. -/
structure ApprovalPolicy extends PolicyFields where
  valid : toPolicyFields.Valid

def approvalPolicySchema (p : PolicyFields) : Result ApprovalPolicy :=
  if h : p.Valid then .ok ⟨p,h⟩ else .error (.error "invalid approval policy")

def selectorMatches (member : MemberRow) : ReviewerSelector → Bool
  | .member memberId => memberId = member.id
  | .role role _ => role = member.role ∨ role ∈ member.reviewerRoles

def eligibleForStep (step : PolicyStep) (members : List MemberRow)
    (requesterMemberId : Option MemberId) (preventSelfReview : Bool) : List MemberRow :=
  members.filter fun member =>
    (!preventSelfReview || some member.id != requesterMemberId) &&
      step.reviewers.any (selectorMatches member)

def memberIsRequired (memberId : MemberId) (policy : ApprovalPolicy) (members : List MemberRow)
    (requesterMemberId : Option MemberId) : Bool :=
  policy.steps.any fun step =>
    let eligible := eligibleForStep step members requesterMemberId policy.preventSelfReview
    let without := eligible.filter fun member => member.id ≠ memberId
    eligible.any (fun member => member.id = memberId) && without.length < step.quorum

/-- The eligible members of a step, by id, with one member left out. -/
def candidates (policy : ApprovalPolicy) (members : List MemberRow)
    (requesterMemberId excludedMemberId : Option MemberId) (step : PolicyStep) : List MemberId :=
  ((eligibleForStep step members requesterMemberId policy.preventSelfReview).map
    MemberRow.id).filter fun memberId => some memberId != excludedMemberId

/-- One slot for every approval a step needs. -/
def slots (policy : ApprovalPolicy) (members : List MemberRow)
    (requesterMemberId excludedMemberId : Option MemberId) : List (List MemberId) :=
  policy.steps.flatMap fun step =>
    List.replicate step.quorum (candidates policy members requesterMemberId excludedMemberId step)

def canSatisfyDistinctReviewers (policy : ApprovalPolicy) (members : List MemberRow)
    (requesterMemberId excludedMemberId : Option MemberId) : Bool :=
  assignAll (slots policy members requesterMemberId excludedMemberId)

/-- The check of one step: its quorum, then the minimum of each of its role selectors. -/
def stepFeasible (policy : ApprovalPolicy) (members : List MemberRow)
    (requesterMemberId : Option MemberId) (step : PolicyStep) : Result Unit := do
  let eligible := eligibleForStep step members requesterMemberId policy.preventSelfReview
  require (step.quorum ≤ eligible.length)
    ("approval policy step " ++ step.id ++ " does not have enough eligible reviewers")
    "policy_unfulfillable" 422
  step.reviewers.forM fun
    | .member _ => .ok ()
    | .role role n =>
      require (n ≤ (eligible.filter fun member => selectorMatches member (.role role n)).length)
        ("approval role " ++ role ++ " does not have enough active members")
        "policy_unfulfillable" 422

def ownerRequired (policy : ApprovalPolicy) (members : List MemberRow)
    (requesterMemberId : Option MemberId) (ownerId : MemberId) : Bool :=
  if policy.requireDistinctReviewers then
    !canSatisfyDistinctReviewers policy members requesterMemberId (some ownerId)
  else memberIsRequired ownerId policy members requesterMemberId

def validatePolicyFeasibility (policy : ApprovalPolicy) (members : List MemberRow)
    (requesterMemberId : Option MemberId) (requiredOwnerIds : List MemberId) : Result Unit := do
  policy.steps.forM (stepFeasible policy members requesterMemberId)
  require (!policy.requireDistinctReviewers ||
      canSatisfyDistinctReviewers policy members requesterMemberId none)
    "approval policy does not have enough distinct eligible reviewers across its steps"
    "policy_unfulfillable" 422
  requiredOwnerIds.forM fun ownerId =>
    require (ownerRequired policy members requesterMemberId ownerId)
      "the authoritative owner is not required by the selected policy" "owner_review_required" 422

section Exactness
variable {policy : ApprovalPolicy} {members : List MemberRow}
variable {requesterMemberId excludedMemberId : Option MemberId}

theorem ApprovalPolicy.nodup_steps (policy : ApprovalPolicy) : policy.steps.Nodup :=
  policy.valid.ids.of_map _

theorem mem_candidates {step : PolicyStep} {id : MemberId} :
    id ∈ candidates policy members requesterMemberId excludedMemberId step ↔
      (∃ m ∈ eligibleForStep step members requesterMemberId policy.preventSelfReview, m.id = id) ∧
        some id ≠ excludedMemberId := by
  simp only [candidates, List.mem_filter, List.mem_map, bne_iff_ne]

/-- Disjoint sets of reviewers for the steps, each of the step's quorum and eligible for it. -/
structure Staffed (policy : ApprovalPolicy) (members : List MemberRow)
    (requesterMemberId excludedMemberId : Option MemberId) (team : PolicyStep → Finset MemberId) :
    Prop where
  quorum : ∀ step ∈ policy.steps, (team step).card = step.quorum
  eligible : ∀ step ∈ policy.steps, ∀ id ∈ team step,
    ∃ m ∈ eligibleForStep step members requesterMemberId policy.preventSelfReview, m.id = id
  excluded : ∀ step ∈ policy.steps, ∀ id ∈ team step, some id ≠ excludedMemberId
  disjoint : ∀ step ∈ policy.steps, ∀ other ∈ policy.steps, step ≠ other →
    Disjoint (team step) (team other)

theorem staffed_iff_teams {team : PolicyStep → Finset MemberId} :
    Staffed policy members requesterMemberId excludedMemberId team ↔
      Teams policy.steps PolicyStep.quorum
        (candidates policy members requesterMemberId excludedMemberId) team := by
  constructor
  · intro h
    refine ⟨h.quorum,fun step hs id hid => ?_,h.disjoint⟩
    exact mem_candidates.mpr ⟨h.eligible step hs id hid,h.excluded step hs id hid⟩
  · intro h
    have hdrawn := fun step hs id hid => mem_candidates.mp (h.drawn step hs id hid)
    exact ⟨h.size,fun step hs id hid => (hdrawn step hs id hid).1,
      fun step hs id hid => (hdrawn step hs id hid).2,h.disjoint⟩

theorem canSatisfyDistinctReviewers_iff :
    canSatisfyDistinctReviewers policy members requesterMemberId excludedMemberId = true ↔
      ∃ team, Staffed policy members requesterMemberId excludedMemberId team := by
  rw [canSatisfyDistinctReviewers, assignAll_iff]
  have h : slots policy members requesterMemberId excludedMemberId = groupSlots policy.steps
      PolicyStep.quorum (candidates policy members requesterMemberId excludedMemberId) := rfl
  rw [h, hasRepresentatives_iff_teams policy.nodup_steps]
  exact exists_congr fun team => staffed_iff_teams.symm

/-- The check is exact, and its search terminates: from every visited set and every map at each
slot, and over all slots with the check's result and no other. -/
theorem distinct_reviewers_exact (policy : ApprovalPolicy) (members : List MemberRow)
    (requesterMemberId excludedMemberId : Option MemberId) :
    (canSatisfyDistinctReviewers policy members requesterMemberId excludedMemberId = true ↔
      ∃ team, Staffed policy members requesterMemberId excludedMemberId team) ∧
    (let all := slots policy members requesterMemberId excludedMemberId;
      (∀ slotIndex search, ∃! r, Searches all slotIndex (all.getD slotIndex []) search r) ∧
      ∀ b, Places all (List.range all.length) (fun _ => none) b ↔
        b = canSatisfyDistinctReviewers policy members requesterMemberId excludedMemberId) := by
  refine ⟨canSatisfyDistinctReviewers_iff,?_,fun b => places_iff⟩
  intro slotIndex search
  obtain ⟨r,hr⟩ := exists_searches (slots policy members requesterMemberId excludedMemberId)
    slotIndex search
  exact ⟨r,hr,fun r' hr' => hr'.det hr⟩

end Exactness

end HermesEnterprise.Approvals
