import HermesEnterprise.Approvals.Policy
import HermesEnterprise.Foundation.CanonicalJson
import Mathlib.Data.List.Dedup

/-! # Approval routing

Who may approve each kind of work: a rule an Admin edits, with a second band above
an amount for invoices and payments. Confirmations count against the rule and the
people as they are now.
-/
namespace HermesEnterprise.Decisions
open Approvals Foundation.CanonicalJson

inductive RequestKind
  | application | invoice | agreement | approval | task
  deriving DecidableEq, Repr

def RequestKind.text : RequestKind → String
  | application => "application"
  | invoice => "invoice"
  | agreement => "agreement"
  | approval => "approval"
  | task => "task"

inductive RouteKey
  | application | invoice | agreement | payment | accessGrant | signature | emailSend
  deriving DecidableEq, Repr

structure ApprovalRouteRule where
  admins : Bool
  roles : List String
  approvalsRequired : ℕ
  allowRequester : Bool
  oneFromEach : Bool
  deriving DecidableEq, Repr

/-- The band above `overMinor`, strictly. -/
structure ApprovalThreshold where
  overMinor : ℕ
  currency : String
  rule : ApprovalRouteRule
  deriving DecidableEq, Repr

structure LoadedRoute where
  rule : ApprovalRouteRule
  threshold : Option ApprovalThreshold
  deriving DecidableEq, Repr

structure Amount where
  minor : ℕ
  currency : String
  deriving DecidableEq, Repr

/-- The named groups of a rule: `admins`, or `role:<slug>`. -/
inductive Group
  | admins
  | role (slug : String)
  deriving DecidableEq, Repr

def groupsOf (rule : ApprovalRouteRule) : List Group :=
  (if rule.admins then [.admins] else []) ++ rule.roles.dedup.map .role

/-- Someone whose approval might count. -/
structure ApproverPerson where
  userId : UserId
  role : String
  reviewerRoles : List String
  deriving DecidableEq, Repr

def inGroup (person : ApproverPerson) : Group → Bool
  | .admins => person.role = "admin"
  | .role slug => slug ∈ person.reviewerRoles

def mayApprove (rule : ApprovalRouteRule) (person : ApproverPerson) : Bool :=
  (rule.admins && decide (person.role = "admin")) || rule.roles.any (· ∈ person.reviewerRoles)

/-- Why a rule cannot be saved, beyond its shape. -/
def ruleProblem (rule : ApprovalRouteRule) : Option String :=
  if !rule.admins && rule.roles.isEmpty then some "no_approver"
  else if rule.oneFromEach && (decide (rule.approvalsRequired < 2) ||
      decide ((groupsOf rule).length < 2)) then some "one_from_each_needs_groups"
  else none

inductive BandReason
  | overThreshold | otherCurrency
  deriving DecidableEq, Repr

structure RoutedRule where
  rule : ApprovalRouteRule
  reason : Option BandReason
  threshold : Option ApprovalThreshold
  deriving DecidableEq, Repr

/-- The band that applies: an amount in another currency takes the stricter one. -/
def effectiveRule (loaded : LoadedRoute) (amount : Option Amount) :
    ApprovalRouteRule × Option BandReason :=
  match loaded.threshold, amount with
  | some threshold, some amount =>
    if amount.currency ≠ threshold.currency then (threshold.rule,some .otherCurrency)
    else if threshold.overMinor < amount.minor then (threshold.rule,some .overThreshold)
    else (loaded.rule,none)
  | _, _ => (loaded.rule,none)

def routedRule (loaded : LoadedRoute) (amount : Option Amount) : RoutedRule :=
  let effective := effectiveRule loaded amount
  ⟨effective.1,effective.2,loaded.threshold⟩

def primaryRole (rule : ApprovalRouteRule) : String := rule.roles.headD "admin"

def field (payload : Json) (name : String) : Option Json :=
  match payload with
  | .object fields => (fields.find? fun f => f.1 = name).map (·.2)
  | _ => none

/-- `^[A-Z]{3}$` -/
def isCurrency (s : String) : Bool := s.toList.length = 3 && s.toList.all fun c => 'A' ≤ c && c ≤ 'Z'

/-- An invoice's `total_minor` and `currency`; a total with no readable currency is in none. -/
def requestAmount (kind : RequestKind) (payload : Json) : Option Amount :=
  if kind ≠ .invoice then none
  else
    match field payload "total_minor" with
    | some (.number literal) =>
      match literal.toNat? with
      | some minor =>
        if minor < 2 ^ 53 then
          some ⟨minor,match field payload "currency" with
            | some (.string currency) => if isCurrency currency then currency else ""
            | _ => ""⟩
        else none
      | none => none
    | _ => none

structure ApprovalViewer where
  userId : UserId
  role : String
  reviewerRoles : List String
  routes : RouteKey → LoadedRoute

def ApprovalViewer.person (viewer : ApprovalViewer) : ApproverPerson :=
  ⟨viewer.userId,viewer.role,viewer.reviewerRoles⟩

/-- A legacy request, as much of it as routing needs. `handedToViewer` is left out by readers that
list only requests the viewer may read. -/
structure RoutableRequest where
  kind : RequestKind
  payload : Json
  subjectKey : Option String
  requesterId : Option UserId
  handedToViewer : Option Bool

/-- The rule key of a kind that has one. -/
def RequestKind.routeKey : RequestKind → Option RouteKey
  | application => some .application
  | invoice => some .invoice
  | agreement => some .agreement
  | approval | task => none

def isDecisionKind (kind : RequestKind) : Bool := kind.routeKey.isSome

def hasPrefix (start : String) (key : Option String) : Bool :=
  key.any fun k => start.toList.isPrefixOf k.toList

def financeWorkflowRequest (row : RoutableRequest) : Bool :=
  (row.kind = .invoice && hasPrefix "partner-invoice-handoff:" row.subjectKey) ||
  (row.kind = .agreement && hasPrefix "partner-contractor-agreement:" row.subjectKey)

def decisionRule (routes : RouteKey → LoadedRoute) (key : RouteKey) (row : RoutableRequest) :
    RoutedRule := routedRule (routes key) (requestAmount row.kind row.payload)

/-- The rule decides, a handoff request also goes to Finance, and the requester may be kept out. -/
def eligibleForDecision (rule : ApprovalRouteRule) (row : RoutableRequest) (person : ApproverPerson) :
    Bool :=
  !(!rule.allowRequester && row.requesterId = some person.userId) &&
    (mayApprove rule person ||
      (financeWorkflowRequest row && decide ("finance" ∈ person.reviewerRoles) &&
        row.handedToViewer.getD true))

def mayDecideRequest (viewer : ApprovalViewer) (row : RoutableRequest) : Bool :=
  match row.kind.routeKey with
  | none => false
  | some key => eligibleForDecision (decisionRule viewer.routes key row).rule row viewer.person

/-- A person who pressed approve, with who they are now. -/
structure Confirmer where
  userId : UserId
  role : Option String
  reviewerRoles : List String
  active : Bool
  inAudience : Bool
  deriving DecidableEq, Repr

structure ApprovalProgress where
  required : ℕ
  recorded : ℕ
  byViewer : Bool
  covered : Bool
  counted : List UserId
  deriving DecidableEq, Repr

/-- The confirmers that are active members who can read the request, as people. -/
def standing (confirmers : List Confirmer) : List ApproverPerson :=
  (confirmers.filter fun c => c.active && c.role.isSome && c.inAudience).map fun c =>
    ⟨c.userId,c.role.getD "",c.reviewerRoles⟩

/-- Keep the first entry of each person. -/
def firstOfEach : List ApproverPerson → List ApproverPerson
  | [] => []
  | p :: rest => p :: (firstOfEach rest).filter fun q => q.userId ≠ p.userId

def covers (rule : ApprovalRouteRule) (people : List ApproverPerson) : Bool :=
  !rule.oneFromEach || (groupsOf rule).all fun group => people.any fun p => inGroup p group

/-- Count the approvals that still stand. -/
def countConfirmations (rule : ApprovalRouteRule) (confirmers : List Confirmer)
    (eligible : ApproverPerson → Bool) (viewerId : UserId) : ApprovalProgress :=
  let people := (firstOfEach (standing confirmers)).filter eligible
  ⟨rule.approvalsRequired,people.length,people.any fun p => p.userId = viewerId,covers rule people,
    people.map (·.userId)⟩

def progressComplete (progress : ApprovalProgress) : Bool :=
  decide (progress.required ≤ progress.recorded) && progress.covered

/-- The audience is re-checked through each confirmer, not through the viewer's handoff. -/
def decisionProgressOf (viewer : ApprovalViewer) (key : RouteKey) (row : RoutableRequest)
    (confirmers : List Confirmer) : ApprovalProgress :=
  let rule := (decisionRule viewer.routes key row).rule
  countConfirmations rule confirmers (eligibleForDecision rule { row with handedToViewer := none })
    viewer.userId

end HermesEnterprise.Decisions
