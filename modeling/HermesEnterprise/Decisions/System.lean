import HermesEnterprise.Decisions.Record
import HermesEnterprise.Foundation.Runs

/-! # The decisions of one workspace

Presses, edits of the approval rules, and the changes that other parts of the product
make between them: members join, leave and change roles; requests are raised and
edited; partner handoffs move.
-/
namespace HermesEnterprise.Decisions
open Approvals Foundation.CanonicalJson Foundation.Runs Foundation.Tables

/-- The rules before an Admin changes them. -/
def defaultRule : RouteKey → ApprovalRouteRule
  | .application | .invoice | .agreement | .signature | .emailSend => ⟨true,[],1,true,false⟩
  | .payment => ⟨false,["finance"],2,true,false⟩
  | .accessGrant => ⟨false,["access"],1,true,false⟩

/-- Whether the work carries an amount. -/
def RouteKey.amount : RouteKey → Bool
  | invoice | payment => true
  | application | agreement | accessGrant | signature | emailSend => false

def maxApprovals : ℕ := 5

section Rules
variable (w : Workspace) (m : MemberRow) (key : RouteKey)

/-- The shape of a rule, then why it cannot be saved. -/
def requireRule (rule : ApprovalRouteRule) : Result Unit := do
  require (1 ≤ rule.approvalsRequired ∧ rule.approvalsRequired ≤ maxApprovals)
    "that is not a valid approval rule" "bad_rule" 422
  match ruleProblem rule with
  | none => .ok ()
  | some reason =>
    refuse (if reason = "no_approver" then "choose at least one group who can approve"
      else "one from each group needs two or more groups and two or more people") reason 422

/-- Save both bands of a rule. -/
def putApprovalRoute (rule : ApprovalRouteRule) (threshold : Option ApprovalThreshold) :
    Result Workspace := do
  requireAdmin m "changing who approves"
  require (threshold.isNone || key.amount) "this kind of work has no amount" "no_amount_for_route" 422
  requireRule rule
  (threshold.map (·.rule)).toList.forM requireRule
  return { w with
    routes := Function.update w.routes key ⟨{ rule with roles := rule.roles.dedup },
      threshold.map fun t => { t with rule := { t.rule with roles := t.rule.roles.dedup } }⟩ }

def resetApprovalRoute : Result Workspace := do
  requireAdmin m "changing who approves"
  return { w with routes := Function.update w.routes key ⟨defaultRule key,none⟩ }

end Rules

/-- A request as it is raised. The workflows that use the handoff keys name its readers with it. -/
structure NewRequest where
  kind : RequestKind
  label : String
  payload : Json
  subjectKey : Option String
  requesterId : Option UserId
  audience : List UserId
  handed : financeWorkflowRequest ⟨kind,payload,subjectKey,requesterId,none⟩ = true → audience ≠ []

theorem application_handed : financeWorkflowRequest ⟨.application,.object [],none,none,none⟩ = true → ([] : List UserId) ≠ [] := by
  decide

inductive Event
  | press (userId : UserId) (recentSignIn : Bool) (requestId : RequestId) (decision : Decision)
      (note : Option String) (review : Review)
  | putRoute (userId : UserId) (key : RouteKey) (rule : ApprovalRouteRule)
      (threshold : Option ApprovalThreshold)
  | resetRoute (userId : UserId) (key : RouteKey)
  | members (next : List MemberRow)
  | raise (request : NewRequest)
  | edit (requestId : RequestId) (payload : Json)
  | handoff (requestId : RequestId) (execution : Option PartnerExecution)
  | settings (contractorAgreements : Bool) (financePrincipalId : Option UserId) (legalName : String)
  | tick (elapsed : ℕ)

def raiseRequest (w : Workspace) (request : NewRequest) : Workspace :=
  { w with
    requests := w.requests ++ [⟨w.nextId,request.kind,.pending,request.label,request.payload,w.now,
      request.subjectKey,request.requesterId⟩]
    audiences := w.audiences ++ request.audience.map fun u => (w.nextId,u)
    nextId := w.nextId + 1 }

def asMember (w : Workspace) (userId : UserId) : Result MemberRow :=
  match activeMember w userId with
  | some m => .ok m
  | none => refuse "workspace not found" "not_a_member" 404

def apply (env : Environment) (w : Workspace) : Event → Result Workspace
  | .press userId recentSignIn requestId decision note review =>
    (createDecision env w decision note userId recentSignIn requestId review).map Prod.fst
  | .putRoute userId key rule threshold => do
    let m ← asMember w userId
    putApprovalRoute w m key rule threshold
  | .resetRoute userId key => do
    let m ← asMember w userId
    resetApprovalRoute w m key
  | .members next => do
    require ((next.map (·.userId)).Nodup) "a member twice" "members_user_unique" 409
    return { w with members := next }
  | .raise request => .ok (raiseRequest w request)
  | .edit requestId payload =>
    .ok { w with
      requests := updateWhere (fun r => r.id = requestId)
        (fun r => { r with payload, version := w.now }) w.requests }
  | .handoff requestId execution =>
    .ok { w with executions := Function.update w.executions requestId execution }
  | .settings contractorAgreements financePrincipalId legalName =>
    .ok { w with contractorAgreementsEnabled := contractorAgreements, financePrincipalId, legalName }
  | .tick elapsed => .ok { w with now := w.now + elapsed }

def Step (env : Environment) : Workspace → Event → Workspace → Prop := Applied (apply env)

/-- No request was raised yet. -/
structure Initial (w : Workspace) : Prop where
  members : (w.members.map (·.userId)).Nodup
  routes : ∀ key, w.routes key = ⟨defaultRule key,none⟩
  requests : w.requests = []
  audiences : w.audiences = []
  confirmations : w.confirmations = []
  decisions : w.decisions = []
  effects : w.effects = []
  documents : w.documents = []

def ReachableWorkspace (env : Environment) : Workspace → Prop := Reachable Initial (Step env)

end HermesEnterprise.Decisions
