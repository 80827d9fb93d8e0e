import HermesEnterprise.Decisions.Inbox

/-! # The effects ledger

Whoever carries out an effect presses it. A rule for several people counts their confirmations as they stand
under the rule and the members of now, and the press that completes the count writes the outcome; a rule for one
person asks for no confirmation. No executor does the work itself.
-/
namespace HermesEnterprise.Decisions.Effects
open Approvals Foundation.CanonicalJson Foundation.Runs Foundation.Tables

abbrev EffectId := ℕ

inductive EffectStatus
  | pending | assigned | executed | cancelled | unavailable | failed | simulated
  deriving DecidableEq, Repr

/-- Nobody pressed it to the end, and no later version cancelled it. -/
def EffectStatus.waiting (status : EffectStatus) : Bool := status = .pending ∨ status = .assigned

structure ConfirmationRow where
  effectId : EffectId
  userId : UserId
  deriving DecidableEq, Repr

/-- The effects that decisions planned, with what became of them. `published` are the update notices. -/
structure Ledger where
  workspace : Workspace
  custody : Bool
  statuses : EffectId → EffectStatus
  executedBy : EffectId → Option UserId
  confirmations : List ConfirmationRow
  published : List EffectId

/-- Simulation needs its variable and an environment that is not production. -/
structure Environment where
  decisions : Decisions.Environment
  production : Bool
  simulated : Bool

def effectExecutorMode (env : Environment) : EffectStatus :=
  if env.production then .unavailable else if env.simulated then .simulated else .unavailable

section Rules
variable (l : Ledger) (effect : EffectRow)

/-- The rule for the kind of the effect, at the amount of its request. -/
def effectRule : RoutedRule :=
  routedRule (l.workspace.routes effect.kind.routeKey)
    ((l.workspace.requests.find? fun r => r.id = effect.requestId).bind fun r => requestAmount r.kind r.payload)

/-- The decider, and whoever else approved the request. -/
def decisionApprovers : List UserId :=
  (l.workspace.decisions.filter fun d => d.id = effect.decisionId).map DecisionRow.decidedBy ++
    (l.workspace.confirmations.filter fun c => c.requestId = effect.requestId).map Decisions.ConfirmationRow.userId

/-- Named by the rule, and not an approver of the request where the rule keeps them out. -/
def mayCarryOut (rule : ApprovalRouteRule) (person : ApproverPerson) : Bool :=
  mayApprove rule person && (rule.allowRequester || decide (person.userId ∉ decisionApprovers l effect))

/-- Who confirmed, with who they are now; the count does not ask whether they still read the request. -/
def confirmers : List Confirmer :=
  (l.confirmations.filter fun c => c.effectId = effect.id).map fun c =>
    { confirmerOf l.workspace ⟨effect.requestId,c.userId⟩ with inAudience := true }

def effectProgress (userId : UserId) : ApprovalProgress :=
  let rule := (effectRule l effect).rule
  countConfirmations rule (confirmers l effect) (mayCarryOut l effect rule) userId

/-- What the route answers with: the effect under the rule of now. -/
structure EffectView where
  id : EffectId
  status : EffectStatus
  approvalsRequired : ℕ
  requiredRole : String
  confirmedBy : List UserId
  covered : Bool
  deriving DecidableEq, Repr

def withLiveRequirement (userId : UserId) : EffectView :=
  let rule := (effectRule l effect).rule
  let progress := effectProgress l effect userId
  ⟨effect.id,l.statuses effect.id,rule.approvalsRequired,primaryRole rule,progress.counted,progress.covered⟩

end Rules

section Presses
variable (env : Environment) (l : Ledger)

/-- The effect, for who may read its request. -/
def loadEffect (effectId : EffectId) (userId : UserId) : Option EffectRow :=
  l.workspace.effects.find? fun e => decide (e.id = effectId) && inAudience l.workspace e.requestId userId

def walletPaymentPermissionRequired {α : Type} : Result α :=
  refuse "this change affects payment review and needs a verified owner-approved payment policy"
    "wallet_payment_permission_required" 409

def requireEffectApprover (effect : EffectRow) (m : MemberRow) : Result Unit := do
  let routed := effectRule l effect
  require (mayApprove routed.rule ⟨m.userId,m.role,m.reviewerRoles⟩)
    ("this needs " ++ env.decisions.routedLabel routed) "role_required" 403
  require (routed.rule.allowRequester || decide (m.userId ∉ decisionApprovers l effect))
    "you approved this request, so someone else carries it out" "same_person" 403

/-- `ON CONFLICT (effect_id, user_id) DO NOTHING`. -/
def confirm (effectId : EffectId) (userId : UserId) : Ledger :=
  if ⟨effectId,userId⟩ ∈ l.confirmations then l
  else { l with confirmations := l.confirmations ++ [⟨effectId,userId⟩] }

/-- The outcome of the attempt is written under its own status. -/
def carryOut (effect : EffectRow) (userId : UserId) : Ledger :=
  { l with
    statuses := Function.update l.statuses effect.id (effectExecutorMode env)
    executedBy := Function.update l.executedBy effect.id (some userId)
    published := l.published ++ [effect.id] }

/-- Whether the rule asks for recorded confirmations. -/
def counted (rule : ApprovalRouteRule) : Bool := decide (1 < rule.approvalsRequired) || rule.oneFromEach

def pressEffect (effect : EffectRow) (userId : UserId) : Ledger × EffectView :=
  let confirmed := confirm l effect.id userId
  if counted (effectRule l effect).rule then
    if progressComplete (effectProgress confirmed effect userId) then
      (carryOut env confirmed effect userId,
        withLiveRequirement (carryOut env confirmed effect userId) effect userId)
    else
      ({ confirmed with published := confirmed.published ++ [effect.id] },
        withLiveRequirement confirmed effect userId)
  else (carryOut env l effect userId,withLiveRequirement (carryOut env l effect userId) effect userId)

def executeEffect (userId : UserId) (recentSignIn : Bool) (effectId : EffectId) : Result (Ledger × EffectView) := do
  let m ← asMember l.workspace userId
  require recentSignIn "this action needs a recent sign-in" "reauth_required" 401
  match loadEffect l effectId userId with
  | none => refuse "no such effect" "unknown_effect" 404
  | some effect => do
    if effect.kind = .payment ∧ l.custody = true then walletPaymentPermissionRequired
    else do
      requireEffectApprover env l effect m
      match l.statuses effect.id with
      | .cancelled => refuse "this effect was cancelled by a later version" "effect_cancelled" 409
      | .unavailable | .simulated => return (l,withLiveRequirement l effect userId)
      | _ => return pressEffect env l effect userId

/-- A later version of its document cancels what waits. -/
def cancelByVersion (requestId : RequestId) : Ledger :=
  { l with
    statuses := fun id =>
      if (l.workspace.effects.any fun e => decide (e.id = id) && decide (e.requestId = requestId)) &&
        (l.statuses id).waiting then .cancelled else l.statuses id }

end Presses

inductive Event
  | press (userId : UserId) (recentSignIn : Bool) (effectId : EffectId)
  | workspace (e : Decisions.Event)
  | version (requestId : RequestId)
  | custody (configured : Bool)

def apply (env : Environment) (l : Ledger) : Event → Result Ledger
  | .press userId recentSignIn effectId => (executeEffect env l userId recentSignIn effectId).map Prod.fst
  | .workspace e => (Decisions.apply env.decisions l.workspace e).map fun w => { l with workspace := w }
  | .version requestId => .ok (cancelByVersion l requestId)
  | .custody configured => .ok { l with custody := configured }

def Step (env : Environment) : Ledger → Event → Ledger → Prop := Applied (apply env)

/-- Nothing was decided, so there is no effect yet. -/
structure Initial (l : Ledger) : Prop where
  workspace : Decisions.Initial l.workspace
  statuses : ∀ id, l.statuses id = .pending
  confirmations : l.confirmations = []

def ReachableLedger (env : Environment) : Ledger → Prop := Reachable Initial (Step env)

section Quorums
variable (l : Ledger) (effect : EffectRow)

/-- An active member whom the rule names and does not keep out. -/
structure Eligible (rule : ApprovalRouteRule) (m : MemberRow) : Prop where
  mem : m ∈ l.workspace.members
  active : m.status = .active
  named : mayApprove rule (personOf m) = true
  other : rule.allowRequester = false → m.userId ∉ decisionApprovers l effect

/-- Enough different eligible members have confirmed, with one from each group where asked. -/
structure Quorum (rule : ApprovalRouteRule) (people : List MemberRow) : Prop where
  distinct : (people.map MemberRow.userId).Nodup
  enough : rule.approvalsRequired ≤ people.length
  eligible : ∀ m ∈ people, Eligible l effect rule m
  confirmed : ∀ m ∈ people, ⟨effect.id,m.userId⟩ ∈ l.confirmations
  covered : rule.oneFromEach = true → ∀ group ∈ groupsOf rule, ∃ m ∈ people, inGroup (personOf m) group = true

end Quorums

end HermesEnterprise.Decisions.Effects
