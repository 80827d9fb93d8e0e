import HermesEnterprise.Approvals.Payload
import HermesEnterprise.Decisions.Routing
import HermesEnterprise.Foundation.Tables

/-! # The decision transaction

An approval is first a confirmation. The press that completes the count writes the
one decision of the request, moves the request, and plans its effects and document.
A governed partner invoice is also bound to its handoff.
-/
namespace HermesEnterprise.Decisions
open Approvals Foundation.CanonicalJson Foundation.Tables

inductive Decision
  | approve | decline
  deriving DecidableEq, Repr

inductive RequestStatus
  | pending | admitted | declined | created | drafted
  deriving DecidableEq, Repr

def RequestStatus.text : RequestStatus → String
  | pending => "pending"
  | admitted => "admitted"
  | declined => "declined"
  | created => "created"
  | drafted => "drafted"

/-- `RESULTING_STATUS`. -/
def resultingStatus : RouteKey → Decision → RequestStatus
  | .application, .approve => .admitted
  | .invoice, .approve => .created
  | .agreement, .approve => .drafted
  | _, _ => .declined

inductive EffectKind
  | accessGrant | emailSend | payment | signature
  deriving DecidableEq, Repr

def EffectKind.routeKey : EffectKind → RouteKey
  | accessGrant => .accessGrant
  | emailSend => .emailSend
  | payment => .payment
  | signature => .signature

/-- The kinds of the effects that a decision plans; a decline plans none. -/
def plannedEffects : RequestKind → Decision → List EffectKind
  | _, .decline => []
  | .application, .approve => [.accessGrant]
  | .invoice, .approve => [.emailSend,.payment]
  | .agreement, .approve => [.signature,.emailSend]
  | .approval, .approve | .task, .approve => []

/-- `requesterId` is the owner of the session that prepared the request. -/
structure RequestRow where
  id : RequestId
  kind : RequestKind
  status : RequestStatus
  label : String
  payload : Json
  version : ℕ
  subjectKey : Option String
  requesterId : Option UserId

structure ConfirmationRow where
  requestId : RequestId
  userId : UserId
  deriving DecidableEq, Repr

structure DecisionRow where
  id : ℕ
  requestId : RequestId
  decision : Decision
  resultingStatus : RequestStatus
  decidedBy : UserId
  note : Option String
  deriving DecidableEq, Repr

/-- A planned effect, always `pending` here. -/
structure EffectRow where
  id : ℕ
  decisionId : ℕ
  requestId : RequestId
  kind : EffectKind
  requiredRole : String
  approvalsRequired : ℕ
  assigneeId : Option UserId
  deriving DecidableEq, Repr

structure DocumentRow where
  id : ℕ
  requestId : RequestId
  kind : RequestKind
  version : ℕ
  payload : Json
  createdBy : UserId

structure AcknowledgmentRow where
  handoffId : ℕ
  decisionId : ℕ
  outcome : String
  resultCode : String
  financeReviewerDisplay : String
  deriving DecidableEq, Repr

/-- The joined rows of a partner handoff: its own state, the revisions and hashes it was checked at,
its authorization, and the two sources. -/
structure HandoffEvidence where
  financePrincipalId : UserId
  reviewerDisplay : String
  superseded : Bool
  validationStatus : String
  humanDecisionStatus : String
  sourceRecordRevision : ℕ
  engagementRevision : ℕ
  invoiceRecordRevision : ℕ
  invoiceRevision : ℕ
  expectedAuthorizationHash : String
  authorizationHash : String
  authorizationStatus : String
  authorizationInWindow : Bool
  approvalStatus : String
  engagementSourceStatus : String
  engagementSourceDeleted : Bool
  engagementSourceSha256 : String
  recordedEngagementSha256 : String
  invoiceSourceStatus : String
  invoiceSourceDeleted : Bool
  invoiceSourceSha256 : String
  recordedInvoiceSha256 : String
  consumedHandoffId : Option ℕ
  lineageRootId : ℕ
  deriving DecidableEq, Repr

/-- The handoff a request executes; the evidence is missing when a join finds no row. -/
structure PartnerExecution where
  handoffId : ℕ
  evidence : Option HandoffEvidence
  deriving DecidableEq, Repr

/-- What subscribers are told: a decision, or that an entity changed. -/
inductive Published
  | decisionRecorded (decisionId : ℕ) (effectIds : List ℕ)
  | requestUpdated (id : RequestId)
  | effectUpdated (id : ℕ)
  | documentUpdated (id : ℕ)
  deriving DecidableEq, Repr

/-- `now` is the clock in seconds. `members` is in joining order. -/
structure Workspace where
  now : ℕ
  members : List MemberRow
  routes : RouteKey → LoadedRoute
  requests : List RequestRow
  audiences : List (RequestId × UserId)
  confirmations : List ConfirmationRow
  decisions : List DecisionRow
  effects : List EffectRow
  documents : List DocumentRow
  executions : RequestId → Option PartnerExecution
  acknowledgments : List AcknowledgmentRow
  contractorAgreementsEnabled : Bool
  financePrincipalId : Option UserId
  legalName : String
  published : List Published
  nextId : ℕ

/-- What the code calls but this development does not open. -/
structure Environment where
  sha256Hex : List Char → String
  /-- The label of a rule and its band, as the refusal shows it. -/
  routedLabel : RoutedRule → String

/-- What the reviewer read: nothing, something that is not a binding, or a version and a hash. -/
inductive Review
  | absent
  | malformed
  | given (version : ℕ) (payloadHash : String)
  deriving DecidableEq, Repr

structure DecisionOutcome where
  decisionId : ℕ
  requestId : RequestId
  resultingStatus : RequestStatus
  effectIds : List ℕ
  documentIds : List ℕ
  conflict : Bool
  deriving DecidableEq, Repr

inductive Answer
  | decided (outcome : DecisionOutcome)
  | pending (required recorded : ℕ)
  deriving DecidableEq, Repr

section Reads
variable (w : Workspace)

def activeMember (userId : UserId) : Option MemberRow :=
  w.members.find? fun m => m.userId = userId ∧ m.status = .active

/-- No audience rows, or one for this person. -/
def inAudience (requestId : RequestId) (userId : UserId) : Bool :=
  (w.audiences.all fun a => a.1 ≠ requestId) || decide ((requestId,userId) ∈ w.audiences)

def RequestRow.routable (row : RequestRow) (handedToViewer : Option Bool) : RoutableRequest :=
  ⟨row.kind,row.payload,row.subjectKey,row.requesterId,handedToViewer⟩

/-- The role a person presses with. -/
def workRole (m : MemberRow) : String := if m.role = "admin" then "admin" else "member"

def viewerOf (m : MemberRow) : ApprovalViewer := ⟨m.userId,workRole m,m.reviewerRoles,w.routes⟩

def confirmerOf (c : ConfirmationRow) : Confirmer :=
  let member := w.members.find? fun m => m.userId = c.userId
  ⟨c.userId,member.map MemberRow.role,(member.map MemberRow.reviewerRoles).getD [],
    member.any fun m => m.status = .active,inAudience w c.requestId c.userId⟩

/-- The confirmers of a request, oldest first. -/
def decisionConfirmers (requestId : RequestId) : List Confirmer :=
  (w.confirmations.filter fun c => c.requestId = requestId).map (confirmerOf w)

def decisionProgress (key : RouteKey) (row : RequestRow) (m : MemberRow) : ApprovalProgress :=
  decisionProgressOf (viewerOf w m) key (row.routable none) (decisionConfirmers w row.id)

def existingDecision (requestId : RequestId) : Option DecisionOutcome :=
  (w.decisions.find? fun d => d.requestId = requestId).map fun d =>
    ⟨d.id,requestId,d.resultingStatus,
      (w.effects.filter fun e => e.decisionId = d.id).map (·.id),
      (w.documents.filter fun x => x.requestId = requestId).map (·.id),true⟩

/-- The first member to have joined who holds the role, the decider last. -/
def assigneeFor (requiredRole : String) (deciderId : UserId) : Option UserId :=
  let able := w.members.filter fun m => decide (m.status = .active) &&
    ((decide (requiredRole = "admin") && decide (m.role = "admin")) ||
      decide (requiredRole ∈ m.reviewerRoles))
  ((able.find? fun m => m.userId ≠ deciderId).or able.head?).map (·.userId)

end Reads

section Guards
variable (env : Environment) (w : Workspace) (m : MemberRow)

def requireAdmin (action : String) : Result Unit :=
  require (workRole m = "admin") (action ++ " needs an Admin") "admin_required" 403

/-- Who may record this decision: the answer the Inbox shows, for a request handed to the person. -/
def requireDecider (requestId : RequestId) : Result Unit :=
  match w.requests.find? fun r => r.id = requestId with
  | none => requireAdmin m "recording a decision"
  | some row =>
    let routable := row.routable (some (financeWorkflowRequest (row.routable none) &&
      decide ((requestId,m.userId) ∈ w.audiences)))
    match row.kind.routeKey with
    | none => requireAdmin m "recording a decision"
    | some key =>
      if mayDecideRequest (viewerOf w m) routable then .ok ()
      else
        let routed := decisionRule w.routes key routable
        if !routed.rule.allowRequester && decide (row.requesterId = some m.userId) then
          refuse "your agent prepared this, so someone else approves it" "own_request" 403
        else do
          if routed.rule.admins && routed.rule.roles.isEmpty then
            requireAdmin m "recording a decision"
          refuse ("this needs " ++ env.routedLabel routed) "approver_required" 403

def reviewHash (row : RequestRow) : String :=
  "sha256:" ++ env.sha256Hex (canonical (.object [("id",.string (toString row.id)),
    ("kind",.string row.kind.text),("payload",row.payload)]))

/-- An invoice or an agreement is decided only as it was read. -/
def requireReview (row : RequestRow) (review : Review) : Result Unit :=
  if row.kind = .invoice ∨ row.kind = .agreement then
    match review with
    | .absent => refuse "review the document before recording a decision" "review_binding_required" 409
    | .malformed => refuse "the document review binding is invalid" "bad_review_binding" 422
    | .given version hash =>
      require (version = row.version ∧ hash = reviewHash env row)
        "this document changed; review it again before deciding" "stale_request" 409
  else .ok ()

/-- The handoff stands as it was checked. -/
def HandoffEvidence.current (h : HandoffEvidence) : Bool :=
  !h.superseded && h.validationStatus = "passed" && h.humanDecisionStatus = "pending" &&
  h.sourceRecordRevision = h.engagementRevision && h.invoiceRecordRevision = h.invoiceRevision &&
  h.expectedAuthorizationHash = h.authorizationHash && h.authorizationStatus = "authorized" &&
  h.authorizationInWindow && h.approvalStatus = "approved" && h.engagementSourceStatus = "ready" &&
  !h.engagementSourceDeleted && h.engagementSourceSha256 = h.recordedEngagementSha256 &&
  h.invoiceSourceStatus = "ready" && !h.invoiceSourceDeleted &&
  h.invoiceSourceSha256 = h.recordedInvoiceSha256

def staleBinding {α : Type} : Result α :=
  refuse "The governed invoice evidence or role binding changed; review a fresh handoff."
    "request_binding_stale" 409

/-- The handoff of a governed invoice, with its evidence, when it may be decided now. -/
def lockPartnerDecisionBinding (requestId : RequestId) (principalOk : UserId → Bool) :
    Result (Option (ℕ × HandoffEvidence)) :=
  match w.executions requestId with
  | none => .ok none
  | some execution =>
    match execution.evidence with
    | some h =>
      if principalOk h.financePrincipalId && h.current then .ok (some (execution.handoffId,h))
      else staleBinding
    | none => staleBinding

end Guards

section Writes
variable (w : Workspace) (row : RequestRow) (decision : Decision) (userId : UserId)

/-- `ON CONFLICT (request_id, user_id) DO NOTHING`. -/
def confirm (requestId : RequestId) : Workspace :=
  if (⟨requestId,userId⟩ : ConfirmationRow) ∈ w.confirmations then w
  else { w with confirmations := w.confirmations ++ [⟨requestId,userId⟩] }

/-- One planned effect, for whom the rule of its kind names at the request's amount. -/
def effectRow (decisionId id : ℕ) (kind : EffectKind) : EffectRow :=
  let rule := (routedRule (w.routes kind.routeKey) (requestAmount row.kind row.payload)).rule
  ⟨id,decisionId,row.id,kind,primaryRole rule,rule.approvalsRequired,
    assigneeFor w (primaryRole rule) userId⟩

def planEffects (decisionId : ℕ) : List EffectRow :=
  (plannedEffects row.kind decision).zipIdx.map fun x =>
    effectRow w row userId decisionId (decisionId + 1 + x.2) x.1

/-- Version 1 of an approved invoice or agreement. -/
def planDocuments (id : ℕ) : List DocumentRow :=
  if decision = .approve ∧ (row.kind = .invoice ∨ row.kind = .agreement) ∧
      (w.documents.all fun x => x.requestId ≠ row.id ∨ x.version ≠ 1) = true then
    [⟨id,row.id,row.kind,1,row.payload,userId⟩]
  else []

/-- The decision, the move of its request, the effects and the document. -/
def writeDecision (key : RouteKey) (note : Option String) : Workspace × DecisionOutcome :=
  let resulting := resultingStatus key decision
  let effects := planEffects w row decision userId w.nextId
  let documents := planDocuments w row decision userId (w.nextId + 1 + effects.length)
  ({ w with
      decisions := w.decisions ++ [⟨w.nextId,row.id,decision,resulting,userId,note⟩]
      requests := updateWhere (fun r => r.id = row.id) 
        (fun r => { r with status := resulting, version := w.now }) w.requests
      effects := w.effects ++ effects
      documents := w.documents ++ documents
      published := w.published ++ [.decisionRecorded w.nextId (effects.map (·.id)),
        .requestUpdated row.id] ++ effects.map (fun e => .effectUpdated e.id) ++
        documents.map (fun x => .documentUpdated x.id)
      nextId := w.nextId + 1 + effects.length + documents.length },
    ⟨w.nextId,row.id,resulting,effects.map (·.id),documents.map (·.id),false⟩)

/-- `JSON` of a nested field, when it is an object. -/
def objectField (payload : Json) (name : String) : Json := (field payload name).getD .undefined

def textField (payload : Json) (name : String) : Option String :=
  match field payload name with
  | some (.string s) => some s
  | _ => none

def firstChars (n : ℕ) (s : String) : String := String.ofList (s.toList.take n)

/-- A text field with something in it, trimmed and cut. -/
def presentText (payload : Json) (name : String) (n : ℕ) : Option String :=
  match textField payload name with
  | some s => if trim s = "" then none else some (firstChars n (trim s))
  | none => none

def contractorName (application : RequestRow) : String :=
  (presentText (objectField application.payload "applicant") "name" 200).getD
    (firstChars 200 application.label)

def contractorPayload (application : RequestRow) (name : String) : Json :=
  let applicant := objectField application.payload "applicant"
  let person := [("name",Json.string name)] ++
    ((textField applicant "email").map fun e => ("email",Json.string e)).toList
  let proposedRole := (presentText application.payload "proposed_role" 120).getD "Independent contractor"
  let candidate := (textField (objectField application.payload "discovery") "candidate_id").map fun c =>
    ("candidate_id",Json.string c)
  .object [("kind",.string "agreement"),
    ("number",.string ("AGR-" ++ (firstChars 8 (toString application.id)).toUpper)),
    ("version_label",.string "draft"),
    ("parties",.array [.object [("name",.string w.legalName)],.object person]),
    ("sections",.array [.object [("id",.string "scope"),("heading",.string "Scope"),
      ("body",.string ("Independent contractor engagement for " ++ proposedRole ++ ".")),
      ("source_ids",.array [])]]),
    ("workflow_provenance",.object [("handoff_key",.string "contractor-agreements"),
      ("source_application_id",.string (toString application.id)),
      ("admitted_partner",.object (person ++ candidate.toList))])]

def contractorKey (application : RequestRow) : String :=
  "partner-contractor-agreement:" ++ toString application.id

def addAgreement : Workspace :=
  { w with
    requests := w.requests ++ [⟨w.nextId,.agreement,.pending,contractorName row,
      contractorPayload w row (contractorName row),w.now,some (contractorKey row),row.requesterId⟩]
    nextId := w.nextId + 1 }

/-- The owner of a request may read it, and subscribers hear of it. -/
def addOwner (id : RequestId) (principal : UserId) : Workspace :=
  { w with
    audiences := if (id,principal) ∈ w.audiences then w.audiences else w.audiences ++ [(id,principal)]
    published := w.published ++ [.requestUpdated id] }

/-- One pending agreement for Finance, when that handoff is enabled. It is never made twice. -/
def prepareContractorAgreement : Workspace :=
  match w.contractorAgreementsEnabled, w.financePrincipalId with
  | true, some principal =>
    if contractorName row = "" then w
    else
      match w.requests.find? fun r => r.subjectKey = some (contractorKey row) with
      | some r => addOwner w r.id principal
      | none => addOwner (addAgreement w row) w.nextId principal
  | _, _ => w

/-- The handoff of a decided invoice is used up and acknowledged. -/
def consumeHandoff (handoffId : ℕ) (h : HandoffEvidence) (decisionId : ℕ) : Result Workspace := do
  require (h.authorizationStatus = "authorized" ∧ h.consumedHandoffId = some h.lineageRootId)
    "The engagement authorization was consumed or revoked while deciding." "request_binding_stale" 409
  let human := if decision = .approve then "approved" else "declined"
  return { w with
    executions := Function.update w.executions row.id (some ⟨handoffId,some { h with
      authorizationStatus := "consumed", humanDecisionStatus := human }⟩)
    acknowledgments := w.acknowledgments ++ [⟨handoffId,decisionId,
      if decision = .approve then "invoice_draft_saved" else "declined",human,
      firstChars 120 h.reviewerDisplay⟩] }

end Writes

section Press
variable (env : Environment) (w : Workspace) (m : MemberRow) (decision : Decision)
variable (note : Option String)

/-- An invoice is decided on its handoff, when it has one. -/
def decisionBinding (row : RequestRow) (counted : List UserId) : Result (Option (ℕ × HandoffEvidence)) :=
  if row.kind = .invoice then
    lockPartnerDecisionBinding w row.id fun p => p = m.userId ∨ p ∈ counted
  else .ok none

/-- What follows the rows of a decision: the agreement of an admitted application, and the handoff. -/
def followDecision (row : RequestRow) (decisionId : ℕ) (binding : Option (ℕ × HandoffEvidence)) :
    Result Workspace :=
  let w := if decision = .approve ∧ row.kind = .application then prepareContractorAgreement w row else w
  match binding with
  | some (handoffId,h) => consumeHandoff w row decision handoffId h decisionId
  | none => .ok w

/-- The rows of a decision whose press is complete. -/
def finishDecision (row : RequestRow) (key : RouteKey) (counted : List UserId) :
    Result (Workspace × Answer) := do
  let binding ← decisionBinding w m row counted
  match existingDecision w row.id with
  | some already => .ok (w,.decided already)
  | none => do
    let written := writeDecision w row decision m.userId key note
    let w' ← followDecision written.1 decision row written.2.decisionId binding
    return (w',.decided written.2)

/-- A first press records a confirmation; the press that completes the count decides. -/
def approveOrWait (row : RequestRow) (key : RouteKey) : Result (Workspace × Answer) :=
  let w := confirm w m.userId row.id
  let progress := decisionProgress w key row m
  if progressComplete progress then finishDecision w m decision note row key progress.counted
  else .ok ({ w with published := w.published ++ [.requestUpdated row.id] },
    .pending progress.required progress.recorded)

def recordDecision (requestId : RequestId) (review : Review) : Result (Workspace × Answer) :=
  match w.requests.find? fun r => decide (r.id = requestId) && inAudience w r.id m.userId with
  | none => refuse "no such request" "unknown_request" 404
  | some row =>
    if row.status ≠ .pending then
      match existingDecision w requestId with
      | some already => .ok (w,.decided already)
      | none => refuse ("this request is already " ++ row.status.text) "not_pending" 409
    else
      match row.kind, row.kind.routeKey with
      | .task, _ => refuse "tasks are completed through their named workflow" "task_route_required" 409
      | _, none =>
        refuse "approval requests use the approval decision route" "approval_route_required" 409
      | _, some key => do
        requireReview env row review
        if decision = .approve then approveOrWait w m decision note row key
        else finishDecision w m decision note row key []

/-- The route: an active member, allowed by the rule, with a recent sign-in. -/
def createDecision (userId : UserId) (recentSignIn : Bool) (requestId : RequestId)
    (review : Review) : Result (Workspace × Answer) :=
  match activeMember w userId with
  | none => refuse "workspace not found" "not_a_member" 404
  | some m => do
    requireDecider env w m requestId
    require recentSignIn "this action needs a recent sign-in" "reauth_required" 401
    recordDecision env w m decision note requestId review

end Press
end HermesEnterprise.Decisions
