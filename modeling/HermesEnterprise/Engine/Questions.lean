import HermesEnterprise.Approvals.Payload
import HermesEnterprise.Foundation.Runs
import HermesEnterprise.Foundation.Tables

/-! # Questions of the in-house engine

A tool step may ask: for a context field, or for the approval of its operation. The run parks until
a person answers. The Workflow journals steps and events under their names, runs the rest of the code
again on every replay, and keeps events until some wait of their type takes them.
-/
namespace HermesEnterprise.Engine.Questions
open Foundation.Runs Foundation.Tables

abbrev CallId := String
abbrev Key := String
abbrev ApprovalId := String
abbrev AgentId := ℕ

inductive Value
  | text (value : String)
  | other (json : String)
  deriving DecidableEq, Repr

abbrev Arguments := List (String × Value)

/-- A tool call of the model, in the turn that made it. -/
structure Call where
  turn : ℕ
  id : CallId
  name : String
  arguments : Arguments
  deriving DecidableEq, Repr

/-- What names the tool step and the answer step of a call. -/
abbrev StepName := ℕ × CallId

def Call.step (c : Call) : StepName := (c.turn,c.id)

/-- What a run has to go through, in order. -/
inductive Item
  | malformed (turn : ℕ)
  | call (c : Call)
  deriving DecidableEq, Repr

structure Waiting where
  key : Key
  label : String
  deriving DecidableEq, Repr

inductive ApprovalStatus
  | pending
  | approved
  | denied
  deriving DecidableEq, Repr

/-- A row of `agent_operation_approvals` of the run. -/
structure Approval where
  id : ApprovalId
  agentId : AgentId
  callId : CallId
  operationId : String
  toolName : String
  arguments : Arguments
  status : ApprovalStatus
  deriving DecidableEq, Repr

inductive RunStatus
  | working
  | waiting
  /-- Completed, stopped or failed; a terminal run stays so. -/
  | ended
  deriving DecidableEq, Repr

/-- What the Workflow keeps across replays. -/
structure Journal where
  tools : StepName → Option (Option Waiting)
  parks : List CallId
  observations : CallId → List ApprovalStatus
  wakes : CallId → ℕ
  /-- The slots of the context waits that returned. -/
  waits : List ℕ
  answers : List StepName

/-- Where the code stands within a call. -/
inductive Stage
  | fresh
  | asked (q : Waiting)
  | parked (q : Waiting)
  | observing (q : Waiting) (n : ℕ)
  | sleeping (q : Waiting) (n : ℕ)
  | woken (q : Waiting)
  deriving DecidableEq, Repr

/-- A tool that ran, with what consent there was at that moment. -/
structure Execution where
  callId : CallId
  name : String
  arguments : Arguments
  required : Bool
  approval : Option Approval
  deriving DecidableEq, Repr

/-- The history is in the last three fields: the questions that parked, those whose key a person answered after
they were asked, and the tools that ran. -/
structure World where
  agentId : Option AgentId
  plan : Bool
  allowed : List String
  required : List String
  status : RunStatus
  waitingFor : Option Waiting
  turns : ℕ
  items : List Item
  journal : Journal
  place : ℕ
  stage : Stage
  waited : ℕ
  buffer : List Key
  fields : List (Key × Option String)
  approvals : List Approval
  replies : List (CallId × Key × Option String)
  parked : List (StepName × Key)
  answered : List StepName
  executed : List Execution

section Tools

def operationCatalog : List (String × List String) :=
  [("read_partner_information",["list_partner_candidates","get_partner_candidate"]),
    ("save_review_notes",["save_review_note"]),
    ("prepare_drafts",["propose_request","propose_instruction"]),
    ("request_approval",["propose_approval"]),
    ("publish_handoff",["publish_partner_invoice_review"]),
    ("read_handoff_results",["get_partner_handoff_result"])]

def agentOperationForTool (name : String) : Option String :=
  (operationCatalog.find? fun operation => name ∈ operation.2).map Prod.fst

def preparedTools : List String :=
  ["propose_request","propose_approval","save_review_note","set_context_field","propose_instruction"]

def operationMark : String := "operation_approval:"

def operationApprovalKey (id : ApprovalId) : Key := operationMark ++ id

/-- The approval a key names, for the code: any key with that beginning. -/
def operationApprovalId (key : Key) : Option ApprovalId :=
  if operationMark.toList.isPrefixOf key.toList then
    some (String.ofList (key.toList.drop operationMark.toList.length))
  else none

def Arguments.str (arguments : Arguments) (name : String) : String :=
  match arguments.lookup name with
  | some (.text value) => value
  | _ => ""

def askForContext : String := "ask_for_context"

/-- What `ask_for_context` waits for; it refuses an empty key or question. -/
def askedFor (arguments : Arguments) : Option Waiting :=
  let key := Approvals.trim (arguments.str "key")
  let question := Approvals.trim (arguments.str "question")
  if key = "" ∨ question = "" then none else some ⟨key,String.ofList (question.toList.take 200)⟩

variable (w : World)

def approvalOf (callId : CallId) : Option Approval := w.approvals.find? fun a => a.callId = callId

def loadOperationApproval (id : ApprovalId) : Option Approval := w.approvals.find? fun a => a.id = id

/-- The consent row of a call, a new one where the policy requires it; none throws `operation_approval_call_conflict`. -/
def operationConsent (agentId : AgentId) (callId : CallId) (name : String) (arguments : Arguments)
    (newId : ApprovalId) : Option (World × Option Approval) :=
  match agentOperationForTool name with
  | none => some (w,none)
  | some operationId =>
    match approvalOf w callId with
    | some row =>
      if row.toolName = name ∧ row.arguments = arguments ∧ row.agentId = agentId then some (w,some row) else none
    | none =>
      if operationId ∈ w.required then
        let row : Approval := ⟨newId,agentId,callId,operationId,name,arguments,.pending⟩
        some ({ w with approvals := w.approvals ++ [row] },some row)
      else some (w,none)

/-- A tool runs: `ask_for_context` asks, any other takes effect. -/
def runTool (callId : CallId) (name : String) (arguments : Arguments) : World × Option Waiting :=
  if name = askForContext then (w,askedFor arguments)
  else
    ({ w with executed := ⟨callId,name,arguments,
        w.agentId.isSome && (agentOperationForTool name).any fun operationId => operationId ∈ w.required,
        approvalOf w callId⟩ :: w.executed },none)

def executeTool (callId : CallId) (name : String) (arguments : Arguments) (newId : ApprovalId) :
    Option (World × Option Waiting) := do
  let prepared := w.plan && decide (name ∈ preparedTools)
  let (w',consent) ← match w.agentId with
    | some agentId => if prepared then some (w,none) else operationConsent w agentId callId name arguments newId
    | none => some (w,none)
  match consent with
  | some ⟨id,_,_,_,_,_,.pending⟩ =>
    return (w',some ⟨operationApprovalKey id,"Approve " ++ name ++ " in Permissions"⟩)
  | some ⟨_,_,_,_,_,_,.denied⟩ => return (w',none)
  | _ => return if prepared then (w',none) else runTool w' callId name arguments

end Tools

section Engine
variable (w : World)

def current : Option Call :=
  match w.items[w.place]? with
  | some (.call c) => some c
  | _ => none

/-- On to the next call. -/
def World.next : World := { w with place := w.place + 1, stage := .fresh }

structure CallInput where
  id : CallId
  name : String
  arguments : Arguments
  deriving DecidableEq, Repr

/-- The provider step of the next turn answers with calls. -/
def provide (calls : List CallInput) : Option World :=
  if w.place = w.items.length then
    some { w with
      turns := w.turns + 1
      items := w.items ++ calls.map fun c => .call ⟨w.turns,c.id,c.name,c.arguments⟩ }
  else none

/-- Its tool arguments were no JSON: the assistant's message of the turn stays incomplete. -/
def malformed : Option World :=
  if w.place = w.items.length then
    some ({ w with turns := w.turns + 1, items := w.items ++ [Item.malformed w.turns] } : World).next
  else none

/-- A replay goes on from a malformed turn, whose steps are journaled. -/
def pass : Option World :=
  match w.items[w.place]? with
  | some (.malformed _) => some w.next
  | _ => none

def World.goOn (outcome : Option Waiting) : World :=
  match outcome with
  | none => w.next
  | some q => { w with stage := .asked q }

def toolStep (newId : ApprovalId) : Option World := do
  let c ← current w
  if w.stage ≠ .fresh ∨ (loadOperationApproval w newId).isSome then none
  else match w.journal.tools c.step with
  | some outcome => return w.goOn outcome
  | none =>
    let (w',outcome) ← if c.name ∈ w.allowed then executeTool w c.id c.name c.arguments newId else some (w,none)
    return ({ w' with
      journal := { w'.journal with tools := Function.update w'.journal.tools c.step (some outcome) } }).goOn outcome

/-- Show the run as waiting. -/
def World.show (c : Call) (q : Waiting) : World :=
  { w with status := .waiting, waitingFor := some q, parked := w.parked ++ [(c.step,q.key)] }

/-- The empty row that the Context tab lists; an answer in it stays. -/
def ensureContextField (key : Key) : World :=
  if w.agentId.isNone ∨ w.fields.any (fun f => f.1 = key) then w
  else { w with fields := w.fields ++ [(key,none)] }

/-- Parking for an approval is a journaled step; parking for a context field is not. -/
def park : Option World := do
  let c ← current w
  match w.stage with
  | .asked q =>
    match operationApprovalId q.key with
    | none => return { (ensureContextField w q.key).show c q with stage := .parked q }
    | some _ =>
      if c.id ∈ w.journal.parks then return { w with stage := .observing q 0 }
      else return { w.show c q with
        journal := { w.journal with parks := c.id :: w.journal.parks }, stage := .observing q 0 }
  | _ => none

/-- A context wait returns with the event of its slot, or takes the first one there is. Its payload is not read. -/
def waitForContext (slot : ℕ → ℕ) : Option World :=
  match w.stage with
  | .parked q =>
    if slot w.waited ∈ w.journal.waits then some { w with stage := .woken q, waited := w.waited + 1 }
    else match w.buffer with
    | [] => none
    | _ :: rest => some { w with
        buffer := rest, stage := .woken q, waited := w.waited + 1,
        journal := { w.journal with waits := slot w.waited :: w.journal.waits } }
  | _ => none

/-- One observation of the approval, journaled. -/
def observe : Option World := do
  let c ← current w
  match w.stage with
  | .observing q n =>
    let id ← operationApprovalId q.key
    let seen := (w.journal.observations c.id)[n]?
    let status := seen.getD (((loadOperationApproval w id).map Approval.status).getD .pending)
    let journal := if seen.isSome then w.journal else
      { w.journal with
        observations := Function.update w.journal.observations c.id (w.journal.observations c.id ++ [status]) }
    return { w with journal := journal, stage := if status = .pending then .sleeping q n else .woken q }
  | _ => none

/-- A wake-up while the approval was pending: a journaled one, or the first event there is. -/
def wake : Option World := do
  let c ← current w
  match w.stage with
  | .sleeping q n =>
    if n < w.journal.wakes c.id then return { w with stage := .observing q (n + 1) }
    else match w.buffer with
    | [] => none
    | _ :: rest => return { w with
        buffer := rest, stage := .observing q (n + 1),
        journal := { w.journal with wakes := Function.update w.journal.wakes c.id (n + 1) } }
  | _ => none

/-- The answer is written and the run works again. -/
def World.settle (c : Call) (key : Key) (value : Option String) : World :=
  ({ w with
    status := .working
    waitingFor := none
    replies := w.replies ++ [(c.id,key,value)]
    journal := { w.journal with answers := c.step :: w.journal.answers } }).next

/-- What the answer step of an approval does: the operation it names runs with the arguments it holds. -/
def executeApproved (approval : Approval) (newId : ApprovalId) : Option World :=
  match approval.status with
  | .pending => none
  | .denied => some w
  | .approved =>
    if approval.toolName ∈ w.allowed then
      (executeTool w approval.callId approval.toolName approval.arguments newId).map Prod.fst
    else some w

def answerStep (newId : ApprovalId) : Option World := do
  let c ← current w
  match w.stage with
  | .woken q =>
    if c.step ∈ w.journal.answers then return w.next
    else if (loadOperationApproval w newId).isSome then none
    else match operationApprovalId q.key with
    | some id =>
      let approval ← loadOperationApproval w id
      let w' ← executeApproved w approval newId
      return w'.settle c q.key none
    | none =>
      let value := if w.agentId.isNone then none else (w.fields.find? fun f => f.1 = q.key).bind Prod.snd
      return w.settle c q.key value
  | _ => none

/-- The first turn whose assistant message is not complete, or the turn after the last. -/
def resumePlace (items : List Item) : ℕ :=
  items.findIdx fun (item : Item) => match item with
    | .malformed _ => true
    | .call _ => false

/-- The instance starts over with its journal. -/
def replay : World := { w with place := resumePlace w.items, stage := .fresh, waited := 0 }

end Engine

section People
variable (w : World)

/-- The questions that were asked with this key, by now. -/
def askedWith (key : Key) : List StepName :=
  w.items.filterMap fun item => match item with
    | .call c => if (w.journal.tools c.step).join.any (fun q => q.key = key) then some c.step else none
    | .malformed _ => none

/-- A person sets a context field; clearing it is no answer. -/
def setContextField (key : Key) (value : Option String) : World :=
  { w with
    fields := (key,value) :: w.fields.filter fun f => f.1 ≠ key
    answered := if value.isSome then askedWith w key ++ w.answered else w.answered }

/-- A person decides an approval, once. -/
def decideAgentOperation (id : ApprovalId) (decision : ApprovalStatus) : Option World :=
  match loadOperationApproval w id with
  | some ⟨_,_,_,_,_,_,.pending⟩ =>
    if decision = .pending then none
    else some { w with
      approvals := updateWhere (fun a => a.id = id) (fun a => { a with status := decision }) w.approvals
      answered := askedWith w (operationApprovalKey id) ++ w.answered }
  | _ => none

end People

inductive Event
  | provide (calls : List CallInput)
  | malformed
  | pass
  | tool (newId : ApprovalId)
  | park
  | wait
  | observe
  | wake
  | answer (newId : ApprovalId)
  | replay
  | ends
  /-- A context-answered event arrives at the instance, early, late or again. -/
  | deliver (key : Key)
  | setContextField (key : Key) (value : Option String)
  | decide (id : ApprovalId) (decision : ApprovalStatus)
  | configure (allowed required : List String)
  deriving DecidableEq, Repr

/-- `slot` says under which slot of the journal the `n`-th wait of one execution stands, as all context waits
have the same name. -/
def apply (slot : ℕ → ℕ) (w : World) (e : Event) : Option World :=
  match e with
  | .deliver key => some { w with buffer := w.buffer ++ [key] }
  | .setContextField key value => some (setContextField w key value)
  | .decide id decision => decideAgentOperation w id decision
  | .configure allowed required => some { w with allowed := allowed, required := required }
  | e =>
    if w.status = .ended then none
    else match e with
    | .provide calls => provide w calls
    | .malformed => malformed w
    | .pass => pass w
    | .tool newId => toolStep w newId
    | .park => park w
    | .wait => waitForContext w slot
    | .observe => observe w
    | .wake => wake w
    | .answer newId => answerStep w newId
    | .replay => some (replay w)
    | .ends => some { w with status := .ended }
    | _ => none

def Steps (slot : ℕ → ℕ) (w : World) (e : Event) (w' : World) : Prop := apply slot w e = some w'

/-- A run that asked nothing yet. -/
structure Initial (w : World) : Prop where
  status : w.status = .working
  items : w.items = []
  tools : ∀ s, w.journal.tools s = none
  parks : w.journal.parks = []
  observations : ∀ id, w.journal.observations id = []
  answers : w.journal.answers = []
  place : w.place = 0
  stage : w.stage = .fresh
  approvals : w.approvals = []
  parked : w.parked = []
  executed : w.executed = []

/-- The key that the run's row shows. -/
def shownKey (w : World) : Option Key := if w.status = .waiting then w.waitingFor.map Waiting.key else none

/-- Whether an operation had the consent it needed: where its policy required one, or there was one at all, it
was an approval of exactly this call. -/
def Execution.Approved (x : Execution) : Prop :=
  x.required = true ∨ x.approval.isSome = true → ∃ row, x.approval = some row ∧ row.status = .approved ∧
    row.toolName = x.name ∧ row.arguments = x.arguments

/-- The question that a call asks for a context field, if it names an approval that is decided already. -/
def asksDecided (w : World) (c : Call) : Bool :=
  c.name = askForContext && ((askedFor c.arguments).bind fun q => operationApprovalId q.key).any fun id =>
    w.approvals.any fun a => a.id = id ∧ a.status ≠ .pending

/-- Call ids are new and distinct, no replay leaves out a question that is not settled or comes back to one that
is, no context wait finds an event before its key is answered, and no question spells a decided approval. -/
def admits (w : World) : Event → Bool
  | .provide calls => decide (calls.map CallInput.id).Nodup && calls.all fun input => w.items.all fun item =>
      match item with
      | .call c => c.id ≠ input.id
      | .malformed _ => true
  | .tool _ => (current w).all fun c => (w.journal.tools c.step).isSome || !asksDecided w c
  | .park => (current w).all fun c => match w.stage with
      | .asked q => (operationApprovalId q.key).isSome || c.step ∉ w.journal.answers
      | _ => true
  | .wait => (current w).all fun c => c.step ∈ w.answered
  | .replay => (w.items.take (resumePlace w.items)).all fun item =>
      match item with
      | .call c => !(w.journal.tools c.step).join.isSome || c.step ∈ w.journal.answers
      | .malformed _ => true
  | _ => true

end HermesEnterprise.Engine.Questions
