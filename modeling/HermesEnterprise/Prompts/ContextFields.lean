import HermesEnterprise.Foundation.Runs
import HermesEnterprise.Foundation.Tables
import HermesEnterprise.Prompts.SystemPrompt

/-! # Context fields and who writes them

A field of an agent is written by the model's tool, by a placeholder for a question, by a person's answer
and by a person's edit. Every writer meets the row of its key if there is one.
-/
namespace HermesEnterprise.Prompts
open Inbound Foundation Foundation.Runs Foundation.Tables

/-- A run: its agent, and the key whose answer it waits for. -/
structure RunRow where
  id : ℕ
  agentId : ℕ
  waitingFor : Option Text
  deriving DecidableEq

inductive Author
  | person (user : ℕ)
  | model (runId : ℕ) (toolCallId : Text)
  deriving DecidableEq

/-- A write, or a call of the tool that has run up to its write. -/
structure Entry where
  agentId : ℕ
  key : Text
  author : Author
  wrote : Bool
  deriving DecidableEq

/-- A call of `set_context_field` between its check and its `INSERT`. -/
structure ToolWrite where
  runId : ℕ
  agentId : ℕ
  toolCallId : Text
  key : Text
  value : Text
  scope : Scope
  deriving DecidableEq

/-- The rows, the calls under way, and what happened, latest first. -/
structure World where
  fields : List ContextField
  runs : List RunRow
  calls : List ToolWrite
  log : List Entry
  deriving DecidableEq

def World.empty : World := ⟨[],[],[],[]⟩

inductive Failure
  | runExists
  | runMissing
  | callMissing
  | keyRequired
  | runNotWaiting
  | wrongKey
  deriving DecidableEq

def findRun (runs : List RunRow) (runId : ℕ) : Except Failure RunRow :=
  match runs.find? fun r => decide (r.id = runId) with
  | some run => .ok run
  | none => .error .runMissing

def ofKey (agentId : ℕ) (key : Text) (field : ContextField) : Bool := field.agentId = agentId && field.key = key

/-- `INSERT … ON CONFLICT (agent_id, key) DO UPDATE`. -/
def upsertField (fields : List ContextField) (row : ContextField) (edit : ContextField → ContextField) : List ContextField :=
  if fields.any (ofKey row.agentId row.key) then updateWhere (ofKey row.agentId row.key) edit fields else fields ++ [row]

def isAwaitingContext (w : World) (key : Text) : Bool := w.runs.any fun run => run.waitingFor = some key

/-- `findings` says whether a value is refused because it is no plain text. -/
def toolRefuses (findings : Text → Bool) (w : World) (key value : Text) : Bool :=
  key.isEmpty || isAwaitingContext w key || findings value

/-- The tool `set_context_field` up to its write. -/
def setContextFieldTool (findings : Text → Bool) (w : World) (run : RunRow) (toolCallId : Text) (key value : Text)
    (scope : Scope) : World :=
  let key := trim key
  let value := value.take 2000
  { w with
    calls := if toolRefuses findings w key value then w.calls else w.calls ++ [⟨run.id,run.agentId,toolCallId,key,value,scope⟩]
    log := ⟨run.agentId,key,.model run.id toolCallId,false⟩ :: w.log }

/-- The write of the tool. The row that is there keeps its run. -/
def setContextField (w : World) (call : ToolWrite) : World :=
  { w with
    fields := upsertField w.fields
      ⟨call.agentId,call.key,some call.value,call.scope,none,some call.runId,some call.toolCallId⟩
      fun field => { field with value := some call.value, scope := call.scope }
    calls := w.calls.erase call
    log := ⟨call.agentId,call.key,.model call.runId call.toolCallId,true⟩ :: w.log }

/-- The empty row of a question. A row that is there stays as it is. -/
def ensureContextField (w : World) (run : RunRow) (toolCallId : Text) (key : Text) : World :=
  { w with
    fields := upsertField w.fields ⟨run.agentId,key,none,.reply,none,some run.id,some toolCallId⟩ fun field => field }

/-- A person's answer to the question of a run. -/
def answerContext (w : World) (user : ℕ) (run : RunRow) (key value : Text) : Except Failure World :=
  let key := (trim key).take 64
  let value := value.take 2000
  if key.isEmpty then .error .keyRequired
  else match run.waitingFor with
    | none => .error .runNotWaiting
    | some awaited =>
      if awaited ≠ key then .error .wrongKey
      else .ok { w with
        fields := upsertField w.fields ⟨run.agentId,key,some value,.reply,some user,some run.id,none⟩
          fun field => { field with value := some value, setBy := some user }
        log := ⟨run.agentId,key,.person user,true⟩ :: w.log }

/-- A person's edit. -/
def editField (w : World) (user agentId : ℕ) (key : Text) (value : Option Text) (scope : Scope) : World :=
  { w with
    fields := upsertField w.fields ⟨agentId,key,value,scope,some user,none,none⟩
      fun field => { field with value := value, scope := scope, setBy := some user }
    log := ⟨agentId,key,.person user,true⟩ :: w.log }

/-- An edit in the Context tab. -/
def patchContextField (w : World) (user agentId : ℕ) (key : Text) (value : Option Text) (scope : Scope) :
    Except Failure World :=
  let key := (trim key).take 64
  if key.isEmpty then .error .keyRequired else .ok (editField w user agentId key (value.map (·.take 2000)) scope)

/-- The criteria that a person enters when an agent is set up. -/
def savePartnerCriteria (w : World) (user agentId : ℕ) (criteria : Text) : World :=
  editField w user agentId (text "partner_criteria") (some criteria) .future

inductive Event
  | start (runId agentId : ℕ)
  | setContextFieldTool (runId : ℕ) (toolCallId key value : Text) (scope : Scope)
  | setContextField (call : ToolWrite)
  | ensureContextField (runId : ℕ) (toolCallId key : Text)
  | park (runId : ℕ) (key : Text)
  | wake (runId : ℕ)
  | answerContext (user runId : ℕ) (key value : Text)
  | patchContextField (user agentId : ℕ) (key : Text) (value : Option Text) (scope : Scope)
  | savePartnerCriteria (user agentId : ℕ) (criteria : Text)
  deriving DecidableEq

def setWaiting (w : World) (runId : ℕ) (waitingFor : Option Text) : World :=
  { w with runs := updateWhere (fun r => decide (r.id = runId)) (fun r => { r with waitingFor := waitingFor }) w.runs }

def apply (findings : Text → Bool) (w : World) : Event → Except Failure World
  | .start runId agentId =>
    if w.runs.any fun run => run.id = runId then .error .runExists
    else .ok { w with runs := w.runs ++ [⟨runId,agentId,none⟩] }
  | .setContextFieldTool runId toolCallId key value scope =>
    (findRun w.runs runId).map fun run => setContextFieldTool findings w run toolCallId key value scope
  | .setContextField call => if call ∈ w.calls then .ok (setContextField w call) else .error .callMissing
  | .ensureContextField runId toolCallId key =>
    (findRun w.runs runId).map fun run => ensureContextField w run toolCallId key
  | .park runId key => .ok (setWaiting w runId (some key))
  | .wake runId => .ok (setWaiting w runId none)
  | .answerContext user runId key value => (findRun w.runs runId).bind fun run => answerContext w user run key value
  | .patchContextField user agentId key value scope => patchContextField w user agentId key value scope
  | .savePartnerCriteria user agentId criteria => .ok (savePartnerCriteria w user agentId criteria)

def loadWorkspaceContext (w : World) (agentId : ℕ) : List ContextField := w.fields.filter fun field => field.agentId = agentId

/-- Who wrote a field last. -/
def lastAuthor (log : List Entry) (agentId : ℕ) (key : Text) : Option Author :=
  (log.find? fun e => e.wrote && decide (e.agentId = agentId) && decide (e.key = key)).map (·.author)

def Author.isPerson : Author → Bool
  | .person _ => true
  | .model _ _ => false

/-- The prompt tells a person's values from the model's, and no call of the tool that ran before a person's
write overwrites it when it runs again. -/
structure Voices (w : World) : Prop where
  human : ∀ setup guidance agentId, ∀ field ∈ loadWorkspaceContext w agentId,
    (PrintedAsHuman (buildSystemPrompt setup (loadWorkspaceContext w agentId) guidance) field ↔
      ∃ author, lastAuthor w.log agentId field.key = some author ∧ author.isPerson = true)
  note : ∀ setup guidance agentId, ∀ field ∈ loadWorkspaceContext w agentId, ∀ runId toolCallId,
    lastAuthor w.log agentId field.key = some (.model runId toolCallId) →
      PrintedAsNote (buildSystemPrompt setup (loadWorkspaceContext w agentId) guidance) field ∧
        ¬ PrintedAsHuman (buildSystemPrompt setup (loadWorkspaceContext w agentId) guidance) field
  replay : ∀ agentId key runId toolCallId user ran,
    ¬ [⟨agentId,key,.model runId toolCallId,true⟩,⟨agentId,key,.person user,true⟩,
        ⟨agentId,key,.model runId toolCallId,ran⟩].Sublist w.log

/-- Whether every row of a key carries a run, and whether none does. -/
def allOfRuns (w : World) (agentId : ℕ) (key : Text) : Bool :=
  w.fields.all fun field => !ofKey agentId key field || field.runId.isSome

def noneOfRuns (w : World) (agentId : ℕ) (key : Text) : Bool :=
  w.fields.all fun field => !ofKey agentId key field || field.runId.isNone

/-- A writer meets only rows that are printed as its own: the tool writes to no row without a run, an
answer meets a row without a run, and an edit no row with one. -/
def fits (w : World) : Event → Bool
  | .setContextField call => allOfRuns w call.agentId call.key
  | .answerContext _ runId key _ =>
    match w.runs.find? fun r => decide (r.id = runId) with
    | none => true
    | some run => w.fields.any (ofKey run.agentId ((trim key).take 64)) && noneOfRuns w run.agentId ((trim key).take 64)
  | .patchContextField _ agentId key _ _ => noneOfRuns w agentId ((trim key).take 64)
  | .savePartnerCriteria _ agentId _ => noneOfRuns w agentId (text "partner_criteria")
  | _ => true

end HermesEnterprise.Prompts
