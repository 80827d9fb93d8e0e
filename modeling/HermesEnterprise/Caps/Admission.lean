import HermesEnterprise.Foundation.Runs
import HermesEnterprise.Foundation.Tables
import HermesEnterprise.RunLog.Validator

/-! # Admitting a run under the workspace's caps

An admission is a transaction of several statements. Each reads what is committed when it
runs, and takes row locks that last until the transaction ends; a statement that would wait
for a lock is not enabled.
-/
namespace HermesEnterprise.Caps
open Foundation.Runs Foundation.Tables RunLog

abbrev UserId := String
abbrev SessionId := String
abbrev AgentId := String
abbrev TxId := ℕ

structure RunRow where
  id : RunId
  sessionId : SessionId
  agentId : AgentId
  status : RunStatus
  attempt : ℕ
  clientTurnId : String
  deriving DecidableEq, Repr

structure SessionRow where
  id : SessionId
  agentId : AgentId
  ownerId : UserId
  readOnly : Bool
  deriving DecidableEq, Repr

structure Settings where
  dailyTokenCap : Option ℕ
  maxConcurrentRuns : ℕ
  deriving DecidableEq, Repr

inductive CapReason
  | dailyTokenCap | maxConcurrentRuns
  deriving DecidableEq, Repr

structure CapState where
  allowed : Bool
  reason : Option CapReason
  dailyTokenCap : Option ℕ
  tokensToday : ℕ
  maxConcurrentRuns : ℕ
  activeRuns : ℕ
  deriving DecidableEq, Repr

section Reads

def live (r : RunRow) : Bool := !r.status.terminal

def working (r : RunRow) : Bool := r.status = .working

/-- The two tenant caps, read together. Without a settings row nothing is counted; every workspace is
created with one. -/
def checkCaps (settings : Option Settings) (tokensToday : ℕ) (runs : List RunRow) : CapState :=
  let dailyTokenCap := settings.bind (·.dailyTokenCap)
  let tokens := if settings.isSome then tokensToday else 0
  let active := if settings.isSome then count working runs else 0
  let overTokens := dailyTokenCap.any fun cap => cap ≤ tokens
  let maxConcurrentRuns := (settings.map (·.maxConcurrentRuns)).getD 3
  let overRuns := decide (maxConcurrentRuns ≤ active)
  ⟨!overTokens && !overRuns,
    if overTokens then some .dailyTokenCap else if overRuns then some .maxConcurrentRuns else none,
    dailyTokenCap,tokens,maxConcurrentRuns,active⟩

end Reads

/-- What one admission is about. A retry names a run that has ended, the others a new one. -/
inductive Kind
  | createTurn | submitTurn | retryTask
  deriving DecidableEq, Repr

structure Request where
  kind : Kind
  userId : UserId
  sessionId : SessionId
  agentId : AgentId
  clientTurnId : String
  runId : RunId
  deriving DecidableEq, Repr

inductive Resource
  | agent (id : AgentId)
  | session (id : SessionId)
  | run (id : RunId)
  | rate (userId : UserId) (kind : Kind) (window : ℕ)
  | capacity (window : ℕ)
  deriving DecidableEq, Repr

structure Lock where
  resource : Resource
  shared : Bool
  deriving DecidableEq, Repr

/-- The statements that matter here, in the order of each function. -/
inductive Phase
  | opening | rate | caps | capacity | write
  deriving DecidableEq, Repr

def Kind.phases : Kind → List Phase
  | .createTurn => [.opening,.rate,.caps,.capacity,.write]
  | .submitTurn => [.opening,.rate,.caps,.capacity,.write]
  | .retryTask => [.opening,.caps,.rate,.capacity,.write]

/-- `position` is the length of the log when the caps were read. -/
structure CapRead where
  state : CapState
  position : ℕ
  deriving DecidableEq, Repr

/-- `pending` is the row that the transaction has written and not committed. -/
structure Tx where
  id : TxId
  request : Request
  todo : List Phase
  locks : List Lock
  capRead : Option CapRead
  pending : Option RunRow
  deriving DecidableEq, Repr

/-- What moves the number of working runs, or their cap. -/
inductive Change
  | entered | left
  | capSet (before after : ℕ)
  deriving DecidableEq, Repr

structure World where
  runs : List RunRow
  sessions : List SessionRow
  settings : Settings
  tokensToday : ℕ
  txs : List Tx
  log : List Change
  deriving DecidableEq, Repr

inductive Event
  | begins (tx : TxId) (request : Request)
  | does (tx : TxId) (window : ℕ)
  | commits (tx : TxId)
  | refuses (tx : TxId)
  /-- A live run goes on, parks, or ends. -/
  | changes (runId : RunId) (status : RunStatus)
  | settings (settings : Settings)
  | tokens (tokensToday : ℕ)
  deriving DecidableEq, Repr

section Steps
variable (w : World) (t : Tx)

/-- Another transaction holds the row. -/
def blocked (resource : Resource) (shared : Bool) : Bool :=
  w.txs.any fun other => other.id ≠ t.id && other.locks.any fun l => l.resource = resource && !(shared && l.shared)

def setTx (next : Tx) : World := { w with txs := w.txs.map fun t => if t.id = next.id then next else t }

def endTx (tx : TxId) : World := { w with txs := w.txs.filter fun t => t.id ≠ tx }

/-- The transaction goes on behind one more statement, with these locks too. -/
def Tx.next (rest : List Phase) (locks : List Lock) : Tx := { t with todo := rest, locks := locks ++ t.locks }

/-- The run that this admission has made before. -/
def duplicate (r : RunRow) : Bool := r.sessionId = t.request.sessionId && r.clientTurnId = t.request.clientTurnId

def opening (rest : List Phase) : Except Unit World :=
  match t.request.kind with
  | .createTurn =>
    match w.sessions.find? fun s => s.id = t.request.sessionId with
    | some s =>
      if s.ownerId ≠ t.request.userId || s.readOnly || s.agentId ≠ t.request.agentId then .ok (endTx w t.id)
      else if blocked w t (.agent s.agentId) true || blocked w t (.session s.id) false then .error ()
      else if w.runs.any (duplicate t) then .ok (endTx w t.id)
      else .ok (setTx w (t.next rest [⟨.agent s.agentId,true⟩,⟨.session s.id,false⟩]))
    | none => .ok (endTx w t.id)
  | .submitTurn => .ok (if w.runs.any (duplicate t) then endTx w t.id else setTx w (t.next rest []))
  | .retryTask =>
    match w.runs.find? fun r => r.id = t.request.runId with
    | some r =>
      if blocked w t (.agent t.request.agentId) false || blocked w t (.run r.id) false then .error ()
      else if r.agentId ≠ t.request.agentId || r.sessionId ≠ t.request.sessionId ||
          (r.status ≠ .error && r.status ≠ .stopped) ||
          w.runs.any (fun other => other.agentId = r.agentId && other.id ≠ r.id && live other) then
        .ok (endTx w t.id)
      else .ok (setTx w (t.next rest [⟨.agent t.request.agentId,false⟩,⟨.run r.id,false⟩]))
    | none => .ok (endTx w t.id)

/-- The row of the new run, or of the next attempt. -/
def written : Option RunRow :=
  match t.request.kind with
  | .retryTask =>
    (w.runs.find? fun r => r.id = t.request.runId).map fun r => { r with status := .working, attempt := r.attempt + 1 }
  | _ =>
    if w.runs.any (fun r => r.id = t.request.runId) || w.txs.any (fun other => other.pending.any fun r => r.id = t.request.runId)
    then none
    else some ⟨t.request.runId,t.request.sessionId,t.request.agentId,.working,1,t.request.clientTurnId⟩

/-- `runs_one_active_per_session`: a live run of the session refuses the row, and one that another
transaction has written makes it wait. -/
def write (rest : List Phase) : Except Unit World :=
  match written w t with
  | some row =>
    if w.runs.any fun r => r.sessionId = row.sessionId && r.id ≠ row.id && live r then .ok (endTx w t.id)
    else if w.txs.any fun other => other.id ≠ t.id && other.pending.any fun r => r.sessionId = row.sessionId then
      .error ()
    else .ok (setTx w { t.next rest [] with pending := some row })
  | none => .error ()

def step (window : ℕ) : Phase → List Phase → Except Unit World
  | .opening, rest => opening w t rest
  | .rate, rest =>
    if blocked w t (.rate t.request.userId t.request.kind window) false then .error ()
    else .ok (setTx w (t.next rest [⟨.rate t.request.userId t.request.kind window,false⟩]))
  | .caps, rest =>
    let caps := checkCaps (some w.settings) w.tokensToday w.runs
    .ok (if caps.allowed then setTx w { t.next rest [] with capRead := some ⟨caps,w.log.length⟩ } else endTx w t.id)
  | .capacity, rest =>
    if blocked w t (.capacity window) false then .error ()
    else .ok (setTx w (t.next rest [⟨.capacity window,false⟩]))
  | .write, rest => write w t rest

/-- A row that is committed: the new one, or its run's. -/
def store (runs : List RunRow) (row : RunRow) : List RunRow :=
  if runs.any fun r => r.id = row.id then updateWhere (fun r => decide (r.id = row.id)) (fun _ => row) runs
  else runs ++ [row]

/-- What a change of status is to the number of working runs. -/
def changeOf (before after : RunStatus) : List Change :=
  if before = .working ∧ after ≠ .working then [.left]
  else if before ≠ .working ∧ after = .working then [.entered]
  else []

def apply : Event → Except Unit World
  | .begins tx request =>
    if w.txs.any fun t => t.id = tx then .error ()
    else .ok { w with txs := w.txs ++ [⟨tx,request,request.kind.phases,[],none,none⟩] }
  | .does tx window =>
    match w.txs.find? fun t => t.id = tx with
    | some t =>
      match t.todo with
      | phase :: rest => step w t window phase rest
      | [] => .error ()
    | none => .error ()
  | .commits tx =>
    match w.txs.find? fun t => t.id = tx with
    | some t =>
      match t.todo, t.pending with
      | [], some row => .ok { endTx w tx with runs := store w.runs row, log := w.log ++ [.entered] }
      | _, _ => .error ()
    | none => .error ()
  | .refuses tx => .ok (endTx w tx)
  | .changes runId status =>
    match w.runs.find? fun r => r.id = runId with
    | some r =>
      if !live r || w.txs.any (fun t => t.locks.any fun l => l.resource = .run runId) then .error ()
      else .ok { w with
        runs := updateWhere (fun s => decide (s.id = r.id)) (fun s => { s with status := status }) w.runs,
        log := w.log ++ changeOf r.status status }
    | none => .error ()
  | .settings settings =>
    .ok { w with settings := settings,
                 log := w.log ++ [.capSet w.settings.maxConcurrentRuns settings.maxConcurrentRuns] }
  | .tokens tokensToday => .ok { w with tokensToday := tokensToday }

def Step : World → Event → World → Prop := Applied apply

def Initial : Prop := w.runs = [] ∧ w.txs = [] ∧ w.log = []

end Steps

section Properties
variable (w : World)

def OneLive : Prop :=
  ∀ r ∈ w.runs, ∀ r' ∈ w.runs, live r = true → live r' = true → r.sessionId = r'.sessionId → r = r'

/-- The slots that these changes took, net. -/
def taken : List Change → ℤ
  | [] => 0
  | .entered :: rest => 1 + taken rest
  | .left :: rest => -1 + taken rest
  | .capSet before after :: rest => (before - after) + taken rest

/-- The slots that were free when the caps were read. -/
def CapRead.free (c : CapRead) : ℤ := (c.state.maxConcurrentRuns : ℤ) - c.state.activeRuns

end Properties
end HermesEnterprise.Caps
