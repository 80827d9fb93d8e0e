import HermesEnterprise.Foundation.Runs
import HermesEnterprise.Foundation.Tables

/-! # Provider keys and the runs they refuse

A run that a provider answers with 401 ends with `key_invalid`, and the minute Cron marks
the live key of that provider. The failure is joined to the key by the provider of the run's
model and a window of one day, so it may be the failure of another row or of an earlier time.
-/
namespace HermesEnterprise.Sweep.KeyMarks
open Foundation.Tables Foundation.Runs

abbrev KeyId := ℕ
abbrev RunId := ℕ

inductive KeyStatus
  | unverified
  | verified
  | verifiedScoped
  | invalid
  | revoked
  deriving DecidableEq, Repr

/-- A row of `workspace_provider_keys` without its envelope. -/
structure KeyRow where
  id : KeyId
  provider : String
  label : String
  status : KeyStatus
  verifiedModels : List String
  verifiedAt : Option ℕ
  rotatedAt : Option ℕ
  revokedAt : Option ℕ
  replacesKeyId : Option KeyId
  oauth : Bool
  deriving DecidableEq, Repr

inductive RunStatus
  | working
  | complete
  | stopped
  | error
  deriving DecidableEq, Repr

/-- `keyId` is the key of the run's last model call, as `model_calls` keeps it. -/
structure RunRow where
  id : RunId
  modelId : String
  status : RunStatus
  reason : Option String
  endedAt : Option ℕ
  keyId : Option KeyId
  deriving DecidableEq, Repr

/-- What happened to a key, for the history. -/
inductive Fact
  | refused (keyId : KeyId)
  | verified (keyId : KeyId)
  deriving DecidableEq, Repr

/-- `now` is in microseconds; `history` has the newest fact first. -/
structure World where
  now : ℕ
  keys : List KeyRow
  runs : List RunRow
  nextKey : KeyId
  nextRun : RunId
  history : List Fact
  deriving DecidableEq, Repr

def KeyRow.live (k : KeyRow) : Bool := k.revokedAt.isNone

section Store
variable (w : World)

/-- The partial unique index: one live row for each provider. -/
def insertKey (row : KeyRow) : Option World :=
  if w.keys.any (fun k => k.live ∧ k.provider = row.provider) then none
  else some { w with keys := w.keys ++ [row], nextKey := w.nextKey + 1 }

def addProviderKey (provider label : String) (replacesKeyId : Option KeyId) : Option World :=
  insertKey w ⟨w.nextKey,provider,label,.unverified,[],none,none,none,replacesKeyId,false⟩

def revoke (keyId : KeyId) (rotatedAt : Option ℕ) (w : World) : World :=
  { w with
    keys := updateWhere (fun k => k.id = keyId)
      (fun k => { k with status := .revoked, revokedAt := some w.now, rotatedAt := rotatedAt <|> k.rotatedAt })
      w.keys }

/-- The row of a key that is still live. -/
def liveKey (keyId : KeyId) : Option KeyRow := (w.keys.find? fun k => k.id = keyId).filter KeyRow.live

def removeProviderKey (keyId : KeyId) : Option World := do
  let _ ← liveKey w keyId
  let removed := revoke keyId none w
  return { removed with
    keys := updateWhere (fun k => k.id = keyId) (fun k => { k with verifiedModels := [] }) removed.keys }

def rotateProviderKey (previousKeyId : KeyId) (label : String) : Option World := do
  let previous ← liveKey w previousKeyId
  addProviderKey (revoke previousKeyId (some w.now) w) previous.provider label (some previousKeyId)

def nousPortal : String := "nous_portal"

/-- A device-code connection is stored as verified, over the live one. -/
def addProviderOAuthConnection : Option World :=
  let replaces := (w.keys.find? fun k => k.live ∧ k.provider = nousPortal).map KeyRow.id
  let revoked := match replaces with
    | some keyId => revoke keyId (some w.now) w
    | none => w
  insertKey revoked
    ⟨w.nextKey,nousPortal,"Nous Portal",.verified,[],none,none,none,replaces,true⟩

def usable (status : KeyStatus) : Bool := status = .verified || status = .verifiedScoped

/-- Record what a verification probe learned, live row or not. -/
def setKeyStatus (keyId : KeyId) (status : KeyStatus) (verifiedModels : List String) : Option World :=
  if w.keys.any (fun k => k.id = keyId) then
    some { w with
      keys := updateWhere (fun k => k.id = keyId)
        (fun k => { k with
          status := status
          verifiedModels := verifiedModels
          verifiedAt := if usable status then some w.now else k.verifiedAt }) w.keys
      history := if usable status then .verified keyId :: w.history else w.history }
  else none

/-- A terminal refresh failure quarantines the grant. -/
def quarantine (keyId : KeyId) : World :=
  { w with
    keys := updateWhere (fun k => k.id = keyId ∧ k.oauth) (fun k => { k with status := .invalid }) w.keys }

/-- The key a provider step uses: the live row of the provider, if it is usable. -/
def resolveKey (provider : String) : Option KeyRow :=
  (w.keys.find? fun k => k.live ∧ k.provider = provider).filter fun k => usable k.status

end Store

section Runs
variable (catalog : String → Option String) (w : World)

def createRun (modelId : String) : World :=
  { w with runs := w.runs ++ [⟨w.nextRun,modelId,.working,none,none,none⟩], nextRun := w.nextRun + 1 }

def workingRun (runId : RunId) : Option RunRow :=
  (w.runs.find? fun r => r.id = runId).filter fun r => r.status = .working

def setRun (row : RunRow) : World :=
  { w with runs := updateWhere (fun r => r.id = row.id) (fun _ => row) w.runs }

/-- One provider step of a run resolves its credential. -/
def resolveCredential (runId : RunId) : Option World := do
  let run ← workingRun w runId
  let provider ← catalog run.modelId
  let key ← resolveKey w provider
  return setRun w { run with keyId := some key.id }

/-- The provider answers the call with 401: the run ends and names the reason, not the key. -/
def refuse (runId : RunId) : Option World := do
  let run ← workingRun w runId
  let keyId ← run.keyId
  let ended := setRun w { run with status := .error, reason := some "key_invalid", endedAt := some w.now }
  return { ended with history := .refused keyId :: w.history }

/-- The run ends some other way. -/
def finish (runId : RunId) (status : RunStatus) (reason : Option String) : Option World := do
  let run ← workingRun w runId
  if status = .working ∨ reason = some "key_invalid" then none
  else return setRun w { run with status := status, reason := reason, endedAt := some w.now }

/-- One day in microseconds. -/
def day : ℕ := 86400000000

def RunRow.keyInvalid (r : RunRow) : Bool := r.status = .error && r.reason = some "key_invalid"

/-- A run of the last day was refused by this provider. -/
def refusedLately (provider : String) : Bool :=
  w.runs.any fun r => catalog r.modelId = some provider && r.keyInvalid && r.endedAt.any fun t => w.now < t + day

/-- The rows that the Cron pass marks. -/
def marks (k : KeyRow) : Bool := k.live && k.status ≠ .invalid && refusedLately catalog w k.provider

def markKeysFromRunErrors : World :=
  { w with keys := updateWhere (marks catalog w) (fun k => { k with status := .invalid }) w.keys }

end Runs

inductive Op
  | addKey (provider label : String)
  | rotateKey (previousKeyId : KeyId) (label : String)
  | removeKey (keyId : KeyId)
  | reconnect
  | verify (keyId : KeyId) (status : KeyStatus) (verifiedModels : List String)
  | quarantine (keyId : KeyId)
  | create (modelId : String)
  | resolve (runId : RunId)
  | refuse (runId : RunId)
  | finish (runId : RunId) (status : RunStatus) (reason : Option String)
  | cron
  deriving DecidableEq, Repr

/-- An operation, and how long after the one before it it begins. -/
structure Event where
  elapsed : ℕ
  op : Op
  deriving DecidableEq, Repr

def applyOp (catalog : String → Option String) (w : World) : Op → Option World
  | .addKey provider label => addProviderKey w provider label none
  | .rotateKey previousKeyId label => rotateProviderKey w previousKeyId label
  | .removeKey keyId => removeProviderKey w keyId
  | .reconnect => addProviderOAuthConnection w
  | .verify keyId status verifiedModels => setKeyStatus w keyId status verifiedModels
  | .quarantine keyId => some (quarantine w keyId)
  | .create modelId => some (createRun w modelId)
  | .resolve runId => resolveCredential catalog w runId
  | .refuse runId => refuse w runId
  | .finish runId status reason => finish w runId status reason
  | .cron => some (markKeysFromRunErrors catalog w)

/-- The moment an event begins: every transaction has a later `now()` than the one before. -/
def World.begun (w : World) (e : Event) : World := { w with now := w.now + e.elapsed + 1 }

def apply (catalog : String → Option String) (w : World) (e : Event) : Option World :=
  applyOp catalog (w.begun e) e.op

def Steps (catalog : String → Option String) (w : World) (e : Event) (w' : World) : Prop :=
  apply catalog w e = some w'

def World.empty : World := ⟨0,[],[],0,0,[]⟩

/-- Whether a run was refused with this key since the key was last verified. -/
def refusedSinceVerified (keyId : KeyId) : List Fact → Bool
  | [] => false
  | .refused id :: rest => id = keyId || refusedSinceVerified keyId rest
  | .verified id :: rest => if id = keyId then false else refusedSinceVerified keyId rest

/-- A live key goes invalid only for its own failures. -/
def MarksOwn (s t : World) : Prop :=
  List.Forall₂ (fun k k' => k.live = true → k.status ≠ .invalid → k'.status = .invalid →
    refusedSinceVerified k.id s.history = true) s.keys t.keys

/-- A failure recorded under the row's own id, after the row was last verified. -/
def ownRefusal (w : World) (k : KeyRow) : Bool :=
  w.runs.any fun r => r.keyId = some k.id && r.keyInvalid &&
    r.endedAt.any fun t => k.verifiedAt.all fun v => v < t

/-- No live key that is not invalid yet stands for a refused one: a pass that finds a failure of the
last day on its provider finds one under its own id, after its last verification. -/
def admits (catalog : String → Option String) (w : World) (e : Event) : Bool :=
  match e.op with
  | .cron => (w.begun e).keys.all fun k => !(k.live && k.status ≠ .invalid &&
      refusedLately catalog (w.begun e) k.provider) || ownRefusal w k
  | _ => true

/-- The columns say what the history says. -/
structure Recorded (w : World) (bound : ℕ) : Prop where
  runIds : (w.runs.map RunRow.id).Nodup
  runs : ∀ r ∈ w.runs, r.id < w.nextRun ∧ ∀ t ∈ r.endedAt, t ≤ bound
  used : ∀ r ∈ w.runs, ∀ id ∈ r.keyId, id < w.nextKey
  facts : ∀ id, .refused id ∈ w.history → id < w.nextKey
  keys : ∀ k ∈ w.keys, k.id < w.nextKey ∧ ∀ t ∈ k.verifiedAt, t ≤ bound
  recorded : ∀ k ∈ w.keys, refusedSinceVerified k.id w.history = ownRefusal w k

end HermesEnterprise.Sweep.KeyMarks
