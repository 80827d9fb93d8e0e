import HermesEnterprise.Foundation.Runs
import HermesEnterprise.Keys.SecretRows
import Mathlib.Logic.Function.Basic

/-! # Re-wraps among other writers

Provider keys, Slack installations and Cloud connections under their writers, one statement a step. A
transaction holds the locks of its `SELECT … FOR UPDATE` until it ends. Its writes hold theirs until its
commit and become visible there, so the last writes of a transaction and its commit are one step, which
waits for the locks of the others. A transaction that fails or is rolled back only gives its locks back.
-/
namespace HermesEnterprise.Secrets
open Foundation Foundation.Tables Foundation.Utf8 Envelope

abbrev TxId := ℕ

/-- Where a transaction stands between two of its statements. -/
inductive Stage
  /-- `rewrapProviderKey` after its `SELECT`, with the new wrap. -/
  | selected (key : SecretKey) (read : StoredEnvelope) (wrap : Wrap)
  /-- `rewrapSlackInstallation` and `rewrapCloudCredential` after their `SELECT … FOR UPDATE`. -/
  | locked (key : SecretKey) (read : StoredEnvelope) (wrap : Wrap)
  /-- A token refresh that has locked its row and asks the provider. -/
  | refreshing (key : SecretKey)
  /-- `runSlackRevokeJob` with the row locked. -/
  | uninstalling (key : SecretKey)
  /-- `removeProviderKey` and `rotateProviderKey` after their check. -/
  | removing (key : SecretKey)
  /-- `disconnectSlack` after its `SELECT`. -/
  | disconnecting (key : SecretKey)
  deriving DecidableEq

structure World where
  rows : List SecretRow
  locks : SecretKey → Option TxId
  stages : TxId → Option Stage

def World.empty : World := ⟨[],fun _ => none,fun _ => none⟩

/-- What the writers seal: a trimmed key or a JSON text. -/
structure Plaintext where
  text : String
  unmarked : text.toList.head? ≠ some mark

/-- `'\x00'::bytea`. -/
def zeroed : Bytes := [0]

/-- The columns that the removal of a provider key or of an attempt overwrites. -/
def SecretRow.zero (r : SecretRow) (standing : Standing) : SecretRow :=
  { r with standing, envelope := { r.envelope with ciphertext := zeroed, wrappedDek := zeroed } }

/-- Slack overwrites all four columns. -/
def SecretRow.zeroAll (r : SecretRow) : SecretRow :=
  { r with standing := .over
           envelope := { r.envelope with ciphertext := zeroed, iv := zeroed, wrappedDek := zeroed, wrapIv := zeroed } }

/-- The row that an insert or an upsert leaves. -/
def sealedRow (key : SecretKey) (slackInstallKey : String) (envelope : StoredEnvelope) (text : String) : SecretRow :=
  { key, standing := .current, slackInstallKey, envelope, text }

namespace World

/-- The rows that the update matches are locked by nobody. -/
def free (w : World) (p : SecretRow → Bool) : Bool := w.rows.all fun r => !p r || (w.locks r.key).isNone

def fresh (w : World) (k : SecretKey) : Bool := w.rows.all fun r => r.key != k

/-- A transaction takes a lock and goes on. -/
def hold (w : World) (tx : TxId) (k : SecretKey) (stage : Stage) : World :=
  { w with locks := Function.update w.locks k (some tx), stages := Function.update w.stages tx (some stage) }

/-- A transaction ends with its writes. -/
def close (w : World) (tx : TxId) (rows : List SecretRow) : World :=
  { rows, locks := fun k => if w.locks k = some tx then none else w.locks k
    stages := Function.update w.stages tx none }

end World

variable (P : Platform) {master : ℕ → Bytes}

/-! ## Re-wraps -/

/-- `rewrapProviderKey` up to its `UPDATE`. The row is not locked. -/
def selectProviderKey (w : World) (tx : TxId) (p : Process master) (k : SecretKey) (toVersion : ℕ) (wrapIv : Bytes) :
    Option World := do
  guard (w.stages tx = none ∧ k.table = .providerKeys)
  let r ← selectForRewrap w.rows k
  guard (r.envelope.kekVersion ≠ toVersion)
  let wrap ← (rewrapAs P p.env k.owner r.envelope toVersion wrapIv).toOption
  some { w with stages := Function.update w.stages tx (some (.selected k r.envelope wrap)) }

/-- The `UPDATE` of `rewrapProviderKey`, guarded on the version that was read. -/
def updateProviderKey (w : World) (tx : TxId) : Option World :=
  match w.stages tx with
  | some (.selected k read wrap) =>
    if w.free (matchesRewrap k read.kekVersion) then
      some (w.close tx (updateRewrapped w.rows k read.kekVersion wrap))
    else none
  | _ => none

/-- `rewrapSlackInstallation` and `rewrapCloudCredential` up to their `UPDATE`. -/
def lockForRewrap (w : World) (tx : TxId) (p : Process master) (k : SecretKey) (toVersion : ℕ) (wrapIv : Bytes) :
    Option World := do
  guard (w.stages tx = none ∧ k.table ≠ .providerKeys ∧ w.locks k = none)
  let r ← selectForRewrap w.rows k
  guard (r.envelope.kekVersion ≠ toVersion)
  let wrap ← (rewrapAs P p.env k.owner r.envelope toVersion wrapIv).toOption
  some (w.hold tx k (.locked k r.envelope wrap))

def updateLocked (w : World) (tx : TxId) : Option World :=
  match w.stages tx with
  | some (.locked k read wrap) => some (w.close tx (updateRewrapped w.rows k read.kekVersion wrap))
  | _ => none

/-! ## Token refreshes -/

/-- The lock of `refreshNousOAuth` and of `resolveSlackAccessToken`. -/
def lockForRefresh (w : World) (tx : TxId) (k : SecretKey) : Option World := do
  guard (w.stages tx = none ∧ (k.table = .providerKeys ∨ k.table = .slackInstallations) ∧ w.locks k = none)
  let r ← rowOf w.rows k
  guard (r.standing = .current)
  some (w.hold tx k (.refreshing k))

def storeRefreshed (w : World) (tx : TxId) (p : Process master) (next : Plaintext) (rand : Randomness) :
    Option World :=
  match w.stages tx with
  | some (.refreshing k) => do
    let envelope ← (sealAs P p.env k.owner next.text rand).toOption
    some (w.close tx (updateWhere (fun r => r.key = k) (fun r => { r with envelope, text := next.text }) w.rows))
  | _ => none

/-! ## Provider keys -/

def providerKey (workspaceId id : Uuid) : SecretKey := ⟨.providerKeys,workspaceId,id⟩

def addProviderKey (w : World) (p : Process master) (workspaceId id : Uuid) (plaintext : Plaintext) (rand : Randomness) :
    Option World := do
  let k := providerKey workspaceId id
  guard (w.fresh k)
  let envelope ← (sealAs P p.env k.owner plaintext.text rand).toOption
  some { w with rows := w.rows ++ [sealedRow k "" envelope plaintext.text] }

/-- The check of `removeProviderKey` and `rotateProviderKey`. -/
def readForRemoval (w : World) (tx : TxId) (k : SecretKey) : Option World := do
  guard (w.stages tx = none ∧ k.table = .providerKeys)
  let r ← rowOf w.rows k
  guard (r.standing ≠ .over)
  some { w with stages := Function.update w.stages tx (some (.removing k)) }

def zeroKey (rows : List SecretRow) (k : SecretKey) : List SecretRow :=
  updateWhere (fun r => r.key = k) (·.zero .over) rows

def removeProviderKey (w : World) (tx : TxId) : Option World :=
  match w.stages tx with
  | some (.removing k) =>
    if w.free (fun r => r.key = k) then some (w.close tx (zeroKey w.rows k)) else none
  | _ => none

def rotateProviderKey (w : World) (tx : TxId) (p : Process master) (id : Uuid) (plaintext : Plaintext) (rand : Randomness) :
    Option World :=
  match w.stages tx with
  | some (.removing k) => do
    let k' := providerKey k.workspaceId id
    guard (w.free (fun r => r.key = k) ∧ w.fresh k')
    let envelope ← (sealAs P p.env k'.owner plaintext.text rand).toOption
    some (w.close tx (zeroKey w.rows k ++ [sealedRow k' "" envelope plaintext.text]))
  | _ => none

/-- `addProviderOAuthConnection`: the live connection, if any, is locked, overwritten and replaced. -/
def addProviderOAuthConnection (w : World) (p : Process master) (workspaceId id : Uuid) (plaintext : Plaintext)
    (rand : Randomness) (replaces : Option Uuid) : Option World := do
  let k := providerKey workspaceId id
  let old := fun r : SecretRow => decide (∃ i ∈ replaces, r.key = providerKey workspaceId i)
  guard (w.fresh k ∧ w.free old ∧ w.rows.all fun r => !old r || r.live)
  let envelope ← (sealAs P p.env k.owner plaintext.text rand).toOption
  some { w with rows := updateWhere old (·.zero .over) w.rows ++ [sealedRow k "" envelope plaintext.text] }

/-! ## Slack installations -/

def ofWorkspace (table : SecretTable) (workspaceId : Uuid) (r : SecretRow) : Bool :=
  r.key.table = table && r.key.workspaceId = workspaceId

/-- A reconnection overwrites the installations of the same target and leaves the others for removal. -/
def replaced (slackInstallKey : String) (r : SecretRow) : SecretRow :=
  if r.slackInstallKey = slackInstallKey then r.zeroAll else { r with standing := .revoking }

def storeSlackInstallation (w : World) (p : Process master) (workspaceId id : Uuid) (slackInstallKey : String)
    (token : Plaintext) (rand : Randomness) : Option World := do
  let k : SecretKey := ⟨.slackInstallations,workspaceId,id⟩
  let previous := fun r : SecretRow => ofWorkspace .slackInstallations workspaceId r && r.live
  guard (w.fresh k ∧ w.free previous)
  let envelope ← (sealAs P p.env k.owner token.text rand).toOption
  some { w with rows := updateWhere previous (replaced slackInstallKey) w.rows ++
                  [sealedRow k slackInstallKey envelope token.text] }

/-- `disconnectSlack` up to its `UPDATE`. The row is not locked. -/
def readForDisconnect (w : World) (tx : TxId) (k : SecretKey) : Option World := do
  guard (w.stages tx = none ∧ k.table = .slackInstallations)
  let r ← rowOf w.rows k
  guard (r.standing = .current)
  some { w with stages := Function.update w.stages tx (some (.disconnecting k)) }

def disconnectSlack (w : World) (tx : TxId) : Option World :=
  match w.stages tx with
  | some (.disconnecting k) =>
    if w.free (fun r => r.key = k) then
      some (w.close tx (updateWhere (fun r => r.key = k) (fun r => { r with standing := .revoking }) w.rows))
    else none
  | _ => none

/-- `runSlackRevokeJob` up to the call of Slack. -/
def lockForUninstall (w : World) (tx : TxId) (k : SecretKey) : Option World := do
  guard (w.stages tx = none ∧ k.table = .slackInstallations ∧ w.locks k = none)
  let r ← rowOf w.rows k
  guard (r.standing = .revoking)
  some (w.hold tx k (.uninstalling k))

def uninstalled (w : World) (tx : TxId) : Option World :=
  match w.stages tx with
  | some (.uninstalling k) => some (w.close tx (updateWhere (fun r => r.key = k) (·.zeroAll) w.rows))
  | _ => none

/-! ## Cloud connections -/

/-- `startCloudConnection`: the attempts of the workspace that are pending or consumed are cancelled. -/
def startCloudConnection (w : World) (p : Process master) (workspaceId id : Uuid) (attempt : Plaintext) (rand : Randomness) :
    Option World := do
  let k : SecretKey := ⟨.cloudConnectionAttempts,workspaceId,id⟩
  let open_ := fun r : SecretRow => ofWorkspace .cloudConnectionAttempts workspaceId r && r.standing ≠ .over
  guard (w.fresh k ∧ w.free open_)
  let envelope ← (sealAs P p.env k.owner attempt.text rand).toOption
  some { w with rows := updateWhere open_ (·.zero .over) w.rows ++ [sealedRow k "" envelope attempt.text] }

/-- `completeCloudConnection` up to its calls: a pending attempt is consumed. -/
def consumeAttempt (w : World) (k : SecretKey) : Option World := do
  guard (k.table = .cloudConnectionAttempts ∧ w.free (fun r => r.key = k))
  let r ← rowOf w.rows k
  guard (r.standing = .current)
  some { w with rows := updateWhere (fun r => r.key = k) (·.zero .consumed) w.rows }

/-- `completeCloudConnection` after its calls: the one connection of the workspace is inserted or takes
the new id and the new envelope. -/
def saveCloudConnection (w : World) (p : Process master) (workspaceId id : Uuid) (credential : Plaintext)
    (rand : Randomness) : Option World := do
  let k : SecretKey := ⟨.cloudConnections,workspaceId,id⟩
  let old := ofWorkspace .cloudConnections workspaceId
  guard (w.fresh k ∧ w.free old)
  let envelope ← (sealAs P p.env k.owner credential.text rand).toOption
  some { w with rows := w.rows.filter (fun r => !old r) ++ [sealedRow k "" envelope credential.text] }

/-- The status of an attempt, without its secret. -/
def moveAttempt (rows : List SecretRow) (k : SecretKey) (old new : Standing) : List SecretRow :=
  updateWhere (fun r => r.key = k && r.standing = old) (fun r => { r with standing := new }) rows

/-- A consumed attempt is complete or has failed. -/
def settleAttempt (w : World) (k : SecretKey) : Option World := do
  guard (k.table = .cloudConnectionAttempts ∧ w.free (fun r => r.key = k))
  some { w with rows := moveAttempt w.rows k .consumed .over }

/-- A pending attempt expires. For a transaction that has locked the row, `now()` stands still. -/
def expireAttempt (w : World) (k : SecretKey) : Option World := do
  guard (k.table = .cloudConnectionAttempts ∧ w.free (fun r => r.key = k))
  some { w with rows := moveAttempt w.rows k .current .lapsed }

/-! ## The system -/

inductive Event (master : ℕ → Bytes)
  | selectProviderKey (tx : TxId) (p : Process master) (k : SecretKey) (toVersion : ℕ) (wrapIv : Bytes)
  | updateProviderKey (tx : TxId)
  | lockForRewrap (tx : TxId) (p : Process master) (k : SecretKey) (toVersion : ℕ) (wrapIv : Bytes)
  | updateLocked (tx : TxId)
  | lockForRefresh (tx : TxId) (k : SecretKey)
  | storeRefreshed (tx : TxId) (p : Process master) (next : Plaintext) (rand : Randomness)
  | addProviderKey (p : Process master) (workspaceId id : Uuid) (plaintext : Plaintext) (rand : Randomness)
  | readForRemoval (tx : TxId) (k : SecretKey)
  | removeProviderKey (tx : TxId)
  | rotateProviderKey (tx : TxId) (p : Process master) (id : Uuid) (plaintext : Plaintext) (rand : Randomness)
  | addProviderOAuthConnection (p : Process master) (workspaceId id : Uuid) (plaintext : Plaintext) (rand : Randomness)
      (replaces : Option Uuid)
  | storeSlackInstallation (p : Process master) (workspaceId id : Uuid) (slackInstallKey : String) (token : Plaintext)
      (rand : Randomness)
  | readForDisconnect (tx : TxId) (k : SecretKey)
  | disconnectSlack (tx : TxId)
  | lockForUninstall (tx : TxId) (k : SecretKey)
  | uninstalled (tx : TxId)
  | startCloudConnection (p : Process master) (workspaceId id : Uuid) (attempt : Plaintext) (rand : Randomness)
  | consumeAttempt (k : SecretKey)
  | saveCloudConnection (p : Process master) (workspaceId id : Uuid) (credential : Plaintext) (rand : Randomness)
  | settleAttempt (k : SecretKey)
  | expireAttempt (k : SecretKey)
  /-- A transaction ends without a write, or crashes. -/
  | rollback (tx : TxId)

def apply (w : World) : Event master → Option World
  | .selectProviderKey tx p k toVersion wrapIv => selectProviderKey P w tx p k toVersion wrapIv
  | .updateProviderKey tx => updateProviderKey w tx
  | .lockForRewrap tx p k toVersion wrapIv => lockForRewrap P w tx p k toVersion wrapIv
  | .updateLocked tx => updateLocked w tx
  | .lockForRefresh tx k => lockForRefresh w tx k
  | .storeRefreshed tx p next rand => storeRefreshed P w tx p next rand
  | .addProviderKey p workspaceId id plaintext rand => addProviderKey P w p workspaceId id plaintext rand
  | .readForRemoval tx k => readForRemoval w tx k
  | .removeProviderKey tx => removeProviderKey w tx
  | .rotateProviderKey tx p id plaintext rand => rotateProviderKey P w tx p id plaintext rand
  | .addProviderOAuthConnection p workspaceId id plaintext rand replaces =>
    addProviderOAuthConnection P w p workspaceId id plaintext rand replaces
  | .storeSlackInstallation p workspaceId id slackInstallKey token rand =>
    storeSlackInstallation P w p workspaceId id slackInstallKey token rand
  | .readForDisconnect tx k => readForDisconnect w tx k
  | .disconnectSlack tx => disconnectSlack w tx
  | .lockForUninstall tx k => lockForUninstall w tx k
  | .uninstalled tx => uninstalled w tx
  | .startCloudConnection p workspaceId id attempt rand => startCloudConnection P w p workspaceId id attempt rand
  | .consumeAttempt k => consumeAttempt w k
  | .saveCloudConnection p workspaceId id credential rand => saveCloudConnection P w p workspaceId id credential rand
  | .settleAttempt k => settleAttempt w k
  | .expireAttempt k => expireAttempt w k
  | .rollback tx => some (w.close tx w.rows)

/-- One committed step of the system. -/
def Steps (w : World) (e : Event master) (w' : World) : Prop := apply P w e = some w'

end HermesEnterprise.Secrets
