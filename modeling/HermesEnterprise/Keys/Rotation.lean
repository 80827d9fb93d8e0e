import HermesEnterprise.Keys.SecretRows
import Mathlib.Data.List.Forall2
import Mathlib.Data.List.Sort

/-! # Rotation of the master key

One transaction for each listed row. What the rotation does to a row it does to its wrapped data key, and
a rotation without failures leaves every listed row on the new version. The list names four of the eight
tables with sealed rows.
-/
namespace HermesEnterprise.Secrets
open Foundation Foundation.Tables Foundation.Utf8 Envelope

/-- The tables of `LIST_TARGETS_SQL`, with the credential kinds it gives them. -/
def credentialKind : SecretTable → Option String
  | .providerKeys => some "provider_key"
  | .slackInstallations => some "slack_installation"
  | .cloudConnections => some "cloud_connection"
  | .cloudConnectionAttempts => some "cloud_connection_attempt"
  | _ => none

def SecretRow.listed (r : SecretRow) : Bool := (credentialKind r.key.table).isSome && r.live

/-- `ORDER BY credential_kind, key_id`. -/
def targetBefore (a b : SecretKey) : Prop :=
  (credentialKind a.table).getD "" < (credentialKind b.table).getD "" ∨
    (credentialKind a.table = credentialKind b.table ∧ a.id.text ≤ b.id.text)

instance : DecidableRel targetBefore := fun _ _ => inferInstanceAs (Decidable (_ ∨ _))

/-- The listed rows of one workspace that are not on the version yet. -/
def listRotationTargets (rows : List SecretRow) (workspaceId : Uuid) (toVersion : ℕ) : List SecretKey :=
  ((rows.filter fun r => r.key.workspaceId = workspaceId && r.listed && r.envelope.kekVersion ≠ toVersion).map
    (·.key)).insertionSort targetBefore

inductive RewrapFailure
  | notFound
  | crypto (failure : Failure)
  | transaction
  deriving DecidableEq

variable (P : Platform) {master : ℕ → Bytes}

/-- A re-wrap whose transaction meets no other: what it answers about a missing row, or the rows after its
`UPDATE` and whether that changed one row. -/
def rewrapCredential (missing : Except RewrapFailure (List SecretRow × Bool)) (rows : List SecretRow) (p : Process master)
    (k : SecretKey) (toVersion : ℕ) (wrapIv : Bytes) : Except RewrapFailure (List SecretRow × Bool) :=
  match selectForRewrap rows k with
  | none => missing
  | some r =>
    if r.envelope.kekVersion = toVersion then .ok (rows,false)
    else match rewrapAs P p.env k.owner r.envelope toVersion wrapIv with
      | .error failure => .error (.crypto failure)
      | .ok w => .ok (updateRewrapped rows k r.envelope.kekVersion w,
          (rows.filter (matchesRewrap k r.envelope.kekVersion)).length = 1)

def rewrapProviderKey (rows : List SecretRow) (p : Process master) := rewrapCredential P (.error .notFound) rows p

def rewrapSlackInstallation (rows : List SecretRow) (p : Process master) := rewrapCredential P (.error .notFound) rows p

def rewrapCloudCredential (rows : List SecretRow) (p : Process master) := rewrapCredential P (.ok (rows,false)) rows p

structure RotationReport where
  toVersion : ℕ
  examined : ℕ
  rewrapped : ℕ
  skipped : ℕ
  rewrappedByKind : SecretTable → ℕ
  failed : List SecretKey

/-- A rotation: its process and version, the workspaces it goes through, and for each row the nonce that
its re-wrap draws, or none where the row's transaction fails. -/
structure Rotation (master : ℕ → Bytes) where
  process : Process master
  toVersion : ℕ
  workspaces : List Uuid
  draws : SecretKey → Option Bytes

/-- One target of `runKekRotation`, in a transaction of its own. -/
def rewrapTarget (ρ : Rotation master) (rows : List SecretRow) (k : SecretKey) : Except RewrapFailure (List SecretRow × Bool) :=
  match ρ.draws k with
  | none => .error .transaction
  | some wrapIv =>
    match k.table with
    | .cloudConnections | .cloudConnectionAttempts => rewrapCloudCredential P rows ρ.process k ρ.toVersion wrapIv
    | .slackInstallations => rewrapSlackInstallation P rows ρ.process k ρ.toVersion wrapIv
    | _ => rewrapProviderKey P rows ρ.process k ρ.toVersion wrapIv

/-- What one target adds to the rows and the report. -/
def recordTarget (k : SecretKey) (rows : List SecretRow) (report : RotationReport) :
    Except RewrapFailure (List SecretRow × Bool) → List SecretRow × RotationReport
  | .error _ => (rows, { report with failed := report.failed ++ [k] })
  | .ok (rows',true) => (rows', { report with
      rewrapped := report.rewrapped + 1
      rewrappedByKind := Function.update report.rewrappedByKind k.table (report.rewrappedByKind k.table + 1) })
  | .ok (rows',false) => (rows', { report with skipped := report.skipped + 1 })

/-- `runKekRotation` after its list, with the rows and the report so far. -/
def rotateTargets (ρ : Rotation master) : List SecretKey → List SecretRow × RotationReport → List SecretRow × RotationReport
  | [], s => s
  | k :: rest, (rows,report) => rotateTargets ρ rest (recordTarget k rows report (rewrapTarget P ρ rows k))

def runKekRotation (ρ : Rotation master) (rows : List SecretRow) (targets : List SecretKey) :
    List SecretRow × RotationReport :=
  rotateTargets P ρ targets (rows, ⟨ρ.toVersion,targets.length,0,0,fun _ => 0,[]⟩)

/-- `runKekRotationWorkflow`: one workspace after the other, each with the list of its own rows. -/
def rotateWorkspaces (ρ : Rotation master) : List Uuid → List SecretRow → List SecretRow × List RotationReport
  | [], rows => (rows,[])
  | workspaceId :: rest, rows =>
    let done := runKekRotation P ρ rows (listRotationTargets rows workspaceId ρ.toVersion)
    let last := rotateWorkspaces ρ rest done.1
    (last.1,done.2 :: last.2)

/-- Rotations in a row, of which only the rows are kept. -/
def afterRotations (rotations : List (Rotation master)) (rows : List SecretRow) : List SecretRow :=
  rotations.foldl (fun rows ρ => (rotateWorkspaces P ρ ρ.workspaces rows).1) rows

end HermesEnterprise.Secrets
