import HermesEnterprise.Foundation.Tables
import HermesEnterprise.Keys.Sealed

/-! # Rows with a sealed secret

The tables that hold envelopes, with the columns that the re-wrap functions read, and the two statements
of a re-wrap: the `SELECT` of one row and the guarded `UPDATE` of its wrapped data key.
-/
namespace HermesEnterprise.Secrets
open Foundation Foundation.Tables Foundation.Utf8 Envelope

inductive SecretTable
  | providerKeys
  | slackInstallations
  | cloudConnections
  | cloudConnectionAttempts
  | capacity
  | runtimeBindings
  | outboundAccounts
  | evidenceAccounts
  deriving DecidableEq

/-- What the status columns of a row come to. -/
inductive Standing
  /-- Not revoked; a pending attempt before its expiry; capacity in the pool. -/
  | current
  /-- A revoked Slack installation that is still to be removed at Slack. -/
  | revoking
  /-- A pending attempt after its expiry. -/
  | lapsed
  /-- A consumed attempt. -/
  | consumed
  | over
  deriving DecidableEq

structure SecretKey where
  table : SecretTable
  workspaceId : Uuid
  id : Uuid
  deriving DecidableEq

/-- A row. `text` is no column: it is the plaintext that was last written to the row. For a runtime
binding `id` is the agent's, for every other table the row's own. `slackInstallKey` is only Slack's. -/
structure SecretRow where
  key : SecretKey
  standing : Standing
  slackInstallKey : String
  envelope : StoredEnvelope
  text : String
  deriving DecidableEq

/-- The namespace under which the rows of a table are sealed. -/
def domainOf : SecretTable → String
  | .providerKeys => ""
  | .slackInstallations => "hermes/slack-installation/v1"
  | .cloudConnections => "hermes/cloud-management-grant/v1"
  | .cloudConnectionAttempts => "hermes/cloud-oauth-attempt/v1"
  | .capacity => "hermes/pool-control/v1"
  | .runtimeBindings => "hermes/runtime-control/v1"
  | .outboundAccounts => "hermes/outbound-email/v1"
  | .evidenceAccounts => "hermes/inbound-email-evidence/v1"

def SecretKey.owner (k : SecretKey) : Owner :=
  match k.table with
  | .providerKeys => .key ⟨k.workspaceId,k.id⟩
  | table => .secret ⟨⟨k.workspaceId,k.id⟩,domainOf table⟩

/-- The secret is still in use. -/
def SecretRow.live (r : SecretRow) : Bool := r.standing = .current || r.standing = .revoking

/-! ## Statements of a re-wrap -/

def rowOf (rows : List SecretRow) (k : SecretKey) : Option SecretRow :=
  rows.find? fun r => decide (r.key = k)

/-- The row that a re-wrap function reads: `readEnvelope` takes any provider key, the others a live row. -/
def selectForRewrap (rows : List SecretRow) (k : SecretKey) : Option SecretRow :=
  match k.table with
  | .providerKeys => rowOf rows k
  | .slackInstallations | .cloudConnections | .cloudConnectionAttempts => (rowOf rows k).filter (·.live)
  | _ => none

def SecretRow.rewrapped (r : SecretRow) (w : Wrap) : SecretRow := { r with envelope := r.envelope.wrapped w }

/-- The rows that the `UPDATE` of a re-wrap matches, after it has read `kekVersion`. -/
def matchesRewrap (k : SecretKey) (kekVersion : ℕ) (r : SecretRow) : Bool :=
  r.key = k && r.envelope.kekVersion = kekVersion &&
    match k.table with
    | .cloudConnections | .cloudConnectionAttempts => r.live
    | _ => true

def updateRewrapped (rows : List SecretRow) (k : SecretKey) (kekVersion : ℕ) (w : Wrap) : List SecretRow :=
  updateWhere (matchesRewrap k kekVersion) (·.rewrapped w) rows

/-! ## What a row holds -/

/-- The master keys by version, and the processes that know some of them under their version. -/
structure Process (master : ℕ → Bytes) where
  env : KekEnv
  agrees : ∀ version kek, importKek env version = .ok kek → kek = master version

/-- One data key encrypts the text of the row and is wrapped under the stored version for the row. -/
def SecretRow.Paired (P : Platform) (master : ℕ → Bytes) (r : SecretRow) : Prop :=
  ∃ dek, Sealing P r.key.owner r.text r.envelope dek (master r.envelope.kekVersion)

/-- Wherever the master key is configured, the row opens to its text. -/
def SecretRow.Opens (P : Platform) (master : ℕ → Bytes) (r : SecretRow) : Prop :=
  ∀ p : Process master, Configured p.env r.envelope.kekVersion → openAs P p.env r.key.owner r.envelope = .ok r.text

/-- No master key unwraps the data key of the row. -/
def SecretRow.Unusable (P : Platform) (r : SecretRow) : Prop :=
  ∀ kek, P.aead.decrypt kek r.envelope.wrapIv (r.key.owner.wrapAad r.envelope.kekVersion) r.envelope.wrappedDek = none

variable {P : Platform} {master : ℕ → Bytes} {rows : List SecretRow} {k : SecretKey} {r r' : SecretRow} {w : Wrap}
  {version : ℕ} {wrapIv : Bytes} {p : Process master}

theorem rowOf_mem (h : rowOf rows k = some r) : r ∈ rows ∧ r.key = k := of_find?_key h

theorem selectForRewrap_mem (h : selectForRewrap rows k = some r) : r ∈ rows ∧ r.key = k := by
  unfold selectForRewrap at h
  split at h
  · exact rowOf_mem h
  · exact rowOf_mem (Option.filter_eq_some_iff.mp h).1
  · exact rowOf_mem (Option.filter_eq_some_iff.mp h).1
  · exact rowOf_mem (Option.filter_eq_some_iff.mp h).1
  · cases h

@[simp] theorem rewrapped_key : (r.rewrapped w).key = r.key := rfl
@[simp] theorem rewrapped_live : (r.rewrapped w).live = r.live := rfl
@[simp] theorem rewrapped_text : (r.rewrapped w).text = r.text := rfl
@[simp] theorem rewrapped_standing : (r.rewrapped w).standing = r.standing := rfl
@[simp] theorem rewrapped_version : (r.rewrapped w).envelope.kekVersion = w.kekVersion := rfl

/-- What a process imports is the master key of that version. -/
theorem Process.configured (h : Configured p.env version) : importKek p.env version = .ok (master version) := by
  obtain ⟨kek,hkek⟩ := h
  rw [hkek, p.agrees version kek hkek]

theorem rewrapAs_configured {o : Owner} {e : StoredEnvelope} (h : rewrapAs P p.env o e version wrapIv = .ok w) :
    Configured p.env e.kekVersion ∧ Configured p.env version := by
  rw [rewrapAs_eq] at h
  simp only [rewrapUnder, bind, Except.bind] at h
  split at h
  · cases h
  · rename_i source hsource
    split at h
    · cases h
    · split at h
      · cases h
      · rename_i target htarget
        exact ⟨⟨source,hsource⟩,⟨target,htarget⟩⟩

theorem rewrapAs_version {o : Owner} {e : StoredEnvelope} (h : rewrapAs P p.env o e version wrapIv = .ok w) :
    w.kekVersion = version := by
  rw [rewrapAs_eq] at h
  simp only [rewrapUnder, bind, Except.bind] at h
  split at h
  · cases h
  · split at h
    · cases h
    · split at h
      · cases h
      · rw [← Except.ok.inj h]

/-- A re-wrap computed from the envelope that a row has keeps the row paired. -/
theorem SecretRow.Paired.rewrapped (h : r.Paired P master)
    (hw : rewrapAs P p.env r.key.owner r.envelope version wrapIv = .ok w) :
    (r.rewrapped w).Paired P master := by
  obtain ⟨dek,hsealing⟩ := h
  obtain ⟨hsource,htarget⟩ := rewrapAs_configured hw
  obtain ⟨w',hw',hversion,hpaired⟩ :=
    hsealing.rewrapped (Process.configured hsource) (Process.configured htarget) wrapIv
  obtain rfl := Except.ok.inj (hw.symm.trans hw')
  subst hversion
  exact ⟨dek,hpaired⟩

/-- A row that a writer has just sealed is paired. -/
theorem paired_of_sealed (h : sealAs P p.env r.key.owner r.text rand = .ok r.envelope) : r.Paired P master := by
  obtain ⟨kek,hkek,hsealing⟩ := sealAs_sealing h
  rw [p.agrees _ _ hkek] at hsealing
  exact ⟨rand.dek,hsealing⟩

theorem SecretRow.Paired.opens (h : r.Paired P master) (htext : r.text.toList.head? ≠ some mark) :
    r.Opens P master := by
  intro p hconfigured
  obtain ⟨dek,hsealing⟩ := h
  exact (opens_plaintext_iff hsealing (Process.configured hconfigured)).mpr htext

/-! Two master keys, a process that knows both, and a row. -/

def twoKeys : KekEnv :=
  [("KEK_V1","AAAAAAAAAAAAAAAAAAAAAAAAAAAAAAAAAAAAAAAAAAA="),("KEK_V2","AQEBAQEBAQEBAQEBAQEBAQEBAQEBAQEBAQEBAQEBAQE=")]

def sampleMaster (version : ℕ) : Bytes :=
  match importKek twoKeys version with
  | .ok kek => kek
  | .error _ => []

def sampleProcess : Process sampleMaster where
  env := twoKeys
  agrees := by
    intro version kek h
    simp only [sampleMaster, h]

def sampleWorkspace : Uuid := ⟨"00000000-0000-4000-8000-000000000001",first_isUuid⟩

def sampleId : Uuid := ⟨"00000000-0000-4000-8000-000000000002",second_isUuid⟩

end HermesEnterprise.Secrets
