import HermesEnterprise.Foundation.Aead
import HermesEnterprise.Foundation.Utf8
import HermesEnterprise.Approvals.Payload
import Mathlib.Data.List.Sort

/-! # Envelope encryption

Sealing, opening and re-wrapping of provider keys and of other secrets. A fresh data key encrypts the
plaintext, and a versioned master key of the environment encrypts the data key.
-/
namespace HermesEnterprise.Envelope
open Foundation Foundation.Utf8

abbrev Bytes := List UInt8

/-- What the module calls without defining it: the ideal cipher, and `Number` of a text where the
value is an integer from zero on. -/
structure Platform where
  aead : Aead Bytes Bytes Bytes Bytes Bytes
  number : String → Option ℕ

inductive KeyCryptoReason
  | kekMissing
  | kekMalformed
  | kekVersionUnknown
  | decryptFailed
  | plaintextEmpty
  deriving DecidableEq

/-- What a call throws: a reason of its own, or the platform's refusal of a key of the wrong length. -/
inductive Failure
  | keyCrypto (reason : KeyCryptoReason)
  | dataError
  deriving DecidableEq

abbrev Outcome (α : Type) := Except Failure α

def fail {α : Type} (reason : KeyCryptoReason) : Outcome α := .error (.keyCrypto reason)

/-! ## The environment -/

/-- The text values of the environment under their names. -/
abbrev KekEnv := List (String × String)

def KekEnv.get (env : KekEnv) (name : String) : Option String := (env.find? (·.1 = name)).map (·.2)

def isDigit (c : Char) : Bool := 0x30 ≤ c.toNat && c.toNat ≤ 0x39

def digitsValue (digits : List Char) : ℕ := digits.foldl (fun n c => n * 10 + (c.toNat - 0x30)) 0

/-- `^KEK_V(\d+)$`. -/
def kekName (name : String) : Option ℕ :=
  if "KEK_V".toList.isPrefixOf name.toList then
    let digits := name.toList.drop 5
    if digits ≠ [] ∧ digits.all isDigit then some (digitsValue digits) else none
  else none

def kekVersions (env : KekEnv) : List ℕ :=
  (env.filterMap fun entry => if entry.2 ≠ "" then kekName entry.1 else none).insertionSort (· ≤ ·)

def currentKekVersion (P : Platform) (env : KekEnv) : Outcome ℕ :=
  match kekVersions env with
  | [] => fail .kekMissing
  | lowest :: rest =>
    let declared := Approvals.trim ((env.get "KEK_CURRENT").getD "")
    if declared = "" then .ok lowest
    else match P.number declared with
      | some version => if version ∈ lowest :: rest then .ok version else fail .kekVersionUnknown
      | none => fail .kekVersionUnknown

def kekMaterial (env : KekEnv) (version : ℕ) : Outcome String :=
  match env.get ("KEK_V" ++ toString version) with
  | none => fail .kekVersionUnknown
  | some raw => if raw = "" then fail .kekVersionUnknown else .ok raw

/-- The value of a character of the base64 alphabet. -/
def sextet (c : Char) : Option ℕ :=
  let n := c.toNat
  if 0x41 ≤ n ∧ n ≤ 0x5A then some (n - 0x41)
  else if 0x61 ≤ n ∧ n ≤ 0x7A then some (n - 0x61 + 26)
  else if 0x30 ≤ n ∧ n ≤ 0x39 then some (n - 0x30 + 52)
  else if c = '+' then some 62
  else if c = '/' then some 63
  else none

def sextetBytes : List ℕ → Bytes
  | a :: b :: c :: d :: rest =>
    UInt8.ofNat (a * 4 + b / 16) :: UInt8.ofNat (b % 16 * 16 + c / 4) :: UInt8.ofNat (c % 4 * 64 + d) ::
      sextetBytes rest
  | [a,b,c] => [UInt8.ofNat (a * 4 + b / 16),UInt8.ofNat (b % 16 * 16 + c / 4)]
  | [a,b] => [UInt8.ofNat (a * 4 + b / 16)]
  | _ => []

def isAsciiSpace (c : Char) : Bool := c.toNat ∈ [9,10,12,13,32]

/-- Up to two padding characters at the end. -/
def unpadded (text : List Char) : List Char :=
  if text.length % 4 ≠ 0 then text
  else if text.getLast? ≠ some '=' then text
  else if text.dropLast.getLast? ≠ some '=' then text.dropLast
  else text.dropLast.dropLast

/-- `atob`, with the characters of its result as bytes. -/
def atob (text : String) : Option Bytes :=
  let data := unpadded (text.toList.filter fun c => !isAsciiSpace c)
  if data.length % 4 = 1 then none else (data.mapM sextet).map sextetBytes

def decodeBase64 (value : String) : Option Bytes := atob (Approvals.trim value)

def importKek (env : KekEnv) (version : ℕ) : Outcome Bytes := do
  let material ← kekMaterial env version
  match decodeBase64 material with
  | none => fail .kekMalformed
  | some raw => if raw.length ≠ 32 then fail .kekMalformed else .ok raw

/-- `importKey('raw', bytes, 'AES-GCM', …)`. -/
def importKey (bytes : Bytes) : Outcome Bytes :=
  if bytes.length = 16 ∨ bytes.length = 24 ∨ bytes.length = 32 then .ok bytes else .error .dataError

/-! ## Identities and associated data -/

def isHexDigit (c : Char) : Bool :=
  let n := c.toNat
  (0x30 ≤ n && n ≤ 0x39) || (0x61 ≤ n && n ≤ 0x66)

/-- Eight, four, four, four and twelve hexadecimal digits between dashes. -/
def isUuid (text : String) : Bool :=
  text.toList.length = 36 && (text.toList.zipIdx.all fun (c, i) =>
    if i = 8 ∨ i = 13 ∨ i = 18 ∨ i = 23 then c == '-' else isHexDigit c)

/-- An id as the database writes it. -/
structure Uuid where
  text : String
  isUuid : isUuid text = true
  deriving DecidableEq

structure EnvelopeIdentity where
  workspaceId : Uuid
  keyId : Uuid
  deriving DecidableEq

structure SecretEnvelopeIdentity extends EnvelopeIdentity where
  domain : String
  deriving DecidableEq

def encodeText (text : String) : Bytes := encode text.toList

def dataAad (id : EnvelopeIdentity) : Bytes :=
  encodeText ("hermes/provider-key/v1|" ++ id.workspaceId.text ++ "|" ++ id.keyId.text)

def wrapAad (id : EnvelopeIdentity) (kekVersion : ℕ) : Bytes :=
  encodeText ("hermes/provider-dek/v1|" ++ id.workspaceId.text ++ "|" ++ id.keyId.text ++ "|" ++ toString kekVersion)

def secretDataAad (id : SecretEnvelopeIdentity) : Bytes :=
  encodeText (id.domain ++ "|data|" ++ id.workspaceId.text ++ "|" ++ id.keyId.text)

def secretWrapAad (id : SecretEnvelopeIdentity) (kekVersion : ℕ) : Bytes :=
  encodeText (id.domain ++ "|dek|" ++ id.workspaceId.text ++ "|" ++ id.keyId.text ++ "|" ++ toString kekVersion)

def isDomainChar (c : Char) : Bool :=
  let n := c.toNat
  (0x61 ≤ n && n ≤ 0x7A) || (0x30 ≤ n && n ≤ 0x39) || c == '-'

/-- `^hermes\/[a-z0-9-]+\/v\d+$`. -/
def validDomain (domain : String) : Bool :=
  "hermes/".toList.isPrefixOf domain.toList &&
    let rest := domain.toList.drop 7
    let name := rest.takeWhile isDomainChar
    let version := rest.dropWhile isDomainChar
    !name.isEmpty && "/v".toList.isPrefixOf version && !(version.drop 2).isEmpty && (version.drop 2).all isDigit

/-! ## Sealing, opening, re-wrapping -/

structure StoredEnvelope where
  ciphertext : Bytes
  iv : Bytes
  wrappedDek : Bytes
  wrapIv : Bytes
  kekVersion : ℕ
  deriving DecidableEq

/-- The random bytes of one sealing. -/
structure Randomness where
  dek : Bytes
  iv : Bytes
  wrapIv : Bytes
  dek_length : dek.length = 32

/-- The three fields that a re-wrap replaces. -/
structure Wrap where
  wrappedDek : Bytes
  wrapIv : Bytes
  kekVersion : ℕ
  deriving DecidableEq

def StoredEnvelope.wrapped (e : StoredEnvelope) (w : Wrap) : StoredEnvelope :=
  { e with wrappedDek := w.wrappedDek, wrapIv := w.wrapIv, kekVersion := w.kekVersion }

variable (P : Platform)

def aesDecrypt (key iv aad data : Bytes) : Outcome Bytes :=
  match P.aead.decrypt key iv aad data with
  | some text => .ok text
  | none => fail .decryptFailed

/-- The shared part of `sealKey` and `sealSecret`. -/
def sealUnder (env : KekEnv) (data : Bytes) (wrap : ℕ → Bytes) (plaintext : String) (r : Randomness) :
    Outcome StoredEnvelope := do
  let kekVersion ← currentKekVersion P env
  let kek ← importKek env kekVersion
  let dek ← importKey r.dek
  .ok { ciphertext := P.aead.encrypt dek r.iv data (encodeText plaintext), iv := r.iv
        wrappedDek := P.aead.encrypt kek r.wrapIv (wrap kekVersion) r.dek, wrapIv := r.wrapIv, kekVersion }

def sealKey (env : KekEnv) (id : EnvelopeIdentity) (plaintext : String) (r : Randomness) : Outcome StoredEnvelope :=
  if plaintext = "" then fail .plaintextEmpty
  else sealUnder P env (dataAad id) (wrapAad id) plaintext r

def sealSecret (env : KekEnv) (id : SecretEnvelopeIdentity) (plaintext : String) (r : Randomness) :
    Outcome StoredEnvelope :=
  if plaintext = "" then fail .plaintextEmpty
  else if validDomain id.domain = false then fail .decryptFailed
  else sealUnder P env (secretDataAad id) (secretWrapAad id) plaintext r

/-- The shared part of `openKey` and `openSecret`. -/
def openUnder (env : KekEnv) (data : Bytes) (wrap : ℕ → Bytes) (stored : StoredEnvelope) : Outcome String := do
  let kek ← importKek env stored.kekVersion
  let dekBytes ← aesDecrypt P kek stored.wrapIv (wrap stored.kekVersion) stored.wrappedDek
  let dek ← importKey dekBytes
  let plaintext ← aesDecrypt P dek stored.iv data stored.ciphertext
  .ok (String.ofList (decode plaintext))

def openKey (env : KekEnv) (id : EnvelopeIdentity) (stored : StoredEnvelope) : Outcome String :=
  openUnder P env (dataAad id) (wrapAad id) stored

def openSecret (env : KekEnv) (id : SecretEnvelopeIdentity) (stored : StoredEnvelope) : Outcome String :=
  openUnder P env (secretDataAad id) (secretWrapAad id) stored

/-- The shared part of `rewrapDek` and `rewrapSecretDek`. -/
def rewrapUnder (env : KekEnv) (wrap : ℕ → Bytes) (stored : StoredEnvelope) (toVersion : ℕ) (wrapIv : Bytes) :
    Outcome Wrap := do
  let source ← importKek env stored.kekVersion
  let dekBytes ← aesDecrypt P source stored.wrapIv (wrap stored.kekVersion) stored.wrappedDek
  let target ← importKek env toVersion
  .ok { wrappedDek := P.aead.encrypt target wrapIv (wrap toVersion) dekBytes, wrapIv, kekVersion := toVersion }

def rewrapDek (env : KekEnv) (id : EnvelopeIdentity) (stored : StoredEnvelope) (toVersion : ℕ) (wrapIv : Bytes) :
    Outcome Wrap :=
  rewrapUnder P env (wrapAad id) stored toVersion wrapIv

def rewrapSecretDek (env : KekEnv) (id : SecretEnvelopeIdentity) (stored : StoredEnvelope) (toVersion : ℕ)
    (wrapIv : Bytes) : Outcome Wrap :=
  rewrapUnder P env (secretWrapAad id) stored toVersion wrapIv

end HermesEnterprise.Envelope
