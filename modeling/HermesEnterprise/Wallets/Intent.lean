import HermesEnterprise.Foundation.Characters
import HermesEnterprise.Foundation.Numerals
import HermesEnterprise.Providers.Json
import Mathlib.Data.List.DropRight

/-! # Transfer intents

A transfer of a stable coin is prepared as a record whose canonical text is hashed. What was approved is checked
again by that hash right before it is used.
-/
namespace HermesEnterprise.Wallets
open Inbound Providers Foundation

section Checks

def baseUsdcAddress : Text := text "0x833589fcd6edb6e08f4c7c32d4f71b54bda02913"

def baseChainId : ℕ := 8453

def usdcDecimals : ℕ := 6

def uint256Max : ℕ := 2 ^ 256 - 1

/-- `BigInt` of decimal digits. -/
def bigInt (s : Text) : ℕ := parseInt 10 s

def startsWith (start s : Text) : Bool := start.isPrefixOf s

/-- `^(0|[1-9][0-9]*)$` -/
def decimalInteger : Text → Bool
  | [] => false
  | c :: rest => (c = unit '0' && rest.isEmpty) || (unit '1' ≤ c && c ≤ unit '9' && rest.all isDigit)

def uint (s : Text) : Bool := s.length ≤ 78 && decimalInteger s && bigInt s ≤ uint256Max

def positive (s : Text) : Bool := uint s && 0 < bigInt s

def nonce (s : Text) : Bool := uint s && bigInt s < 2 ^ 64 - 1

def gasLimit (s : Text) : Bool := positive s && 21000 ≤ bigInt s && bigInt s ≤ 1000000

def isLowerHex (c : CodeUnit) : Bool := isDigit c || (unit 'a' ≤ c && c ≤ unit 'f')

def hexDigits (count : ℕ) (s : Text) : Bool := s.length = count && s.all isLowerHex

def digest (s : Text) : Bool := hexDigits 64 s

def blockHash (s : Text) : Bool := startsWith (text "0x") s && hexDigits 64 (s.drop 2)

/-- A lower-case address that is not the zero address. -/
def address (s : Text) : Bool :=
  startsWith (text "0x") s && hexDigits 40 (s.drop 2) && !(s.drop 2).all (· = unit '0')

def within (least most : ℕ) (s : Text) : Bool := least ≤ s.length && s.length ≤ most

/-- Whether every unit is of the kind that stands for it in a pattern. -/
def matchesPattern (kind : CodeUnit → CodeUnit → Bool) (pattern s : Text) : Bool :=
  s.length = pattern.length && (pattern.zip s).all fun p => kind p.1 p.2

def uuidUnit (p c : CodeUnit) : Bool :=
  if p = unit 'x' then isHexDigit c && c < 0x80
  else if p = unit 'V' then unit '1' ≤ c && c ≤ unit '8'
  else if p = unit 'N' then c ∈ text "89abAB"
  else c = p

def uuid (s : Text) : Bool :=
  matchesPattern uuidUnit (text "xxxxxxxx-xxxx-Vxxx-Nxxx-xxxxxxxxxxxx") s ||
    s = text "00000000-0000-0000-0000-000000000000" || s = text "ffffffff-ffff-ffff-ffff-ffffffffffff"

end Checks

section Times

def isLeap (year : ℕ) : Bool := year % 4 = 0 && (year % 100 ≠ 0 || year % 400 = 0)

def daysOfMonths (year : ℕ) : List ℕ := [31,if isLeap year then 29 else 28,31,30,31,30,31,31,30,31,30,31]

def part (s : Text) (start count : ℕ) : ℕ := parseInt 10 ((s.drop start).take count)

/-- A time in UTC with milliseconds, whose day exists. -/
def timestamp (s : Text) : Bool :=
  let year := part s 0 4
  let month := part s 5 2
  let day := part s 8 2
  matchesPattern (fun p c => if p = unit 'd' then isDigit c else c = p) (text "dddd-dd-ddTdd:dd:dd.dddZ") s &&
    1 ≤ month && 1 ≤ day && day ≤ (daysOfMonths year).getD (month - 1) 0 &&
    part s 11 2 ≤ 23 && part s 14 2 ≤ 59 && part s 17 2 ≤ 59

/-- The days from the start of 1970 to the start of a year. -/
def daysBefore (year : ℕ) : ℤ :=
  365 * year + ((year + 3) / 4 : ℕ) - ((year + 99) / 100 : ℕ) + ((year + 399) / 400 : ℕ) - 719528

/-- `Date.parse` of such a time, in milliseconds. -/
def dateParse (s : Text) : ℤ :=
  let year := part s 0 4
  let days := daysBefore year + ((daysOfMonths year).take (part s 5 2 - 1)).sum + part s 8 2 - 1
  (((days * 24 + part s 11 2) * 60 + part s 14 2) * 60 + part s 17 2) * 1000 + part s 20 3

example : dateParse (text "1970-01-01T00:00:00.000Z") = 0 := by decide

end Times

/-- A value of any kind. The fields of an object are those that can be read; `other` is what is neither a string
nor a finite number nor a plain object. -/
inductive Value
  | string (s : Text)
  | number (q : ℚ)
  | object (fields : List (Text × Value))
  | other

/-- The values that an intent is made of. -/
inductive Tree
  | string (s : Text)
  | integer (n : ℕ)
  | object (fields : List (Text × Tree))

mutual

def Tree.value : Tree → Value
  | .string s => .string s
  | .integer n => .number n
  | .object fields => .object (fieldValues fields)

def fieldValues : List (Text × Tree) → List (Text × Value)
  | [] => []
  | (key,tree) :: rest => (key,tree.value) :: fieldValues rest

end

section Records

abbrev Checked (check : Text → Bool) := { s : Text // check s = true }

abbrev Revision := { n : ℕ // 1 ≤ n ∧ n ≤ maxSafeInteger }

abbrev Purpose := { s : Text // trim s = s ∧ 1 ≤ s.length ∧ s.length ≤ 2000 }

/-- A simulation that succeeded. -/
structure Simulation where
  blockNumber : Checked uint
  blockHash : Checked blockHash
  simulatedAt : Checked timestamp
  deriving DecidableEq

structure TransferIntentInput where
  workspaceId : Checked uuid
  principalId : Checked uuid
  accountId : Checked uuid
  sourceAddress : Checked address
  recipientAddress : Checked address
  amountBaseUnits : Checked positive
  nonce : Checked nonce
  gasLimit : Checked gasLimit
  maxFeePerGasWei : Checked positive
  maxPriorityFeePerGasWei : Checked uint
  maxTotalFeeWei : Checked positive
  expiresAt : Checked timestamp
  policyVersion : Checked (within 1 128)
  policyDigest : Checked digest
  approvalRevision : Revision
  purpose : Purpose
  simulation : Simulation
  deriving DecidableEq

structure TransferIntent extends TransferIntentInput where
  calldata : Text
  deriving DecidableEq

def Simulation.fields (s : Simulation) : List (Text × Tree) :=
  [(text "status",.string (text "succeeded")),(text "blockNumber",.string s.blockNumber.1),
    (text "blockHash",.string s.blockHash.1),(text "simulatedAt",.string s.simulatedAt.1)]

def TransferIntentInput.fields (i : TransferIntentInput) : List (Text × Tree) :=
  [(text "workspaceId",.string i.workspaceId.1),
    (text "principalId",.string i.principalId.1),
    (text "accountId",.string i.accountId.1),
    (text "sourceAddress",.string i.sourceAddress.1),
    (text "recipientAddress",.string i.recipientAddress.1),
    (text "chainId",.integer baseChainId),
    (text "tokenAddress",.string baseUsdcAddress),
    (text "decimals",.integer usdcDecimals),
    (text "amountBaseUnits",.string i.amountBaseUnits.1),
    (text "nonce",.string i.nonce.1),
    (text "gasLimit",.string i.gasLimit.1),
    (text "maxFeePerGasWei",.string i.maxFeePerGasWei.1),
    (text "maxPriorityFeePerGasWei",.string i.maxPriorityFeePerGasWei.1),
    (text "maxTotalFeeWei",.string i.maxTotalFeeWei.1),
    (text "expiresAt",.string i.expiresAt.1),
    (text "policyVersion",.string i.policyVersion.1),
    (text "policyDigest",.string i.policyDigest.1),
    (text "approvalRevision",.integer i.approvalRevision.1),
    (text "purpose",.string i.purpose.1),
    (text "simulation",.object i.simulation.fields)]

def TransferIntent.allFields (i : TransferIntent) : List (Text × Tree) :=
  i.fields ++ [(text "version",.integer 1),(text "transactionType",.integer 2),
    (text "nativeValueWei",.string (text "0")),(text "calldata",.string i.calldata)]

/-- An intent as an object. -/
def TransferIntent.tree (i : TransferIntent) : Tree := .object i.allFields

end Records

section Schemas

def stringField (check : Text → Bool) : Option Value → Option (Checked check)
  | some (.string s) => if h : check s = true then some ⟨s,h⟩ else none
  | _ => none

def stringLiteral (expected : Text) : Option Value → Option Unit
  | some (.string s) => if s = expected then some () else none
  | _ => none

def numberLiteral (expected : ℕ) : Option Value → Option Unit
  | some (.number q) => if q = expected then some () else none
  | _ => none

def revisionField : Option Value → Option Revision
  | some (.number q) =>
    if h : q.den = 1 ∧ 0 ≤ q.num ∧ 1 ≤ q.num.natAbs ∧ q.num.natAbs ≤ maxSafeInteger then some ⟨q.num.natAbs,h.2.2⟩
    else none
  | _ => none

theorem trimEnd_prefix (s : Text) : trimEnd s <+: s := by
  have hsuffix : s.reverse.dropWhile isSpace <:+ s.reverse := List.dropWhile_suffix isSpace
  have hbegin := List.reverse_prefix.mpr hsuffix
  rw [List.reverse_reverse] at hbegin
  exact hbegin

theorem trim_trim (s : Text) : trim (trim s) = trim s := by
  unfold trim
  have hend : ∀ t : Text, trimEnd (trimEnd t) = trimEnd t := fun t => List.rdropWhile_idempotent isSpace t
  have hstart : trimStart (trimEnd (trimStart s)) = trimEnd (trimStart s) := by
    unfold trimStart
    rw [List.dropWhile_eq_self_iff]
    intro hpos
    -- the first unit that is left is the first one behind the leading spaces
    have hbegin := trimEnd_prefix (s.dropWhile isSpace)
    have hfirst := List.dropWhile_get_zero_not (p := isSpace) s (hpos.trans_le hbegin.length_le)
    rw [hbegin.getElem hpos]
    exact hfirst
  rw [hstart, hend]

/-- The purpose is trimmed before its length is checked. -/
def purposeField : Option Value → Option Purpose
  | some (.string s) =>
    if h : 1 ≤ (trim s).length ∧ (trim s).length ≤ 2000 then some ⟨trim s,trim_trim s,h⟩ else none
  | _ => none

def onlyKeys (keys : List Text) (fields : List (Text × Value)) : Bool := fields.all fun f => f.1 ∈ keys

def simulationKeys : List Text :=
  [text "status",text "blockNumber",text "blockHash",text "simulatedAt"]

def simulationField : Option Value → Option Simulation
  | some (.object fields) => do
    if !onlyKeys simulationKeys fields then none
    stringLiteral (text "succeeded") (entry fields (text "status"))
    let blockNumber ← stringField uint (entry fields (text "blockNumber"))
    let blockHash ← stringField blockHash (entry fields (text "blockHash"))
    let simulatedAt ← stringField timestamp (entry fields (text "simulatedAt"))
    return ⟨blockNumber,blockHash,simulatedAt⟩
  | _ => none

def inputKeys : List Text :=
  [text "workspaceId",text "principalId",text "accountId",text "sourceAddress",text "recipientAddress",text "chainId",
    text "tokenAddress",text "decimals",text "amountBaseUnits",text "nonce",text "gasLimit",text "maxFeePerGasWei",
    text "maxPriorityFeePerGasWei",text "maxTotalFeeWei",text "expiresAt",text "policyVersion",text "policyDigest",
    text "approvalRevision",text "purpose",text "simulation"]

/-- The fields that both schemas have. -/
def inputFields (fields : List (Text × Value)) : Option TransferIntentInput := do
  let workspaceId ← stringField uuid (entry fields (text "workspaceId"))
  let principalId ← stringField uuid (entry fields (text "principalId"))
  let accountId ← stringField uuid (entry fields (text "accountId"))
  let sourceAddress ← stringField address (entry fields (text "sourceAddress"))
  let recipientAddress ← stringField address (entry fields (text "recipientAddress"))
  numberLiteral baseChainId (entry fields (text "chainId"))
  stringLiteral baseUsdcAddress (entry fields (text "tokenAddress"))
  numberLiteral usdcDecimals (entry fields (text "decimals"))
  let amountBaseUnits ← stringField positive (entry fields (text "amountBaseUnits"))
  let nonce ← stringField nonce (entry fields (text "nonce"))
  let gasLimit ← stringField gasLimit (entry fields (text "gasLimit"))
  let maxFeePerGasWei ← stringField positive (entry fields (text "maxFeePerGasWei"))
  let maxPriorityFeePerGasWei ← stringField uint (entry fields (text "maxPriorityFeePerGasWei"))
  let maxTotalFeeWei ← stringField positive (entry fields (text "maxTotalFeeWei"))
  let expiresAt ← stringField timestamp (entry fields (text "expiresAt"))
  let policyVersion ← stringField (within 1 128) (entry fields (text "policyVersion"))
  let policyDigest ← stringField digest (entry fields (text "policyDigest"))
  let approvalRevision ← revisionField (entry fields (text "approvalRevision"))
  let purpose ← purposeField (entry fields (text "purpose"))
  let simulation ← simulationField (entry fields (text "simulation"))
  return ⟨workspaceId,principalId,accountId,sourceAddress,recipientAddress,amountBaseUnits,nonce,gasLimit,
    maxFeePerGasWei,maxPriorityFeePerGasWei,maxTotalFeeWei,expiresAt,policyVersion,policyDigest,approvalRevision,
    purpose,simulation⟩

def transferIntentInputSchema : Value → Option TransferIntentInput
  | .object fields => if onlyKeys inputKeys fields then inputFields fields else none
  | _ => none

/-- `^0xa9059cbb[0-9a-f]{128}$` -/
def calldataShape (s : Text) : Bool := startsWith (text "0xa9059cbb") s && hexDigits 128 (s.drop 10)

def intentKeys : List Text :=
  inputKeys ++ [text "version",text "transactionType",text "nativeValueWei",text "calldata"]

def transferIntentSchema : Value → Option TransferIntent
  | .object fields => do
    if !onlyKeys intentKeys fields then none
    let input ← inputFields fields
    numberLiteral 1 (entry fields (text "version"))
    numberLiteral 2 (entry fields (text "transactionType"))
    stringLiteral (text "0") (entry fields (text "nativeValueWei"))
    let calldata ← stringField calldataShape (entry fields (text "calldata"))
    return ⟨input,calldata.1⟩
  | _ => none

end Schemas

section Canonical

/-- The order of `sort`, by code units. -/
def unitsLe : Text → Text → Bool
  | [], _ => true
  | _ :: _, [] => false
  | c :: s, d :: t => c < d || (c = d && unitsLe s t)

def decimal (n : ℕ) : Text := (Numerals.digits 10 n).map hexDigit

def printField (f : Text × Text) : Text := quote f.1 ++ unit ':' :: f.2

/-- An object whose values are printed, with its keys sorted. -/
def printObject (fields : List (Text × Text)) : Text :=
  unit '\x7b' :: join (text ",") ((fields.insertionSort fun a b => unitsLe a.1 b.1 = true).map printField) ++
    [unit '\x7d']

mutual

def canonicalize : Tree → Text
  | .string s => quote s
  | .integer n => decimal n
  | .object fields => printObject (canonicalFields fields)

def canonicalFields : List (Text × Tree) → List (Text × Text)
  | [] => []
  | (key,tree) :: rest => (key,canonicalize tree) :: canonicalFields rest

end

end Canonical

section Operations

inductive Failure
  | schema
  | error (message : String)
  deriving DecidableEq

/-- A hash of 32 bytes. -/
abbrev Hash := List UInt8 → List.Vector UInt8 32

structure Prepared where
  intent : TransferIntent
  canonicalJson : Text
  intentHash : Text
  deriving DecidableEq

def padStart (length : ℕ) (s : Text) : Text := List.replicate (length - s.length) (unit '0') ++ s

/-- `toString(16)`. -/
def toHex (n : ℕ) : Text := (Numerals.digits 16 n).map hexDigit

def calldata (recipient amount : Text) : Text :=
  text "0xa9059cbb" ++ (padStart 64 (recipient.drop 2) ++ padStart 64 (toHex (bigInt amount)))

/-- `now` is missing where the clock is invalid. -/
def assertValid (intent : TransferIntentInput) (now : Option ℤ) : Except Failure Unit :=
  let expires := dateParse intent.expiresAt.1
  let simulated := dateParse intent.simulation.simulatedAt.1
  match now with
  | none => .error (.error "Transfer intent expired or invalid clock")
  | some time =>
    if expires ≤ time then .error (.error "Transfer intent expired or invalid clock")
    else if time + 24 * 60 * 60 * 1000 < expires then .error (.error "Transfer expiry exceeds 24 hours")
    else if time < simulated ∨ simulated < time - 5 * 60 * 1000 then
      .error (.error "Fresh successful simulation required")
    else if intent.sourceAddress.1 = intent.recipientAddress.1 ∨ intent.recipientAddress.1 = baseUsdcAddress then
      .error (.error "Unsupported recipient")
    else if bigInt intent.maxFeePerGasWei.1 < bigInt intent.maxPriorityFeePerGasWei.1 then
      .error (.error "Priority fee exceeds fee ceiling")
    else if bigInt intent.maxTotalFeeWei.1 < bigInt intent.gasLimit.1 * bigInt intent.maxFeePerGasWei.1 then
      .error (.error "Gas envelope exceeds total fee ceiling")
    else .ok ()

def hashedText (canonicalJson : Text) : Text := text "hermes:base-usdc-transfer:v1\n" ++ canonicalJson

/-- The bytes of a hash in hexadecimal digits. -/
def hexBytes (bytes : List UInt8) : Text := bytes.flatMap fun byte => padStart 2 (toHex byte.toNat)

def prepared (hash : Hash) (intent : TransferIntent) : Prepared :=
  let canonicalJson := canonicalize intent.tree
  ⟨intent,canonicalJson,hexBytes (hash (Utf16.encode (hashedText canonicalJson))).1⟩

def prepareTransferIntent (hash : Hash) (input : Value) (now : Option ℤ) : Except Failure Prepared :=
  match transferIntentInputSchema input with
  | none => .error .schema
  | some parsed => do
    assertValid parsed now
    return prepared hash ⟨parsed,calldata parsed.recipientAddress.1 parsed.amountBaseUnits.1⟩

def verifyTransferIntent (hash : Hash) (input : Value) (expectedHash : Text) (now : Option ℤ) :
    Except Failure Prepared :=
  if !digest expectedHash then .error .schema
  else
    match transferIntentSchema input with
    | none => .error .schema
    | some parsed => do
      assertValid parsed.toTransferIntentInput now
      if parsed.calldata ≠ calldata parsed.recipientAddress.1 parsed.amountBaseUnits.1 then
        .error (.error "Calldata does not match transfer")
      let result := prepared hash parsed
      if result.intentHash ≠ expectedHash then .error (.error "Approved transfer intent hash mismatch")
      return result

end Operations
end HermesEnterprise.Wallets
