import HermesEnterprise.Wallets.Canonical

/-! # An approved intent

What is verified under the hash of an approved intent is that intent, as long as its hashed text does not collide
with another one. The call data of an intent decodes to its recipient and its amount.
-/
namespace HermesEnterprise.Wallets
open Inbound Providers Foundation
variable {hash : Hash} {intent : TransferIntent} {input : Value} {now : Option ℤ} {r : Prepared}

section Digits

theorem length_padStart {s : Text} {k : ℕ} (h : s.length ≤ k) : (padStart k s).length = k := by
  unfold padStart
  rw [List.length_append, List.length_replicate]
  omega

theorem isLowerHex_hexDigit {d : ℕ} (h : d < 16) : isLowerHex (hexDigit d) = true := by
  have hall : ∀ d < 16, isLowerHex (hexDigit d) = true := by decide
  exact hall d h

theorem isLowerHex_toHex (n : ℕ) : (toHex n).all isLowerHex = true := by
  rw [List.all_eq_true]
  intro c hc
  obtain ⟨d,hd,rfl⟩ := List.mem_map.mp hc
  exact isLowerHex_hexDigit (Numerals.digits_lt (by decide) d hd)

theorem isLowerHex_padStart {s : Text} (k : ℕ) (h : s.all isLowerHex = true) : (padStart k s).all isLowerHex = true := by
  unfold padStart
  rw [List.all_append, h, Bool.and_true, List.all_replicate]
  split
  · rfl
  · decide

theorem length_toHex {n k : ℕ} (hk : 0 < k) (h : n < 16 ^ k) : (toHex n).length ≤ k := by
  unfold toHex
  rw [List.length_map]
  exact Numerals.length_digits (by decide) hk h

/-- A padded number is read back. -/
theorem parseInt_padStart (k n : ℕ) : parseInt 16 (padStart k (toHex n)) = n := by
  have hdigits : ∀ d ∈ List.replicate (k - (toHex n).length) 0 ++ Numerals.digits 16 n, d < 16 := by
    intro d hd
    rcases List.mem_append.mp hd with hzero | hd
    · rw [List.eq_of_mem_replicate hzero]
      decide
    · exact Numerals.digits_lt (by decide) d hd
  have hmap : padStart k (toHex n) =
      (List.replicate (k - (toHex n).length) 0 ++ Numerals.digits 16 n).map hexDigit := by
    rw [List.map_append, List.map_replicate]
    rfl
  rw [hmap, parseInt_hexDigits (by decide) hdigits, Numerals.value_zeros, Numerals.value_digits]

theorem hexByte_length (byte : UInt8) : (padStart 2 (toHex byte.toNat)).length = 2 :=
  length_padStart (length_toHex (by decide) byte.toNat_lt)

theorem length_hexBytes (bytes : List UInt8) : (hexBytes bytes).length = 2 * bytes.length := by
  induction bytes with
  | nil => rfl
  | cons byte bytes ih =>
    have hcons : hexBytes (byte :: bytes) = padStart 2 (toHex byte.toNat) ++ hexBytes bytes := rfl
    rw [hcons, List.length_append, hexByte_length, ih, List.length_cons]
    omega

theorem hexBytes_injective : Function.Injective hexBytes := by
  intro xs ys h
  induction xs generalizing ys with
  | nil =>
    have hlength := congrArg List.length h
    rw [length_hexBytes, length_hexBytes, List.length_nil] at hlength
    exact (List.length_eq_zero_iff.mp (by omega)).symm
  | cons x xs ih =>
    cases ys with
    | nil =>
      have hlength := congrArg List.length h
      rw [length_hexBytes, length_hexBytes, List.length_nil, List.length_cons] at hlength
      omega
    | cons y ys =>
      have happend : padStart 2 (toHex x.toNat) ++ hexBytes xs = padStart 2 (toHex y.toNat) ++ hexBytes ys := h
      obtain ⟨hfirst,hrest⟩ := List.append_inj happend ((hexByte_length x).trans (hexByte_length y).symm)
      have hbyte : x.toNat = y.toNat := by
        rw [← parseInt_padStart 2 x.toNat, hfirst, parseInt_padStart]
      rw [UInt8.toNat_inj.mp hbyte, ih hrest]

/-- A hash is what `verifyTransferIntent` takes as one. -/
theorem digest_hexBytes (bytes : List.Vector UInt8 32) : digest (hexBytes bytes.1) = true := by
  have hlength : (hexBytes bytes.1).length = 64 := by
    rw [length_hexBytes, bytes.2]
  have hall : (hexBytes bytes.1).all isLowerHex = true := by
    unfold hexBytes
    rw [List.all_flatMap, List.all_eq_true]
    intro byte _
    exact isLowerHex_padStart 2 (isLowerHex_toHex _)
  unfold digest hexDigits
  rw [hlength, hall]
  rfl

end Digits

section Calldata

/-- The arguments of `transfer(address,uint256)` in the binary interface of contracts: two words of 32 bytes, the
first with an address in its last 20. -/
def decodeTransfer (calldata : Text) : Option (Text × ℕ) :=
  let first := (calldata.drop 10).take 64
  if calldataShape calldata && (first.take 24).all (· = unit '0') then
    some (text "0x" ++ first.drop 24,parseInt 16 (calldata.drop 74))
  else none

theorem address_parts {s : Text} (h : address s = true) :
    s = text "0x" ++ s.drop 2 ∧ (s.drop 2).length = 40 ∧ (s.drop 2).all isLowerHex = true := by
  unfold address hexDigits startsWith at h
  simp only [Bool.and_eq_true, decide_eq_true_eq] at h
  obtain ⟨⟨hstart,hlength,hall⟩,-⟩ := h
  refine ⟨?_,hlength,hall⟩
  obtain ⟨rest,rfl⟩ := List.isPrefixOf_iff_prefix.mp hstart
  rfl

theorem bigInt_le_max {s : Text} (h : positive s = true) : bigInt s ≤ uint256Max := by
  unfold positive uint at h
  simp only [Bool.and_eq_true, decide_eq_true_eq] at h
  exact h.1.2

section Words
variable {recipient amount : Text} (hrecipient : address recipient = true) (hamount : bigInt amount ≤ uint256Max)
include hrecipient hamount

theorem length_words : (padStart 64 (recipient.drop 2)).length = 64 ∧
    (padStart 64 (toHex (bigInt amount))).length = 64 := by
  obtain ⟨-,hlength,-⟩ := address_parts hrecipient
  have hbound : bigInt amount < 16 ^ 64 := hamount.trans_lt (by decide)
  exact ⟨length_padStart (hlength.trans_le (by decide)),length_padStart (length_toHex (by decide) hbound)⟩

theorem calldata_shape : calldataShape (calldata recipient amount) = true := by
  obtain ⟨-,-,hall⟩ := address_parts hrecipient
  obtain ⟨hfirst,hsecond⟩ := length_words hrecipient hamount
  have hdrop : (calldata recipient amount).drop 10 =
      padStart 64 (recipient.drop 2) ++ padStart 64 (toHex (bigInt amount)) := rfl
  have hstart : startsWith (text "0xa9059cbb") (calldata recipient amount) = true :=
    List.isPrefixOf_iff_prefix.mpr (List.prefix_append _ _)
  unfold calldataShape hexDigits
  rw [hstart, hdrop, List.length_append, hfirst, hsecond, List.all_append, isLowerHex_padStart 64 hall,
    isLowerHex_padStart 64 (isLowerHex_toHex _)]
  rfl

/-- Recipient and amount come back from the call data, without loss. -/
theorem decodeTransfer_calldata : decodeTransfer (calldata recipient amount) = some (recipient,bigInt amount) := by
  obtain ⟨hrecipient_eq,hlength,-⟩ := address_parts hrecipient
  obtain ⟨hfirst,-⟩ := length_words hrecipient hamount
  have htake : ((calldata recipient amount).drop 10).take 64 = padStart 64 (recipient.drop 2) := by
    have hdrop : (calldata recipient amount).drop 10 =
        padStart 64 (recipient.drop 2) ++ padStart 64 (toHex (bigInt amount)) := rfl
    rw [hdrop, List.take_left' hfirst]
  have hlast : (calldata recipient amount).drop 74 = padStart 64 (toHex (bigInt amount)) := by
    have hsplit : (calldata recipient amount).drop 74 = ((calldata recipient amount).drop 10).drop 64 := by
      rw [List.drop_drop]
    have hdrop : (calldata recipient amount).drop 10 =
        padStart 64 (recipient.drop 2) ++ padStart 64 (toHex (bigInt amount)) := rfl
    rw [hsplit, hdrop, List.drop_left' hfirst]
  have hpad : padStart 64 (recipient.drop 2) = List.replicate 24 (unit '0') ++ recipient.drop 2 := by
    unfold padStart
    rw [hlength]
  have hzeros : (padStart 64 (recipient.drop 2)).take 24 = List.replicate 24 (unit '0') := by
    rw [hpad, List.take_left' (List.length_replicate)]
  have haddress : (padStart 64 (recipient.drop 2)).drop 24 = recipient.drop 2 := by
    rw [hpad, List.drop_left' (List.length_replicate)]
  unfold decodeTransfer
  dsimp only
  rw [calldata_shape hrecipient hamount, htake, hlast, hzeros, haddress, ← hrecipient_eq, parseInt_padStart]
  rfl

end Words
end Calldata

section Schemas

theorem stringField_value {check : Text → Bool} {value : Option Value} (s : Checked check)
    (h : value = some (.string s.1)) : stringField check value = some s := by
  rw [h]
  unfold stringField
  dsimp only
  rw [dif_pos s.2]

theorem stringLiteral_value {s : Text} {value : Option Value} (h : value = some (.string s)) :
    stringLiteral s value = some () := by
  rw [h]
  unfold stringLiteral
  dsimp only
  rw [if_pos rfl]

theorem numberLiteral_value {n : ℕ} {value : Option Value} (h : value = some (.number n)) :
    numberLiteral n value = some () := by
  rw [h]
  unfold numberLiteral
  dsimp only
  rw [if_pos rfl]

theorem revisionField_value {value : Option Value} (revision : Revision) (h : value = some (.number (revision.1 : ℚ))) :
    revisionField value = some revision := by
  rw [h]
  unfold revisionField
  dsimp only
  have hnum : ((revision.1 : ℚ)).num.natAbs = revision.1 := by rw [Rat.num_natCast, Int.natAbs_natCast]
  rw [dif_pos ⟨Rat.den_natCast _,Rat.num_nonneg.mpr (Nat.cast_nonneg _),by rw [hnum]; exact revision.2⟩]
  exact congrArg some (Subtype.ext hnum)

theorem purposeField_value {value : Option Value} (purpose : Purpose) (h : value = some (.string purpose.1)) :
    purposeField value = some purpose := by
  obtain ⟨s,htrim,hlength⟩ := purpose
  rw [h]
  unfold purposeField
  dsimp only
  have hlength' : 1 ≤ (trim s).length ∧ (trim s).length ≤ 2000 := by rwa [htrim]
  rw [dif_pos hlength']
  exact congrArg some (Subtype.ext htrim)

theorem onlyKeys_of_keys {keys : List Text} {fields : List (Text × Value)} (h : fields.map Prod.fst = keys) :
    onlyKeys keys fields = true := by
  unfold onlyKeys
  rw [List.all_eq_true]
  intro f hf
  rw [decide_eq_true_eq, ← h]
  exact List.mem_map_of_mem hf

theorem simulationField_value {value : Option Value} (simulation : Simulation)
    (h : value = some (.object (fieldValues simulation.fields))) : simulationField value = some simulation := by
  have hkeys : onlyKeys simulationKeys (fieldValues simulation.fields) = true := onlyKeys_of_keys rfl
  have hstatus : entry (fieldValues simulation.fields) (text "status") = some (.string (text "succeeded")) := rfl
  have hnumber : entry (fieldValues simulation.fields) (text "blockNumber") = some (.string simulation.blockNumber.1) := rfl
  have hhash : entry (fieldValues simulation.fields) (text "blockHash") = some (.string simulation.blockHash.1) := rfl
  have hat : entry (fieldValues simulation.fields) (text "simulatedAt") = some (.string simulation.simulatedAt.1) := rfl
  rw [h]
  unfold simulationField
  dsimp only
  rw [hkeys, stringLiteral_value hstatus, stringField_value _ hnumber, stringField_value _ hhash,
    stringField_value _ hat]
  rfl

theorem inputFields_value (i : TransferIntentInput) (more : List (Text × Tree)) :
    inputFields (fieldValues (i.fields ++ more)) = some i := by
  have hworkspaceId : stringField uuid (entry (fieldValues (i.fields ++ more)) (text "workspaceId")) = some i.workspaceId :=
    stringField_value _ rfl
  have hprincipalId : stringField uuid (entry (fieldValues (i.fields ++ more)) (text "principalId")) = some i.principalId :=
    stringField_value _ rfl
  have haccountId : stringField uuid (entry (fieldValues (i.fields ++ more)) (text "accountId")) = some i.accountId :=
    stringField_value _ rfl
  have hsourceAddress : stringField address (entry (fieldValues (i.fields ++ more)) (text "sourceAddress")) = some i.sourceAddress :=
    stringField_value _ rfl
  have hrecipientAddress : stringField address (entry (fieldValues (i.fields ++ more)) (text "recipientAddress")) = some i.recipientAddress :=
    stringField_value _ rfl
  have hamountBaseUnits : stringField positive (entry (fieldValues (i.fields ++ more)) (text "amountBaseUnits")) = some i.amountBaseUnits :=
    stringField_value _ rfl
  have hnonce : stringField nonce (entry (fieldValues (i.fields ++ more)) (text "nonce")) = some i.nonce :=
    stringField_value _ rfl
  have hgasLimit : stringField gasLimit (entry (fieldValues (i.fields ++ more)) (text "gasLimit")) = some i.gasLimit :=
    stringField_value _ rfl
  have hmaxFeePerGasWei : stringField positive (entry (fieldValues (i.fields ++ more)) (text "maxFeePerGasWei")) = some i.maxFeePerGasWei :=
    stringField_value _ rfl
  have hmaxPriorityFeePerGasWei : stringField uint (entry (fieldValues (i.fields ++ more)) (text "maxPriorityFeePerGasWei")) = some i.maxPriorityFeePerGasWei :=
    stringField_value _ rfl
  have hmaxTotalFeeWei : stringField positive (entry (fieldValues (i.fields ++ more)) (text "maxTotalFeeWei")) = some i.maxTotalFeeWei :=
    stringField_value _ rfl
  have hexpiresAt : stringField timestamp (entry (fieldValues (i.fields ++ more)) (text "expiresAt")) = some i.expiresAt :=
    stringField_value _ rfl
  have hpolicyVersion : stringField (within 1 128) (entry (fieldValues (i.fields ++ more)) (text "policyVersion")) = some i.policyVersion :=
    stringField_value _ rfl
  have hpolicyDigest : stringField digest (entry (fieldValues (i.fields ++ more)) (text "policyDigest")) = some i.policyDigest :=
    stringField_value _ rfl
  have happrovalRevision : revisionField (entry (fieldValues (i.fields ++ more)) (text "approvalRevision")) = some i.approvalRevision :=
    revisionField_value _ rfl
  have hpurpose : purposeField (entry (fieldValues (i.fields ++ more)) (text "purpose")) = some i.purpose :=
    purposeField_value _ rfl
  have hsimulation : simulationField (entry (fieldValues (i.fields ++ more)) (text "simulation")) = some i.simulation :=
    simulationField_value _ rfl
  have hchainId : numberLiteral baseChainId (entry (fieldValues (i.fields ++ more)) (text "chainId")) = some () := numberLiteral_value rfl
  have htokenAddress : stringLiteral baseUsdcAddress (entry (fieldValues (i.fields ++ more)) (text "tokenAddress")) = some () := stringLiteral_value rfl
  have hdecimals : numberLiteral usdcDecimals (entry (fieldValues (i.fields ++ more)) (text "decimals")) = some () := numberLiteral_value rfl
  unfold inputFields
  rw [hworkspaceId, hprincipalId, haccountId, hsourceAddress, hrecipientAddress, hchainId, htokenAddress,
    hdecimals, hamountBaseUnits, hnonce, hgasLimit, hmaxFeePerGasWei, hmaxPriorityFeePerGasWei, hmaxTotalFeeWei,
    hexpiresAt, hpolicyVersion, hpolicyDigest, happrovalRevision, hpurpose, hsimulation]
  rfl

/-- What is prepared is read as it is when its fields are those of an input. -/
theorem transferIntentInputSchema_value (i : TransferIntentInput) :
    transferIntentInputSchema (Tree.object i.fields).value = some i := by
  have hkeys : onlyKeys inputKeys (fieldValues i.fields) = true := onlyKeys_of_keys rfl
  have hobject : (Tree.object i.fields).value = .object (fieldValues i.fields) := rfl
  have hfields := inputFields_value i []
  rw [List.append_nil] at hfields
  rw [hobject]
  unfold transferIntentInputSchema
  dsimp only
  rw [if_pos hkeys, hfields]

/-- An intent passes the schema of intents as it is. -/
theorem transferIntentSchema_value (i : TransferIntent) (h : calldataShape i.calldata = true) :
    transferIntentSchema i.tree.value = some i := by
  have hkeys : onlyKeys intentKeys (fieldValues i.allFields) = true := onlyKeys_of_keys rfl
  have hobject : i.tree.value = .object (fieldValues i.allFields) := rfl
  have hfields : inputFields (fieldValues i.allFields) = some i.toTransferIntentInput := inputFields_value _ _
  have hversion : numberLiteral 1 (entry (fieldValues i.allFields) (text "version")) = some () :=
    numberLiteral_value rfl
  have htype : numberLiteral 2 (entry (fieldValues i.allFields) (text "transactionType")) = some () :=
    numberLiteral_value rfl
  have hnative : stringLiteral (text "0") (entry (fieldValues i.allFields) (text "nativeValueWei")) = some () :=
    stringLiteral_value rfl
  have hcalldata : stringField calldataShape (entry (fieldValues i.allFields) (text "calldata")) = some ⟨i.calldata,h⟩ :=
    stringField_value _ rfl
  rw [hobject]
  unfold transferIntentSchema
  dsimp only
  rw [hkeys, hfields, hversion, htype, hnative, hcalldata]
  rfl

end Schemas

section Operations

def Unexpired (intent : TransferIntentInput) (time : ℤ) : Prop := time < dateParse intent.expiresAt.1

def WithinDay (intent : TransferIntentInput) (time : ℤ) : Prop :=
  dateParse intent.expiresAt.1 ≤ time + 24 * 60 * 60 * 1000

def Fresh (intent : TransferIntentInput) (time : ℤ) : Prop :=
  dateParse intent.simulation.simulatedAt.1 ≤ time ∧ time - 5 * 60 * 1000 ≤ dateParse intent.simulation.simulatedAt.1

/-- What is checked of an intent whatever the time. -/
structure Payable (intent : TransferIntentInput) : Prop where
  notSource : intent.sourceAddress.1 ≠ intent.recipientAddress.1
  notToken : intent.recipientAddress.1 ≠ baseUsdcAddress
  priority : bigInt intent.maxPriorityFeePerGasWei.1 ≤ bigInt intent.maxFeePerGasWei.1
  envelope : bigInt intent.gasLimit.1 * bigInt intent.maxFeePerGasWei.1 ≤ bigInt intent.maxTotalFeeWei.1

theorem assertValid_iff (i : TransferIntentInput) : assertValid i now = .ok () ↔
    ∃ time, now = some time ∧ Unexpired i time ∧ WithinDay i time ∧ Fresh i time ∧ Payable i := by
  unfold assertValid Unexpired WithinDay Fresh
  dsimp only
  cases now with
  | none =>
    constructor
    · intro h
      cases h
    · rintro ⟨_,h,-⟩
      cases h
  | some time =>
    dsimp only
    constructor
    · intro h
      split at h
      · cases h
      split at h
      · cases h
      split at h
      · cases h
      split at h
      · cases h
      split at h
      · cases h
      split at h
      · cases h
      rename_i hexpired hday hfresh hrecipient hpriority htotal
      rw [not_or] at hfresh hrecipient
      exact ⟨time,rfl,not_le.mp hexpired,not_lt.mp hday,⟨not_lt.mp hfresh.1,not_lt.mp hfresh.2⟩,
        hrecipient.1,hrecipient.2,not_lt.mp hpriority,not_lt.mp htotal⟩
    · rintro ⟨_,htime,hexpired,hday,hfresh,hpayable⟩
      cases htime
      rw [if_neg (not_le.mpr hexpired), if_neg (not_lt.mpr hday),
        if_neg (not_or.mpr ⟨not_lt.mpr hfresh.1,not_lt.mpr hfresh.2⟩),
        if_neg (not_or.mpr ⟨hpayable.notSource,hpayable.notToken⟩), if_neg (not_lt.mpr hpayable.priority),
        if_neg (not_lt.mpr hpayable.envelope)]

theorem prepareTransferIntent_ok (h : prepareTransferIntent hash input now = .ok r) :
    ∃ parsed, transferIntentInputSchema input = some parsed ∧ assertValid parsed now = .ok () ∧
      r = prepared hash ⟨parsed,calldata parsed.recipientAddress.1 parsed.amountBaseUnits.1⟩ := by
  unfold prepareTransferIntent at h
  split at h
  · cases h
  · rename_i parsed hparsed
    cases hvalid : assertValid parsed now with
    | error e =>
      rw [hvalid] at h
      cases h
    | ok _ =>
      rw [hvalid] at h
      cases h
      exact ⟨parsed,hparsed,hvalid,rfl⟩

theorem verifyTransferIntent_ok_iff {expectedHash : Text} :
    verifyTransferIntent hash input expectedHash now = .ok r ↔ digest expectedHash = true ∧
      ∃ parsed, transferIntentSchema input = some parsed ∧ assertValid parsed.toTransferIntentInput now = .ok () ∧
        parsed.calldata = calldata parsed.recipientAddress.1 parsed.amountBaseUnits.1 ∧ r = prepared hash parsed ∧
        r.intentHash = expectedHash := by
  unfold verifyTransferIntent
  constructor
  · intro h
    split at h
    · cases h
    rename_i hdigest
    split at h
    · cases h
    rename_i parsed hparsed
    cases hvalid : assertValid parsed.toTransferIntentInput now with
    | error e =>
      rw [hvalid] at h
      cases h
    | ok _ =>
      rw [hvalid] at h
      dsimp only [bind, Except.bind] at h
      split at h
      · cases h
      rename_i hcalldata
      split at h
      · cases h
      rename_i hhash
      cases h
      exact ⟨by simpa using hdigest,parsed,hparsed,hvalid,not_not.mp hcalldata,rfl,not_not.mp hhash⟩
  · rintro ⟨hdigest,parsed,hparsed,hvalid,hcalldata,rfl,hhash⟩
    rw [if_neg (by rw [hdigest]; decide), hparsed]
    dsimp only
    rw [hvalid]
    dsimp only [bind, Except.bind]
    rw [if_neg (not_not.mpr hcalldata)]
    dsimp only [pure, Except.pure]
    rw [if_neg (not_not.mpr hhash)]

end Operations

section Approved

/-- Two canonical texts whose hashes differ unless what is hashed is the same. -/
def NoCollision (hash : Hash) (a b : Text) : Prop :=
  hash (Utf16.encode (hashedText a)) = hash (Utf16.encode (hashedText b)) →
    Utf16.encode (hashedText a) = Utf16.encode (hashedText b)

/-- An intent whose call data pays its amount to its recipient, within its fee ceiling. -/
def Faithful (intent : TransferIntent) : Prop :=
  decodeTransfer intent.calldata = some (intent.recipientAddress.1,bigInt intent.amountBaseUnits.1) ∧
    bigInt intent.gasLimit.1 * bigInt intent.maxFeePerGasWei.1 ≤ bigInt intent.maxTotalFeeWei.1

theorem faithful_of_payable (h : Payable intent.toTransferIntentInput)
    (hcalldata : intent.calldata = calldata intent.recipientAddress.1 intent.amountBaseUnits.1) : Faithful intent := by
  refine ⟨?_,h.envelope⟩
  rw [hcalldata]
  exact decodeTransfer_calldata intent.recipientAddress.2 (bigInt_le_max intent.amountBaseUnits.2)

theorem prepared_faithful (h : prepareTransferIntent hash input now = .ok r) : Faithful r.intent := by
  obtain ⟨parsed,-,hvalid,rfl⟩ := prepareTransferIntent_ok h
  obtain ⟨_,-,-,-,-,hpayable⟩ := (assertValid_iff parsed).mp hvalid
  exact faithful_of_payable hpayable rfl

theorem verified_faithful {expectedHash : Text} (h : verifyTransferIntent hash input expectedHash now = .ok r) :
    Faithful r.intent := by
  obtain ⟨-,parsed,-,hvalid,hcalldata,rfl,-⟩ := verifyTransferIntent_ok_iff.mp h
  obtain ⟨_,-,-,-,-,hpayable⟩ := (assertValid_iff _).mp hvalid
  exact faithful_of_payable hpayable hcalldata

theorem wellFormed_hashedText (i : TransferIntent) : Utf16.wellFormed (hashedText (canonicalize i.tree)) = true :=
  Utf16.wellFormed_append (by decide) (wellFormed_canonicalize _)

/-- Intents of one hash are one intent, unless their texts collide. -/
theorem prepared_inj {i j : TransferIntent} (h : (prepared hash i).intentHash = (prepared hash j).intentHash)
    (hcollision : NoCollision hash (canonicalize i.tree) (canonicalize j.tree)) : i = j := by
  have hhash : hash (Utf16.encode (hashedText (canonicalize i.tree))) =
      hash (Utf16.encode (hashedText (canonicalize j.tree))) := Subtype.ext (hexBytes_injective h)
  have htext : hashedText (canonicalize i.tree) = hashedText (canonicalize j.tree) :=
    Utf16.encode_injOn (wellFormed_hashedText i) (wellFormed_hashedText j) (hcollision hhash)
  exact canonicalize_inj (List.append_cancel_left htext)

theorem verify_approved_iff (h : prepareTransferIntent hash input now = .ok r) (time : ℤ) :
    verifyTransferIntent hash r.intent.tree.value r.intentHash (some time) = .ok r ↔
      Unexpired r.intent.toTransferIntentInput time ∧ WithinDay r.intent.toTransferIntentInput time ∧
        Fresh r.intent.toTransferIntentInput time := by
  obtain ⟨parsed,-,hvalid,rfl⟩ := prepareTransferIntent_ok h
  obtain ⟨_,-,-,-,-,hpayable⟩ := (assertValid_iff parsed).mp hvalid
  have hshape := calldata_shape parsed.recipientAddress.2 (bigInt_le_max parsed.amountBaseUnits.2)
  have hschema := transferIntentSchema_value ⟨parsed,_⟩ hshape
  rw [verifyTransferIntent_ok_iff]
  constructor
  · rintro ⟨-,_,hparsed,hnow,-⟩
    cases hschema.symm.trans hparsed
    obtain ⟨_,htime,hexpired,hday,hfresh,-⟩ := (assertValid_iff _).mp hnow
    cases htime
    exact ⟨hexpired,hday,hfresh⟩
  · rintro ⟨hexpired,hday,hfresh⟩
    exact ⟨digest_hexBytes _,_,hschema,(assertValid_iff _).mpr ⟨time,rfl,hexpired,hday,hfresh,hpayable⟩,rfl,rfl,rfl⟩

/-- Every amount of the token is an amount of an intent. -/
theorem positive_decimal {n : ℕ} (hpos : 0 < n) (hmax : n ≤ uint256Max) : positive (decimal n) = true := by
  have hvalue : bigInt (decimal n) = n := parseInt_decimal n
  have hlength : (decimal n).length ≤ 78 := by
    unfold decimal
    rw [List.length_map]
    exact Numerals.length_digits (by decide) (by decide) (hmax.trans_lt (by decide))
  have hinteger : decimalInteger (decimal n) = true := by
    obtain ⟨d,ds,hdigits,hd⟩ := Numerals.digits_head (b := 10) (Nat.pos_iff_ne_zero.mp hpos)
    have hlt : ∀ e ∈ d :: ds, e < 10 := by
      rw [← hdigits]
      exact Numerals.digits_lt (by decide)
    have hfirst : ∀ e < 10, e ≠ 0 → (decide (unit '1' ≤ hexDigit e) && decide (hexDigit e ≤ unit '9')) = true := by
      decide
    have hrest : (ds.map hexDigit).all isDigit = true := by
      rw [List.all_eq_true]
      intro c hc
      refine isDigit_decimal (n := n) c ?_
      unfold decimal
      rw [hdigits]
      exact List.mem_cons_of_mem _ hc
    unfold decimal
    rw [hdigits, List.map_cons]
    unfold decimalInteger
    dsimp only
    rw [hfirst d (hlt d List.mem_cons_self) hd, hrest]
    exact Bool.or_true _
  unfold positive uint
  rw [hvalue, hinteger, decide_eq_true hlength, decide_eq_true hmax, decide_eq_true hpos]
  rfl

theorem approved_intent_kept (hash : Hash) (input : Value) (time₀ : Option ℤ) (approved : Prepared)
    (hprepared : prepareTransferIntent hash input time₀ = .ok approved) :
    (∀ value now result, verifyTransferIntent hash value approved.intentHash now = .ok result →
      NoCollision hash result.canonicalJson approved.canonicalJson →
      result.canonicalJson = approved.canonicalJson ∧ result = approved) ∧
    (∀ time : ℤ, verifyTransferIntent hash approved.intent.tree.value approved.intentHash (some time) = .ok approved ↔
      Unexpired approved.intent.toTransferIntentInput time ∧ WithinDay approved.intent.toTransferIntentInput time ∧
        Fresh approved.intent.toTransferIntentInput time) ∧
    (∀ start time : ℤ, time₀ = some start → start ≤ time → WithinDay approved.intent.toTransferIntentInput time) ∧
    Faithful approved.intent ∧
    (∀ value expectedHash now result, verifyTransferIntent hash value expectedHash now = .ok result →
      Faithful result.intent) ∧
    (∀ recipient n, address recipient = true → 0 < n → n ≤ uint256Max →
      positive (decimal n) = true ∧ decodeTransfer (calldata recipient (decimal n)) = some (recipient,n)) := by
  refine ⟨?_,verify_approved_iff hprepared,?_,prepared_faithful hprepared,?_,?_⟩
  · intro value now result hverified hcollision
    obtain ⟨parsed,-,-,rfl⟩ := prepareTransferIntent_ok hprepared
    obtain ⟨-,other,-,-,-,rfl,hhash⟩ := verifyTransferIntent_ok_iff.mp hverified
    have hsame := prepared_inj hhash hcollision
    subst hsame
    exact ⟨rfl,rfl⟩
  · intro start time hstart hle
    obtain ⟨parsed,-,hvalid,rfl⟩ := prepareTransferIntent_ok hprepared
    obtain ⟨_,htime,-,hday,-⟩ := (assertValid_iff parsed).mp hvalid
    cases hstart.symm.trans htime
    have hday' : dateParse parsed.expiresAt.1 ≤ start + 24 * 60 * 60 * 1000 := hday
    have hgoal : dateParse parsed.expiresAt.1 ≤ time + 24 * 60 * 60 * 1000 := by omega
    exact hgoal
  · intro value expectedHash now result hverified
    exact verified_faithful hverified
  · intro recipient n hrecipient hpos hmax
    have hvalue : bigInt (decimal n) = n := parseInt_decimal n
    refine ⟨positive_decimal hpos hmax,?_⟩
    have hdecode := decodeTransfer_calldata hrecipient (hvalue.trans_le hmax)
    rw [hvalue] at hdecode
    exact hdecode

/-- A transfer that expires a day after noon and was simulated a minute before. -/
def sampleIntent : TransferIntentInput :=
  ⟨⟨text "11111111-1111-4111-8111-111111111111",by decide⟩,⟨text "22222222-2222-4222-8222-222222222222",by decide⟩,
    ⟨text "33333333-3333-4333-8333-333333333333",by decide⟩,
    ⟨text "0x1111111111111111111111111111111111111111",by decide⟩,
    ⟨text "0x2222222222222222222222222222222222222222",by decide⟩,⟨text "9007199254740993",by decide⟩,
    ⟨text "0",by decide⟩,⟨text "100000",by decide⟩,⟨text "1000000000",by decide⟩,⟨text "1000000",by decide⟩,
    ⟨text "200000000000000",by decide⟩,⟨text "2026-09-29T12:00:00.000Z",by decide⟩,⟨text "policy-1",by decide⟩,
    ⟨text "aaaaaaaaaaaaaaaaaaaaaaaaaaaaaaaaaaaaaaaaaaaaaaaaaaaaaaaaaaaaaaaa",by decide⟩,⟨1,by decide⟩,
    ⟨text "Approved partner invoice",by decide⟩,
    ⟨⟨text "12345",by decide⟩,
      ⟨text "0xabababababababababababababababababababababababababababababababab",by decide⟩,
      ⟨text "2026-09-28T11:59:00.000Z",by decide⟩⟩⟩

def noon : ℤ := dateParse (text "2026-09-28T12:00:00.000Z")

/-- The hash function at the text of this transfer. -/
def sampleHash : Hash := fun _ =>
  ⟨[0xb2,0xbf,0x18,0xaa,0x2f,0xc9,0x3d,0x29,0x9f,0x60,0xd7,0xf8,0x36,0xd2,0x64,0xce,
    0xd8,0x31,0x02,0xe2,0xe0,0x46,0x7b,0xf1,0x58,0x5d,0xaf,0x28,0x4e,0x3e,0x95,0x1f],rfl⟩

def samplePrepared : Prepared :=
  prepared sampleHash ⟨sampleIntent,calldata sampleIntent.recipientAddress.1 sampleIntent.amountBaseUnits.1⟩

theorem sample_valid : assertValid sampleIntent (some noon) = .ok () := by decide

theorem sample_prepared :
    prepareTransferIntent sampleHash (Tree.object sampleIntent.fields).value (some noon) = .ok samplePrepared := by
  unfold prepareTransferIntent
  rw [transferIntentInputSchema_value]
  dsimp only
  rw [sample_valid]
  rfl

theorem approved_intent_kept_sample :
    verifyTransferIntent sampleHash samplePrepared.intent.tree.value samplePrepared.intentHash (some noon) =
      .ok samplePrepared ∧ Faithful samplePrepared.intent := by
  obtain ⟨-,hverified,-,hfaithful,-⟩ := approved_intent_kept sampleHash _ _ _ sample_prepared
  exact ⟨(hverified noon).mpr ⟨by unfold Unexpired; decide,by unfold WithinDay; decide,by unfold Fresh; decide⟩,hfaithful⟩

/-- A clock that is set back by a millisecond finds the expiry more than a day away. -/
theorem clock_back_refused : ¬∀ (hash : Hash) (input : Value) (time₀ : Option ℤ) (approved : Prepared) (time : ℤ),
    prepareTransferIntent hash input time₀ = .ok approved →
    Unexpired approved.intent.toTransferIntentInput time → Fresh approved.intent.toTransferIntentInput time →
    verifyTransferIntent hash approved.intent.tree.value approved.intentHash (some time) = .ok approved := by
  intro hclaim
  have hverified := hclaim sampleHash _ _ _ (noon - 1) sample_prepared (by unfold Unexpired; decide)
    (by unfold Fresh; decide)
  have hday := ((verify_approved_iff sample_prepared (noon - 1)).mp hverified).2.1
  revert hday
  unfold WithinDay
  decide

end Approved
end HermesEnterprise.Wallets
