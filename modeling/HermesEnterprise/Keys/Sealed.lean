import HermesEnterprise.Keys.Envelope

/-! # What an envelope opens to

The associated data of a row names its owner and the master key version, and nothing else has the same
bytes. A sealed envelope therefore opens only for its owner and only under the version it is wrapped for,
after any number of re-wraps.
-/
namespace HermesEnterprise.Envelope
open Foundation Foundation.Utf8

section Separators

variable {a a' b b' : List Char}

/-- The last separator of a text splits it in one way. -/
theorem append_bar_inj (hb : '|' ∉ b) (hb' : '|' ∉ b') (h : a ++ '|' :: b = a' ++ '|' :: b') : a = a' ∧ b = b' := by
  have hreverse : b.reverse ++ '|' :: a.reverse = b'.reverse ++ '|' :: a'.reverse := by
    simpa using congrArg List.reverse h
  have htake : ∀ s t : List Char, '|' ∉ s → (s ++ '|' :: t).takeWhile (· ≠ '|') = s := by
    intro s t hs
    have hpos : ∀ c ∈ s, decide (c ≠ '|') = true := fun c hc => decide_eq_true (fun heq => hs (heq ▸ hc))
    rw [List.takeWhile_append_of_pos hpos]
    simp
  have hb_eq : b.reverse = b'.reverse := by
    rw [← htake b.reverse a.reverse (by simpa using hb), hreverse, htake b'.reverse a'.reverse (by simpa using hb')]
  have hbb := List.reverse_injective hb_eq
  subst hbb
  exact ⟨List.append_cancel_right h,rfl⟩

theorem bar_not_mem_uuid (id : Uuid) : '|' ∉ id.text.toList := by
  intro hmem
  obtain ⟨i,hi,hget⟩ := List.getElem_of_mem hmem
  have hshape := id.isUuid
  simp only [isUuid, Bool.and_eq_true, List.all_eq_true] at hshape
  have hplace := hshape.2 ('|',i) (List.mem_zipIdx_iff_getElem?.mpr (by simp [List.getElem?_eq_getElem hi, hget]))
  revert hplace
  dsimp only
  split <;> decide

theorem bar_not_mem_toString (n : ℕ) : '|' ∉ (toString n).toList := by
  intro hmem
  have hdigits : '|' ∈ Nat.toDigits 10 n := by
    rw [← Nat.toList_repr]
    exact hmem
  exact absurd (Nat.isDigit_of_mem_toDigits (by decide) (by decide) hdigits) (by decide)

end Separators

/-! ## Owners -/

/-- Whose envelope it is: a provider key's, or another secret's under its own domain. -/
inductive Owner
  | key (id : EnvelopeIdentity)
  | secret (id : SecretEnvelopeIdentity)
  deriving DecidableEq

namespace Owner

def dataAad : Owner → Bytes
  | .key id => Envelope.dataAad id
  | .secret id => secretDataAad id

def wrapAad : Owner → ℕ → Bytes
  | .key id => Envelope.wrapAad id
  | .secret id => secretWrapAad id

def identity : Owner → EnvelopeIdentity
  | .key id => id
  | .secret id => id.toEnvelopeIdentity

/-- What stands before the ids in the associated data of the ciphertext. -/
def dataHead : Owner → List Char
  | .key _ => "hermes/provider-key/v1".toList
  | .secret id => id.domain.toList ++ "|data".toList

/-- What stands before the ids in the associated data of the wrapped key. -/
def wrapHead : Owner → List Char
  | .key _ => "hermes/provider-dek/v1".toList
  | .secret id => id.domain.toList ++ "|dek".toList

variable {o o' : Owner} {v v' : ℕ}

/-- A head with its separator, then one field. -/
theorem field_toList {head field : String} {front : List Char} (hhead : head.toList = front ++ ['|']) :
    (head ++ field).toList = front ++ '|' :: field.toList := by
  rw [String.toList_append, hhead, List.append_assoc, List.singleton_append]

theorem bar_toList (head : String) : (head ++ "|").toList = head.toList ++ ['|'] := by
  have hbar : "|".toList = ['|'] := by decide
  rw [String.toList_append, hbar]

theorem secretHead_toList (domain : String) {label bare : String} (h : label.toList = bare.toList ++ ['|']) :
    (domain ++ label).toList = (domain.toList ++ bare.toList) ++ ['|'] := by
  rw [String.toList_append, h, List.append_assoc]

theorem dataAad_eq (o : Owner) : o.dataAad =
    encode ((o.dataHead ++ '|' :: o.identity.workspaceId.text.toList) ++ '|' :: o.identity.keyId.text.toList) := by
  cases o with
  | key id =>
    have hhead : "hermes/provider-key/v1|".toList = "hermes/provider-key/v1".toList ++ ['|'] := by decide
    refine congrArg encode ?_
    rw [field_toList (bar_toList _), field_toList hhead]
    rfl
  | secret id =>
    have hhead := secretHead_toList id.domain (show "|data|".toList = "|data".toList ++ ['|'] by decide)
    refine congrArg encode ?_
    rw [field_toList (bar_toList _), field_toList hhead]
    rfl

theorem wrapAad_eq (o : Owner) (v : ℕ) : o.wrapAad v =
    encode (((o.wrapHead ++ '|' :: o.identity.workspaceId.text.toList) ++ '|' :: o.identity.keyId.text.toList) ++
      '|' :: (toString v).toList) := by
  cases o with
  | key id =>
    have hhead : "hermes/provider-dek/v1|".toList = "hermes/provider-dek/v1".toList ++ ['|'] := by decide
    refine congrArg encode ?_
    rw [field_toList (bar_toList _), field_toList (bar_toList _), field_toList hhead]
    rfl
  | secret id =>
    have hhead := secretHead_toList id.domain (show "|dek|".toList = "|dek".toList ++ ['|'] by decide)
    refine congrArg encode ?_
    rw [field_toList (bar_toList _), field_toList (bar_toList _), field_toList hhead]
    rfl

theorem uuid_ext {u u' : Uuid} (h : u.text.toList = u'.text.toList) : u = u' := by
  obtain ⟨s,hs⟩ := u
  obtain ⟨t,ht⟩ := u'
  have hst : s = t := String.toList_injective h
  subst hst
  rfl

theorem toString_inj (h : (toString v).toList = (toString v').toList) : v = v' := by
  have hdigits : Nat.toDigits 10 v = Nat.toDigits 10 v' := by
    rw [← Nat.toList_repr, ← Nat.toList_repr]
    exact h
  rw [← Nat.ofDigitChars_ten_toDigits (n := v), hdigits, Nat.ofDigitChars_ten_toDigits]

theorem wrapHead_key_ne {id : EnvelopeIdentity} {id' : SecretEnvelopeIdentity} :
    (Owner.key id).wrapHead ≠ (Owner.secret id').wrapHead := by
  intro h
  have hlast : ("hermes/provider-dek/v1".toList).getLast? = (id'.domain.toList ++ "|dek".toList).getLast? :=
    congrArg List.getLast? h
  rw [List.getLast?_append_of_ne_nil _ (by decide)] at hlast
  exact absurd hlast (by decide)

theorem identity_ext {i i' : EnvelopeIdentity} (hworkspace : i.workspaceId = i'.workspaceId)
    (hkey : i.keyId = i'.keyId) : i = i' := by
  cases i
  cases i'
  simp only at hworkspace hkey
  rw [hworkspace, hkey]

/-- The kind, the domain and the ids fix the owner. -/
theorem eq_of_heads (hhead : o.wrapHead = o'.wrapHead) (hid : o.identity = o'.identity) : o = o' := by
  cases o with
  | key id =>
    cases o' with
    | key id' => exact congrArg Owner.key hid
    | secret id' => exact absurd hhead wrapHead_key_ne
  | secret id =>
    cases o' with
    | key id' => exact absurd hhead.symm wrapHead_key_ne
    | secret id' =>
      have hdomain : id.domain = id'.domain := String.toList_injective (List.append_cancel_right hhead)
      obtain ⟨base,domain⟩ := id
      obtain ⟨base',domain'⟩ := id'
      simp only [identity] at hid hdomain
      rw [hid, hdomain]

/-- The associated data of a wrapped key names its owner and the version. -/
theorem wrapAad_inj (h : o.wrapAad v = o'.wrapAad v') : o = o' ∧ v = v' := by
  rw [wrapAad_eq, wrapAad_eq] at h
  obtain ⟨h,hversion⟩ := append_bar_inj (bar_not_mem_toString v) (bar_not_mem_toString v') (encode_injective h)
  obtain ⟨h,hkey⟩ := append_bar_inj (bar_not_mem_uuid _) (bar_not_mem_uuid _) h
  obtain ⟨hhead,hworkspace⟩ := append_bar_inj (bar_not_mem_uuid _) (bar_not_mem_uuid _) h
  refine ⟨eq_of_heads hhead ?_,toString_inj hversion⟩
  exact identity_ext (uuid_ext hworkspace) (uuid_ext hkey)

end Owner

/-! ## Envelopes of an owner -/

variable (P : Platform)

def sealAs (env : KekEnv) : Owner → String → Randomness → Outcome StoredEnvelope
  | .key id => sealKey P env id
  | .secret id => sealSecret P env id

def openAs (env : KekEnv) : Owner → StoredEnvelope → Outcome String
  | .key id => openKey P env id
  | .secret id => openSecret P env id

def rewrapAs (env : KekEnv) : Owner → StoredEnvelope → ℕ → Bytes → Outcome Wrap
  | .key id => rewrapDek P env id
  | .secret id => rewrapSecretDek P env id

/-- Re-wraps one after the other, each with its version and the nonce it draws. -/
def rewrapChain (env : KekEnv) (o : Owner) (e : StoredEnvelope) : List (ℕ × Bytes) → Outcome StoredEnvelope
  | [] => .ok e
  | (version,wrapIv) :: rest => do
    let w ← rewrapAs P env o e version wrapIv
    rewrapChain env o (e.wrapped w) rest

/-- The master key of this version is set and well formed. -/
def Configured (env : KekEnv) (version : ℕ) : Prop := ∃ kek, importKek env version = .ok kek

/-- The envelope holds the plaintext for its owner: one data key encrypts the text and is wrapped under
the master key `kek` of the stored version. -/
structure Sealing (o : Owner) (plaintext : String) (e : StoredEnvelope) (dek kek : Bytes) : Prop where
  dek_length : dek.length = 32
  ciphertext : e.ciphertext = P.aead.encrypt dek e.iv o.dataAad (encodeText plaintext)
  wrappedDek : e.wrappedDek = P.aead.encrypt kek e.wrapIv (o.wrapAad e.kekVersion) dek

variable {P} {env : KekEnv} {o o' : Owner} {plaintext : String} {e : StoredEnvelope} {dek kek kek' wrapIv : Bytes}
  {version : ℕ} {r : Randomness}

theorem openAs_eq : openAs P env o e = openUnder P env o.dataAad o.wrapAad e := by cases o <;> rfl

theorem rewrapAs_eq : rewrapAs P env o e version wrapIv = rewrapUnder P env o.wrapAad e version wrapIv := by
  cases o <;> rfl

theorem importKey_ok (h : dek.length = 32) : importKey dek = .ok dek := by simp [importKey, h]

theorem importKek_error {f : Failure} (h : importKek env version = .error f) :
    f = .keyCrypto .kekVersionUnknown ∨ f = .keyCrypto .kekMalformed := by
  simp only [importKek, bind, Except.bind] at h
  split at h
  · rename_i f' hmaterial
    cases h
    simp only [kekMaterial] at hmaterial
    split at hmaterial
    · exact Or.inl (Except.error.inj hmaterial).symm
    · split at hmaterial
      · exact Or.inl (Except.error.inj hmaterial).symm
      · cases hmaterial
  · split at h
    · exact Or.inr (Except.error.inj h).symm
    · split at h
      · exact Or.inr (Except.error.inj h).symm
      · cases h

/-- Sealing leaves an envelope of the owner under a configured version. -/
theorem sealAs_sealing (h : sealAs P env o plaintext r = .ok e) :
    ∃ kek, importKek env e.kekVersion = .ok kek ∧ Sealing P o plaintext e r.dek kek := by
  have hunder : sealUnder P env o.dataAad o.wrapAad plaintext r = .ok e := by
    cases o with
    | key id =>
      simp only [sealAs, sealKey] at h
      split at h
      · cases h
      · exact h
    | secret id =>
      simp only [sealAs, sealSecret] at h
      split at h
      · cases h
      · split at h
        · cases h
        · exact h
  simp only [sealUnder, bind, Except.bind, importKey_ok r.dek_length] at hunder
  split at hunder
  · cases hunder
  · rename_i current hcurrent
    split at hunder
    · cases hunder
    · rename_i kek hkek
      obtain rfl := Except.ok.inj hunder
      exact ⟨kek,hkek,⟨r.dek_length,rfl,rfl⟩⟩

/-- A re-wrap keeps what the envelope holds. -/
theorem Sealing.rewrapped (h : Sealing P o plaintext e dek kek) (hkek : importKek env e.kekVersion = .ok kek)
    (hkek' : importKek env version = .ok kek') (wrapIv : Bytes) :
    ∃ w, rewrapAs P env o e version wrapIv = .ok w ∧ w.kekVersion = version ∧
      Sealing P o plaintext (e.wrapped w) dek kek' := by
  refine ⟨⟨P.aead.encrypt kek' wrapIv (o.wrapAad version) dek,wrapIv,version⟩,?_,rfl,⟨h.dek_length,h.ciphertext,rfl⟩⟩
  rw [rewrapAs_eq]
  simp [rewrapUnder, bind, Except.bind, hkek, hkek', aesDecrypt, h.wrappedDek, P.aead.decrypt_encrypt]

/-- For its owner the envelope opens to what the decoder reads. -/
theorem Sealing.opens (h : Sealing P o plaintext e dek kek) (hkek : importKek env e.kekVersion = .ok kek) :
    openAs P env o e = .ok (String.ofList (decode (encodeText plaintext))) := by
  rw [openAs_eq]
  simp [openUnder, bind, Except.bind, hkek, aesDecrypt, h.wrappedDek, h.ciphertext, P.aead.decrypt_encrypt,
    importKey_ok h.dek_length]

/-- For another owner or another version it opens under no master key. -/
theorem Sealing.refuses (h : Sealing P o plaintext e dek kek) (hother : (o',version) ≠ (o,e.kekVersion)) :
    openAs P env o' { e with kekVersion := version } = (importKek env version).bind fun _ => fail .decryptFailed := by
  have haad : o'.wrapAad version ≠ o.wrapAad e.kekVersion := by
    intro heq
    obtain ⟨rfl,hversion⟩ := Owner.wrapAad_inj heq
    exact hother (by rw [hversion])
  rw [openAs_eq]
  cases himport : importKek env version with
  | error f => simp [openUnder, bind, Except.bind, himport]
  | ok kek' =>
    simp [openUnder, bind, Except.bind, himport, aesDecrypt, h.wrappedDek, P.aead.decrypt_other_data haad, fail]

/-- A chain of re-wraps to configured versions goes through and keeps what the envelope holds. -/
theorem Sealing.chain (h : Sealing P o plaintext e dek kek) (hkek : importKek env e.kekVersion = .ok kek)
    (links : List (ℕ × Bytes)) (hlinks : ∀ link ∈ links, Configured env link.1) :
    ∃ e' kek', rewrapChain P env o e links = .ok e' ∧ importKek env e'.kekVersion = .ok kek' ∧
      Sealing P o plaintext e' dek kek' := by
  induction links generalizing e kek with
  | nil => exact ⟨e,kek,rfl,hkek,h⟩
  | cons link links ih =>
    obtain ⟨version,wrapIv⟩ := link
    obtain ⟨next,hnext⟩ := hlinks (version,wrapIv) List.mem_cons_self
    obtain ⟨w,hw,hversion,hsealing⟩ := h.rewrapped hkek hnext wrapIv
    have himport : importKek env (e.wrapped w).kekVersion = .ok next := by
      rw [← hnext, ← hversion]
      rfl
    obtain ⟨e',kek',hchain,hrest⟩ := ih hsealing himport (fun l hl => hlinks l (List.mem_cons_of_mem _ hl))
    refine ⟨e',kek',?_,hrest⟩
    simpa [rewrapChain, bind, Except.bind, hw] using hchain

/-- The envelope opens to the plaintext for its owner, and under any other identity, kind or version
only to a failed decryption or an unknown version. -/
def OpensExactly (P : Platform) (env : KekEnv) (o : Owner) (plaintext : String) (e : StoredEnvelope) : Prop :=
  openAs P env o e = .ok plaintext ∧
    ∀ o' version, (o',version) ≠ (o,e.kekVersion) →
      openAs P env o' { e with kekVersion := version } = fail .decryptFailed ∨
        openAs P env o' { e with kekVersion := version } = fail .kekVersionUnknown

theorem opens_plaintext_iff (h : Sealing P o plaintext e dek kek) (hkek : importKek env e.kekVersion = .ok kek) :
    openAs P env o e = .ok plaintext ↔ plaintext.toList.head? ≠ some mark := by
  rw [h.opens hkek, ← decode_encode_eq_iff, Except.ok.injEq]
  constructor
  · intro hdecode
    have hlist := congrArg String.toList hdecode
    rwa [String.toList_ofList] at hlist
  · intro hdecode
    rw [encodeText, hdecode, String.ofList_toList]

/-- An envelope that was sealed and then re-wrapped to configured versions opens exactly as it should,
unless the plaintext starts with a byte order mark, which the decoder drops, or a master key that the
environment names is malformed. -/
theorem opensExactly_iff (P : Platform) (env : KekEnv) (o : Owner) (plaintext : String) (r : Randomness)
    (links : List (ℕ × Bytes)) {sealed : StoredEnvelope} (hseal : sealAs P env o plaintext r = .ok sealed)
    (hlinks : ∀ link ∈ links, Configured env link.1) :
    ∃ e, rewrapChain P env o sealed links = .ok e ∧
      (OpensExactly P env o plaintext e ↔
        plaintext.toList.head? ≠ some mark ∧ ∀ version, importKek env version ≠ fail .kekMalformed) := by
  obtain ⟨kek,hkek,hsealing⟩ := sealAs_sealing hseal
  obtain ⟨e,kek',hchain,hkek',hsealing'⟩ := hsealing.chain hkek links hlinks
  refine ⟨e,hchain,?_⟩
  have hplain := opens_plaintext_iff hsealing' hkek'
  constructor
  · intro hexact
    refine ⟨hplain.mp hexact.1,?_⟩
    intro version hmalformed
    have hversion : version ≠ e.kekVersion := by
      rintro rfl
      rw [hkek'] at hmalformed
      cases hmalformed
    have hrefused := hexact.2 o version (fun heq => hversion (Prod.mk.inj heq).2)
    rw [hsealing'.refuses (fun heq => hversion (Prod.mk.inj heq).2), hmalformed] at hrefused
    rcases hrefused with h | h <;> cases h
  · rintro ⟨hmark,hwell⟩
    refine ⟨hplain.mpr hmark,?_⟩
    intro o' version hother
    rw [hsealing'.refuses hother]
    cases himport : importKek env version with
    | ok kek => exact Or.inl rfl
    | error f =>
      rcases importKek_error himport with rfl | rfl
      · exact Or.inr rfl
      · exact absurd himport (hwell version)

/-! An environment with one master key, and a row in it. -/

def sampleEnv : KekEnv := [("KEK_V1","AAAAAAAAAAAAAAAAAAAAAAAAAAAAAAAAAAAAAAAAAAA=")]

def samplePlatform : Platform := ⟨Aead.transparent,String.toNat?⟩

theorem first_isUuid : isUuid "00000000-0000-4000-8000-000000000001" = true := by decide

theorem second_isUuid : isUuid "00000000-0000-4000-8000-000000000002" = true := by decide

def sampleOwner : Owner :=
  .key ⟨⟨"00000000-0000-4000-8000-000000000001",first_isUuid⟩,⟨"00000000-0000-4000-8000-000000000002",second_isUuid⟩⟩

def sampleRandomness : Randomness := ⟨List.replicate 32 7,List.replicate 12 8,List.replicate 12 9,List.length_replicate⟩

theorem sample_sealed (plaintext : String) (h : plaintext ≠ "") :
    ∃ sealed, sealAs samplePlatform sampleEnv sampleOwner plaintext sampleRandomness = .ok sealed := by
  have hcurrent : currentKekVersion samplePlatform sampleEnv = .ok 1 := by decide
  have hkek : importKek sampleEnv 1 = .ok (List.replicate 32 0) := by decide
  simp [sampleOwner, sealAs, sealKey, h, sealUnder, bind, Except.bind, hcurrent, hkek,
    importKey_ok sampleRandomness.dek_length]

theorem sample_configured : Configured sampleEnv 1 := ⟨List.replicate 32 0,by decide⟩

theorem opensExactly_iff_sample : ∃ sealed,
    sealAs samplePlatform sampleEnv sampleOwner "key" sampleRandomness = .ok sealed ∧
      ∃ e, rewrapChain samplePlatform sampleEnv sampleOwner sealed [(1,[1,2,3])] = .ok e ∧
        (OpensExactly samplePlatform sampleEnv sampleOwner "key" e ↔
          "key".toList.head? ≠ some mark ∧ ∀ version, importKek sampleEnv version ≠ fail .kekMalformed) := by
  obtain ⟨sealed,hsealed⟩ := sample_sealed "key" (by decide)
  refine ⟨sealed,hsealed,opensExactly_iff samplePlatform sampleEnv sampleOwner "key" sampleRandomness [(1,[1,2,3])] hsealed ?_⟩
  intro link hlink
  obtain rfl := List.mem_singleton.mp hlink
  exact sample_configured

/-- A key with a byte order mark in front is opened without it. -/
theorem mark_lost : ∃ sealed,
    sealAs samplePlatform sampleEnv sampleOwner "\uFEFFkey" sampleRandomness = .ok sealed ∧
      openAs samplePlatform sampleEnv sampleOwner sealed = .ok "key" ∧ "key" ≠ "\uFEFFkey" := by
  obtain ⟨sealed,hsealed⟩ := sample_sealed "\uFEFFkey" (by decide)
  obtain ⟨kek,hkek,hsealing⟩ := sealAs_sealing hsealed
  refine ⟨sealed,hsealed,?_,by decide⟩
  rw [hsealing.opens hkek]
  exact congrArg Except.ok (by decide)

end HermesEnterprise.Envelope
