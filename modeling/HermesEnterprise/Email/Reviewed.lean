import HermesEnterprise.Email.Message

/-! # A message as it was reviewed

A reader finds the reviewed fields and text in the message that was built, and nothing else, if the
addresses stay inside their field and their mailbox and each field fits on its lines. The proposal
schema limits addresses only in length, and nothing folds a name or a subject.
-/
namespace HermesEnterprise.Email
open Foundation

section Received

/-- What a reader finds in a message. -/
structure Received where
  names : List (List Char)
  sender : Option (List Char × List Char)
  recipient : Option (List Char × List Char)
  subject : Option (List Char)
  inReplyTo : Option (List (List Char))
  references : Option (List (List Char))
  mime : List (Option (List Char))
  body : List Char
  deriving DecidableEq

def mimeNames : List String := ["MIME-Version","Content-Type","Content-Transfer-Encoding"]

def receivedFrom (fs : List Mail.Field) (content : List Char) : Received where
  names := fs.map (·.name)
  sender := (Mail.valueOf fs "From").bind Mail.readMailbox
  recipient := (Mail.valueOf fs "To").bind Mail.readMailbox
  subject := (Mail.valueOf fs "Subject").bind Mail.readWord
  inReplyTo := (Mail.valueOf fs "In-Reply-To").map Mail.tokens
  references := (Mail.valueOf fs "References").map Mail.tokens
  mime := mimeNames.map (Mail.valueOf fs)
  body := Mail.characters (Base64.decode Base64.standard content)

def received (message : List Char) : Received := receivedFrom (Mail.fields message) (Mail.contentOf message)

/-- The message that a raw text stands for. -/
def decoded (raw : List Char) : List Char := Mail.characters (Base64.decode Base64.url raw)

def ShortLines (message : List Char) : Prop := ∀ line ∈ Mail.lines message, Mail.octets line ≤ 998

/-- What was reviewed. -/
def RawInput.reviewed (input : RawInput) : Received where
  names := ["From".toList,"To".toList,"Subject".toList] ++ input.inReplyToId.toList.map (fun _ => "In-Reply-To".toList) ++
    (if input.referenceIds = [] then [] else ["References".toList]) ++ mimeNames.map String.toList
  sender := some (input.senderName.getD [],input.senderAddress)
  recipient := some (input.recipientName,input.recipientAddress)
  subject := some input.subject
  inReplyTo := input.inReplyToId.map fun id => [id]
  references := if input.referenceIds = [] then none else some input.referenceIds
  mime := [some "1.0".toList,some "text/plain; charset=UTF-8".toList,some "base64".toList]
  body := crlfBreaks input.body

def SentAsReviewed (input : RawInput) : Prop :=
  received (decoded (rawGmailMessage input)) = input.reviewed ∧ ShortLines (decoded (rawGmailMessage input))

/-- The addresses have no line break, and none that would end its mailbox or stand for another one. -/
def PlainAddresses (input : RawInput) : Prop :=
  Mail.OneLine input.recipientAddress ∧ '>' ∉ input.recipientAddress ∧ Mail.OneLine input.senderAddress ∧
    if input.senderName.getD [] = [] then '<' ∉ input.senderAddress ∧ ',' ∉ input.senderAddress
    else '>' ∉ input.senderAddress

/-- The octets of an encoded word. -/
def encodedLength (value : List Char) : ℕ := 12 + 4 * ((Mail.octets value + 2) / 3)

def mailboxLength (name address : List Char) : ℕ := encodedLength name + 3 + Mail.octets address

/-- Each field of the header fits on a line, each id after the first reference on one of its own. -/
def FieldsFit (input : RawInput) : Prop :=
  (if input.senderName.getD [] = [] then 6 + Mail.octets input.senderAddress ≤ 998
    else 6 + mailboxLength (input.senderName.getD []) input.senderAddress ≤ 998) ∧
  4 + mailboxLength input.recipientName input.recipientAddress ≤ 998 ∧
  9 + encodedLength input.subject ≤ 998 ∧
  (∀ id ∈ input.inReplyToId, 13 + Mail.octets id ≤ 998) ∧
  (∀ id ∈ input.referenceIds.head?, 12 + Mail.octets id ≤ 998) ∧
  ∀ id ∈ input.referenceIds.tail, 1 + Mail.octets id ≤ 998

end Received

/-! ## Letters, ids and lines -/

section Letters
variable {s : List Char} {c : Char}

theorem mem_base64 {b : List UInt8} (h : c ∈ Base64.encode Base64.standard ['='] b) :
    Mail.isBreak c = false ∧ c ≠ '<' ∧ c ≠ '?' ∧ c.toNat < 128 := by
  have hletters : ∀ n < 64, Mail.isBreak (Base64.standard.letter n) = false ∧ Base64.standard.letter n ≠ '<' ∧
      Base64.standard.letter n ≠ '?' ∧ (Base64.standard.letter n).toNat < 128 := by decide
  rcases Base64.mem_encode b h with ⟨n,hn,rfl⟩ | hpad
  · exact hletters n hn
  · rw [List.mem_singleton.mp hpad]
    decide

theorem octets_of_ascii (h : ∀ c ∈ s, c.toNat < 128) : Mail.octets s = s.length := by
  unfold Mail.octets Utf8.encode
  induction s with
  | nil => rfl
  | cons c s ih =>
    have hc : c.val ≤ 0x7F := Nat.le_of_lt_succ (h c List.mem_cons_self)
    have hsize : c.utf8Size = 1 := if_pos hc
    rw [List.flatMap_cons, List.length_append, ih fun d hd => h d (List.mem_cons_of_mem c hd),
      String.length_utf8EncodeChar, hsize, List.length_cons, Nat.add_comm]

theorem octets_base64 (b : List UInt8) :
    Mail.octets (Base64.encode Base64.standard ['='] b) = 4 * ((b.length + 2) / 3) := by
  rw [octets_of_ascii fun c hc => (mem_base64 hc).2.2.2, Base64.length_encode rfl]

theorem mem_encodedWord (h : c ∈ encodedWord s) : Mail.isBreak c = false ∧ c ≠ '<' := by
  unfold encodedWord at h
  rcases List.mem_append.mp h with h | h
  · rcases List.mem_append.mp h with h | h
    · have hall : ("=?UTF-8?B?".toList.all fun c => !Mail.isBreak c && c != '<') = true := by decide
      have hc := List.all_eq_true.mp hall c h
      simpa using hc
    · exact ⟨(mem_base64 h).1,(mem_base64 h).2.1⟩
  · have hall : ("?=".toList.all fun c => !Mail.isBreak c && c != '<') = true := by decide
    have hc := List.all_eq_true.mp hall c h
    simpa using hc

theorem octets_encodedWord (s : List Char) : Mail.octets (encodedWord s) = encodedLength s := by
  unfold encodedWord encodedLength
  have hopening : Mail.octets "=?UTF-8?B?".toList = 10 := by decide
  have hclosing : Mail.octets "?=".toList = 2 := by decide
  rw [Mail.octets_append, Mail.octets_append, hopening, hclosing, octets_base64]
  unfold Mail.octets
  omega

theorem octets_mailbox (name address : List Char) : Mail.octets (mailbox name address) = mailboxLength name address := by
  unfold mailbox mailboxLength
  have hopening : Mail.octets " <".toList = 2 := by decide
  have hclosing : Mail.octets ">".toList = 1 := by decide
  rw [Mail.octets_append, Mail.octets_append, Mail.octets_append, octets_encodedWord, hopening, hclosing]
  omega

/-- An encoded word reads as what was encoded. -/
theorem readWord_encodedWord (s : List Char) : Mail.readWord (encodedWord s) = some s := by
  have hbase : Base64.decode Base64.standard (Base64.encode Base64.standard ['='] (Utf8.encode s)) = Utf8.encode s :=
    Base64.decode_encode Base64.standard_pad _
  have hsplit : encodedWord s = "=?UTF-8?B?".toList ++
      (Base64.encode Base64.standard ['='] (Utf8.encode s) ++ "?=".toList) := by
    unfold encodedWord
    rw [List.append_assoc]
  have hrest : ("=?UTF-8?B?".toList ++ (Base64.encode Base64.standard ['='] (Utf8.encode s) ++ "?=".toList)).drop 10 =
      Base64.encode Base64.standard ['='] (Utf8.encode s) ++ "?=".toList := rfl
  have htake : (Base64.encode Base64.standard ['='] (Utf8.encode s) ++ "?=".toList).takeWhile (· ≠ '?') =
      Base64.encode Base64.standard ['='] (Utf8.encode s) := by
    rw [List.takeWhile_append_of_pos fun c hc => decide_eq_true (mem_base64 hc).2.2.1]
    exact List.append_nil _
  rw [hsplit]
  unfold Mail.readWord
  rw [if_pos (List.isPrefixOf_iff_prefix.mpr (List.prefix_append _ _)), hrest]
  dsimp only
  rw [htake, List.drop_left, if_pos rfl, hbase, Mail.characters_encode]

theorem mem_mailbox_phrase (name : List Char) : ∀ c ∈ encodedWord name ++ " ".toList, (decide (c ≠ '<')) = true := by
  intro c hc
  rcases List.mem_append.mp hc with hc | hc
  · exact decide_eq_true (mem_encodedWord hc).2
  · rw [List.mem_singleton.mp hc]
    decide

/-- A mailbox reads as one with its address, if the address does not end it. -/
theorem readMailbox_mailbox (name address : List Char) :
    Mail.readMailbox (mailbox name address) = some (name,address) ↔ '>' ∉ address := by
  have hsplit : mailbox name address = (encodedWord name ++ " ".toList) ++ ('<' :: (address ++ ['>'])) := by
    unfold mailbox
    simp only [List.append_assoc]
    rfl
  have hdrop : (mailbox name address).dropWhile (· ≠ '<') = '<' :: (address ++ ['>']) := by
    rw [hsplit, List.dropWhile_append_of_pos (mem_mailbox_phrase name)]
    rfl
  have htake : (mailbox name address).takeWhile (· ≠ '<') = encodedWord name ++ " ".toList := by
    rw [hsplit, List.takeWhile_append_of_pos (mem_mailbox_phrase name)]
    exact List.append_nil _
  have hlast : encodedWord name ++ " ".toList =
      ("=?UTF-8?B?".toList ++ Base64.encode Base64.standard ['='] (Utf8.encode name) ++ ['?']) ++ ['='] ++ [' '] := by
    unfold encodedWord
    simp only [List.append_assoc]
    rfl
  have hname : Mail.displayName (encodedWord name ++ " ".toList) = name := by
    unfold Mail.displayName
    have htrim : (encodedWord name ++ " ".toList).rdropWhile Mail.isBlank = encodedWord name := by
      rw [hlast, List.rdropWhile_concat_pos _ _ _ rfl, List.rdropWhile_concat_neg _ _ _ (by decide)]
      unfold encodedWord
      simp only [List.append_assoc]
      rfl
    rw [htrim]
    dsimp only
    rw [readWord_encodedWord]
    rfl
  unfold Mail.readMailbox
  rw [hdrop, htake]
  dsimp only
  rw [hname]
  constructor
  · intro h hin
    split at h
    · rename_i hend
      have haddress := (Prod.mk.inj (Option.some.inj h)).2
      have hmem : '>' ∈ (address ++ ['>']).takeWhile (· ≠ '>') := haddress.symm ▸ hin
      have hne := List.mem_takeWhile_imp (p := fun c => decide (c ≠ '>')) hmem
      exact absurd rfl (of_decide_eq_true hne)
    · cases h
  · intro hnot
    have hne : ∀ c ∈ address, (decide (c ≠ '>')) = true := fun c hc => decide_eq_true fun h => hnot (h ▸ hc)
    have hend : ['>'].dropWhile (fun c => decide (c ≠ '>')) = ['>'] := by decide
    have hnone : ['>'].takeWhile (fun c => decide (c ≠ '>')) = [] := by decide
    rw [List.dropWhile_append_of_pos hne, List.takeWhile_append_of_pos hne, if_pos hend, hnone, List.append_nil]

theorem readMailbox_bare (address : List Char) :
    Mail.readMailbox address = some ([],address) ↔ '<' ∉ address ∧ ',' ∉ address := by
  unfold Mail.readMailbox
  by_cases hopen : '<' ∈ address
  · refine iff_of_false ?_ fun h => h.1 hopen
    cases hdrop : address.dropWhile (· ≠ '<') with
    | nil =>
      have hne := List.dropWhile_eq_nil_iff.mp hdrop '<' hopen
      exact absurd rfl (of_decide_eq_true hne)
    | cons c rest =>
      dsimp only
      intro h
      split at h
      · have haddress := (Prod.mk.inj (Option.some.inj h)).2
        have hshort : (rest.takeWhile (· ≠ '>')).length ≤ rest.length := (List.takeWhile_sublist _).length_le
        have hlength : (c :: rest).length ≤ address.length := hdrop ▸ (List.dropWhile_sublist _).length_le
        rw [haddress] at hshort
        rw [List.length_cons] at hlength
        omega
      · cases h
  · have hdrop : address.dropWhile (· ≠ '<') = [] :=
      List.dropWhile_eq_nil_iff.mpr fun c hc => decide_eq_true fun h => hopen (h ▸ hc)
    rw [hdrop]
    dsimp only
    split
    · rename_i hcomma
      exact iff_of_false (fun h => by cases h) fun h => h.2 hcomma
    · rename_i hcomma
      exact iff_of_true rfl ⟨hopen,hcomma⟩

/-- The address that is read stands in the value. -/
theorem mem_of_readMailbox {value name address : List Char} (h : Mail.readMailbox value = some (name,address)) :
    ∀ c ∈ address, c ∈ value := by
  intro c hc
  unfold Mail.readMailbox at h
  cases hdrop : value.dropWhile (· ≠ '<') with
  | nil =>
    rw [hdrop] at h
    dsimp only at h
    split at h
    · cases h
    · exact (Prod.mk.inj (Option.some.inj h)).2 ▸ hc
  | cons d rest =>
    rw [hdrop] at h
    dsimp only at h
    split at h
    · have haddress := (Prod.mk.inj (Option.some.inj h)).2
      rw [← haddress] at hc
      have hrest := (List.takeWhile_sublist _).subset hc
      exact (List.dropWhile_sublist _).subset (hdrop ▸ List.mem_cons_of_mem d hrest)
    · cases h

/-- A message id has no blank, no space and no line break in it. -/
theorem plain_of_mem_messageIds {id : List Char} (h : id ∈ messageIds s) :
    id ≠ [] ∧ ∀ c ∈ id, Mail.isBreak c = false ∧ Mail.isBlank c = false := by
  have hid : ∀ c, idChar c = true → Mail.isBreak c = false ∧ Mail.isBlank c = false := by
    intro c hc
    have hspaces : ∀ d ∈ ['\r','\n',' ','\t'], isSpace d = true :=
      List.all_eq_true.mp (by decide : ['\r','\n',' ','\t'].all isSpace = true)
    have hne : ∀ d ∈ ['\r','\n',' ','\t'], c ≠ d := by
      rintro d hd rfl
      rw [idChar, hspaces c hd] at hc
      simp at hc
    simp only [List.forall_mem_cons] at hne
    simp [Mail.isBreak, Mail.isBlank, hne.1, hne.2.1, hne.2.2.1, hne.2.2.2.1]
  induction s with
  | nil => cases h
  | cons c s ih =>
    rw [messageIds] at h
    split at h
    · rcases List.mem_append.mp h with h | h
      · rw [Option.mem_toList] at h
        unfold idAfter at h
        dsimp only at h
        split at h
        · cases h
          refine ⟨by simp,fun d hd => ?_⟩
          rcases List.mem_append.mp hd with hd | hd
          · rcases List.mem_cons.mp hd with rfl | hd
            · decide
            · exact hid d (List.mem_takeWhile_imp hd)
          · rw [List.mem_singleton.mp hd]
            decide
        · cases h
      · exact ih h
    · exact ih h

theorem continues_of_plain {id : List Char} (h : id ≠ [] ∧ ∀ c ∈ id, Mail.isBreak c = false ∧ Mail.isBlank c = false) :
    Mail.continues id = false := by
  cases id with
  | nil => rfl
  | cons c id => exact (h.2 c List.mem_cons_self).2

theorem tokens_of_plain {id : List Char} (h : id ≠ [] ∧ ∀ c ∈ id, Mail.isBreak c = false ∧ Mail.isBlank c = false)
    (more : List (List Char)) (hmore : ∀ k ∈ more, k ≠ [] ∧ ∀ c ∈ k, Mail.isBreak c = false ∧ Mail.isBlank c = false) :
    Mail.tokens (id ++ (more.map (' ' :: ·)).flatten) = id :: more := by
  have hsplit : (id ++ (more.map (' ' :: ·)).flatten).splitOnP Mail.isBlank = id :: more := by
    induction more generalizing id with
    | nil =>
      rw [List.map_nil, List.flatten_nil, List.append_nil]
      exact List.splitOnP_eq_singleton fun c hc => (h.2 c hc).2
    | cons k more ih =>
      rw [List.map_cons, List.flatten_cons, List.cons_append,
        List.splitOnP_append_cons_of_forall_mem (fun c hc => (h.2 c hc).2) _ rfl,
        ih (hmore k List.mem_cons_self) fun j hj => hmore j (List.mem_cons_of_mem k hj)]
  unfold Mail.tokens
  rw [hsplit, List.filter_eq_self]
  intro k hk
  rcases List.mem_cons.mp hk with rfl | hk
  · exact decide_eq_true h.1
  · exact decide_eq_true (hmore k hk).1

/-- Wrapping breaks a line into lines of at most seventy-six characters and changes nothing else. -/
theorem lines_wrapped (h : Mail.OneLine s) {room : ℕ} (hroom : 0 < room) (hle : room ≤ 76) :
    ∃ first rest, Mail.lines (wrapped room s) = first :: rest ∧ (first :: rest).flatten = s ∧ first.length ≤ room ∧
      ∀ l ∈ rest, l.length ≤ 76 := by
  induction s generalizing room with
  | nil => exact ⟨[],[],rfl,rfl,Nat.zero_le _,fun l hl => absurd hl List.not_mem_nil⟩
  | cons c s ih =>
    have hc := h c List.mem_cons_self
    have hs : Mail.OneLine s := fun d hd => h d (List.mem_cons_of_mem c hd)
    rw [wrapped]
    split
    · obtain ⟨first,rest,hlines,hflat,hfirst,hrest⟩ := ih hs (by omega : 0 < 76) le_rfl
      refine ⟨[c],first :: rest,?_,by rw [List.flatten_cons, hflat]; rfl,hroom,?_⟩
      · have hline : Mail.OneLine [c] := fun d hd => List.mem_singleton.mp hd ▸ hc
        rw [← hlines]
        exact Mail.lines_crlf hline
      · intro l hl
        rcases List.mem_cons.mp hl with rfl | hl
        · exact hfirst
        · exact hrest l hl
    · rename_i hne
      obtain ⟨first,rest,hlines,hflat,hfirst,hrest⟩ := ih hs (by omega : 0 < room - 1) (by omega)
      have hstep : Mail.lines (c :: wrapped (room - 1) s) = (Mail.lines (wrapped (room - 1) s)).modifyHead (c :: ·) := by
        unfold Mail.lines
        rw [Mail.linesFrom, if_neg (by simp), if_neg (by simp [hc])]
      refine ⟨c :: first,rest,?_,?_,?_,hrest⟩
      · rw [hstep, hlines, List.modifyHead_cons]
      · rw [List.flatten_cons, List.cons_append, ← List.flatten_cons, hflat]
      · rw [List.length_cons]
        omega

theorem mem_wrapped {room : ℕ} {p : Char → Prop} (hs : ∀ d ∈ s, p d) (hcr : p '\r') (hlf : p '\n') :
    ∀ d ∈ wrapped room s, p d := by
  induction s generalizing room with
  | nil => exact fun d hd => absurd hd List.not_mem_nil
  | cons c s ih =>
    have hrest : ∀ room,∀ d ∈ wrapped room s,p d := fun _ =>
      ih fun d hd => hs d (List.mem_cons_of_mem c hd)
    intro d hd
    rw [wrapped] at hd
    split at hd
    · simp only [List.mem_cons] at hd
      rcases hd with rfl | rfl | rfl | hd
      · exact hs d List.mem_cons_self
      · exact hcr
      · exact hlf
      · exact hrest _ d hd
    · rcases List.mem_cons.mp hd with rfl | hd
      · exact hs d List.mem_cons_self
      · exact hrest _ d hd

end Letters

section Fields
variable (input : RawInput)

def mimeWritten : List Mail.Written :=
  [⟨"MIME-Version".toList,"1.0".toList,[]⟩,⟨"Content-Type".toList,"text/plain; charset=UTF-8".toList,[]⟩,
    ⟨"Content-Transfer-Encoding".toList,"base64".toList,[]⟩]

def referencesWritten : List (List Char) → List Mail.Written
  | [] => []
  | id :: more => [⟨"References".toList,id,more.map (' ' :: ·)⟩]

/-- The fields of the header section as they are written. -/
def RawInput.written : List Mail.Written :=
  [⟨"From".toList,input.senderField,[]⟩,⟨"To".toList,mailbox input.recipientName input.recipientAddress,[]⟩,
    ⟨"Subject".toList,encodedWord input.subject,[]⟩] ++
  input.inReplyToId.toList.map (fun id => ⟨"In-Reply-To".toList,id,[]⟩) ++ referencesWritten input.referenceIds ++ mimeWritten

def RawInput.headLines : List (List Char) := input.written.flatMap Mail.Written.lines

/-- The references on one line. -/
def RawInput.joinedReferences : Option (List Char) :=
  match input.referenceIds with
  | [] => none
  | id :: more => some (id ++ (more.map (' ' :: ·)).flatten)

theorem intercalate_last (sep : List Char) (items : List (List Char)) (last : List Char) :
    sep.intercalate (items ++ [last]) = items.flatMap (fun item => item ++ sep) ++ last := by
  induction items with
  | nil => simp
  | cons item items ih =>
    have hne : items ++ [last] ≠ [] := by simp
    rw [List.cons_append, List.intercalate_cons_of_ne_nil hne, ih, List.flatMap_cons]
    simp only [List.append_assoc]

theorem folded_references (id : List Char) (more : List (List Char)) :
    "\r\n ".toList.intercalate (id :: more) ++ Mail.crlf = Mail.written (id :: more.map (' ' :: ·)) := by
  induction more generalizing id with
  | nil => simp [Mail.written]
  | cons k more ih =>
    rw [List.intercalate_cons_of_ne_nil (List.cons_ne_nil k more), List.append_assoc, ih]
    unfold Mail.written
    simp only [List.map_cons, List.flatMap_cons, List.append_assoc]
    rfl

theorem message_eq : input.message = Mail.written (input.headLines ++ [[]]) ++ input.encodedBody := by
  have hreferences : (if input.referenceIds = [] then [] else
      ["References: ".toList ++ "\r\n ".toList.intercalate input.referenceIds]).flatMap (fun item => item ++ Mail.crlf) =
      Mail.written ((referencesWritten input.referenceIds).flatMap Mail.Written.lines) := by
    cases input.referenceIds with
    | nil => rfl
    | cons id more =>
      have hfolded := folded_references id more
      rw [if_neg (List.cons_ne_nil id more)]
      unfold referencesWritten Mail.written at *
      simp only [List.flatMap_cons, List.flatMap_nil, List.append_nil, Mail.Written.lines, List.append_assoc,
        List.cons_append, hfolded]
      rfl
  have hreply : (input.inReplyToId.toList.map ("In-Reply-To: ".toList ++ ·)).flatMap (fun item => item ++ Mail.crlf) =
      Mail.written ((input.inReplyToId.toList.map (fun id => (⟨"In-Reply-To".toList,id,[]⟩ : Mail.Written))).flatMap
        Mail.Written.lines) := by
    cases input.inReplyToId with
    | none => rfl
    | some id => rfl
  have hitems : input.headerItems.flatMap (fun item => item ++ Mail.crlf) = Mail.written input.headLines := by
    unfold RawInput.headerItems RawInput.headLines RawInput.written
    rw [List.flatMap_append, List.flatMap_append, List.flatMap_append, hreferences, hreply]
    simp only [List.flatMap_append]
    unfold Mail.written
    simp only [List.flatMap_append]
    rfl
  have hall : input.headerItems ++ [[],input.encodedBody] = (input.headerItems ++ [[]]) ++ [input.encodedBody] := by
    rw [List.append_assoc]
    rfl
  unfold RawInput.message
  have hcrlf : "\r\n".toList = Mail.crlf := rfl
  rw [hall, intercalate_last, List.flatMap_append, hcrlf, hitems]
  unfold Mail.written
  rw [List.flatMap_append]

theorem decoded_raw : decoded (rawGmailMessage input) = input.message := by
  unfold decoded rawGmailMessage
  rw [Base64.decode_encode (fun c hc => absurd hc List.not_mem_nil), Mail.characters_encode]

end Fields

section Reading
variable {input : RawInput}

theorem senderField_bare (h : input.senderName.getD [] = []) : input.senderField = input.senderAddress := by
  unfold RawInput.senderField
  rw [h]

theorem senderField_named (h : input.senderName.getD [] ≠ []) :
    input.senderField = mailbox (input.senderName.getD []) input.senderAddress := by
  unfold RawInput.senderField
  cases hname : input.senderName.getD [] with
  | nil => exact absurd hname h
  | cons c name => rfl

theorem oneLine_mailbox {name address : List Char} (h : Mail.OneLine address) : Mail.OneLine (mailbox name address) := by
  have hopening : Mail.OneLine " <".toList := by decide
  have hclosing : Mail.OneLine ">".toList := by decide
  have hword : Mail.OneLine (encodedWord name) := fun c hc => (mem_encodedWord hc).1
  exact ((hword.append hopening).append h).append hclosing

theorem oneLine_senderField (h : Mail.OneLine input.senderAddress) : Mail.OneLine input.senderField := by
  by_cases hname : input.senderName.getD [] = []
  · rw [senderField_bare hname]
    exact h
  · rw [senderField_named hname]
    exact oneLine_mailbox h

/-- A field of a line starts with no blank. -/
theorem senderField_start (h : AcceptedAddress input.senderAddress) :
    input.senderField ≠ [] ∧ Mail.continues input.senderField = false := by
  by_cases hname : input.senderName.getD [] = []
  · rw [senderField_bare hname]
    obtain ⟨hne,-,hspace,-⟩ := h
    refine ⟨hne,?_⟩
    cases haddress : input.senderAddress with
    | nil => exact absurd haddress hne
    | cons c address =>
      rw [haddress] at hspace
      have hc := hspace c rfl
      have hblank : ∀ d, Mail.isBlank d = true → isSpace d = true := by
        intro d hd
        rcases (Bool.or_eq_true _ _).mp hd with hd | hd
        · rw [of_decide_eq_true hd]
          decide
        · rw [of_decide_eq_true hd]
          decide
      exact eq_false_of_ne_true fun hd => Bool.false_ne_true (hc.symm.trans (hblank c hd))
  · rw [senderField_named hname]
    exact ⟨List.cons_ne_nil _ _,rfl⟩

theorem mem_inReplyToId {id : List Char} (h : id ∈ input.inReplyToId.toList) :
    id ≠ [] ∧ ∀ c ∈ id, Mail.isBreak c = false ∧ Mail.isBlank c = false :=
  plain_of_mem_messageIds (List.mem_of_getLast? (Option.mem_toList.mp h))

theorem mem_referenceIds {id : List Char} (h : id ∈ input.referenceIds) :
    id ≠ [] ∧ ∀ c ∈ id, Mail.isBreak c = false ∧ Mail.isBlank c = false :=
  plain_of_mem_messageIds (List.mem_of_mem_drop h)

/-- The fields one by one. -/
theorem forall_written {P : Mail.Written → Prop} (hfrom : P ⟨"From".toList,input.senderField,[]⟩)
    (hto : P ⟨"To".toList,mailbox input.recipientName input.recipientAddress,[]⟩)
    (hsubject : P ⟨"Subject".toList,encodedWord input.subject,[]⟩)
    (hreply : ∀ id ∈ input.inReplyToId, P ⟨"In-Reply-To".toList,id,[]⟩)
    (hreferences : ∀ id more, input.referenceIds = id :: more → P ⟨"References".toList,id,more.map (' ' :: ·)⟩)
    (hmime : ∀ w ∈ mimeWritten, P w) : ∀ w ∈ input.written, P w := by
  intro w hw
  unfold RawInput.written at hw
  simp only [List.mem_append] at hw
  rcases hw with ((hw | hw) | hw) | hw
  · simp only [List.mem_cons, List.not_mem_nil, or_false] at hw
    rcases hw with rfl | rfl | rfl
    · exact hfrom
    · exact hto
    · exact hsubject
  · obtain ⟨id,hid,rfl⟩ := List.mem_map.mp hw
    exact hreply id (Option.mem_toList.mp hid)
  · cases hids : input.referenceIds with
    | nil =>
      rw [hids] at hw
      cases hw
    | cons id more =>
      rw [hids, referencesWritten, List.mem_singleton] at hw
      exact hw ▸ hreferences id more hids
  · exact hmime w hw

theorem wellFormed_of {name value : List Char} {more : List (List Char)}
    (hname : ':' ∉ name ∧ name ≠ [] ∧ Mail.continues name = false) (hvalue : value ≠ [] ∧ Mail.continues value = false)
    (hmore : ∀ k ∈ more, Mail.continues k = true) : Mail.Written.WellFormed ⟨name,value,more⟩ :=
  ⟨hname.1,hname.2,hvalue,hmore⟩

theorem written_wellFormed (h : AcceptedAddress input.senderAddress) : ∀ w ∈ input.written, w.WellFormed := by
  have hnone : ∀ k ∈ ([] : List (List Char)), Mail.continues k = true := fun k hk => absurd hk List.not_mem_nil
  refine forall_written (wellFormed_of (by decide) (senderField_start h) hnone)
    (wellFormed_of (by decide) ⟨List.cons_ne_nil _ _,rfl⟩ hnone) (wellFormed_of (by decide) ⟨List.cons_ne_nil _ _,rfl⟩ hnone)
    ?_ ?_ ?_
  · intro id hid
    have hplain := mem_inReplyToId (Option.mem_toList.mpr hid)
    exact wellFormed_of (by decide) ⟨hplain.1,continues_of_plain hplain⟩ hnone
  · intro id more hids
    have hplain := mem_referenceIds (hids ▸ List.mem_cons_self : id ∈ input.referenceIds)
    refine wellFormed_of (by decide) ⟨hplain.1,continues_of_plain hplain⟩ fun k hk => ?_
    obtain ⟨j,-,rfl⟩ := List.mem_map.mp hk
    rfl
  · simp only [mimeWritten, List.forall_mem_cons]
    exact ⟨wellFormed_of (by decide) (by decide) hnone,wellFormed_of (by decide) (by decide) hnone,
      wellFormed_of (by decide) (by decide) hnone,fun w hw => absurd hw List.not_mem_nil⟩

/-- The lines of a field have no line break, if its name, its value and its other lines have none. -/
theorem oneLine_of {name value : List Char} {more : List (List Char)} (hname : Mail.OneLine name)
    (hvalue : Mail.OneLine value) (hmore : ∀ k ∈ more, Mail.OneLine k) :
    ∀ l ∈ Mail.Written.lines ⟨name,value,more⟩, Mail.OneLine l := by
  have hcolon : Mail.OneLine [':',' '] := by decide
  intro l hl
  rcases List.mem_cons.mp hl with rfl | hl
  · exact hname.append (hcolon.append hvalue)
  · exact hmore l hl

theorem oneLine_headLines (hsender : Mail.OneLine input.senderAddress) (hrecipient : Mail.OneLine input.recipientAddress) :
    ∀ l ∈ input.headLines, Mail.OneLine l := by
  have hnone : ∀ k ∈ ([] : List (List Char)), Mail.OneLine k := fun k hk => absurd hk List.not_mem_nil
  have hwritten : ∀ w ∈ input.written, ∀ l ∈ w.lines, Mail.OneLine l := by
    refine forall_written (oneLine_of (by decide) (oneLine_senderField hsender) hnone)
      (oneLine_of (by decide) (oneLine_mailbox hrecipient) hnone)
      (oneLine_of (by decide) (fun c hc => (mem_encodedWord hc).1) hnone) ?_ ?_ ?_
    · intro id hid
      exact oneLine_of (by decide) (fun c hc => ((mem_inReplyToId (Option.mem_toList.mpr hid)).2 c hc).1) hnone
    · intro id more hids
      have hplain : ∀ k ∈ id :: more, Mail.OneLine k := fun k hk c hc =>
        ((mem_referenceIds (hids.symm ▸ hk)).2 c hc).1
      refine oneLine_of (by decide) (hplain id List.mem_cons_self) fun k hk => ?_
      obtain ⟨j,hj,rfl⟩ := List.mem_map.mp hk
      have hblank : Mail.OneLine [' '] := by decide
      exact hblank.append (hplain j (List.mem_cons_of_mem id hj))
    · simp only [mimeWritten, List.forall_mem_cons]
      exact ⟨oneLine_of (by decide) (by decide) hnone,oneLine_of (by decide) (by decide) hnone,
        oneLine_of (by decide) (by decide) hnone,fun w hw => absurd hw List.not_mem_nil⟩
  intro l hl
  obtain ⟨w,hw,hl⟩ := List.mem_flatMap.mp hl
  exact hwritten w hw l hl

def RawInput.encodedText (input : RawInput) : List Char :=
  Base64.encode Base64.standard ['='] (Utf8.encode (crlfBreaks input.body))

/-- The lines of the message: the header section, an empty line and the lines of the body. -/
theorem lines_message (hsender : Mail.OneLine input.senderAddress) (hrecipient : Mail.OneLine input.recipientAddress) :
    ∃ body, Mail.lines input.message = input.headLines ++ [] :: body ∧ body.flatten = input.encodedText ∧
      ∀ l ∈ body, Mail.octets l ≤ 76 := by
  have hletters : Mail.OneLine input.encodedText := fun c hc => (mem_base64 hc).1
  obtain ⟨first,rest,hlines,hflat,hfirst,hrest⟩ := lines_wrapped hletters (by decide : 0 < 76) le_rfl
  have hempty : Mail.OneLine [] := fun c hc => absurd hc List.not_mem_nil
  have hall : ∀ l ∈ input.headLines ++ [[]], Mail.OneLine l := fun l hl => (List.mem_append.mp hl).elim
    (oneLine_headLines hsender hrecipient l) fun hl => List.mem_singleton.mp hl ▸ hempty
  refine ⟨first :: rest,?_,hflat,fun l hl => ?_⟩
  · rw [message_eq, Mail.lines_written hall, List.append_assoc]
    exact congrArg (fun ls => input.headLines ++ [] :: ls) hlines
  · have hascii : ∀ c ∈ l, c.toNat < 128 := fun c hc =>
      (mem_base64 (hflat ▸ List.mem_flatten.mpr ⟨l,hl,hc⟩ : c ∈ input.encodedText)).2.2.2
    rw [octets_of_ascii hascii]
    rcases List.mem_cons.mp hl with rfl | hl
    · exact hfirst
    · exact hrest l hl

variable (haccepted : AcceptedAddress input.senderAddress) (hsender : Mail.OneLine input.senderAddress)
  (hrecipient : Mail.OneLine input.recipientAddress)

include haccepted

theorem headLines_ne_nil : ∀ l ∈ input.headLines, (decide (l ≠ [])) = true := by
  intro l hl
  obtain ⟨w,hw,hl⟩ := List.mem_flatMap.mp hl
  exact decide_eq_true ((written_wellFormed haccepted w hw).lines_ne_nil l hl)

include hsender hrecipient

/-- The fields that are read are the fields that are written. -/
theorem fields_message : Mail.fields input.message = input.written.map Mail.Written.field := by
  obtain ⟨body,hlines,-,-⟩ := lines_message hsender hrecipient
  have hhead : Mail.headOf input.message = input.headLines := by
    unfold Mail.headOf
    rw [hlines, List.takeWhile_append_of_pos (headLines_ne_nil haccepted)]
    simp
  unfold Mail.fields
  rw [hhead]
  exact Mail.fields_of_written (written_wellFormed haccepted)

theorem content_message : Mail.contentOf input.message = input.encodedText := by
  obtain ⟨body,hlines,hflat,-⟩ := lines_message hsender hrecipient
  unfold Mail.contentOf
  rw [hlines, List.dropWhile_append_of_pos (headLines_ne_nil haccepted), List.dropWhile_cons_of_neg (by simp),
    List.drop_one, List.tail_cons, hflat]

omit haccepted hsender hrecipient in
/-- What is read of the fields of a message. -/
theorem receivedFrom_fields (sender recipient subject : List Char) (reply references : Option (List Char))
    (content : List Char) :
    receivedFrom ([⟨"From".toList,sender⟩,⟨"To".toList,recipient⟩,⟨"Subject".toList,subject⟩] ++
      reply.toList.map (fun id => ⟨"In-Reply-To".toList,id⟩) ++ references.toList.map (fun ids => ⟨"References".toList,ids⟩) ++
      mimeWritten.map Mail.Written.field) content =
    { names := ["From".toList,"To".toList,"Subject".toList] ++ reply.toList.map (fun _ => "In-Reply-To".toList) ++
        references.toList.map (fun _ => "References".toList) ++ mimeNames.map String.toList
      sender := Mail.readMailbox sender
      recipient := Mail.readMailbox recipient
      subject := Mail.readWord subject
      inReplyTo := reply.map Mail.tokens
      references := references.map Mail.tokens
      mime := [some "1.0".toList,some "text/plain; charset=UTF-8".toList,some "base64".toList]
      body := Mail.characters (Base64.decode Base64.standard content) } := by
  cases reply with
  | none => cases references <;> rfl
  | some id => cases references <;> rfl

/-- Everything but the mailboxes reads as it was reviewed. -/
theorem received_message : received input.message =
    { input.reviewed with
      sender := Mail.readMailbox input.senderField
      recipient := Mail.readMailbox (mailbox input.recipientName input.recipientAddress) } := by
  have hbody : Mail.characters (Base64.decode Base64.standard input.encodedText) = crlfBreaks input.body := by
    unfold RawInput.encodedText
    rw [Base64.decode_encode Base64.standard_pad, Mail.characters_encode]
  unfold received
  rw [fields_message haccepted hsender hrecipient, content_message haccepted hsender hrecipient]
  have hfields : input.written.map Mail.Written.field =
      [⟨"From".toList,input.senderField⟩,⟨"To".toList,mailbox input.recipientName input.recipientAddress⟩,
        ⟨"Subject".toList,encodedWord input.subject⟩] ++ input.inReplyToId.toList.map (fun id => ⟨"In-Reply-To".toList,id⟩) ++
      input.joinedReferences.toList.map (fun ids => ⟨"References".toList,ids⟩) ++ mimeWritten.map Mail.Written.field := by
    have hone : ∀ name value, Mail.Written.field ⟨name,value,[]⟩ = ⟨name,value⟩ := fun name value => by
      rw [Mail.Written.field, List.flatten_nil, List.append_nil]
    have hreferences : (referencesWritten input.referenceIds).map Mail.Written.field =
        input.joinedReferences.toList.map (fun ids => ⟨"References".toList,ids⟩) := by
      unfold RawInput.joinedReferences
      cases input.referenceIds <;> rfl
    unfold RawInput.written
    simp only [List.map_append, List.map_map, List.map_cons, List.map_nil, hone, hreferences, Function.comp_def]
  have hreply : input.inReplyToId.map Mail.tokens = input.inReplyToId.map fun id => [id] := by
    refine Option.map_congr fun id hid => ?_
    have htokens := tokens_of_plain (mem_inReplyToId (Option.mem_toList.mpr hid)) [] fun k hk => absurd hk List.not_mem_nil
    rwa [List.map_nil, List.flatten_nil, List.append_nil] at htokens
  rw [hfields, receivedFrom_fields, hbody, readWord_encodedWord, hreply]
  unfold RawInput.reviewed RawInput.joinedReferences
  cases hids : input.referenceIds with
  | nil => rfl
  | cons id more =>
    have hplain : ∀ k ∈ id :: more, k ≠ [] ∧ ∀ c ∈ k, Mail.isBreak c = false ∧ Mail.isBlank c = false := fun k hk =>
      mem_referenceIds (hids.symm ▸ hk)
    have htokens := tokens_of_plain (hplain id List.mem_cons_self) more fun k hk => hplain k (List.mem_cons_of_mem id hk)
    simp only [Option.map_some, htokens]
    rfl

omit haccepted in
/-- The lines of the message are short enough when its fields fit. -/
theorem shortLines_message : ShortLines input.message ↔ FieldsFit input := by
  obtain ⟨body,hlines,-,hbody⟩ := lines_message hsender hrecipient
  have hline : ∀ (name value : List Char), Mail.octets (name ++ (':' :: ' ' :: value)) =
      Mail.octets name + 2 + Mail.octets value := by
    intro name value
    have hcolon : Mail.octets [':',' '] = 2 := by decide
    have hsplit : name ++ (':' :: ' ' :: value) = name ++ [':',' '] ++ value := by simp
    rw [hsplit, Mail.octets_append, Mail.octets_append, hcolon]
  have hshort : ∀ (name value : List Char) (more : List (List Char)),
      (∀ l ∈ Mail.Written.lines ⟨name,value,more⟩, Mail.octets l ≤ 998) ↔
        Mail.octets name + 2 + Mail.octets value ≤ 998 ∧ ∀ l ∈ more, Mail.octets l ≤ 998 := by
    intro name value more
    unfold Mail.Written.lines
    rw [List.forall_mem_cons, hline]
  have hnone : ∀ (name value : List Char), (∀ l ∈ Mail.Written.lines ⟨name,value,[]⟩, Mail.octets l ≤ 998) ↔
      Mail.octets name + 2 + Mail.octets value ≤ 998 := fun name value =>
    (hshort name value []).trans (and_iff_left fun l hl => absurd hl List.not_mem_nil)
  have hmime : ∀ w ∈ mimeWritten, ∀ l ∈ w.lines, Mail.octets l ≤ 998 := by decide
  have hsenderField : Mail.octets "From".toList + 2 + Mail.octets input.senderField ≤ 998 ↔
      if input.senderName.getD [] = [] then 6 + Mail.octets input.senderAddress ≤ 998
      else 6 + mailboxLength (input.senderName.getD []) input.senderAddress ≤ 998 := by
    have hname : Mail.octets "From".toList = 4 := by decide
    by_cases hempty : input.senderName.getD [] = []
    · rw [if_pos hempty, senderField_bare hempty, hname]
    · rw [if_neg hempty, senderField_named hempty, octets_mailbox, hname]
  have hreply : (∀ w ∈ input.inReplyToId.toList.map (fun id => (⟨"In-Reply-To".toList,id,[]⟩ : Mail.Written)),
      ∀ l ∈ w.lines, Mail.octets l ≤ 998) ↔ ∀ id ∈ input.inReplyToId, 13 + Mail.octets id ≤ 998 := by
    have hname : Mail.octets "In-Reply-To".toList = 11 := by decide
    simp only [List.forall_mem_map, Option.mem_toList, Option.mem_def, hnone, hname]
  have hreferences : (∀ w ∈ referencesWritten input.referenceIds, ∀ l ∈ w.lines, Mail.octets l ≤ 998) ↔
      (∀ id ∈ input.referenceIds.head?, 12 + Mail.octets id ≤ 998) ∧
        ∀ id ∈ input.referenceIds.tail, 1 + Mail.octets id ≤ 998 := by
    have hname : Mail.octets "References".toList = 10 := by decide
    have hblank : ∀ k, Mail.octets (' ' :: k) = 1 + Mail.octets k := fun k => Mail.octets_append [' '] k
    cases input.referenceIds with
    | nil => simp [referencesWritten]
    | cons id more =>
      simp only [referencesWritten, List.forall_mem_singleton, hshort, hname, List.forall_mem_map, hblank, List.head?_cons,
        Option.mem_some_iff, forall_eq', List.tail_cons]
  have hto : Mail.octets "To".toList = 2 := by decide
  have hsubject : Mail.octets "Subject".toList = 7 := by decide
  have hwritten : (∀ w ∈ input.written, ∀ l ∈ w.lines, Mail.octets l ≤ 998) ↔ FieldsFit input := by
    unfold RawInput.written FieldsFit
    rw [List.forall_mem_append, List.forall_mem_append, List.forall_mem_append, hreply, hreferences, and_iff_left hmime,
      List.forall_mem_cons, List.forall_mem_cons, List.forall_mem_singleton, hnone, hnone, hnone, hsenderField,
      octets_mailbox, octets_encodedWord, hto, hsubject]
    simp only [and_assoc]
  unfold ShortLines
  rw [hlines, ← hwritten]
  constructor
  · intro h w hw l hl
    exact h l (List.mem_append_left _ (List.mem_flatMap.mpr ⟨w,hw,hl⟩))
  · intro h l hl
    rcases List.mem_append.mp hl with hl | hl
    · obtain ⟨w,hw,hl⟩ := List.mem_flatMap.mp hl
      exact h w hw l hl
    · rcases List.mem_cons.mp hl with rfl | hl
      · decide
      · exact (hbody l hl).trans (by decide)

end Reading

section Main

/-- The addresses that are read have no line break in them. -/
theorem oneLine_of_received {message : List Char} {name address : List Char}
    (h : (received message).sender = some (name,address) ∨ (received message).recipient = some (name,address)) :
    Mail.OneLine address := by
  have hfield : ∀ field, (Mail.valueOf (Mail.fields message) field).bind Mail.readMailbox = some (name,address) →
      Mail.OneLine address := by
    intro field hread
    obtain ⟨value,hvalue,hmailbox⟩ := Option.bind_eq_some_iff.mp hread
    exact fun c hc => Mail.oneLine_of_valueOf hvalue c (mem_of_readMailbox hmailbox c hc)
  exact h.elim (hfield "From") (hfield "To")

/-- A message is sent as it was reviewed exactly when its addresses stay inside their mailboxes and each of
its fields fits. -/
theorem sent_as_reviewed_iff (input : RawInput) (haccepted : AcceptedAddress input.senderAddress) :
    SentAsReviewed input ↔ PlainAddresses input ∧ FieldsFit input := by
  unfold SentAsReviewed
  rw [decoded_raw]
  have hread : Mail.OneLine input.senderAddress → Mail.OneLine input.recipientAddress →
      (received input.message = input.reviewed ↔
        Mail.readMailbox input.senderField = some (input.senderName.getD [],input.senderAddress) ∧
          Mail.readMailbox (mailbox input.recipientName input.recipientAddress) =
            some (input.recipientName,input.recipientAddress)) := by
    intro hsender hrecipient
    rw [received_message haccepted hsender hrecipient]
    unfold RawInput.reviewed
    simp only [Received.mk.injEq, true_and, and_true]
  have hsenderMailbox : Mail.readMailbox input.senderField = some (input.senderName.getD [],input.senderAddress) ↔
      if input.senderName.getD [] = [] then '<' ∉ input.senderAddress ∧ ',' ∉ input.senderAddress
      else '>' ∉ input.senderAddress := by
    by_cases hempty : input.senderName.getD [] = []
    · rw [if_pos hempty, senderField_bare hempty, hempty]
      exact readMailbox_bare _
    · rw [if_neg hempty, senderField_named hempty]
      exact readMailbox_mailbox _ _
  constructor
  · rintro ⟨hreceived,hshort⟩
    have hsender : Mail.OneLine input.senderAddress := oneLine_of_received (Or.inl (congrArg Received.sender hreceived))
    have hrecipient : Mail.OneLine input.recipientAddress :=
      oneLine_of_received (Or.inr (congrArg Received.recipient hreceived))
    obtain ⟨hfrom,hto⟩ := (hread hsender hrecipient).mp hreceived
    exact ⟨⟨hrecipient,(readMailbox_mailbox _ _).mp hto,hsender,hsenderMailbox.mp hfrom⟩,
      (shortLines_message hsender hrecipient).mp hshort⟩
  · rintro ⟨⟨hrecipient,hto,hsender,hfrom⟩,hfits⟩
    exact ⟨(hread hsender hrecipient).mpr ⟨hsenderMailbox.mpr hfrom,(readMailbox_mailbox _ _).mpr hto⟩,
      (shortLines_message hsender hrecipient).mpr hfits⟩

/-- A reply to one message of a thread. -/
def sampleReply : RawInput where
  senderName := none
  senderAddress := "ops@acme.test".toList
  recipientName := "Ann\r\nBcc: eve@else.test".toList
  recipientAddress := "ann@else.test".toList
  subject := "Déjà vu".toList
  body := "Hello\nAnn".toList
  inReplyTo := some "<one@else.test>".toList
  references := some "<zero@else.test> no-id <one@else.test>".toList

theorem sent_as_reviewed_sample : SentAsReviewed sampleReply := by
  refine (sent_as_reviewed_iff sampleReply (by decide)).mpr ⟨?_,?_⟩
  · unfold PlainAddresses
    decide
  · unfold FieldsFit
    decide

/-- A recipient whose address goes on with a field of its own. -/
def injectedReply : RawInput :=
  { sampleReply with recipientAddress := "ann@else.test>\r\nBcc: <eve@else.test".toList }

/-- A message is not always sent as it was reviewed. -/
theorem not_sent_as_reviewed : ¬∀ input : RawInput, AcceptedAddress input.senderAddress →
    AcceptedAddress input.recipientAddress → SentAsReviewed input := by
  intro hclaim
  have hsent := hclaim injectedReply (by decide) (by decide)
  have hline : Mail.OneLine injectedReply.recipientAddress :=
    oneLine_of_received (Or.inr (congrArg Received.recipient hsent.1))
  exact absurd hline (by decide)

set_option maxRecDepth 8000 in
example : "Bcc".toList ∈ (received injectedReply.message).names := by decide

end Main
end HermesEnterprise.Email
