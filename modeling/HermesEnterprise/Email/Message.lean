import HermesEnterprise.Foundation.Mail

/-! # The message of an approved email

The plain-text message built from a row of the outbox. Names and subject are encoded words, the
body is base64 in lines of seventy-six letters, and of a stored threading header only well-formed
message ids are written.
-/
namespace HermesEnterprise.Email
open Foundation

/-- What `\s` matches. -/
def isSpace (c : Char) : Bool :=
  (9 ≤ c.toNat && c.toNat ≤ 13) || c.toNat ∈ [0x20,0xA0,0x1680,0x2028,0x2029,0x202F,0x205F,0x3000,0xFEFF] ||
    (0x2000 ≤ c.toNat && c.toNat ≤ 0x200A)

def encodedWord (value : List Char) : List Char :=
  "=?UTF-8?B?".toList ++ Base64.encode Base64.standard ['='] (Utf8.encode value) ++ "?=".toList

def mailbox (name address : List Char) : List Char := encodedWord name ++ " <".toList ++ address ++ ">".toList

/-! ## Message ids -/

def idChar (c : Char) : Bool := c ≠ '<' && c ≠ '>' && !isSpace c

/-- `[^<>\s]{3,990}>` at the start of what follows a `<`. The class has no `>`, so the run of its characters
is the whole of it. -/
def idAfter (s : List Char) : Option (List Char) :=
  let run := s.takeWhile idChar
  if 3 ≤ run.length ∧ run.length ≤ 990 ∧ (s.dropWhile idChar).head? = some '>' then some ('<' :: run ++ ['>']) else none

/-- The matches of `<[^<>\s]{3,990}>`. An id has no other `<` in it, so the search may go on inside a match. -/
def messageIds : List Char → List (List Char)
  | [] => []
  | c :: s => if c = '<' then (idAfter s).toList ++ messageIds s else messageIds s

/-! ## The message -/

structure RawInput where
  senderName : Option (List Char)
  senderAddress : List Char
  recipientName : List Char
  recipientAddress : List Char
  subject : List Char
  body : List Char
  inReplyTo : Option (List Char)
  references : Option (List Char)

/-- Each LF and CRLF as CRLF. -/
def crlfBreaks : List Char → List Char
  | [] => []
  | '\r' :: '\n' :: s => '\r' :: '\n' :: crlfBreaks s
  | '\n' :: s => '\r' :: '\n' :: crlfBreaks s
  | c :: s => c :: crlfBreaks s

/-- A line break after each seventy-six characters. `room` is what is left of the line. -/
def wrapped : ℕ → List Char → List Char
  | _, [] => []
  | room, c :: s => if room = 1 then c :: '\r' :: '\n' :: wrapped 76 s else c :: wrapped (room - 1) s

namespace RawInput
variable (input : RawInput)

def encodedBody : List Char :=
  wrapped 76 (Base64.encode Base64.standard ['='] (Utf8.encode (crlfBreaks input.body)))

/-- The last well-formed id of the message that is answered. -/
def inReplyToId : Option (List Char) := (messageIds (input.inReplyTo.getD [])).getLast?

/-- The last fifty well-formed ids of the thread. -/
def referenceIds : List (List Char) :=
  let ids := messageIds (input.references.getD [])
  ids.drop (ids.length - 50)

def senderField : List Char :=
  match input.senderName.getD [] with
  | [] => input.senderAddress
  | name => mailbox name input.senderAddress

def headerItems : List (List Char) :=
  ["From: ".toList ++ input.senderField,"To: ".toList ++ mailbox input.recipientName input.recipientAddress,
    "Subject: ".toList ++ encodedWord input.subject] ++
  input.inReplyToId.toList.map ("In-Reply-To: ".toList ++ ·) ++
  (if input.referenceIds = [] then [] else
    -- One id a line, since fifty of them would make too long a line.
    ["References: ".toList ++ "\r\n ".toList.intercalate input.referenceIds]) ++
  ["MIME-Version: 1.0".toList,"Content-Type: text/plain; charset=UTF-8".toList,
    "Content-Transfer-Encoding: base64".toList]

def message : List Char := "\r\n".toList.intercalate (input.headerItems ++ [[],input.encodedBody])

end RawInput

def rawGmailMessage (input : RawInput) : List Char := Base64.encode Base64.url [] (Utf8.encode input.message)

/-- What `z.string().trim().min(1).max(320)` gives out: a text without space at its ends, of at most 320 code units. -/
def AcceptedAddress (address : List Char) : Prop :=
  address ≠ [] ∧ (address.map fun c => if c.toNat < 0x10000 then 1 else 2).sum ≤ 320 ∧
    (∀ c ∈ address.head?, isSpace c = false) ∧ ∀ c ∈ address.getLast?, isSpace c = false

instance (address : List Char) : Decidable (AcceptedAddress address) :=
  decidable_of_iff (address ≠ [] ∧ (address.map fun c => if c.toNat < 0x10000 then 1 else 2).sum ≤ 320 ∧
    address.head?.all (fun c => !isSpace c) = true ∧ address.getLast?.all (fun c => !isSpace c) = true)
    (by simp [AcceptedAddress, Option.all_eq_true])

end HermesEnterprise.Email
