import HermesEnterprise.Inbound.Text

/-! # The tokens of an email's markup

Loops over a string go on with the rest of it. Those that do not consume one unit in each
turn carry fuel, and that the length of the string is enough is proved below.
-/
namespace HermesEnterprise.Inbound

section Entities

def namedEntities : List (Text × Text) :=
  ([("amp","&"),("lt","<"),("gt",">"),("quot","\""),("apos","'"),("nbsp","\u00a0"),("copy","©"),("reg","®"),
    ("trade","™"),("mdash","—"),("ndash","–"),("hellip","…"),("rsquo","’"),("lsquo","‘"),("ldquo","“"),
    ("rdquo","”"),("bull","•"),("middot","·"),("laquo","«"),("raquo","»"),("euro","€"),("pound","£"),
    ("yen","¥"),("cent","¢"),("deg","°"),("times","×"),("divide","÷"),("zwnj","\u200c"),("zwj","\u200d"),
    ("shy","\u00ad"),("ensp","\u2002"),("emsp","\u2003"),("thinsp","\u2009")] : List (String × String)).map
    fun (name,value) => (text name,text value)

def characterReference (code : ℕ) : Text :=
  if code = 0 ∨ 0x10ffff < code ∨ (0xd800 ≤ code ∧ code ≤ 0xdfff) then [0xfffd] else fromCodePoint code

/-- The reference that starts behind an ampersand: its length without a semicolon, and what it stands
for. An inherited member of the table is printed. -/
def referenceAt (r : Runtime) (s : Text) : Option (ℕ × Text) :=
  let hex := ((s.drop 2).takeWhile isHexDigit).take 6
  let decimal := ((s.drop 1).takeWhile isDigit).take 7
  let name := (s.takeWhile fun c => isLetter c || isDigit c).take 32
  if sameFold (s.take 2) (text "#x") && !hex.isEmpty then
    some (hex.length + 2,characterReference (parseInt 16 hex))
  else if s.take 1 = text "#" && !decimal.isEmpty then
    some (decimal.length + 1,characterReference (parseInt 10 decimal))
  else if name.head?.any isLetter && 2 ≤ name.length then
    match lookup namedEntities (r.toLowerCase name) with
    | some (.own value) => some (name.length,value)
    | some (.inherited printed) => some (name.length,printed)
    | none => none
  else none

/-- `skip` units are part of the reference before them. -/
def decodeFrom (r : Runtime) (skip : ℕ) : Text → Text
  | [] => []
  | c :: rest =>
    if 0 < skip then decodeFrom r (skip - 1) rest
    else if c = unit '&' then
      match referenceAt r rest with
      | some (length,value) =>
        value ++ decodeFrom r (if (rest.drop length).head? = some (unit ';') then length + 1 else length) rest
      | none => c :: decodeFrom r 0 rest
    else c :: decodeFrom r 0 rest

def decodeEntities (r : Runtime) (value : Text) : Text := decodeFrom r 0 value

end Entities

inductive Token
  | text (value : Text)
  | start (name : Text) (attrs : List (Text × Text)) (selfClosing : Bool)
  | ending (name : Text)
  deriving DecidableEq, Repr

/-- Their contents are raw text until the matching end tag. -/
def rawText : List Text :=
  ["script","style","textarea","title","xmp","iframe","noembed","noframes","noscript","plaintext"].map text

section Attributes

/-- A value behind an equals sign, quoted or not, and what follows it. -/
def attributeValue : Text → Text × Text
  | [] => ([],[])
  | quote :: more =>
    if quote = 0x22 ∨ quote = 0x27 then
      (more.takeWhile (· ≠ quote),(more.dropWhile (· ≠ quote)).drop 1)
    else
      let plain := fun c => !isSpace c && decide (c ≠ unit '>')
      ((quote :: more).takeWhile plain,(quote :: more).dropWhile plain)

def readValue (s : Text) : Text × Text :=
  if s.head? = some (unit '=') then attributeValue ((s.drop 1).dropWhile isSpace) else ([],s)

def inAttributeName (c : CodeUnit) : Bool :=
  !isSpace c && decide (c ≠ unit '/') && decide (c ≠ unit '>') && decide (c ≠ unit '=')

/-- The attributes up to the end of the tag. The first of one name counts. -/
def readAttributes (r : Runtime) : ℕ → Text → List (Text × Text) → Bool →
    Option (List (Text × Text) × Bool × Text)
  | 0, _, _, _ => none
  | _ + 1, [], attrs, selfClosing => some (attrs,selfClosing,[])
  | fuel + 1, c :: rest, attrs, selfClosing =>
    if c = unit '>' then some (attrs,selfClosing,c :: rest)
    else if isSpace c then readAttributes r fuel rest attrs selfClosing
    else if c = unit '/' then readAttributes r fuel rest attrs (decide (rest.head? = some (unit '>')))
    else
      let name := r.toLowerCase ((c :: rest).takeWhile inAttributeName)
      let (value,after) := readValue (((c :: rest).dropWhile inAttributeName).dropWhile isSpace)
      let attrs := if name.isEmpty || attrs.any fun e => e.1 = name then attrs
        else attrs ++ [(name,decodeEntities r value)]
      readAttributes r fuel after attrs selfClosing

end Attributes

section Tags

def inTagName (c : CodeUnit) : Bool := !isSpace c && decide (c ≠ unit '/') && decide (c ≠ unit '>')

/-- The end tag of raw text: the text before it, and what follows `</`. -/
def rawEnd (name : Text) : Text → Text × Option Text
  | [] => ([],none)
  | c :: rest =>
    let here := text "</" ++ name
    if sameFold ((c :: rest).take here.length) here &&
        ((c :: rest).drop here.length).head?.any fun d => isSpace d || d = unit '/' || d = unit '>' then
      ([],some (c :: rest))
    else ((c :: (rawEnd name rest).1),(rawEnd name rest).2)

def flushText (pending : Text) : List Token := if pending.isEmpty then [] else [.text pending]

def isEndTag (rest : Text) : Bool := decide (rest.head? = some (unit '/'))

/-- A tag from its name on. -/
def tagBody (rest : Text) : Text := if isEndTag rest then rest.drop 1 else rest

/-- The tokens of a tag, with its raw text, and what follows them. -/
def readTag (r : Runtime) (isEnd : Bool) (body : Text) : Option (List Token × Text) := do
  let name := r.toLowerCase (body.takeWhile inTagName)
  let after := body.dropWhile inTagName
  let (attrs,selfClosing,after) ← readAttributes r (after.length + 1) after [] false
  let after := after.drop 1
  if isEnd then return ([.ending name],after)
  else if name ∉ rawText then return ([.start name attrs selfClosing],after)
  else if name = text "plaintext" then return ([.start name attrs selfClosing],[])
  else
    let (raw,closing) := rawEnd name after
    return (.start name attrs selfClosing :: (flushText raw ++ [.ending name]),
      restAfter (text ">") (closing.getD []))

/-- The tokens from here on. `pending` is the text that no tag has ended yet. -/
def tokenizeFrom (r : Runtime) : ℕ → Text → Text → Option (List Token)
  | 0, _, _ => none
  | _ + 1, [], pending => some (flushText pending)
  | fuel + 1, c :: rest, pending =>
    if c ≠ unit '<' then tokenizeFrom r fuel rest (pending ++ [c])
    else if (text "!--").isPrefixOf rest then
      (tokenizeFrom r fuel (restAfter (text "-->") (rest.drop 3)) []).map (flushText pending ++ ·)
    else if rest.head? = some (unit '!') ∨ rest.head? = some (unit '?') then
      (tokenizeFrom r fuel (restAfter (text ">") (rest.drop 1)) []).map (flushText pending ++ ·)
    else if !((tagBody rest).head?.any isAsciiLetter) then tokenizeFrom r fuel rest (pending ++ [c])
    else do
      let (tokens,after) ← readTag r (isEndTag rest) (tagBody rest)
      let later ← tokenizeFrom r fuel after []
      return flushText pending ++ tokens ++ later

def tokenize (r : Runtime) (html : Text) : Option (List Token) := tokenizeFrom r (html.length + 1) html []

end Tags

section Termination
variable {r : Runtime} {s : Text}

theorem length_dropWhile_le (p : CodeUnit → Bool) (s : Text) : (s.dropWhile p).length ≤ s.length :=
  (List.dropWhile_sublist p).length_le

theorem length_drop_le (n : ℕ) (s : Text) : (s.drop n).length ≤ s.length :=
  (List.drop_sublist n s).length_le

theorem length_splitAtFirst_snd {pattern before after : Text}
    (h : splitAtFirst pattern s = some (before,after)) : after.length ≤ s.length := by
  induction s generalizing before with
  | nil =>
    unfold splitAtFirst at h
    split at h
    · cases h
      exact Nat.le_refl _
    · cases h
  | cons c rest ih =>
    unfold splitAtFirst at h
    split at h
    · cases h
      exact length_drop_le _ _
    · obtain ⟨⟨before',after'⟩,hrest,heq⟩ := Option.map_eq_some_iff.mp h
      cases heq
      exact Nat.le_trans (ih hrest) (Nat.le_succ _)

theorem length_restAfter (pattern s : Text) : (restAfter pattern s).length ≤ s.length := by
  unfold restAfter
  cases h : splitAtFirst pattern s with
  | none => exact Nat.zero_le _
  | some parts => exact length_splitAtFirst_snd h

theorem length_attributeValue (s : Text) : (attributeValue s).2.length ≤ s.length := by
  cases s with
  | nil => exact Nat.le_refl _
  | cons quote more =>
    simp only [attributeValue]
    split
    · exact Nat.le_trans (length_drop_le _ _) (Nat.le_succ_of_le (length_dropWhile_le _ _))
    · exact length_dropWhile_le _ _

theorem length_readValue_equals (rest : Text) : (readValue (unit '=' :: rest)).2.length ≤ rest.length := by
  unfold readValue
  rw [List.head?_cons, if_pos rfl]
  exact Nat.le_trans (length_attributeValue _) (length_dropWhile_le _ _)

theorem length_readValue (s : Text) : (readValue s).2.length ≤ s.length := by
  unfold readValue
  split
  · exact Nat.le_trans (length_attributeValue _)
      (Nat.le_trans (length_dropWhile_le _ _) (length_drop_le _ _))
  · exact Nat.le_refl _

/-- A turn of the attribute loop that starts a name consumes a unit: of the name, or the equals sign. -/
theorem length_afterAttribute {c : CodeUnit} {rest : Text} (hspace : isSpace c = false)
    (hslash : c ≠ unit '/') (hend : c ≠ unit '>') :
    (readValue (((c :: rest).dropWhile inAttributeName).dropWhile isSpace)).2.length ≤ rest.length := by
  by_cases hequals : c = unit '='
  · subst hequals
    have hstop : inAttributeName (unit '=') = false := by decide
    rw [List.dropWhile_cons_of_neg (by rw [hstop]; exact Bool.false_ne_true),
      List.dropWhile_cons_of_neg (by rw [hspace]; exact Bool.false_ne_true)]
    exact length_readValue_equals rest
  · have hname : inAttributeName c = true := by simp [inAttributeName, hspace, hslash, hend, hequals]
    rw [List.dropWhile_cons_of_pos hname]
    exact Nat.le_trans (length_readValue _)
      (Nat.le_trans (length_dropWhile_le _ _) (length_dropWhile_le _ _))

/-- The attribute loop ends. -/
theorem readAttributes_total (fuel : ℕ) (s : Text) (attrs : List (Text × Text)) (selfClosing : Bool)
    (hfuel : s.length < fuel) :
    ∃ attrs' selfClosing' after, readAttributes r fuel s attrs selfClosing =
      some (attrs',selfClosing',after) ∧ after.length ≤ s.length := by
  induction fuel generalizing s attrs selfClosing with
  | zero => exact absurd hfuel (Nat.not_lt_zero _)
  | succ fuel ih =>
    cases s with
    | nil => exact ⟨attrs,selfClosing,[],rfl,Nat.le_refl _⟩
    | cons c rest =>
      have hrest : rest.length < fuel := Nat.lt_of_succ_lt_succ hfuel
      unfold readAttributes
      split
      · exact ⟨attrs,selfClosing,c :: rest,rfl,Nat.le_refl _⟩
      · rename_i hend
        split
        · obtain ⟨attrs',selfClosing',after,heq,hle⟩ := ih rest attrs selfClosing hrest
          exact ⟨attrs',selfClosing',after,heq,Nat.le_succ_of_le hle⟩
        · rename_i hspace
          split
          · obtain ⟨attrs',selfClosing',after,heq,hle⟩ :=
              ih rest attrs (decide (rest.head? = some (unit '>'))) hrest
            exact ⟨attrs',selfClosing',after,heq,Nat.le_succ_of_le hle⟩
          · rename_i hslash
            have hafter := @length_afterAttribute c rest (Bool.eq_false_iff.mpr hspace) hslash hend
            obtain ⟨attrs',selfClosing',after,heq,hle⟩ := ih _ _ selfClosing (Nat.lt_of_le_of_lt hafter hrest)
            exact ⟨attrs',selfClosing',after,heq,Nat.le_succ_of_le (Nat.le_trans hle hafter)⟩

theorem length_rawEnd {name closing : Text} (h : (rawEnd name s).2 = some closing) :
    closing.length ≤ s.length := by
  induction s with
  | nil => cases h
  | cons c rest ih =>
    unfold rawEnd at h
    dsimp only at h
    split at h
    · cases h
      exact Nat.le_refl _
    · exact Nat.le_succ_of_le (ih h)

theorem readTag_total (isEnd : Bool) (body : Text) :
    ∃ tokens after, readTag r isEnd body = some (tokens,after) ∧ after.length ≤ body.length := by
  obtain ⟨attrs,selfClosing,after,hread,hle⟩ := readAttributes_total (r := r)
    ((body.dropWhile inTagName).length + 1) (body.dropWhile inTagName) [] false (Nat.lt_succ_self _)
  have hafter : (after.drop 1).length ≤ body.length :=
    Nat.le_trans (length_drop_le _ _) (Nat.le_trans hle (length_dropWhile_le _ _))
  unfold readTag
  dsimp only
  rw [hread]
  dsimp only [Option.bind_eq_bind, Option.bind_some]
  split
  · exact ⟨_,_,rfl,hafter⟩
  · split
    · exact ⟨_,_,rfl,hafter⟩
    · split
      · exact ⟨_,_,rfl,Nat.zero_le _⟩
      · refine ⟨_,_,rfl,Nat.le_trans (length_restAfter _ _) ?_⟩
        cases hraw : (rawEnd (r.toLowerCase (body.takeWhile inTagName)) (after.drop 1)).2 with
        | none => exact Nat.zero_le _
        | some closing => exact Nat.le_trans (length_rawEnd hraw) hafter

theorem length_tagBody (rest : Text) : (tagBody rest).length ≤ rest.length := by
  unfold tagBody
  split
  · exact length_drop_le _ _
  · exact Nat.le_refl _

/-- The tokenizer ends. -/
theorem tokenizeFrom_total (fuel : ℕ) (s pending : Text) (hfuel : s.length < fuel) :
    ∃ tokens, tokenizeFrom r fuel s pending = some tokens := by
  induction fuel generalizing s pending with
  | zero => exact absurd hfuel (Nat.not_lt_zero _)
  | succ fuel ih =>
    cases s with
    | nil => exact ⟨_,rfl⟩
    | cons c rest =>
      have hrest : rest.length < fuel := Nat.lt_of_succ_lt_succ hfuel
      have hgo : ∀ after pending : Text, after.length ≤ rest.length →
          ∃ tokens, tokenizeFrom r fuel after pending = some tokens :=
        fun after pending hle => ih after pending (Nat.lt_of_le_of_lt hle hrest)
      unfold tokenizeFrom
      split
      · exact hgo rest _ (Nat.le_refl _)
      · split
        · obtain ⟨tokens,htokens⟩ := hgo (restAfter (text "-->") (rest.drop 3)) []
            (Nat.le_trans (length_restAfter _ _) (length_drop_le _ _))
          exact ⟨_,by rw [htokens]; rfl⟩
        · split
          · obtain ⟨tokens,htokens⟩ := hgo (restAfter (text ">") (rest.drop 1)) []
              (Nat.le_trans (length_restAfter _ _) (length_drop_le _ _))
            exact ⟨_,by rw [htokens]; rfl⟩
          · split
            · exact hgo rest _ (Nat.le_refl _)
            · obtain ⟨tokens,after,htag,hle⟩ := readTag_total (r := r) (isEndTag rest) (tagBody rest)
              obtain ⟨later,hlater⟩ := hgo after [] (Nat.le_trans hle (length_tagBody rest))
              exact ⟨flushText pending ++ tokens ++ later,by rw [htag]; simp [hlater]⟩

theorem tokenize_total (r : Runtime) (html : Text) : ∃ tokens, tokenize r html = some tokens :=
  tokenizeFrom_total _ _ _ (Nat.lt_succ_self _)

end Termination
end HermesEnterprise.Inbound
