import HermesEnterprise.Triage.Prompt
import HermesEnterprise.Foundation.Occurrences
import HermesEnterprise.Inbound.Document

/-! # What stands outside the markers

The marker occurs where the template writes it, unless the workspace itself writes it. Outside the markers two
prompts differ by the attachments that were not read: their names stand with the verified facts.
-/
namespace HermesEnterprise.Triage
open HermesEnterprise.Inbound HermesEnterprise.Foundation.Occurrences
variable {m s x y : Text} {nonce : Text} {desk : Desk} {email email' : Email}

section Places

/-- Lines that others follow. -/
def endedLines (lines : List Text) : Text := lines.flatMap fun line => line ++ [10]

def beforeRule (desk : Desk) (email : Email) : Text :=
  endedLines (factLines desk email.facts ++ unreadLines email.attachments ++ [[]]) ++ text "Everything between the "

/-- From the name of the marker in the rule to the opening marker. -/
def ruleToOpening : Text := ruleRest ++ [10] ++ [10] ++ text "<<<"

def betweenMarkers (email : Email) (nonce : Text) : Text := [10] ++ endedLines (emailLines email nonce)

def afterClosing (desk : Desk) : Text := text ">>>" ++ [10] ++ join [10] (decideLines desk.roles)

/-- What the template writes before each of its markers. -/
def markerPlaces (desk : Desk) (email : Email) (nonce : Text) : List Text :=
  [beforeRule desk email,beforeRule desk email ++ marker nonce ++ ruleToOpening,
    beforeRule desk email ++ marker nonce ++ ruleToOpening ++ marker nonce ++ betweenMarkers email nonce]

theorem join_append_cons (lines : List Text) (line : Text) (rest : List Text) :
    join [10] (lines ++ line :: rest) = endedLines lines ++ join [10] (line :: rest) := by
  induction lines with
  | nil => rfl
  | cons first lines ih =>
    have hcons : ∀ more : List Text, more ≠ [] → join [10] (first :: more) = first ++ [10] ++ join [10] more := by
      intro more hmore
      cases more with
      | nil => exact absurd rfl hmore
      | cons next more =>
        rw [join_cons, join_cons, List.flatMap_cons]
        simp only [List.append_assoc]
    rw [List.cons_append, hcons _ (by simp), ih]
    unfold endedLines
    rw [List.flatMap_cons]
    simp only [List.append_assoc]

theorem prompt_eq (desk : Desk) (email : Email) (nonce : Text) : emailTriagePrompt desk email nonce =
    beforeRule desk email ++ (marker nonce ++ (ruleToOpening ++ (marker nonce ++ (betweenMarkers email nonce ++
      (marker nonce ++ afterClosing desk))))) := by
  have hlines : factLines desk email.facts ++ unreadLines email.attachments ++
      [[],ruleLine nonce,[],text "<<<" ++ marker nonce] ++ emailLines email nonce ++ [marker nonce ++ text ">>>"] ++
        decideLines desk.roles =
      (factLines desk email.facts ++ unreadLines email.attachments ++ [[]]) ++ ruleLine nonce :: ([] ::
        (text "<<<" ++ marker nonce) :: (emailLines email nonce ++ (marker nonce ++ text ">>>") :: decideLines desk.roles)) := by
    simp
  have hdecide : ∃ first rest, decideLines desk.roles = first :: rest := ⟨_,_,rfl⟩
  obtain ⟨first,rest,hdecide⟩ := hdecide
  have hclosing : join [10] ((marker nonce ++ text ">>>") :: decideLines desk.roles) =
      marker nonce ++ afterClosing desk := by
    unfold afterClosing
    rw [hdecide, join_cons, join_cons, List.flatMap_cons]
    simp only [List.append_assoc]
  have hopening : join [10] ((text "<<<" ++ marker nonce) :: (emailLines email nonce ++
      (marker nonce ++ text ">>>") :: decideLines desk.roles)) =
      text "<<<" ++ (marker nonce ++ (betweenMarkers email nonce ++ (marker nonce ++ afterClosing desk))) := by
    have happend := join_append_cons ((text "<<<" ++ marker nonce) :: emailLines email nonce) (marker nonce ++ text ">>>")
      (decideLines desk.roles)
    rw [List.cons_append] at happend
    rw [happend, hclosing]
    unfold endedLines betweenMarkers endedLines
    rw [List.flatMap_cons]
    simp only [List.append_assoc]
  unfold emailTriagePrompt
  rw [hlines, join_append_cons]
  have hrule : join [10] (ruleLine nonce :: ([] :: (text "<<<" ++ marker nonce) :: (emailLines email nonce ++
      (marker nonce ++ text ">>>") :: decideLines desk.roles))) = ruleLine nonce ++ [10] ++ [10] ++
      join [10] ((text "<<<" ++ marker nonce) :: (emailLines email nonce ++ (marker nonce ++ text ">>>") ::
        decideLines desk.roles)) := by
    rw [join_cons, join_cons, List.flatMap_cons, List.flatMap_cons]
    simp only [List.append_assoc, List.append_nil]
  rw [hrule, hopening]
  unfold beforeRule ruleToOpening ruleLine
  simp only [List.append_assoc]

end Places

section Words

/-- A unit that no marker has. -/
def apart (c : CodeUnit) : Bool :=
  !(isDigit c || (unit 'A' ≤ c && c ≤ unit 'F') || (text "EMAIL-").contains c)

structure IsMarker (m : Text) : Prop where
  head : text "EMAIL-" <+: m
  units : ∀ c ∈ m, apart c = false

theorem IsMarker.ne_nil (h : IsMarker m) : m ≠ [] := by
  rintro rfl
  have := List.prefix_nil.mp h.head
  exact absurd this (by decide)

theorem isMarker_nonceOf (bytes : List UInt8) : IsMarker (marker (nonceOf bytes)) := by
  have hhex : ∀ n < 16, apart (upperHex n) = false := by decide
  have hletters : (text "EMAIL-").all (fun c => !apart c) = true := by decide
  refine ⟨List.prefix_append _ _,fun c hc => ?_⟩
  rcases List.mem_append.mp hc with hc | hc
  · exact (Bool.not_eq_true' _).mp (List.all_eq_true.mp hletters c hc)
  · obtain ⟨b,-,hb⟩ := List.mem_flatMap.mp hc
    have hlt := b.toNat_lt
    rcases List.mem_cons.mp hb with rfl | hb
    · exact hhex _ (by omega)
    · rw [List.mem_singleton.mp hb]
      exact hhex _ (by omega)

theorem IsMarker.not_mem (h : IsMarker m) {c : CodeUnit} (hc : apart c = true) : c ∉ m := fun hin =>
  absurd ((h.units c hin).symm.trans hc) Bool.false_ne_true

theorem text_ofList (l : List Char) : text (String.ofList l) = l.map unit := by
  unfold text
  rw [String.toList_ofList]

/-- A literal before which no marker can end and after which one may start. -/
def opens (l : List Char) : Bool :=
  (l.getLast?.any fun c => apart (unit c)) && !(decide (text "EMAIL-" <:+: l.map unit))

def closes (l : List Char) : Bool :=
  (l.head?.any fun c => apart (unit c)) && !(decide (text "EMAIL-" <:+: l.map unit))

theorem not_infix_of_clear (hm : IsMarker m) (h : ¬text "EMAIL-" <:+: s) : ¬m <:+: s := fun hin =>
  h (hm.head.isInfix.trans hin)

theorem not_infix_text (hm : IsMarker m) (l : List Char) (h : (!(decide (text "EMAIL-" <:+: l.map unit))) = true) :
    ¬m <:+: text (String.ofList l) := by
  rw [text_ofList]
  exact not_infix_of_clear hm (by simpa using h)

theorem infix_opening (hm : IsMarker m) (l : List Char) (h : opens l = true) (y : Text) :
    m <:+: text (String.ofList l) ++ y ↔ m <:+: y := by
  unfold opens at h
  rw [Bool.and_eq_true] at h
  have hclear := not_infix_text hm l h.2
  rw [text_ofList] at hclear ⊢
  cases hlast : l.getLast? with
  | none =>
    rw [hlast] at h
    exact absurd h.1 (by decide)
  | some c =>
    rw [hlast] at h
    obtain ⟨front,rfl⟩ := List.getLast?_eq_some_iff.mp hlast
    rw [List.map_append] at hclear ⊢
    have hboth := @infix_concat_append CodeUnit m (front.map unit) y (unit c) hm.ne_nil (hm.not_mem h.1)
    exact hboth.trans (or_iff_right hclear)

theorem infix_closing (hm : IsMarker m) (l : List Char) (h : closes l = true) (x : Text) :
    m <:+: x ++ text (String.ofList l) ↔ m <:+: x := by
  unfold closes at h
  rw [Bool.and_eq_true] at h
  have hclear := not_infix_text hm l h.2
  rw [text_ofList] at hclear ⊢
  cases l with
  | nil => exact absurd h.1 (by decide)
  | cons c rest =>
    rw [List.map_cons] at hclear ⊢
    rw [infix_append_cons hm.ne_nil (hm.not_mem h.1)]
    exact or_iff_left hclear

theorem infix_between (hm : IsMarker m) (l : List Char) (h : opens l = true) (h' : closes l = true) (x y : Text) :
    m <:+: x ++ text (String.ofList l) ++ y ↔ m <:+: x ∨ m <:+: y := by
  have hopening := infix_opening hm l h y
  unfold closes at h'
  rw [Bool.and_eq_true] at h'
  rw [List.append_assoc]
  rw [text_ofList] at hopening ⊢
  cases l with
  | nil => exact absurd h'.1 (by decide)
  | cons c rest =>
    rw [List.map_cons, List.cons_append] at hopening ⊢
    rw [infix_append_cons hm.ne_nil (hm.not_mem h'.1), hopening]

end Words

section Lines

/-- What the workspace itself writes into the prompt. -/
def Desk.texts (desk : Desk) : List Text :=
  desk.inboxAddress :: (filled desk.roleName).toList ++ desk.roles.flatMap fun role => [role.slug,role.name]

/-- What an email brings into the prompt. -/
def Email.texts (email : Email) : List Text :=
  [email.facts.address,email.facts.name.getD [],email.subject,email.text] ++ email.facts.warnings.map (·.detail) ++
    email.attachments.flatMap fun file => [file.filename,file.contentType,file.text.getD []]

/-- A nonce that no text of an email has in it. -/
def Fresh (nonce : Text) (email : Email) : Prop := ∀ s ∈ email.texts, ¬nonce <:+: s

theorem infix_endedLines (hm : IsMarker m) (lines : List Text) (y : Text) :
    m <:+: endedLines lines ++ y ↔ (∃ line ∈ lines, m <:+: line) ∨ m <:+: y := by
  have hbreak : (10 : CodeUnit) ∉ m := hm.not_mem (by decide)
  unfold endedLines
  induction lines with
  | nil => simp
  | cons line rest ih =>
    rw [List.flatMap_cons, List.append_assoc, List.append_assoc, List.singleton_append, infix_beside hm.ne_nil hbreak]
    refine (or_congr_right ih).trans ?_
    rw [List.exists_mem_cons_iff, or_assoc]

theorem infix_break (hm : IsMarker m) (y : Text) : m <:+: [10] ++ y ↔ m <:+: y := by
  have hbreak : (10 : CodeUnit) ∉ m := hm.not_mem (by decide)
  have hboth := @infix_beside CodeUnit m [] y 10 hm.ne_nil hbreak
  rw [List.singleton_append, ← List.nil_append (10 :: y), hboth, List.infix_nil]
  exact or_iff_right hm.ne_nil

theorem infix_joined (hm : IsMarker m) {sep : Text} {c : CodeUnit} {more : Text} (hsep : sep = c :: more)
    (hc : apart c = true) (hclear : ∀ y, m <:+: sep ++ y ↔ m <:+: y) (parts : List Text) :
    m <:+: join sep parts ↔ ∃ part ∈ parts, m <:+: part := by
  cases parts with
  | nil => simp [join, hm.ne_nil]
  | cons first rest =>
    rw [join_cons]
    have hrest : ∀ (x : Text) (rest : List Text), m <:+: x ++ rest.flatMap (fun part => sep ++ part) ↔
        m <:+: x ∨ ∃ part ∈ rest, m <:+: part := by
      intro x rest
      induction rest generalizing x with
      | nil => simp
      | cons part rest ih =>
        have hpart := ih part
        have hbeside := hclear (part ++ rest.flatMap fun part => sep ++ part)
        rw [hpart] at hbeside
        rw [List.flatMap_cons, List.append_assoc]
        rw [hsep, List.cons_append] at hbeside ⊢
        rw [infix_append_cons hm.ne_nil (hm.not_mem hc), hbeside]
        simp
    rw [hrest first rest]
    simp

theorem infix_sender (hm : IsMarker m) (facts : SenderFacts) (haddress : ¬m <:+: facts.address)
    (hname : ¬m <:+: facts.name.getD []) : ¬m <:+: sender facts := by
  unfold sender filled
  cases hn : facts.name.filter fun v => !v.isEmpty with
  | none => exact haddress
  | some name =>
    have hname' := (Option.filter_eq_some_iff.mp hn).1
    rw [hname'] at hname
    dsimp only
    rw [infix_closing hm _ (by decide), infix_between hm _ (by decide) (by decide)]
    exact not_or.mpr ⟨hname,haddress⟩

set_option maxRecDepth 8000 in
theorem infix_arrivalLine (hm : IsMarker m) (desk : Desk) :
    m <:+: arrivalLine desk ↔ m <:+: desk.inboxAddress ∨ ∃ role ∈ filled desk.roleName, m <:+: role := by
  unfold arrivalLine
  cases filled desk.roleName with
  | none =>
    dsimp only
    rw [infix_closing hm _ (by decide), infix_opening hm _ (by decide)]
    simp
  | some role =>
    dsimp only
    rw [infix_closing hm _ (by decide), infix_between hm _ (by decide) (by decide),
      infix_opening hm _ (by decide)]
    simp

set_option maxRecDepth 8000 in
theorem infix_fromLine (hm : IsMarker m) (facts : SenderFacts) (h : ¬m <:+: sender facts) : ¬m <:+: fromLine facts := by
  have hlabel : ¬m <:+: relationshipLabel facts.relationship := by
    cases facts.relationship with
    | internal => exact not_infix_text hm _ (by decide)
    | knownContact => exact not_infix_text hm _ (by decide)
    | newSender => exact not_infix_text hm _ (by decide)
  unfold fromLine
  rw [infix_closing hm _ (by decide), infix_between hm _ (by decide) (by decide), infix_opening hm _ (by decide)]
  exact not_or.mpr ⟨h,hlabel⟩

set_option maxRecDepth 8000 in
theorem infix_checksLine (hm : IsMarker m) (auth : Authentication) : ¬m <:+: checksLine auth := by
  have hword : ∀ result : AuthResult, ¬m <:+: result.word := by
    intro result
    cases result <;> exact not_infix_text hm _ (by decide)
  unfold checksLine
  rw [infix_closing hm _ (by decide), infix_between hm _ (by decide) (by decide),
    infix_between hm _ (by decide) (by decide), infix_opening hm _ (by decide)]
  exact not_or.mpr ⟨not_or.mpr ⟨hword _,hword _⟩,hword _⟩

theorem infix_warningLines (hm : IsMarker m) (facts : SenderFacts) (h : ∀ warning ∈ facts.warnings, ¬m <:+: warning.detail) :
    ∀ line ∈ warningLines facts, ¬m <:+: line := by
  unfold warningLines
  dsimp only
  split
  · intro line hline
    rw [List.mem_singleton.mp hline]
    exact not_infix_text hm _ (by decide)
  · intro line hline
    rcases List.mem_cons.mp hline with rfl | hline
    · exact not_infix_text hm _ (by decide)
    · obtain ⟨warning,hwarning,rfl⟩ := List.mem_map.mp hline
      rw [infix_opening hm _ (by decide)]
      exact h warning (List.mem_of_mem_filter hwarning)

theorem infix_roleText (hm : IsMarker m) (role : Role) : m <:+: roleText role ↔ m <:+: role.slug ∨ m <:+: role.name := by
  unfold roleText
  rw [infix_closing hm _ (by decide), infix_between hm _ (by decide) (by decide)]

theorem infix_comma (hm : IsMarker m) (parts : List Text) :
    m <:+: join (text ", ") parts ↔ ∃ part ∈ parts, m <:+: part :=
  infix_joined hm (show text ", " = unit ',' :: [unit ' '] by decide) (by decide)
    (fun y => infix_opening hm _ (by decide) y) parts

set_option maxRecDepth 8000 in
theorem infix_unreadLines (hm : IsMarker m) (attachments : List Attachment)
    (h : ∀ file ∈ attachments, ¬m <:+: file.filename) : ∀ line ∈ unreadLines attachments, ¬m <:+: line := by
  unfold unreadLines
  dsimp only
  split
  · exact fun line hline => absurd hline List.not_mem_nil
  · intro line hline
    rw [List.mem_singleton.mp hline, infix_closing hm _ (by decide), infix_opening hm _ (by decide),
      infix_comma hm]
    rintro ⟨name,hname,hin⟩
    obtain ⟨file,hfile,rfl⟩ := List.mem_map.mp hname
    exact h file (List.mem_of_mem_filter hfile) hin

set_option maxRecDepth 8000 in
theorem infix_adviceLines (hm : IsMarker m) : ∀ line ∈ adviceLines, ¬m <:+: line := by
  unfold adviceLines
  simp only [List.forall_mem_cons, List.not_mem_nil, false_implies, implies_true, and_true, List.append_assoc]
  refine ⟨?_,?_,?_,?_,?_,?_,?_⟩
  · rw [List.infix_nil]
    exact hm.ne_nil
  · exact not_infix_text hm _ (by decide)
  · rw [infix_opening hm _ (by decide), infix_opening hm _ (by decide),
      infix_opening hm _ (by decide), infix_opening hm _ (by decide)]
    exact not_infix_text hm _ (by decide)
  · rw [infix_opening hm _ (by decide), infix_opening hm _ (by decide)]
    exact not_infix_text hm _ (by decide)
  · rw [infix_opening hm _ (by decide)]
    exact not_infix_text hm _ (by decide)
  · rw [infix_opening hm _ (by decide)]
    exact not_infix_text hm _ (by decide)
  · exact not_infix_text hm _ (by decide)

set_option maxRecDepth 8000 in
theorem infix_decideLines (hm : IsMarker m) (roles : List Role) :
    (∃ line ∈ decideLines roles, m <:+: line) ↔ ∃ role ∈ roles, m <:+: role.slug ∨ m <:+: role.name := by
  have hnil : ¬m <:+: [] := by
    rw [List.infix_nil]
    exact hm.ne_nil
  have hteams : m <:+: orElse (join (text ", ") (roles.map roleText)) (text "none") ↔
      ∃ role ∈ roles, m <:+: role.slug ∨ m <:+: role.name := by
    have hjoin : m <:+: join (text ", ") (roles.map roleText) ↔ ∃ role ∈ roles, m <:+: role.slug ∨ m <:+: role.name := by
      rw [infix_comma hm]
      simp only [List.mem_map, exists_exists_and_eq_and, infix_roleText hm]
    unfold orElse
    split
    · rename_i hempty
      rw [List.isEmpty_iff.mp hempty] at hjoin
      exact iff_of_false (not_infix_text hm _ (by decide)) fun hrole => hnil (hjoin.mpr hrole)
    · exact hjoin
  have hadvice := infix_adviceLines hm
  unfold decideLines
  constructor
  · rintro ⟨line,hline,hin⟩
    rcases List.mem_append.mp hline with hline | hline
    · exact absurd hin (hadvice line hline)
    · rw [List.mem_singleton.mp hline, infix_closing hm _ (by decide), infix_opening hm _ (by decide)] at hin
      exact hteams.mp hin
  · intro hrole
    refine ⟨_,List.mem_append_right _ List.mem_cons_self,?_⟩
    rw [infix_closing hm _ (by decide), infix_opening hm _ (by decide)]
    exact hteams.mpr hrole

end Lines
end HermesEnterprise.Triage
