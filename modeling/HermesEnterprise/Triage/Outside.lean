import HermesEnterprise.Triage.Spotlit

/-! # Two prompts, outside the markers

What is outside is read off the prompt: before the first opening marker and after the closing one behind it. Of two
emails with the same verified facts it is the same exactly if their unread attachments are named alike.
-/
namespace HermesEnterprise.Triage
open HermesEnterprise.Inbound HermesEnterprise.Foundation.Occurrences
variable {m s x y : Text} {nonce : Text} {desk : Desk} {email email' : Email}

section Clear

theorem replaceFrom_eq (pattern replacement : Text) (h : ¬pattern <:+: s) : replaceFrom pattern replacement 0 s = s := by
  induction s with
  | nil => rfl
  | cons c rest ih =>
    have hfirst : pattern.isPrefixOf (c :: rest) = false := by
      cases hp : pattern.isPrefixOf (c :: rest) with
      | false => rfl
      | true => exact absurd (List.isPrefixOf_iff_prefix.mp hp).isInfix h
    have hrest : ¬pattern <:+: rest := fun hin => h (List.infix_cons hin)
    unfold replaceFrom
    rw [if_neg (Nat.lt_irrefl 0), hfirst, if_neg Bool.false_ne_true, ih hrest]

theorem infix_clean (h : ¬marker nonce <:+: s) (limit : ℕ) : ¬marker nonce <:+: clean nonce s limit := by
  unfold clean
  rw [replaceFrom_eq _ _ h]
  exact fun hin => h (hin.trans (List.take_prefix limit s).isInfix)

theorem infix_orElse {fallback : Text} (h : ¬m <:+: s) (hfallback : ¬m <:+: fallback) : ¬m <:+: orElse s fallback := by
  unfold orElse
  split
  · exact hfallback
  · exact h

theorem Fresh.clear (h : Fresh nonce email) : ∀ s ∈ email.texts, ¬marker nonce <:+: s := fun s hs hin =>
  h s hs ((List.suffix_append (text "EMAIL-") nonce).isInfix.trans hin)

theorem infix_emailLines (hm : IsMarker (marker nonce)) (hfresh : Fresh nonce email) :
    ∀ line ∈ emailLines email nonce, ¬marker nonce <:+: line := by
  have hclear := hfresh.clear
  unfold Email.texts at hclear
  have hsubject : ¬marker nonce <:+: email.subject := hclear _ (by simp)
  have htext : ¬marker nonce <:+: email.text := hclear _ (by simp)
  have hfile : ∀ file ∈ email.attachments, ∀ s ∈ [file.filename,file.contentType,file.text.getD []], ¬marker nonce <:+: s :=
    fun file hfile s hs => hclear s (List.mem_append_right _ (List.mem_flatMap.mpr ⟨file,hfile,hs⟩))
  have hnil : ¬marker nonce <:+: [] := by
    rw [List.infix_nil]
    exact hm.ne_nil
  intro line hline
  unfold emailLines at hline
  rcases List.mem_append.mp hline with hline | hline
  · simp only [List.mem_cons, List.not_mem_nil, or_false] at hline
    rcases hline with rfl | rfl | rfl
    · rw [infix_opening hm _ (by decide)]
      exact infix_orElse hsubject (not_infix_text hm _ (by decide))
    · exact hnil
    · exact infix_orElse (infix_clean htext _) (not_infix_text hm _ (by decide))
  · unfold readLines at hline
    obtain ⟨file,hin,hline⟩ := List.mem_flatMap.mp hline
    have hparts := hfile file (List.mem_of_mem_filter hin)
    simp only [List.mem_cons, List.not_mem_nil, or_false] at hline
    rcases hline with rfl | rfl | rfl
    · exact hnil
    · rw [infix_closing hm _ (by decide), infix_between hm _ (by decide) (by decide), infix_opening hm _ (by decide)]
      exact not_or.mpr ⟨hparts _ (by simp),hparts _ (by simp)⟩
    · exact infix_clean (hparts _ (by simp)) _

theorem infix_betweenMarkers (hm : IsMarker (marker nonce)) (hfresh : Fresh nonce email) :
    ¬marker nonce <:+: betweenMarkers email nonce := by
  have hlines := infix_endedLines hm (emailLines email nonce) []
  rw [List.append_nil, List.infix_nil] at hlines
  unfold betweenMarkers
  rw [infix_break hm, hlines]
  rintro (⟨line,hline,hin⟩ | h)
  · exact infix_emailLines hm hfresh line hline hin
  · exact hm.ne_nil h

set_option maxRecDepth 8000 in
theorem infix_beforeRule (hm : IsMarker (marker nonce)) (hfresh : Fresh nonce email) : marker nonce <:+: beforeRule desk email ↔
    marker nonce <:+: desk.inboxAddress ∨ ∃ role ∈ filled desk.roleName, marker nonce <:+: role := by
  have hclear := hfresh.clear
  unfold Email.texts at hclear
  have hsender : ¬marker nonce <:+: sender email.facts := infix_sender hm _ (hclear _ (by simp)) (hclear _ (by simp))
  have hwarnings : ∀ warning ∈ email.facts.warnings, ¬marker nonce <:+: warning.detail := fun warning hin =>
    hclear _ (List.mem_append_left _ (List.mem_append_right _ (List.mem_map_of_mem hin)))
  have hnames : ∀ file ∈ email.attachments, ¬marker nonce <:+: file.filename := fun file hin =>
    hclear _ (List.mem_append_right _ (List.mem_flatMap.mpr ⟨file,hin,List.mem_cons_self⟩))
  have hnil : ¬marker nonce <:+: [] := by
    rw [List.infix_nil]
    exact hm.ne_nil
  have hrest : ∀ line ∈ [[],text "What the server verified about the sender (you cannot change these):",fromLine email.facts,
      checksLine email.facts.authentication] ++ warningLines email.facts ++ unreadLines email.attachments ++ [[]],
      ¬marker nonce <:+: line := by
    intro line hline
    simp only [List.mem_append, List.mem_cons, List.not_mem_nil, or_false] at hline
    rcases hline with (((rfl | rfl | rfl | rfl) | hline) | hline) | rfl
    · exact hnil
    · exact not_infix_text hm _ (by decide)
    · exact infix_fromLine hm _ hsender
    · exact infix_checksLine hm _
    · exact infix_warningLines hm _ hwarnings line hline
    · exact infix_unreadLines hm _ hnames line hline
    · exact hnil
  have hlines : factLines desk email.facts ++ unreadLines email.attachments ++ [[]] =
      arrivalLine desk :: ([[],text "What the server verified about the sender (you cannot change these):",fromLine email.facts,
        checksLine email.facts.authentication] ++ warningLines email.facts ++ unreadLines email.attachments ++ [[]]) := rfl
  unfold beforeRule
  rw [infix_endedLines hm, hlines, List.exists_mem_cons_iff, infix_arrivalLine hm, or_assoc]
  refine or_iff_left ?_
  rintro (⟨line,hline,hin⟩ | h)
  · exact hrest line hline hin
  · exact not_infix_text hm _ (by decide) h

set_option maxRecDepth 8000 in
theorem infix_ruleToOpening (hm : IsMarker m) : ¬m <:+: ruleToOpening := by
  have hbreak : (10 : CodeUnit) ∉ m := hm.not_mem (by decide)
  have hrule : ¬m <:+: ruleRest := by
    unfold ruleRest
    rw [List.append_assoc, infix_opening hm _ (by decide), infix_opening hm _ (by decide)]
    exact not_infix_text hm _ (by decide)
  unfold ruleToOpening
  rw [infix_closing hm _ (by decide), infix_beside hm.ne_nil hbreak, infix_beside hm.ne_nil hbreak, List.infix_nil]
  exact not_or.mpr ⟨not_or.mpr ⟨hrule,hm.ne_nil⟩,hm.ne_nil⟩

theorem infix_afterClosing (hm : IsMarker m) (desk : Desk) :
    m <:+: afterClosing desk ↔ ∃ role ∈ desk.roles, m <:+: role.slug ∨ m <:+: role.name := by
  unfold afterClosing
  rw [List.append_assoc, infix_opening hm _ (by decide), infix_break hm, infix_joined hm rfl (by decide) (infix_break hm),
    infix_decideLines hm]

/-- The marker in what the workspace writes, on either side of the email. -/
theorem infix_desk (hm : IsMarker (marker nonce)) (hfresh : Fresh nonce email) : (∃ s ∈ desk.texts, marker nonce <:+: s) ↔
    marker nonce <:+: beforeRule desk email ∨ marker nonce <:+: afterClosing desk := by
  rw [infix_beforeRule hm hfresh, infix_afterClosing hm]
  unfold Desk.texts
  simp only [List.mem_cons, List.mem_append, List.mem_flatMap, List.not_mem_nil, or_false, Option.mem_toList, or_and_right,
    exists_or, exists_eq_left]
  refine or_congr_right ?_
  constructor
  · rintro ⟨s,⟨role,hrole,rfl | rfl⟩,hin⟩
    · exact ⟨role,hrole,Or.inl hin⟩
    · exact ⟨role,hrole,Or.inr hin⟩
  · rintro ⟨role,hrole,hin | hin⟩
    · exact ⟨_,⟨role,hrole,Or.inl rfl⟩,hin⟩
    · exact ⟨_,⟨role,hrole,Or.inr rfl⟩,hin⟩

end Clear

section Only

/-- Every occurrence of the marker is one that the template writes. -/
def OnlyTemplate (desk : Desk) (email : Email) (nonce : Text) : Prop :=
  ∀ before after, emailTriagePrompt desk email nonce = before ++ marker nonce ++ after →
    before ∈ markerPlaces desk email nonce

/-- No marker reaches over the end of this text. -/
def endsApart (s : Text) : Bool := s.getLast?.any apart

def startsApart (s : Text) : Bool := s.head?.any apart

theorem occurs_next {before after : Text} (hm : IsMarker m) (hx : ¬m <:+: x) (hend : endsApart x = true)
    (hstart : startsApart y = true) (h : before ++ m ++ after = x ++ (m ++ y)) :
    (before = x ∧ after = y) ∨ ∃ t, before = x ++ m ++ t ∧ y = t ++ m ++ after := by
  obtain ⟨c,hc,hapart⟩ := (Option.any_eq_true _ _).mp hend
  obtain ⟨front,rfl⟩ := List.getLast?_eq_some_iff.mp hc
  cases y with
  | nil => exact absurd hstart (by decide)
  | cons d y =>
    have hfront : ¬m <:+: front := fun hin => hx (hin.trans (List.prefix_append _ _).isInfix)
    exact occurs_apart hm.ne_nil (hm.not_mem hapart) (hm.not_mem hstart) hfront h

theorem endsApart_append (s t : Text) (h : endsApart t = true) : endsApart (s ++ t) = true := by
  unfold endsApart at h ⊢
  cases hlast : t.getLast? with
  | none =>
    rw [hlast] at h
    exact absurd h (by decide)
  | some c =>
    rw [hlast] at h
    rw [List.getLast?_append, hlast]
    exact h

theorem startsApart_append (s t : Text) (h : startsApart s = true) : startsApart (s ++ t) = true := by
  cases s with
  | nil => exact absurd h (by decide)
  | cons c s => exact h

theorem endsApart_endedLines (lines : List Text) : endsApart ([10] ++ endedLines lines) = true := by
  have hlines : ∀ s : Text, endsApart s = true → endsApart (s ++ endedLines lines) = true := by
    unfold endedLines
    induction lines with
    | nil =>
      intro s hs
      rw [List.flatMap_nil, List.append_nil]
      exact hs
    | cons line rest ih =>
      intro s _
      rw [List.flatMap_cons, ← List.append_assoc]
      exact ih _ (by rw [← List.append_assoc]; exact endsApart_append _ _ (by decide))
  exact hlines [10] (by decide)

set_option maxRecDepth 8000 in
theorem startsApart_rule : startsApart (ruleToOpening ++ s) = true := by
  have hrule : startsApart ruleRest = true := by
    unfold ruleRest
    exact startsApart_append _ _ (startsApart_append _ _ (by decide))
  unfold ruleToOpening
  exact startsApart_append _ _ (startsApart_append _ _ (startsApart_append _ _ (startsApart_append _ _ hrule)))

theorem onlyTemplate_of (hm : IsMarker (marker nonce)) (hfresh : Fresh nonce email)
    (hdesk : ∀ s ∈ desk.texts, ¬marker nonce <:+: s) : OnlyTemplate desk email nonce := by
  have hoff : ¬(marker nonce <:+: beforeRule desk email ∨ marker nonce <:+: afterClosing desk) := by
    rw [← infix_desk hm hfresh]
    exact fun ⟨s,hs,hin⟩ => hdesk s hs hin
  obtain ⟨hbefore,hafter⟩ := not_or.mp hoff
  have hrule : endsApart (beforeRule desk email) = true := endsApart_append _ _ (by decide)
  have hopening : endsApart ruleToOpening = true := endsApart_append _ _ (by decide)
  have hemail : ∀ s, startsApart (betweenMarkers email nonce ++ s) = true := fun s =>
    startsApart_append _ _ (startsApart_append [10] _ (by decide))
  have hclosing : startsApart (afterClosing desk) = true :=
    startsApart_append _ _ (startsApart_append (text ">>>") _ (by decide))
  intro before after h
  rw [prompt_eq] at h
  unfold markerPlaces
  -- The occurrence is the rule's, the opening one or the closing one.
  rcases occurs_next hm hbefore hrule startsApart_rule h.symm with ⟨rfl,-⟩ | ⟨t,rfl,hrest⟩
  · exact List.mem_cons_self
  · rcases occurs_next hm (infix_ruleToOpening hm) hopening (hemail _) hrest.symm with ⟨rfl,-⟩ | ⟨t,rfl,hlast⟩
    · exact List.mem_cons_of_mem _ List.mem_cons_self
    · rcases occurs_next hm (infix_betweenMarkers hm hfresh) (endsApart_endedLines _) hclosing hlast.symm with
        ⟨rfl,-⟩ | ⟨t,-,hend⟩
      · simp
      · exact absurd ⟨t,after,hend.symm⟩ hafter

theorem desk_clear_of (hm : IsMarker (marker nonce)) (hfresh : Fresh nonce email) (h : OnlyTemplate desk email nonce) :
    ∀ s ∈ desk.texts, ¬marker nonce <:+: s := by
  have hpositive : 0 < (marker nonce).length := List.length_pos_of_ne_nil hm.ne_nil
  have hplaces : ∀ before ∈ markerPlaces desk email nonce, (beforeRule desk email).length ≤ before.length ∧ before.length ≤
      (beforeRule desk email ++ marker nonce ++ ruleToOpening ++ marker nonce ++ betweenMarkers email nonce).length := by
    unfold markerPlaces
    simp only [List.forall_mem_cons, List.not_mem_nil, false_implies, implies_true, and_true, List.length_append]
    omega
  intro s hs hin
  rcases (infix_desk hm hfresh).mp ⟨s,hs,hin⟩ with ⟨before,rest,hbefore⟩ | ⟨before,rest,hafter⟩
  · have hplace := hplaces before (h before (rest ++ (marker nonce ++ (ruleToOpening ++ (marker nonce ++
      (betweenMarkers email nonce ++ (marker nonce ++ afterClosing desk)))))) (by
        rw [prompt_eq, ← hbefore]
        simp only [List.append_assoc]))
    have hlength := congrArg List.length hbefore
    simp only [List.length_append] at hlength
    omega
  · have hplace := hplaces (beforeRule desk email ++ marker nonce ++ ruleToOpening ++ marker nonce ++
      betweenMarkers email nonce ++ marker nonce ++ before) (h _ rest (by
        rw [prompt_eq, ← hafter]
        simp only [List.append_assoc]))
    simp only [List.length_append] at hplace
    omega

end Only

section Outside

/-- What stands before the opening marker and after the closing one. -/
def outsideOf (nonce prompt : Text) : Option (Text × Text) :=
  (splitAtFirst (text "<<<" ++ marker nonce) prompt).bind fun (before,rest) =>
    (splitAtFirst (marker nonce ++ text ">>>") rest).map fun (_,after) => (before,after)

theorem splitAtFirst_eq {pattern before after : Text}
    (hfirst : ∀ front back, before ++ pattern ++ after = front ++ pattern ++ back → before.length ≤ front.length) :
    splitAtFirst pattern (before ++ pattern ++ after) = some (before,after) := by
  induction before with
  | nil =>
    rw [List.nil_append]
    cases hs : pattern ++ after with
    | nil =>
      obtain ⟨rfl,rfl⟩ := List.append_eq_nil_iff.mp hs
      rfl
    | cons c rest =>
      unfold splitAtFirst
      rw [← hs, if_pos (List.isPrefixOf_iff_prefix.mpr (List.prefix_append _ _)), List.drop_left]
  | cons c before ih =>
    have hrest : ∀ front back, before ++ pattern ++ after = front ++ pattern ++ back → before.length ≤ front.length := by
      intro front back h
      have hcons := hfirst (c :: front) back (by rw [List.cons_append, List.cons_append, h]; rfl)
      exact Nat.le_of_succ_le_succ hcons
    have hbegin : ¬pattern.isPrefixOf (c :: (before ++ pattern ++ after)) = true := by
      intro h
      obtain ⟨back,hback⟩ := List.isPrefixOf_iff_prefix.mp h
      have hzero := hfirst [] back (by rw [List.nil_append, hback]; rfl)
      exact absurd hzero (Nat.not_succ_le_zero _)
    rw [List.cons_append, List.cons_append]
    unfold splitAtFirst
    rw [if_neg hbegin, ih hrest]
    rfl

theorem outsideOf_prompt (hm : IsMarker (marker nonce)) (hfresh : Fresh nonce email)
    (hdesk : ∀ s ∈ desk.texts, ¬marker nonce <:+: s) : outsideOf nonce (emailTriagePrompt desk email nonce) =
      some (beforeRule desk email ++ marker nonce ++ ruleRest ++ [10] ++ [10],[10] ++ join [10] (decideLines desk.roles)) := by
  have honly := onlyTemplate_of hm hfresh hdesk
  have hopening : emailTriagePrompt desk email nonce =
      (beforeRule desk email ++ marker nonce ++ ruleRest ++ [10] ++ [10]) ++ (text "<<<" ++ marker nonce) ++
        (betweenMarkers email nonce ++ (marker nonce ++ afterClosing desk)) := by
    rw [prompt_eq]
    unfold ruleToOpening
    simp only [List.append_assoc]
  have hclosing : betweenMarkers email nonce ++ (marker nonce ++ afterClosing desk) =
      betweenMarkers email nonce ++ (marker nonce ++ text ">>>") ++ ([10] ++ join [10] (decideLines desk.roles)) := by
    unfold afterClosing
    simp only [List.append_assoc]
  have hangles : (text "<<<").length = 3 := by decide
  have hpositive : 0 < (marker nonce).length := List.length_pos_of_ne_nil hm.ne_nil
  have hsplit : splitAtFirst (text "<<<" ++ marker nonce) (emailTriagePrompt desk email nonce) =
      some (beforeRule desk email ++ marker nonce ++ ruleRest ++ [10] ++ [10],
        betweenMarkers email nonce ++ (marker nonce ++ afterClosing desk)) := by
    rw [hopening]
    refine splitAtFirst_eq fun front back h => ?_
    have hplace := honly (front ++ text "<<<") back (by rw [hopening, h]; simp only [List.append_assoc])
    have hlength : ∀ s, front ++ text "<<<" = s → front.length + 3 = s.length := by
      rintro _ rfl
      rw [List.length_append]
      rfl
    unfold markerPlaces at hplace
    simp only [List.mem_cons, List.not_mem_nil, or_false] at hplace
    rcases hplace with hplace | hplace | hplace
    · have hlast := congrArg List.getLast? hplace
      unfold beforeRule at hlast
      rw [List.getLast?_append, List.getLast?_append, show (text "<<<").getLast? = some (unit '<') by decide,
        show (text "Everything between the ").getLast? = some (unit ' ') by decide, Option.some_or, Option.some_or] at hlast
      exact absurd (Option.some.inj hlast) (by decide)
    · have hplace := hlength _ hplace
      unfold ruleToOpening at hplace
      simp only [List.length_append, List.length_singleton, hangles] at hplace ⊢
      omega
    · have hplace := hlength _ hplace
      unfold ruleToOpening at hplace
      simp only [List.length_append, List.length_singleton, hangles] at hplace ⊢
      omega
  have hrest : splitAtFirst (marker nonce ++ text ">>>") (betweenMarkers email nonce ++ (marker nonce ++ afterClosing desk)) =
      some (betweenMarkers email nonce,[10] ++ join [10] (decideLines desk.roles)) := by
    rw [hclosing]
    refine splitAtFirst_eq fun front back h => ?_
    have hplace := honly (beforeRule desk email ++ marker nonce ++ ruleToOpening ++ marker nonce ++ front)
      (text ">>>" ++ back) (by rw [prompt_eq, hclosing, h]; simp only [List.append_assoc])
    unfold markerPlaces at hplace
    simp only [List.mem_cons, List.not_mem_nil, or_false] at hplace
    rcases hplace with hplace | hplace | hplace
    all_goals
      have hlength := congrArg List.length hplace
      simp only [List.length_append] at hlength
      omega
  unfold outsideOf
  rw [hsplit, Option.bind_some]
  dsimp only
  rw [hrest]
  rfl

/-- The file names of the attachments that were not read. -/
def unreadNames (email : Email) : List Text := (email.attachments.filter fun file => !wasRead file).map (·.filename)

/-- The unread attachments of two emails are listed alike. -/
def ListedAlike (email email' : Email) : Prop :=
  (unreadNames email = [] ↔ unreadNames email' = []) ∧ join (text ", ") (unreadNames email) = join (text ", ") (unreadNames email')

theorem unreadLines_eq (email : Email) : unreadLines email.attachments = if unreadNames email = [] then []
    else [text "- Attachments not read (type or size): " ++ join (text ", ") (unreadNames email) ++ text "."] := by
  unfold unreadLines unreadNames
  simp only [List.isEmpty_iff, List.map_eq_nil_iff]

theorem unreadLines_eq_iff : unreadLines email.attachments = unreadLines email'.attachments ↔ ListedAlike email email' := by
  rw [unreadLines_eq, unreadLines_eq]
  unfold ListedAlike
  by_cases h : unreadNames email = []
  · by_cases h' : unreadNames email' = []
    · rw [h, h']
      simp
    · rw [if_pos h, if_neg h']
      simp [h, h']
  · by_cases h' : unreadNames email' = []
    · rw [if_neg h, if_pos h']
      simp [h, h']
    · rw [if_neg h, if_neg h', List.singleton_inj, List.append_left_inj, List.append_right_inj]
      simp [h, h']

/-- Of at most one line each. -/
theorem endedLines_inj {lines lines' : List Text} (h : lines.length ≤ 1) (h' : lines'.length ≤ 1) :
    endedLines lines = endedLines lines' ↔ lines = lines' := by
  unfold endedLines
  match lines,lines' with
  | [],[] => simp
  | [],[line'] => simp
  | [line],[] => simp
  | [line],[line'] => simp
  | _ :: _ :: _,_ => exact absurd h (by simp)
  | _,_ :: _ :: _ => exact absurd h' (by simp)

theorem beforeRule_eq_iff (hfacts : email.facts = email'.facts) :
    beforeRule desk email = beforeRule desk email' ↔ ListedAlike email email' := by
  have hends : ∀ lines lines' : List Text, endedLines (factLines desk email.facts ++ lines ++ [[]]) =
      endedLines (factLines desk email.facts ++ lines' ++ [[]]) ↔ endedLines lines = endedLines lines' := by
    intro lines lines'
    unfold endedLines
    rw [List.flatMap_append, List.flatMap_append, List.flatMap_append, List.flatMap_append, List.append_left_inj,
      List.append_right_inj]
  have hone : ∀ email : Email, (unreadLines email.attachments).length ≤ 1 := by
    intro email
    rw [unreadLines_eq]
    split <;> simp
  rw [← unreadLines_eq_iff]
  unfold beforeRule
  rw [List.append_left_inj, ← hfacts, hends, endedLines_inj (hone email) (hone email')]

/-- The parts outside the markers are the same, and in each prompt the marker is only where the template writes it. -/
def Spotlit (desk : Desk) (email email' : Email) (nonce : Text) : Prop :=
  outsideOf nonce (emailTriagePrompt desk email nonce) = outsideOf nonce (emailTriagePrompt desk email' nonce) ∧
    OnlyTemplate desk email nonce ∧ OnlyTemplate desk email' nonce

theorem listedAlike_of (hm : IsMarker (marker nonce)) (hfacts : email.facts = email'.facts) (hfresh : Fresh nonce email)
    (hfresh' : Fresh nonce email') (h : Spotlit desk email email' nonce) : ListedAlike email email' := by
  obtain ⟨hout,honly,-⟩ := h
  have hdesk := desk_clear_of hm hfresh honly
  rw [outsideOf_prompt hm hfresh hdesk, outsideOf_prompt hm hfresh' hdesk] at hout
  have hbefore := (Prod.mk.inj (Option.some.inj hout)).1
  simp only [List.append_left_inj] at hbefore
  exact (beforeRule_eq_iff hfacts).mp hbefore

theorem spotlit_iff (desk : Desk) (email email' : Email) (bytes : List UInt8) (hfacts : email.facts = email'.facts)
    (hfresh : Fresh (nonceOf bytes) email) (hfresh' : Fresh (nonceOf bytes) email') :
    Spotlit desk email email' (nonceOf bytes) ↔
      ListedAlike email email' ∧ ∀ s ∈ desk.texts, ¬marker (nonceOf bytes) <:+: s := by
  have hm := isMarker_nonceOf bytes
  constructor
  · intro h
    exact ⟨listedAlike_of hm hfacts hfresh hfresh' h,desk_clear_of hm hfresh h.2.1⟩
  · rintro ⟨hlisted,hdesk⟩
    unfold Spotlit
    rw [outsideOf_prompt hm hfresh hdesk, outsideOf_prompt hm hfresh' hdesk, (beforeRule_eq_iff hfacts).mpr hlisted]
    exact ⟨rfl,onlyTemplate_of hm hfresh hdesk,onlyTemplate_of hm hfresh' hdesk⟩

def ownDesk : Desk := ⟨text "ops@acme.test",none,[⟨text "finance",text "Finance"⟩]⟩

/-- An email of a first-time sender with the given subject and attachments. -/
def fromStranger (subject : Text) (attachments : List Attachment) : Email :=
  ⟨⟨text "ann@else.test",none,.newSender,⟨.pass,.pass,.pass⟩,[]⟩,subject,text "Hello",attachments⟩

def sixBytes : List UInt8 := [171,205,18,52,86,120]

set_option maxRecDepth 8000 in
theorem spotlit_iff_subjects : Spotlit ownDesk (fromStranger (text "Lunch") []) (fromStranger (text "Dinner") [])
    (nonceOf sixBytes) :=
  (spotlit_iff ownDesk (fromStranger (text "Lunch") []) (fromStranger (text "Dinner") []) sixBytes rfl
    (by unfold Fresh; decide) (by unfold Fresh; decide)).mpr ⟨⟨Iff.rfl,rfl⟩,by decide⟩

set_option maxRecDepth 8000 in
/-- The name of an archive that nobody reads stands with what the server verified. -/
theorem unread_name_outside : ¬∀ (desk : Desk) (email email' : Email) (bytes : List UInt8), email.facts = email'.facts →
    Fresh (nonceOf bytes) email → Fresh (nonceOf bytes) email' → Spotlit desk email email' (nonceOf bytes) := by
  intro h
  have hplain : Fresh (nonceOf sixBytes) (fromStranger (text "Lunch") []) := by
    unfold Fresh
    decide
  have hnamed : Fresh (nonceOf sixBytes) (fromStranger (text "Lunch") [⟨text "Reply.zip",text "application/zip",none⟩]) := by
    unfold Fresh
    decide
  have hfacts : (fromStranger (text "Lunch") []).facts =
      (fromStranger (text "Lunch") [⟨text "Reply.zip",text "application/zip",none⟩]).facts := rfl
  have hboth := h ownDesk _ _ sixBytes hfacts hplain hnamed
  have hlisted := listedAlike_of (isMarker_nonceOf sixBytes) hfacts hplain hnamed hboth
  exact absurd (hlisted.1.mp rfl) (by decide)

end Outside
end HermesEnterprise.Triage
