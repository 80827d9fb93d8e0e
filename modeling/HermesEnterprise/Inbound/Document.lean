import HermesEnterprise.Inbound.Writer

/-! # What a document of the allowlist is

A tag carries that its name and attributes are on the allowlist, so no other tag can be
written down. A document is a well-nested sequence of escaped text and such tags.
-/
namespace HermesEnterprise.Inbound

/-- The names that a tag may have. -/
def tagNames : List Text := allowedTags ++ renamedTags.map Prod.snd

/-- The tags without content. -/
def emptyTags : List Text := ["br","hr","img"].map text

def plainAttributes : List Text :=
  ["align","dir","alt","width","height","colspan","rowspan","valign","cellpadding","cellspacing","border","span",
    "start","type"].map text

/-- Declarations of the enumerated properties, each with one of its values. -/
def EnumeratedStyle (value : Text) : Prop :=
  ∃ declarations : List Text, value = join (text ";") declarations ∧
    ∀ d ∈ declarations, ∃ e ∈ styleValues, ∃ v ∈ e.2, d = e.1 ++ text ":" ++ v

inductive AttributeAllowed (tag name value : Text) : Prop
  | plain : name ∈ plainAttributes → AttributeAllowed tag name value
  | style : name = text "style" → EnumeratedStyle value → AttributeAllowed tag name value
  | hermesClass : name = text "class" → value ∈ hermesClasses → AttributeAllowed tag name value
  | source : tag = text "img" → name = text "src" → text "data:image/" <+: value →
      AttributeAllowed tag name value

/-- A tag of the allowlist. Values are not escaped yet. -/
structure Tag where
  name : Text
  attrs : List (Text × Text)
  name_allowed : name ∈ tagNames
  attrs_allowed : ∀ a ∈ attrs, AttributeAllowed name a.1 a.2

def writtenAttribute (a : Text × Text) : Text := text " " ++ attributePart a.1 (escapeHtml a.2)

def Tag.opening (t : Tag) : Text := text "<" ++ t.name ++ t.attrs.flatMap writtenAttribute ++ text ">"

def closingTag (name : Text) : Text := text "</" ++ name ++ text ">"

inductive Document : Text → Prop
  | nil : Document []
  | text (s : Text) : Document (escapeHtml s)
  | empty (t : Tag) : t.name ∈ emptyTags → Document t.opening
  | element (t : Tag) {body : Text} : t.name ∉ emptyTags → Document body →
      Document (t.opening ++ body ++ closingTag t.name)
  | append {a b : Text} : Document a → Document b → Document (a ++ b)

/-- A document whose last elements are still open, the innermost name first. -/
inductive Nested : List Text → Text → Prop
  | base {s : Text} : Document s → Nested [] s
  | inside (t : Tag) {names : List Text} {s body : Text} : t.name ∉ emptyTags → Nested names s →
      Document body → Nested (t.name :: names) (s ++ t.opening ++ body)

section Text
variable {s t : Text}

theorem text_append (a b : String) : text (a ++ b) = text a ++ text b := by
  unfold text
  rw [String.toList_append, List.map_append]

theorem escapeHtml_append (s t : Text) : escapeHtml (s ++ t) = escapeHtml s ++ escapeHtml t :=
  List.flatMap_append

/-- A check of each unit of a text, as one that runs over the text. -/
theorem forall_units {p : CodeUnit → Prop} [DecidablePred p] (h : (s.all fun c => decide (p c)) = true) : ∀ c ∈ s, p c :=
  fun c hc => of_decide_eq_true (List.all_eq_true.mp h c hc)

/-- Escaped text has no unit that markup is made of. -/
theorem mem_escapeHtml {c : CodeUnit} (h : c ∈ escapeHtml s) :
    c ≠ unit '<' ∧ c ≠ unit '>' ∧ c ≠ 0x22 ∧ c ≠ 0x27 := by
  obtain ⟨d,-,hc⟩ := List.mem_flatMap.mp h
  have hliteral : ∀ e ∈ [text "&amp;",text "&lt;",text "&gt;",text "&quot;",text "&#39;"], ∀ c ∈ e,
      c ≠ unit '<' ∧ c ≠ unit '>' ∧ c ≠ 0x22 ∧ c ≠ 0x27 := by
    intro e he
    refine forall_units ?_
    revert e
    decide
  unfold escapeUnit at hc
  split at hc
  · exact hliteral _ (by simp) c hc
  · split at hc
    · exact hliteral _ (by simp) c hc
    · rename_i hless
      split at hc
      · exact hliteral _ (by simp) c hc
      · rename_i hgreater
        split at hc
        · exact hliteral _ (by simp) c hc
        · rename_i hquote
          split at hc
          · exact hliteral _ (by simp) c hc
          · rename_i happostrophe
            rw [List.mem_singleton.mp hc]
            exact ⟨hless,hgreater,hquote,happostrophe⟩

theorem escapeHtml_of_plain (h : ∀ c ∈ s, escapeUnit c = [c]) : escapeHtml s = s := by
  unfold escapeHtml
  rw [List.flatMap_congr h]
  exact List.flatMap_singleton' s

theorem join_cons (separator : Text) (first : Text) (rest : List Text) :
    join separator (first :: rest) = first ++ rest.flatMap fun part => separator ++ part := by
  unfold join
  induction rest generalizing first with
  | nil => simp
  | cons part rest ih =>
    rw [List.intercalate_cons_cons, ih part, List.flatMap_cons, List.append_assoc, List.append_assoc]

end Text

section Nesting
variable {names : List Text} {s b : Text}

theorem Nested.append (h : Nested names s) (hb : Document b) : Nested names (s ++ b) := by
  cases h with
  | base hs => exact .base (hs.append hb)
  | inside t ht hs hbody =>
    rw [List.append_assoc]
    exact .inside t ht hs (hbody.append hb)

/-- An element that is closed becomes part of what it stands in. -/
theorem Nested.close {name : Text} (h : Nested (name :: names) s) : Nested names (s ++ closingTag name) := by
  cases h with
  | inside t ht hs hbody =>
    rw [List.append_assoc, List.append_assoc, ← List.append_assoc t.opening]
    exact hs.append (.element t ht hbody)

theorem Nested.opens (h : Nested names s) (t : Tag) (ht : t.name ∉ emptyTags) :
    Nested (t.name :: names) (s ++ t.opening) := by
  have := Nested.inside t ht h .nil
  rwa [List.append_nil] at this

theorem Nested.document (h : Nested [] s) : Document s := by
  cases h with
  | base hs => exact hs

end Nesting

/-- No attribute of a tag is a link. -/
theorem Tag.no_href (t : Tag) : ∀ a ∈ t.attrs, a.1 ≠ text "href" := by
  intro a ha
  have hplain : text "href" ∉ plainAttributes := by decide
  have hothers : text "href" ≠ text "style" ∧ text "href" ≠ text "class" ∧ text "href" ≠ text "src" := by
    decide
  rintro hname
  cases t.attrs_allowed a ha with
  | plain h => exact hplain (hname ▸ h)
  | style h => exact hothers.1 (hname.symm.trans h)
  | hermesClass h => exact hothers.2.1 (hname.symm.trans h)
  | source _ h => exact hothers.2.2 (hname.symm.trans h)

end HermesEnterprise.Inbound
