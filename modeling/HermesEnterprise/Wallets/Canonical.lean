import HermesEnterprise.Wallets.Intent
import HermesEnterprise.Wallets.Quoted

/-! # One text for one intent

The text of an object with given keys determines the texts of its values, so two intents with one canonical text
are one intent. The text is well formed, so an encoder keeps it.
-/
namespace HermesEnterprise.Wallets
open Inbound Providers Foundation
variable {a b rest rest' : Text} {f g : Text × Text} {fs gs : List (Text × Text)} {i j : TransferIntent}

section Readable

/-- What may follow a number. -/
def Delimits (rest : Text) : Prop := ∀ c ∈ rest.head?, isDigit c = false

/-- Two texts of values that cannot be confused, whatever follows them. -/
def OneReading (a b : Text) : Prop :=
  ∀ rest rest', Delimits rest → Delimits rest' → a ++ rest = b ++ rest' → a = b ∧ rest = rest'

theorem oneReading_quote (s t : Text) : OneReading (quote s) (quote t) := by
  intro rest rest' _ _ h
  obtain ⟨hstring,hrest⟩ := quote_append_inj h
  exact ⟨congrArg quote hstring,hrest⟩

theorem isDigit_decimal {n : ℕ} : ∀ c ∈ decimal n, isDigit c = true := by
  have hall : ∀ d < 10, isDigit (hexDigit d) = true := by decide
  intro c hc
  obtain ⟨d,hd,rfl⟩ := List.mem_map.mp hc
  exact hall d (Numerals.digits_lt (by decide) d hd)

theorem takeWhile_digits (ha : ∀ c ∈ a, isDigit c = true) (hrest : Delimits rest) :
    (a ++ rest).takeWhile isDigit = a := by
  rw [List.takeWhile_append_of_pos ha]
  cases rest with
  | nil => simp
  | cons c rest =>
    have hc : isDigit c = false := hrest c rfl
    rw [List.takeWhile_cons, hc]
    simp

theorem oneReading_decimal (m n : ℕ) : OneReading (decimal m) (decimal n) := by
  intro rest rest' hrest hrest' h
  have hsame : decimal m = decimal n := by
    rw [← takeWhile_digits isDigit_decimal hrest, h, takeWhile_digits isDigit_decimal hrest']
  rw [hsame] at h
  exact ⟨hsame,List.append_cancel_left h⟩

/-- What follows the first field of an object. -/
def fieldsTail : List (Text × Text) → Text → Text
  | [], rest => unit '\x7d' :: rest
  | f :: fs, rest => unit ',' :: (printField f ++ fieldsTail fs rest)

theorem join_cons_fields (f : Text × Text) (fs : List (Text × Text)) (rest : Text) :
    join (text ",") ((f :: fs).map printField) ++ unit '\x7d' :: rest = printField f ++ fieldsTail fs rest := by
  induction fs generalizing f with
  | nil => simp [join, List.intercalate, fieldsTail]
  | cons g fs ih =>
    have hjoin : join (text ",") ((f :: g :: fs).map printField) =
        printField f ++ unit ',' :: join (text ",") ((g :: fs).map printField) := by
      have hcomma : text "," = [unit ','] := by decide
      simp [join, List.intercalate, hcomma]
    rw [hjoin, List.append_assoc, List.cons_append, ih, fieldsTail]

theorem delimits_fieldsTail (fs : List (Text × Text)) (rest : Text) : Delimits (fieldsTail fs rest) := by
  intro c hc
  cases fs with
  | nil =>
    cases hc
    decide
  | cons f fs =>
    cases hc
    decide

/-- Fields with one key, and values that cannot be confused. -/
def Alike (f g : Text × Text) : Prop := f.1 = g.1 ∧ OneReading f.2 g.2

theorem printField_append_inj (h : Alike f g) (hrest : Delimits rest) (hrest' : Delimits rest')
    (heq : printField f ++ rest = printField g ++ rest') : f = g ∧ rest = rest' := by
  obtain ⟨hkey,hvalue⟩ := h
  unfold printField at heq
  rw [hkey, List.append_assoc, List.append_assoc, List.cons_append, List.cons_append] at heq
  obtain ⟨hsame,hafter⟩ := hvalue _ _ hrest hrest' (List.cons_injective (List.append_cancel_left heq))
  exact ⟨Prod.ext hkey hsame,hafter⟩

theorem fieldsTail_inj (h : List.Forall₂ Alike fs gs) (heq : fieldsTail fs rest = fieldsTail gs rest') :
    fs = gs ∧ rest = rest' := by
  induction h with
  | nil => exact ⟨rfl,List.cons_injective heq⟩
  | cons hfield _ ih =>
    obtain ⟨hf,htail⟩ := printField_append_inj hfield (delimits_fieldsTail _ _) (delimits_fieldsTail _ _)
      (List.cons_injective heq)
    obtain ⟨hfs,hrest⟩ := ih htail
    exact ⟨by rw [hf, hfs],hrest⟩

def sortFields (fs : List (Text × Text)) : List (Text × Text) :=
  fs.insertionSort fun a b => unitsLe a.1 b.1 = true

theorem forall₂_sortFields (h : List.Forall₂ Alike fs gs) : List.Forall₂ Alike (sortFields fs) (sortFields gs) := by
  have hinsert : ∀ {f g : Text × Text} {fs gs}, Alike f g → List.Forall₂ Alike fs gs →
      List.Forall₂ Alike (fs.orderedInsert (fun a b => unitsLe a.1 b.1 = true) f)
        (gs.orderedInsert (fun a b => unitsLe a.1 b.1 = true) g) := by
    intro f g fs gs hfg hrest
    induction hrest with
    | nil => exact .cons hfg .nil
    | cons hhead htail ih =>
      rw [List.orderedInsert_cons, List.orderedInsert_cons, hfg.1, hhead.1]
      split
      · exact .cons hfg (.cons hhead htail)
      · exact .cons hhead ih
  induction h with
  | nil => exact .nil
  | cons hhead _ ih => exact hinsert hhead ih

/-- Of fields with distinct keys a permutation that keeps the keys where they are keeps all. -/
theorem eq_of_perm (hperm : fs.Perm gs) (hkeys : fs.map Prod.fst = gs.map Prod.fst) (hnodup : (fs.map Prod.fst).Nodup) :
    fs = gs := by
  induction fs generalizing gs with
  | nil => exact hperm.nil_eq
  | cons f fs ih =>
    cases gs with
    | nil => exact hperm.eq_nil
    | cons g gs =>
      obtain ⟨hkey,hrest⟩ := List.cons.inj hkeys
      rw [List.map_cons, List.nodup_cons] at hnodup
      have hfg : f = g := by
        rcases List.mem_cons.mp (hperm.subset List.mem_cons_self) with heq | hmem
        · exact heq
        · have hkeymem : f.1 ∈ gs.map Prod.fst := List.mem_map_of_mem hmem
          rw [← hrest] at hkeymem
          exact absurd hkeymem hnodup.1
      subst hfg
      rw [ih hperm.cons_inv hrest hnodup.2]

theorem keys_eq (h : List.Forall₂ Alike fs gs) : fs.map Prod.fst = gs.map Prod.fst := by
  induction h with
  | nil => rfl
  | cons hhead _ ih => rw [List.map_cons, List.map_cons, hhead.1, ih]

/-- An object of given keys has one reading, and its text tells its fields. -/
theorem printObject_append_inj (h : List.Forall₂ Alike fs gs) (hnodup : (fs.map Prod.fst).Nodup)
    (heq : printObject fs ++ rest = printObject gs ++ rest') : fs = gs ∧ rest = rest' := by
  have hsorted := forall₂_sortFields h
  have hbody : join (text ",") ((sortFields fs).map printField) ++ unit '\x7d' :: rest =
      join (text ",") ((sortFields gs).map printField) ++ unit '\x7d' :: rest' := by
    unfold printObject at heq
    simpa [sortFields] using heq
  have hsame : sortFields fs = sortFields gs ∧ rest = rest' := by
    cases hfs : sortFields fs with
    | nil =>
      rw [hfs] at hsorted hbody
      rw [List.forall₂_nil_left_iff.mp hsorted] at hbody ⊢
      exact ⟨rfl,by simpa [join, List.intercalate] using hbody⟩
    | cons f fs' =>
      rw [hfs] at hsorted hbody
      obtain ⟨g,gs',hfg,htail,hgs⟩ := List.forall₂_cons_left_iff.mp hsorted
      rw [hgs] at hbody ⊢
      rw [join_cons_fields, join_cons_fields] at hbody
      obtain ⟨hf,hafter⟩ := printField_append_inj hfg (delimits_fieldsTail _ _) (delimits_fieldsTail _ _) hbody
      obtain ⟨htails,hrest⟩ := fieldsTail_inj htail hafter
      exact ⟨by rw [hf, htails],hrest⟩
  have hperm : fs.Perm gs :=
    (List.perm_insertionSort _ fs).symm.trans ((List.Perm.of_eq hsame.1).trans (List.perm_insertionSort _ gs))
  exact ⟨eq_of_perm hperm (keys_eq h) hnodup,hsame.2⟩

end Readable

section Intents

theorem canonicalFields_eq_map (fields : List (Text × Tree)) :
    canonicalFields fields = fields.map fun f => (f.1,canonicalize f.2) := by
  induction fields with
  | nil => rfl
  | cons f fields ih => exact congrArg (List.cons (f.1,canonicalize f.2)) ih

theorem alike_string (key s t : Text) : Alike (key,canonicalize (.string s)) (key,canonicalize (.string t)) :=
  ⟨rfl,by unfold canonicalize; exact oneReading_quote s t⟩

theorem alike_integer (key : Text) (m n : ℕ) :
    Alike (key,canonicalize (.integer m)) (key,canonicalize (.integer n)) :=
  ⟨rfl,by unfold canonicalize; exact oneReading_decimal m n⟩

theorem canonical_string_inj {s t : Text} (h : canonicalize (.string s) = canonicalize (.string t)) : s = t := by
  unfold canonicalize at h
  exact (quote_append_inj (congrArg (· ++ []) h)).1

theorem parseInt_hexDigits {base : ℕ} (hbase : base ≤ 16) {ds : List ℕ} (h : ∀ d ∈ ds, d < base) :
    parseInt base (ds.map hexDigit) = Numerals.value base ds := by
  unfold parseInt Numerals.value
  rw [List.foldl_map]
  refine List.foldl_ext _ _ _ fun n d hd => ?_
  rw [digitValue_hexDigit ((h d hd).trans_le hbase)]

theorem parseInt_decimal (n : ℕ) : parseInt 10 (decimal n) = n := by
  unfold decimal
  rw [parseInt_hexDigits (by decide) (Numerals.digits_lt (by decide)), Numerals.value_digits]

theorem canonical_integer_inj {m n : ℕ} (h : canonicalize (.integer m) = canonicalize (.integer n)) : m = n := by
  unfold canonicalize at h
  rw [← parseInt_decimal m, h, parseInt_decimal]

theorem keys_canonicalFields (fields : List (Text × Tree)) :
    (canonicalFields fields).map Prod.fst = fields.map Prod.fst := by
  rw [canonicalFields_eq_map, List.map_map]
  rfl

theorem simulation_keys (s : Simulation) : (canonicalFields s.fields).map Prod.fst = simulationKeys :=
  keys_canonicalFields s.fields

theorem simulationKeys_nodup : simulationKeys.Nodup := by decide

theorem simulation_alike (s t : Simulation) :
    List.Forall₂ Alike (canonicalFields s.fields) (canonicalFields t.fields) := by
  repeat' first
    | exact .nil
    | exact alike_string _ _ _
    | refine .cons ?_ ?_

theorem simulation_append_inj {s t : Simulation}
    (h : canonicalize (.object s.fields) ++ rest = canonicalize (.object t.fields) ++ rest') :
    canonicalFields s.fields = canonicalFields t.fields ∧ rest = rest' := by
  unfold canonicalize at h
  refine printObject_append_inj (simulation_alike s t) ?_ h
  rw [simulation_keys]
  exact simulationKeys_nodup

theorem simulation_oneReading (s t : Simulation) :
    OneReading (canonicalize (.object s.fields)) (canonicalize (.object t.fields)) := by
  intro rest rest' _ _ h
  obtain ⟨hfields,hrest⟩ := simulation_append_inj h
  refine ⟨?_,hrest⟩
  unfold canonicalize
  rw [hfields]

theorem simulation_inj {s t : Simulation} (h : canonicalize (.object s.fields) = canonicalize (.object t.fields)) :
    s = t := by
  obtain ⟨hfields,-⟩ := simulation_append_inj (congrArg (· ++ []) h)
  unfold Simulation.fields at hfields
  simp only [canonicalFields, List.cons.injEq, Prod.mk.injEq, true_and, and_true] at hfields
  obtain ⟨hnumber,hhash,hat⟩ := hfields
  cases s
  cases t
  simp only [Simulation.mk.injEq]
  exact ⟨Subtype.ext (canonical_string_inj hnumber),Subtype.ext (canonical_string_inj hhash),
    Subtype.ext (canonical_string_inj hat)⟩

theorem intent_keys (i : TransferIntent) : (canonicalFields i.allFields).map Prod.fst = intentKeys :=
  keys_canonicalFields i.allFields

theorem intentKeys_nodup : intentKeys.Nodup := by decide

theorem intent_alike (i j : TransferIntent) :
    List.Forall₂ Alike (canonicalFields i.allFields) (canonicalFields j.allFields) := by
  repeat' first
    | exact .nil
    | exact alike_string _ _ _
    | exact alike_integer _ _ _
    | exact ⟨rfl,simulation_oneReading _ _⟩
    | refine .cons ?_ ?_

/-- The canonical text of an intent determines it. -/
theorem canonicalize_inj (h : canonicalize i.tree = canonicalize j.tree) : i = j := by
  have hobject : printObject (canonicalFields i.allFields) = printObject (canonicalFields j.allFields) := by
    unfold TransferIntent.tree canonicalize at h
    exact h
  have hnodup : ((canonicalFields i.allFields).map Prod.fst).Nodup := by
    rw [intent_keys]
    exact intentKeys_nodup
  obtain ⟨hfields,-⟩ := printObject_append_inj (intent_alike i j) hnodup (congrArg (· ++ []) hobject)
  unfold TransferIntent.allFields TransferIntentInput.fields at hfields
  simp only [List.cons_append, List.nil_append, canonicalFields, List.cons.injEq, Prod.mk.injEq, true_and, and_true] at hfields
  obtain ⟨hworkspace,hprincipal,haccount,hsource,hrecipient,hamount,hnonce,hlimit,hfee,hpriority,htotal,hexpires,
    hversion,hdigest,hrevision,hpurpose,hsimulation,hcalldata⟩ := hfields
  obtain ⟨⟨⟩,_⟩ := i
  obtain ⟨⟨⟩,_⟩ := j
  simp only [TransferIntent.mk.injEq, TransferIntentInput.mk.injEq]
  exact ⟨⟨Subtype.ext (canonical_string_inj hworkspace),Subtype.ext (canonical_string_inj hprincipal),
    Subtype.ext (canonical_string_inj haccount),Subtype.ext (canonical_string_inj hsource),
    Subtype.ext (canonical_string_inj hrecipient),Subtype.ext (canonical_string_inj hamount),
    Subtype.ext (canonical_string_inj hnonce),Subtype.ext (canonical_string_inj hlimit),
    Subtype.ext (canonical_string_inj hfee),Subtype.ext (canonical_string_inj hpriority),
    Subtype.ext (canonical_string_inj htotal),Subtype.ext (canonical_string_inj hexpires),
    Subtype.ext (canonical_string_inj hversion),Subtype.ext (canonical_string_inj hdigest),
    Subtype.ext (canonical_integer_inj hrevision),Subtype.ext (canonical_string_inj hpurpose),
    simulation_inj hsimulation⟩,canonical_string_inj hcalldata⟩

end Intents

section WellFormed

theorem wellFormed_digits {ds : List ℕ} : Utf16.wellFormed (ds.map hexDigit) = true :=
  wellFormed_of_plain fun c hc => by
    obtain ⟨d,-,rfl⟩ := List.mem_map.mp hc
    exact hexDigit_plain d

theorem wellFormed_join {parts : List Text} (h : ∀ p ∈ parts, Utf16.wellFormed p = true) :
    Utf16.wellFormed (join (text ",") parts) = true := by
  have hcomma : Utf16.wellFormed (text ",") = true := by decide
  unfold join List.intercalate
  induction parts with
  | nil => rfl
  | cons p parts ih =>
    have hp := h p List.mem_cons_self
    cases parts with
    | nil => simpa using hp
    | cons q parts =>
      have hrest := ih fun p hp => h p (List.mem_cons_of_mem _ hp)
      simp only [List.intersperse_cons_cons, List.flatten_cons]
      exact Utf16.wellFormed_append hp (Utf16.wellFormed_append hcomma hrest)

theorem wellFormed_printObject (h : ∀ f ∈ fs, Utf16.wellFormed f.2 = true) :
    Utf16.wellFormed (printObject fs) = true := by
  have hopening : Utf16.wellFormed [unit '\x7b'] = true := by decide
  have hclosing : Utf16.wellFormed [unit '\x7d'] = true := by decide
  have hcolon : Utf16.wellFormed [unit ':'] = true := by decide
  unfold printObject
  rw [← List.singleton_append, List.append_assoc]
  refine Utf16.wellFormed_append hopening (Utf16.wellFormed_append (wellFormed_join ?_) hclosing)
  intro p hp
  obtain ⟨f,hf,rfl⟩ := List.mem_map.mp hp
  have hmem : f ∈ fs := (List.perm_insertionSort _ fs).subset hf
  unfold printField
  rw [← List.singleton_append]
  exact Utf16.wellFormed_append (wellFormed_quote _) (Utf16.wellFormed_append hcolon (h f hmem))

mutual

theorem wellFormed_canonicalize (tree : Tree) : Utf16.wellFormed (canonicalize tree) = true := by
  cases tree with
  | string s =>
    unfold canonicalize
    exact wellFormed_quote s
  | integer n =>
    unfold canonicalize
    exact wellFormed_digits
  | object fields =>
    unfold canonicalize
    exact wellFormed_printObject (wellFormed_canonicalFields fields)

theorem wellFormed_canonicalFields (fields : List (Text × Tree)) :
    ∀ f ∈ canonicalFields fields, Utf16.wellFormed f.2 = true := by
  cases fields with
  | nil =>
    intro f hf
    cases hf
  | cons field fields =>
    obtain ⟨key,tree⟩ := field
    intro f hf
    unfold canonicalFields at hf
    rcases List.mem_cons.mp hf with rfl | hf
    · exact wellFormed_canonicalize tree
    · exact wellFormed_canonicalFields fields f hf

end

end WellFormed
end HermesEnterprise.Wallets
