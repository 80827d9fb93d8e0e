import HermesEnterprise.Calls.Dispatch

/-! # Derived call ids

A native id and a slot are told apart in the text that is digested: no runtime run id holds a
colon, and no native call id a number sign.
-/
namespace HermesEnterprise.Calls
open Foundation.Runs Foundation.Tables Foundation.CanonicalJson

/-- Two texts around the first separator. -/
theorem split_first {α : Type} {c : α} {a a' b b' : List α} (ha : c ∉ a) (ha' : c ∉ a')
    (h : a ++ c :: b = a' ++ c :: b') : a = a' ∧ b = b' := by
  induction a generalizing a' with
  | nil =>
    cases a' with
    | nil => exact ⟨rfl,(List.cons.inj h).2⟩
    | cons d rest => exact absurd ((List.cons.inj h).1 ▸ List.mem_cons_self ..) ha'
  | cons d rest ih =>
    cases a' with
    | nil => exact absurd ((List.cons.inj h).1 ▸ List.mem_cons_self ..) ha
    | cons d' rest' =>
      obtain ⟨rfl,htail⟩ := List.cons.inj h
      obtain ⟨hrest,hb⟩ := ih (fun hm => ha (List.mem_cons_of_mem _ hm)) (fun hm => ha' (List.mem_cons_of_mem _ hm)) htail
      exact ⟨congrArg (List.cons d) hrest,hb⟩

theorem slotSuffix_ne {slot : ℕ} (h : slot ≠ 0) : (slotSuffix slot).toList = '#' :: (toString slot).toList := by
  unfold slotSuffix
  rw [if_neg h, String.toList_append]
  rfl

theorem slot_text_inj {slot slot' : ℕ} (he : (toString slot).toList = (toString slot').toList) : slot = slot' := by
  rw [Nat.toString_eq_ofList_toDigits, Nat.toString_eq_ofList_toDigits, String.toList_ofList, String.toList_ofList] at he
  rw [← Nat.ofDigitChars_ten_toDigits (n := slot), he, Nat.ofDigitChars_ten_toDigits]

variable {digest : String → String} {runtimeRunId runtimeRunId' callId callId' : String} {slot slot' : ℕ}

theorem native_slot_inj (hcall : '#' ∉ callId.toList) (hcall' : '#' ∉ callId'.toList)
    (h : callId.toList ++ (slotSuffix slot).toList = callId'.toList ++ (slotSuffix slot').toList) :
    callId = callId' ∧ slot = slot' := by
  by_cases hzero : slot = 0 <;> by_cases hzero' : slot' = 0
  · subst hzero hzero'
    exact ⟨String.toList_inj.mp (List.append_cancel_right h),rfl⟩
  · subst hzero
    rw [slotSuffix_ne hzero'] at h
    have hempty : (slotSuffix 0).toList = [] := by decide
    rw [hempty, List.append_nil] at h
    exact absurd (h ▸ List.mem_append_right _ (List.mem_cons_self ..)) hcall
  · subst hzero'
    rw [slotSuffix_ne hzero] at h
    have hempty : (slotSuffix 0).toList = [] := by decide
    rw [hempty, List.append_nil] at h
    exact absurd (h ▸ List.mem_append_right _ (List.mem_cons_self ..)) hcall'
  · rw [slotSuffix_ne hzero, slotSuffix_ne hzero'] at h
    obtain ⟨hid,hdigits⟩ := split_first hcall hcall' h
    exact ⟨String.toList_inj.mp hid,slot_text_inj hdigits⟩

theorem durableCallId_inj (hdigest : Function.Injective digest) (hrun : ':' ∉ runtimeRunId.toList) (hrun' : ':' ∉ runtimeRunId'.toList)
    (hcall : '#' ∉ callId.toList) (hcall' : '#' ∉ callId'.toList)
    (h : durableCallId digest runtimeRunId callId slot = durableCallId digest runtimeRunId' callId' slot') :
    runtimeRunId = runtimeRunId' ∧ callId = callId' ∧ slot = slot' := by
  unfold durableCallId at h
  have hkey := hdigest ((String.append_right_inj _).mp h)
  have hlist := congrArg String.toList hkey
  simp only [String.toList_append, List.append_assoc] at hlist
  obtain ⟨hid,hrest⟩ := split_first (c := ':') hrun hrun' hlist
  exact ⟨String.toList_inj.mp hid,native_slot_inj hcall hcall' hrest⟩

end HermesEnterprise.Calls
