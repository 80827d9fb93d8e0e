import HermesEnterprise.Calls.Slots

/-! # A call is answered once

The slots of a native id fill up in order, each with a call of its own, and only the last may be
unfinished; so a call that was answered is found again. A call row keeps the place behind it, so its
result goes there whenever it comes.
-/
namespace HermesEnterprise.Calls
open Foundation.Runs Foundation.Tables Foundation.CanonicalJson
variable {digest : String → String} {w w' : World} {e : Event} {rows rows' : List Row} {row a b : Row} {call own own' : Call}
  {id id' : CallId} {content : String} {ok : Bool} {slot : ℕ} {existing : Option RuntimeCallRecord}

section Lookup

theorem Row.callOf_eq_some : row.callOf id = some call ↔ row.body = .call id call := by
  unfold Row.callOf
  cases row.body <;> simp [eq_comm]

theorem Row.resultOf_eq_some : row.resultOf id = some (content,ok) ↔ row.body = .result id content ok := by
  unfold Row.resultOf
  cases row.body <;> simp [eq_comm]

/-- The answer of a call id, if there is one. -/
theorem result_none (h : rows.findSome? (Row.resultOf id) = none) (hb : b ∈ rows) : b.body ≠ .result id content ok := by
  intro hbody
  have hnone := List.findSome?_eq_none_iff.mp h b hb
  rw [Row.resultOf_eq_some.mpr hbody] at hnone
  cases hnone

theorem result_some (h : rows.findSome? (Row.resultOf id) = some (content,ok)) : ∃ b ∈ rows, b.body = .result id content ok := by
  obtain ⟨b,hb,hresult⟩ := List.exists_of_findSome?_eq_some h
  exact ⟨b,hb,Row.resultOf_eq_some.mp hresult⟩

theorem runtimeCall_none (h : runtimeCall rows id = none) (ha : a ∈ rows) : a.body ≠ .call id own := by
  intro hbody
  have hnone := List.findSome?_eq_none_iff.mp h a ha
  rw [Row.callOf_eq_some.mpr hbody] at hnone
  cases hnone

theorem runtimeCall_some {record : RuntimeCallRecord} (h : runtimeCall rows id = some record) :
    ∃ a ∈ rows, a.body = .call id record.call ∧ a.turn = record.turn ∧ a.seq = record.seq ∧
      record.result = rows.findSome? (Row.resultOf id) := by
  obtain ⟨a,ha,hrecord⟩ := List.exists_of_findSome?_eq_some h
  obtain ⟨call,hcall,rfl⟩ := Option.map_eq_some_iff.mp hrecord
  exact ⟨a,ha,Row.callOf_eq_some.mp hcall,rfl,rfl,rfl⟩

theorem runtimeCall_isSome (ha : a ∈ rows) (hbody : a.body = .call id own) : ∃ record, runtimeCall rows id = some record := by
  cases h : runtimeCall rows id with
  | none => exact absurd hbody (runtimeCall_none h ha)
  | some record => exact ⟨record,rfl⟩

theorem lt_nextRuntimeSequence (h : row ∈ rows) (hturn : row.turn = 0) :
    row.seq + (if row.isCall then 1 else 0) < nextRuntimeSequence rows := by
  have hmem : row ∈ rows.filter fun row => row.turn = 0 := List.mem_filter.mpr ⟨h,decide_eq_true hturn⟩
  unfold nextRuntimeSequence
  revert hmem
  generalize (rows.filter fun row => row.turn = 0) = kept
  intro hmem
  induction kept with
  | nil => cases hmem
  | cons first rest ih =>
    rw [List.foldr_cons]
    rcases List.mem_cons.mp hmem with rfl | hrest
    · exact Nat.lt_of_lt_of_le (Nat.lt_succ_self _) (Nat.le_max_left _ _)
    · exact Nat.lt_of_lt_of_le (ih hrest) (Nat.le_max_right _ _)

end Lookup

section Calls

theorem sameCall_symm (h : sameCall own own' = true) : sameCall own' own = true := by
  unfold sameCall at h ⊢
  rw [Bool.and_eq_true] at h ⊢
  exact ⟨decide_eq_true (of_decide_eq_true h.1).symm,decide_eq_true (of_decide_eq_true h.2).symm⟩

theorem sameCall_trans {third : Call} (h : sameCall own own' = true) (h' : sameCall own' third = true) :
    sameCall own third = true := by
  unfold sameCall at h h' ⊢
  rw [Bool.and_eq_true] at h h' ⊢
  exact ⟨decide_eq_true ((of_decide_eq_true h.1).trans (of_decide_eq_true h'.1)),
    decide_eq_true ((of_decide_eq_true h.2).trans (of_decide_eq_true h'.2))⟩

theorem Same.symm (h : Same own own') : Same own' own := ⟨h.1.symm,h.2.1.symm,sameCall_symm h.2.2⟩

theorem Same.trans {third : Call} (h : Same own own') (h' : Same own' third) : Same own third :=
  ⟨h.1.trans h'.1,h.2.1.trans h'.2.1,sameCall_trans h.2.2 h'.2.2⟩

theorem Same.refl (call : Call) : Same call call := by
  refine ⟨rfl,rfl,?_⟩
  unfold sameCall
  rw [decide_eq_true rfl, decide_eq_true rfl, Bool.and_self]

end Calls

/-- What the rows keep. -/
structure RowsKept (digest : String → String) (rows : List Row) : Prop where
  positions : (rows.map fun row => (row.turn,row.seq)).Nodup
  calls : ∀ a ∈ rows, ∀ id own, a.body = .call id own → a.turn = 0 ∧ ':' ∉ own.runtimeRunId.toList ∧
    '#' ∉ own.toolCallId.toList ∧ ∃ slot < maxCallIdSlots, id = durableCallId digest own.runtimeRunId own.toolCallId slot
  callIds : ∀ a ∈ rows, ∀ b ∈ rows, ∀ id own own', a.body = .call id own → b.body = .call id own' → a = b
  same : ∀ a ∈ rows, ∀ b ∈ rows, ∀ id own id' own', a.body = .call id own → b.body = .call id' own' → Same own own' → a = b
  results : ∀ b ∈ rows, ∀ id content ok, b.body = .result id content ok →
    ∃ a ∈ rows, ∃ own, a.body = .call id own ∧ b.turn = a.turn ∧ b.seq = a.seq + 1
  /-- The place behind a call row is for its result. -/
  reserved : ∀ a ∈ rows, ∀ id own, a.body = .call id own → ∀ b ∈ rows, b.turn = a.turn → b.seq = a.seq + 1 →
    ∃ content ok, b.body = .result id content ok
  others : ∀ b ∈ rows, ∀ other, b.body = .other (some other) → ∀ run native slot, other ≠ durableCallId digest run native slot
  /-- The slot before one that is taken holds an answered call. -/
  filled : ∀ a ∈ rows, ∀ id own, a.body = .call id own → ∀ slot, slot + 1 < maxCallIdSlots →
    id = durableCallId digest own.runtimeRunId own.toolCallId (slot + 1) →
    ∃ a' ∈ rows, ∃ own', a'.body = .call (durableCallId digest own.runtimeRunId own.toolCallId slot) own' ∧
      ∃ b ∈ rows, ∃ content ok, b.body = .result (durableCallId digest own.runtimeRunId own.toolCallId slot) content ok

/-- The slot is taken by an answered call. -/
def TakenAnswered (digest : String → String) (rows : List Row) (call : Call) (slot : ℕ) : Prop :=
  ∃ a ∈ rows, ∃ own, a.body = .call (durableCallId digest call.runtimeRunId call.toolCallId slot) own ∧
    ∃ b ∈ rows, ∃ content ok, b.body = .result (durableCallId digest call.runtimeRunId call.toolCallId slot) content ok

section Slots
variable (hdigest : Function.Injective digest)
include hdigest

/-- A row under a derived id is of that native id. -/
theorem native_of_id (h : RowsKept digest rows) (ha : a ∈ rows) (hbody : a.body = .call (durableCallId digest call.runtimeRunId call.toolCallId slot) own)
    (hrun : ':' ∉ call.runtimeRunId.toList) (hcall : '#' ∉ call.toolCallId.toList) :
    own.runtimeRunId = call.runtimeRunId ∧ own.toolCallId = call.toolCallId := by
  obtain ⟨-,hrun',hcall',slot',-,hid⟩ := h.calls a ha _ own hbody
  obtain ⟨hr,hc,-⟩ := durableCallId_inj hdigest hrun hrun' hcall hcall' hid
  exact ⟨hr.symm,hc.symm⟩

/-- Every slot below one that is taken holds an answered call. -/
theorem taken_below (h : RowsKept digest rows) (hrun : ':' ∉ call.runtimeRunId.toList) (hcall : '#' ∉ call.toolCallId.toList)
    (hslot : slot < maxCallIdSlots) (ha : a ∈ rows)
    (hbody : a.body = .call (durableCallId digest call.runtimeRunId call.toolCallId slot) own) :
    ∀ t < slot, TakenAnswered digest rows call t := by
  induction slot generalizing a own with
  | zero => exact fun t ht => absurd ht (Nat.not_lt_zero t)
  | succ slot ih =>
    obtain ⟨hr,hc⟩ := native_of_id hdigest h ha hbody hrun hcall
    obtain ⟨a',ha',own',hbody',hresult⟩ := h.filled a ha _ own hbody slot hslot (by rw [hr, hc])
    rw [hr, hc] at hbody' hresult
    intro t ht
    rcases Nat.lt_succ_iff_lt_or_eq.mp ht with hlt | rfl
    · exact ih (Nat.lt_of_succ_lt hslot) ha' hbody' t hlt
    · exact ⟨a',ha',own',hbody',hresult⟩

end Slots

section Resolve

/-- What the probe finds from a slot on. -/
theorem resolveFrom_spec {start n : ℕ} (h : resolveFrom digest rows call (List.range' start n) = some (id,existing)) :
    ∃ slot, start ≤ slot ∧ slot < start + n ∧ id = durableCallId digest call.runtimeRunId call.toolCallId slot ∧
      runtimeCall rows id = existing ∧ (∀ record, existing = some record → sameCall record.call call = true) ∧
      ∀ t, start ≤ t → t < slot → ∃ record, runtimeCall rows (durableCallId digest call.runtimeRunId call.toolCallId t) = some record ∧
        sameCall record.call call = false ∧ record.result.isSome = true := by
  induction n generalizing start with
  | zero => cases h
  | succ n ih =>
    rw [List.range'_succ, resolveFrom] at h
    split at h
    · rename_i hnone
      cases h
      exact ⟨start,Nat.le_refl _,by omega,rfl,hnone,nofun,fun t hle hlt => by omega⟩
    · rename_i record hsome
      split_ifs at h with hsame hopen
      · cases h
        refine ⟨start,Nat.le_refl _,by omega,rfl,hsome,?_,fun t hle hlt => by omega⟩
        rintro _ ⟨⟩
        exact hsame
      · obtain ⟨slot,hle,hlt,hid,hfound,hexisting,hbelow⟩ := ih h
        refine ⟨slot,by omega,by omega,hid,hfound,hexisting,fun t hle' hlt' => ?_⟩
        rcases Nat.eq_or_lt_of_le hle' with rfl | hgt
        · refine ⟨record,hsome,Bool.eq_false_iff.mpr hsame,?_⟩
          rw [← Option.not_isNone]
          simp only [hopen, Bool.not_false]
        · exact hbelow t hgt hlt'

theorem resolveCallSlot_spec (h : resolveCallSlot digest rows call = some (id,existing)) :
    ∃ slot < maxCallIdSlots, id = durableCallId digest call.runtimeRunId call.toolCallId slot ∧
      runtimeCall rows id = existing ∧ (∀ record, existing = some record → sameCall record.call call = true) ∧
      ∀ t < slot, ∃ record, runtimeCall rows (durableCallId digest call.runtimeRunId call.toolCallId t) = some record ∧
        sameCall record.call call = false ∧ record.result.isSome = true := by
  unfold resolveCallSlot at h
  rw [List.range_eq_range'] at h
  obtain ⟨slot,-,hlt,hid,hfound,hexisting,hbelow⟩ := resolveFrom_spec h
  exact ⟨slot,by omega,hid,hfound,hexisting,fun t ht => hbelow t (Nat.zero_le t) ht⟩

end Resolve

section Appends

theorem appendTurn_new (h : ∀ b ∈ rows, conflicts row b = false) : appendTurn rows row = rows ++ [row] := by
  unfold appendTurn
  rw [if_neg]
  intro hany
  obtain ⟨b,hb,hconflict⟩ := List.any_eq_true.mp hany
  rw [h b hb] at hconflict
  cases hconflict

theorem eq_of_place (h : RowsKept digest rows) (ha : a ∈ rows) (hb : b ∈ rows) (hturn : a.turn = b.turn) (hseq : a.seq = b.seq) :
    a = b := List.inj_on_of_nodup_map h.positions ha hb (Prod.ext hturn hseq)

theorem nodup_places (h : RowsKept digest rows) (hnew : ∀ b ∈ rows, ¬(b.turn = row.turn ∧ b.seq = row.seq)) :
    ((rows ++ [row]).map fun row => (row.turn,row.seq)).Nodup := by
  rw [List.map_append]
  refine h.positions.append (List.nodup_singleton _) fun place hp hp' => ?_
  obtain ⟨b,hb,rfl⟩ := List.mem_map.mp hp
  have heq := List.mem_singleton.mp hp'
  exact hnew b hb ⟨congrArg Prod.fst heq,congrArg Prod.snd heq⟩

theorem TakenAnswered.mono (h : TakenAnswered digest rows call slot) (hsub : ∀ a ∈ rows, a ∈ rows') :
    TakenAnswered digest rows' call slot := by
  obtain ⟨a,ha,own,hbody,b,hb,hresult⟩ := h
  exact ⟨a,hsub a ha,own,hbody,b,hsub b hb,hresult⟩

/-- A call takes the first free slot, behind everything at turn 0. -/
theorem RowsKept.callRow (hdigest : Function.Injective digest) (h : RowsKept digest rows)
    (hrun : ':' ∉ call.runtimeRunId.toList) (hcall : '#' ∉ call.toolCallId.toList)
    (hresolve : resolveCallSlot digest rows call = some (id,none)) :
    appendTurn rows ⟨0,nextRuntimeSequence rows,.call id call⟩ = rows ++ [⟨0,nextRuntimeSequence rows,.call id call⟩] ∧
      RowsKept digest (rows ++ [⟨0,nextRuntimeSequence rows,.call id call⟩]) := by
  obtain ⟨slot,hslot,hid,hfree,-,hbelow⟩ := resolveCallSlot_spec hresolve
  have hfreeId : ∀ b ∈ rows, ∀ own, b.body ≠ .call id own := fun b hb own => runtimeCall_none hfree hb
  have hseq : ∀ b ∈ rows, b.turn = 0 → b.seq < nextRuntimeSequence rows := fun b hb hturn => by
    have hlt := lt_nextRuntimeSequence hb hturn
    omega
  have hreserve : ∀ b ∈ rows, ∀ id own, b.body = .call id own → b.seq + 1 < nextRuntimeSequence rows := by
    intro b hb id own hbody
    have hlt := lt_nextRuntimeSequence hb (h.calls b hb id own hbody).1
    simpa only [Row.isCall, hbody, if_true] using hlt
  have hother : ∀ b ∈ rows, ∀ id' own', b.body = .call id' own' → ¬ Same call own' := by
    intro b hb id' own' hbody hsame
    obtain ⟨-,-,-,slot',hslot',rfl⟩ := h.calls b hb id' own' hbody
    rw [← hsame.1, ← hsame.2.1] at hbody
    rcases Nat.lt_trichotomy slot' slot with hlt | rfl | hgt
    · obtain ⟨record,hrecord,hnot,-⟩ := hbelow slot' hlt
      obtain ⟨c,hc,hbody',-⟩ := runtimeCall_some hrecord
      obtain rfl := h.callIds b hb c hc _ _ _ hbody hbody'
      rw [hbody] at hbody'
      have hown : own' = record.call := by injection hbody'
      rw [← hown, sameCall_symm hsame.2.2] at hnot
      cases hnot
    · exact hfreeId b hb own' (hid ▸ hbody)
    · obtain ⟨c,hc,own'',hbody',-⟩ := taken_below hdigest h hrun hcall hslot' hb hbody slot hgt
      exact hfreeId c hc own'' (hid ▸ hbody')
  refine ⟨appendTurn_new fun b hb => ?_,?_⟩
  · unfold conflicts
    refine Bool.or_eq_false_iff.mpr ⟨?_,rfl⟩
    rw [Bool.and_eq_false_iff]
    by_cases hturn : b.turn = 0
    · exact Or.inr (decide_eq_false fun he => absurd (hseq b hb hturn) (Nat.not_lt.mpr (Nat.le_of_eq he)))
    · exact Or.inl (decide_eq_false fun he => hturn he.symm)
  constructor
  · refine nodup_places h fun b hb hplace => ?_
    have hlt := hseq b hb hplace.1
    have heq := hplace.2
    dsimp only at heq
    omega
  · intro a ha id' own hbody
    rcases List.mem_append.mp ha with ha | ha
    · exact h.calls a ha id' own hbody
    · cases List.mem_singleton.mp ha
      cases hbody
      exact ⟨rfl,hrun,hcall,slot,hslot,hid⟩
  · intro a ha b hb id' own own' hbody hbody'
    rcases List.mem_append.mp ha with ha | ha
    · rcases List.mem_append.mp hb with hb | hb
      · exact h.callIds a ha b hb id' own own' hbody hbody'
      · cases List.mem_singleton.mp hb
        cases hbody'
        exact absurd hbody (hfreeId a ha own)
    · cases List.mem_singleton.mp ha
      cases hbody
      rcases List.mem_append.mp hb with hb | hb
      · exact absurd hbody' (hfreeId b hb own')
      · exact (List.mem_singleton.mp hb).symm
  · intro a ha b hb id₁ own id₂ own' hbody hbody' hsame
    rcases List.mem_append.mp ha with ha | ha
    · rcases List.mem_append.mp hb with hb | hb
      · exact h.same a ha b hb id₁ own id₂ own' hbody hbody' hsame
      · cases List.mem_singleton.mp hb
        cases hbody'
        exact absurd hsame.symm (hother a ha id₁ own hbody)
    · cases List.mem_singleton.mp ha
      cases hbody
      rcases List.mem_append.mp hb with hb | hb
      · exact absurd hsame (hother b hb id₂ own' hbody')
      · exact (List.mem_singleton.mp hb).symm
  · intro b hb id' content ok hbody
    rcases List.mem_append.mp hb with hb | hb
    · obtain ⟨a,ha,own,hplace⟩ := h.results b hb id' content ok hbody
      exact ⟨a,List.mem_append_left _ ha,own,hplace⟩
    · cases List.mem_singleton.mp hb
      cases hbody
  · intro a ha id' own hbody b hb hturn hplace
    rcases List.mem_append.mp ha with ha | ha
    · rcases List.mem_append.mp hb with hb | hb
      · exact h.reserved a ha id' own hbody b hb hturn hplace
      · cases List.mem_singleton.mp hb
        have hlt := hreserve a ha id' own hbody
        dsimp only at hplace
        omega
    · cases List.mem_singleton.mp ha
      rcases List.mem_append.mp hb with hb | hb
      · have hlt := hseq b hb hturn
        dsimp only at hplace
        omega
      · cases List.mem_singleton.mp hb
        dsimp only at hplace
        omega
  · intro b hb other hbody
    rcases List.mem_append.mp hb with hb | hb
    · exact h.others b hb other hbody
    · cases List.mem_singleton.mp hb
      cases hbody
  · have hsub : ∀ a ∈ rows, a ∈ rows ++ [(⟨0,nextRuntimeSequence rows,.call id call⟩ : Row)] := fun a ha => List.mem_append_left _ ha
    intro a ha id' own hbody t ht htaken
    rcases List.mem_append.mp ha with ha | ha
    · exact TakenAnswered.mono (h.filled a ha id' own hbody t ht htaken) hsub
    · cases List.mem_singleton.mp ha
      cases hbody
      obtain rfl : slot = t + 1 := (durableCallId_inj hdigest hrun hrun hcall hcall (hid.symm.trans htaken)).2.2
      obtain ⟨record,hrecord,-,hanswered⟩ := hbelow t (Nat.lt_succ_self t)
      obtain ⟨c,hc,hbody',-,-,hresult⟩ := runtimeCall_some hrecord
      rw [hresult] at hanswered
      obtain ⟨⟨content,ok⟩,hfound⟩ := Option.isSome_iff_exists.mp hanswered
      obtain ⟨b,hb,hb'⟩ := result_some hfound
      exact TakenAnswered.mono ⟨c,hc,record.call,hbody',b,hb,content,ok,hb'⟩ hsub

/-- A row that is no call's leaves the calls as they are. -/
theorem RowsKept.append (h : RowsKept digest rows) (hcall : ∀ id own, row.body ≠ .call id own)
    (hplace : ∀ b ∈ rows, ¬(b.turn = row.turn ∧ b.seq = row.seq))
    (hresult : ∀ id content ok, row.body = .result id content ok →
      ∃ a ∈ rows, ∃ own, a.body = .call id own ∧ row.turn = a.turn ∧ row.seq = a.seq + 1)
    (hreserved : ∀ a ∈ rows, ∀ id own, a.body = .call id own → row.turn = a.turn → row.seq = a.seq + 1 →
      ∃ content ok, row.body = .result id content ok)
    (hother : ∀ other, row.body = .other (some other) → ∀ run native slot, other ≠ durableCallId digest run native slot) :
    RowsKept digest (rows ++ [row]) := by
  have hsub : ∀ a ∈ rows, a ∈ rows ++ [row] := fun _ ha => List.mem_append_left _ ha
  have hold : ∀ a ∈ rows ++ [row], ∀ id own, a.body = .call id own → a ∈ rows := by
    intro a ha id own hbody
    rcases List.mem_append.mp ha with ha | ha
    · exact ha
    · cases List.mem_singleton.mp ha
      exact absurd hbody (hcall id own)
  constructor
  · exact nodup_places h hplace
  · exact fun a ha id own hbody => h.calls a (hold a ha id own hbody) id own hbody
  · exact fun a ha b hb id own own' hbody hbody' =>
      h.callIds a (hold a ha id own hbody) b (hold b hb id own' hbody') id own own' hbody hbody'
  · exact fun a ha b hb id own id' own' hbody hbody' hsame =>
      h.same a (hold a ha id own hbody) b (hold b hb id' own' hbody') id own id' own' hbody hbody' hsame
  · intro b hb id content ok hbody
    rcases List.mem_append.mp hb with hb | hb
    · obtain ⟨a,ha,own,hwhere⟩ := h.results b hb id content ok hbody
      exact ⟨a,hsub a ha,own,hwhere⟩
    · cases List.mem_singleton.mp hb
      obtain ⟨a,ha,own,hwhere⟩ := hresult id content ok hbody
      exact ⟨a,hsub a ha,own,hwhere⟩
  · intro a ha id own hbody b hb hturn hseq
    have ha := hold a ha id own hbody
    rcases List.mem_append.mp hb with hb | hb
    · exact h.reserved a ha id own hbody b hb hturn hseq
    · cases List.mem_singleton.mp hb
      exact hreserved a ha id own hbody hturn hseq
  · intro b hb other hbody
    rcases List.mem_append.mp hb with hb | hb
    · exact h.others b hb other hbody
    · cases List.mem_singleton.mp hb
      exact hother other hbody
  · exact fun a ha id own hbody t ht htaken =>
      TakenAnswered.mono (h.filled a (hold a ha id own hbody) id own hbody t ht htaken) hsub

/-- A call's result goes behind its row. -/
theorem RowsKept.resultRow (h : RowsKept digest rows) (content : String) (ok : Bool) (ha : a ∈ rows) (hbody : a.body = .call id own)
    (hopen : ∀ b ∈ rows, ∀ content ok, b.body ≠ .result id content ok) :
    appendTurn rows ⟨a.turn,a.seq + 1,.result id content ok⟩ = rows ++ [⟨a.turn,a.seq + 1,.result id content ok⟩] ∧
      RowsKept digest (rows ++ [⟨a.turn,a.seq + 1,.result id content ok⟩]) := by
  have hfree : ∀ b ∈ rows, ¬(b.turn = a.turn ∧ b.seq = a.seq + 1) := by
    rintro b hb ⟨hturn,hseq⟩
    obtain ⟨content',ok',hresult⟩ := h.reserved a ha id own hbody b hb hturn hseq
    exact hopen b hb content' ok' hresult
  obtain ⟨-,-,-,slot,-,hid⟩ := h.calls a ha id own hbody
  refine ⟨appendTurn_new fun b hb => ?_,h.append nofun hfree ?_ ?_ nofun⟩
  · unfold conflicts
    refine Bool.or_eq_false_iff.mpr ⟨?_,?_⟩
    · rw [Bool.and_eq_false_iff]
      by_cases hturn : a.turn = b.turn
      · exact Or.inr (decide_eq_false fun hseq => hfree b hb ⟨hturn.symm,hseq.symm⟩)
      · exact Or.inl (decide_eq_false hturn)
    · refine Bool.and_eq_false_iff.mpr (Or.inr (decide_eq_false fun hsame => ?_))
      unfold Row.toolCallId at hsame
      dsimp only at hsame
      split at hsame
      · cases hsame
      · rename_i id' content' ok' hresult
        cases hsame
        exact hopen b hb content' ok' hresult
      · rename_i other hother
        exact h.others b hb id (by rw [hother, hsame]) _ _ slot hid
  · rintro _ _ _ ⟨⟩
    exact ⟨a,ha,own,hbody,rfl,rfl⟩
  · intro a' ha' id' own' hbody' hturn hseq
    obtain rfl := eq_of_place h ha ha' hturn (Nat.succ.inj hseq)
    rw [hbody] at hbody'
    cases hbody'
    exact ⟨content,ok,rfl⟩

/-- A row of another writer, at a later turn. -/
theorem RowsKept.otherRow (h : RowsKept digest rows) {turn seq : ℕ} {other : String} (hturn : turn ≠ 0)
    (hother : ∀ run native slot, other ≠ durableCallId digest run native slot) :
    RowsKept digest (appendTurn rows ⟨turn,seq,.other (some other)⟩) := by
  unfold appendTurn
  split_ifs with hconflict
  · exact h
  refine h.append nofun (fun b hb hplace => hconflict (List.any_eq_true.mpr ⟨b,hb,?_⟩)) nofun ?_ ?_
  · unfold conflicts
    rw [Bool.or_eq_true, Bool.and_eq_true]
    exact Or.inl ⟨decide_eq_true hplace.1.symm,decide_eq_true hplace.2.symm⟩
  · exact fun a ha id own hbody hplace _ => absurd (hplace.trans (h.calls a ha id own hbody).1) hturn
  · rintro _ ⟨⟩
    exact hother

end Appends

end HermesEnterprise.Calls
