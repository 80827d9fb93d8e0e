import HermesEnterprise.Engine.Questions

/-! # A question parks the run until its answer

One invariant carries it: up to a frontier the tool steps of the run are journaled, beyond it nothing is, and
only the question right before the frontier may be open.
-/
namespace HermesEnterprise.Engine.Questions
open Foundation.Runs Foundation.Tables

section Keys

theorem operationApprovalId_key (id : ApprovalId) : operationApprovalId (operationApprovalKey id) = some id := by
  simp [operationApprovalId,operationApprovalKey,String.toList_append]

theorem eq_operationApprovalKey {key : Key} {id : ApprovalId} (h : operationApprovalId key = some id) :
    key = operationApprovalKey id := by
  unfold operationApprovalId at h
  split at h
  · rename_i hmark
    obtain ⟨rest,hrest⟩ := List.isPrefixOf_iff_prefix.mp hmark
    have hid : String.ofList rest = id := by simpa [← hrest] using h
    apply String.toList_inj.mp
    rw [operationApprovalKey,String.toList_append,← hid,String.toList_ofList,hrest]
  · exact nomatch h

end Keys

section Standing

/-- The tool step of the call asked this. -/
def Asked (w : World) (c : Call) (q : Waiting) : Prop :=
  .call c ∈ w.items ∧ w.journal.tools c.step = some (some q)

/-- How far a run has come, however often it was replayed. -/
structure FrontierAt (items : List Item) (tools : StepName → Option (Option Waiting)) (answers : List StepName)
    (p f : ℕ) : Prop where
  place : p ≤ f
  length : f ≤ items.length
  done : ∀ i c, min p (resumePlace items) ≤ i → i < f → items[i]? = some (.call c) → tools c.step ≠ none
  beyond : ∀ i c, f ≤ i → items[i]? = some (.call c) → tools c.step = none
  settled : ∀ i c q, i + 1 < f → items[i]? = some (.call c) → tools c.step = some (some q) → c.step ∈ answers
  wellFormed : ∀ i n, f ≤ i → items[i]? ≠ some (.malformed n)

abbrev Frontier (w : World) (f : ℕ) : Prop := FrontierAt w.items w.journal.tools w.journal.answers w.place f

/-- Where the code stands agrees with the journal. -/
def AtStage (w : World) : Prop :=
  match w.stage with
  | .fresh => True
  | .asked q => ∃ c, current w = some c ∧ w.journal.tools c.step = some (some q)
  | .parked q => ∃ c, current w = some c ∧ w.journal.tools c.step = some (some q) ∧ operationApprovalId q.key = none
  | .observing q _ => ∃ c, current w = some c ∧ w.journal.tools c.step = some (some q) ∧ c.id ∈ w.journal.parks
  | .sleeping q _ => ∃ c, current w = some c ∧ w.journal.tools c.step = some (some q) ∧ c.id ∈ w.journal.parks
  | .woken q => ∃ c, current w = some c ∧ w.journal.tools c.step = some (some q) ∧ c.step ∈ w.answered ∧
      ((operationApprovalId q.key).isSome → c.id ∈ w.journal.parks)

structure Standing (w : World) : Prop where
  distinct : w.items.Pairwise fun a b => ∀ c d, a = .call c → b = .call d → c.id ≠ d.id
  ran : ∀ s, w.journal.tools s ≠ none → ∃ c, .call c ∈ w.items ∧ c.step = s
  parked : ∀ p ∈ w.parked, ∃ c q, Asked w c q ∧ c.step = p.1 ∧ q.key = p.2
  answers : ∀ s ∈ w.journal.answers, s ∈ w.answered ∧ ∃ c q, Asked w c q ∧ c.step = s
  parks : ∀ c q, Asked w c q → (operationApprovalId q.key).isSome → c.step ∈ w.journal.answers →
    c.id ∈ w.journal.parks
  observed : ∀ id, ∀ status ∈ w.journal.observations id, ∃ c q, Asked w c q ∧ c.id = id ∧
    (status ≠ .pending → c.step ∈ w.answered)
  decided : ∀ c q, Asked w c q → ∀ a ∈ w.approvals, q.key = operationApprovalKey a.id → a.status ≠ .pending →
    c.step ∈ w.answered
  rows : ∀ a ∈ w.approvals, w.agentId.isSome ∧ (agentOperationForTool a.toolName).isSome ∧
    ∃ c, .call c ∈ w.items ∧ c.id = a.callId ∧ c.name = a.toolName ∧ c.arguments = a.arguments
  ids : (w.approvals.map Approval.id).Nodup
  frontier : ∃ f, Frontier w f
  stage : AtStage w
  shown : w.status ≠ .ended → ∀ key, shownKey w = some key ↔
    ∃ q ∈ w.parked, q.1 ∉ w.journal.answers ∧ q.2 = key
  passed : ∀ i c q, i < w.place → w.items[i]? = some (.call c) → w.journal.tools c.step = some (some q) →
    c.step ∈ w.journal.answers
  executed : ∀ x ∈ w.executed, x.Approved ∧
    ∃ c, .call c ∈ w.items ∧ c.id = x.callId ∧ c.name = x.name ∧ c.arguments = x.arguments

variable {w : World} {c d : Call} {q q' : Waiting}

theorem current_eq (h : current w = some c) : w.items[w.place]? = some (.call c) := by
  unfold current at h
  split at h
  · rename_i hitem
    rw [hitem,Option.some_inj.mp h]
  · exact nomatch h

theorem current_mem (h : current w = some c) : .call c ∈ w.items := List.mem_of_getElem? (current_eq h)

theorem Standing.index_eq (h : Standing w) {i j : ℕ} (hi : w.items[i]? = some (.call c))
    (hj : w.items[j]? = some (.call d)) (hid : c.id = d.id) : i = j := by
  obtain ⟨hi',hic⟩ := List.getElem?_eq_some_iff.mp hi
  obtain ⟨hj',hjd⟩ := List.getElem?_eq_some_iff.mp hj
  have hpair := List.pairwise_iff_getElem.mp h.distinct
  rcases lt_trichotomy i j with hlt | heq | hlt
  · exact absurd hid (hpair i j hi' hj' hlt c d hic hjd)
  · exact heq
  · exact absurd hid.symm (hpair j i hj' hi' hlt d c hjd hic)

theorem Standing.eq_of_id (h : Standing w) (hc : .call c ∈ w.items) (hd : .call d ∈ w.items) (hid : c.id = d.id) :
    c = d := by
  obtain ⟨i,hi⟩ := List.mem_iff_getElem?.mp hc
  obtain ⟨j,hj⟩ := List.mem_iff_getElem?.mp hd
  obtain rfl := h.index_eq hi hj hid
  simpa using hi.symm.trans hj

theorem Standing.eq_of_step (h : Standing w) (hc : .call c ∈ w.items) (hd : .call d ∈ w.items)
    (hstep : c.step = d.step) : c = d :=
  h.eq_of_id hc hd (congrArg Prod.snd hstep)

/-- Only the current call's question may be open while that call is not settled. -/
theorem Standing.last (h : Standing w) (hc : current w = some c) (hq : w.journal.tools c.step = some (some q))
    (hc' : c.step ∉ w.journal.answers) (hd : Asked w d q') (hd' : d.step ∉ w.journal.answers) : d = c := by
  obtain ⟨f,hf⟩ := h.frontier
  obtain ⟨i,hi⟩ := List.mem_iff_getElem?.mp hd.1
  have hnot : ¬ i < w.place := fun hlt => hd' (h.passed i d q' hlt hi hd.2)
  have hbefore : i < f := by
    by_contra hle
    exact nomatch (hf.beyond i d (by omega) hi).symm.trans hd.2
  have hplace : w.place < f := by
    by_contra hle
    exact nomatch (hf.beyond w.place c (by omega) (current_eq hc)).symm.trans hq
  have hi' : ¬ i + 1 < f := fun hlt => hd' (hf.settled i d q' hlt hi hd.2)
  have hp' : ¬ w.place + 1 < f := fun hlt => hc' (hf.settled w.place c q hlt (current_eq hc) hq)
  obtain rfl : i = w.place := by omega
  simpa using hi.symm.trans (current_eq hc)

/-- The current call, when the code stands within one. -/
theorem Standing.asking (h : Standing w) (hstage : w.stage = .asked q) :
    ∃ c, current w = some c ∧ w.journal.tools c.step = some (some q) := by
  have := h.stage
  rwa [AtStage,hstage] at this

theorem Standing.parking (h : Standing w) (hstage : w.stage = .parked q) :
    ∃ c, current w = some c ∧ w.journal.tools c.step = some (some q) ∧ operationApprovalId q.key = none := by
  have := h.stage
  rwa [AtStage,hstage] at this

theorem Standing.observing {n : ℕ} (h : Standing w) (hstage : w.stage = .observing q n) :
    ∃ c, current w = some c ∧ w.journal.tools c.step = some (some q) ∧ c.id ∈ w.journal.parks := by
  have := h.stage
  rwa [AtStage,hstage] at this

theorem Standing.sleeping {n : ℕ} (h : Standing w) (hstage : w.stage = .sleeping q n) :
    ∃ c, current w = some c ∧ w.journal.tools c.step = some (some q) ∧ c.id ∈ w.journal.parks := by
  have := h.stage
  rwa [AtStage,hstage] at this

theorem Standing.awake (h : Standing w) (hstage : w.stage = .woken q) :
    ∃ c, current w = some c ∧ w.journal.tools c.step = some (some q) ∧ c.step ∈ w.answered ∧
      ((operationApprovalId q.key).isSome → c.id ∈ w.journal.parks) := by
  have := h.stage
  rwa [AtStage,hstage] at this

theorem Asked.of_current (hc : current w = some c) (hq : w.journal.tools c.step = some (some q)) : Asked w c q :=
  ⟨current_mem hc,hq⟩

end Standing

section Moves
variable {w : World} {c d : Call} {q : Waiting} {f : ℕ}

theorem Frontier.lt_of_ran (h : Frontier w f) (hc : current w = some c) (hran : w.journal.tools c.step ≠ none) :
    w.place < f := by
  by_contra hle
  exact hran (h.beyond w.place c (by omega) (current_eq hc))

/-- On to the next item, past one that is malformed, asked nothing or is settled. -/
theorem Standing.next (h : Standing w) (hplace : ∀ f, Frontier w f → w.place < f)
    (hpast : ∀ c q, current w = some c → w.journal.tools c.step = some (some q) → c.step ∈ w.journal.answers) :
    Standing w.next := by
  refine { h with frontier := ?_, stage := trivial, passed := fun i c q hi hc hq => ?_ }
  · obtain ⟨f,hf⟩ := h.frontier
    refine ⟨f,{ hf with place := hplace f hf, done := fun i c hi => hf.done i c ?_ }⟩
    have hplace' : w.next.place = w.place + 1 := rfl
    have hresume : resumePlace w.next.items = resumePlace w.items := rfl
    omega
  · rcases Nat.lt_succ_iff_lt_or_eq.mp hi with hlt | rfl
    · exact h.passed i c q hlt hc hq
    · refine hpast c q ?_ hq
      have hitem : w.items[w.place]? = some (.call c) := hc
      rw [current,hitem]

theorem Standing.next_of_ran (h : Standing w) (hc : current w = some c) (hran : w.journal.tools c.step ≠ none)
    (hpast : ∀ q, w.journal.tools c.step = some (some q) → c.step ∈ w.journal.answers) : Standing w.next := by
  refine h.next (fun f hf => hf.lt_of_ran hc hran) fun d q hd hq => ?_
  obtain rfl := Option.some_inj.mp (hc.symm.trans hd)
  exact hpast q hq

theorem Standing.goOn (h : Standing w) {outcome : Option Waiting} (hc : current w = some c)
    (hran : w.journal.tools c.step = some outcome) : Standing (w.goOn outcome) := by
  cases outcome with
  | none =>
    refine h.next_of_ran hc (by rw [hran]; exact Option.some_ne_none _) fun q hq => ?_
    exact nomatch hran.symm.trans hq
  | some q => exact { h with stage := ⟨c,hc,hran⟩ }

end Moves

section Turns
variable {w w' : World}

theorem Standing.fresh_of_end (h : Standing w) (hend : current w = none) : w.stage = .fresh := by
  cases hs : w.stage with
  | fresh => rfl
  | asked q => exact nomatch hend.symm.trans (h.asking hs).choose_spec.1
  | parked q => exact nomatch hend.symm.trans (h.parking hs).choose_spec.1
  | observing q n => exact nomatch hend.symm.trans (h.observing hs).choose_spec.1
  | sleeping q n => exact nomatch hend.symm.trans (h.sleeping hs).choose_spec.1
  | woken q => exact nomatch hend.symm.trans (h.awake hs).choose_spec.1

theorem current_none (h : w.place = w.items.length) : current w = none := by
  rw [current,h,List.getElem?_eq_none (le_refl _)]

theorem resumePlace_le_append (items more : List Item) : resumePlace items ≤ resumePlace (items ++ more) := by
  unfold resumePlace
  rw [List.findIdx_append]
  split
  · exact le_refl _
  · exact (List.findIdx_le_length).trans (Nat.le_add_left _ _)

/-- A turn adds items whose tool steps did not run. -/
theorem Standing.append (h : Standing w) {more : List Item} (turns place : ℕ)
    (hdistinct : (w.items ++ more).Pairwise fun a b => ∀ c d, a = .call c → b = .call d → c.id ≠ d.id)
    (hnew : ∀ c, .call c ∈ more → w.journal.tools c.step = none)
    (hfrontier : ∃ f, Frontier { w with turns := turns, items := w.items ++ more, place := place, stage := .fresh } f)
    (hplace : ∀ i c, i < place → (w.items ++ more)[i]? = some (.call c) → i < w.place) :
    Standing { w with turns := turns, items := w.items ++ more, place := place, stage := .fresh } := by
  have hmem : ∀ {c : Call}, .call c ∈ w.items → .call c ∈ w.items ++ more := fun hc => List.mem_append_left _ hc
  have hasked : ∀ {c q}, Asked w c q →
      Asked { w with turns := turns, items := w.items ++ more, place := place, stage := .fresh } c q :=
    fun hc => ⟨hmem hc.1,hc.2⟩
  have hold : ∀ {c q},
      Asked { w with turns := turns, items := w.items ++ more, place := place, stage := .fresh } c q → Asked w c q := by
    intro c q hc
    rcases List.mem_append.mp hc.1 with hmem | hmem
    · exact ⟨hmem,hc.2⟩
    · exact nomatch (hnew c hmem).symm.trans hc.2
  constructor
  case distinct => exact hdistinct
  case ran =>
    intro s hs
    obtain ⟨c,hc,hstep⟩ := h.ran s hs
    exact ⟨c,hmem hc,hstep⟩
  case parked =>
    intro p hp
    obtain ⟨c,q,hc,hstep,hkey⟩ := h.parked p hp
    exact ⟨c,q,hasked hc,hstep,hkey⟩
  case answers =>
    intro s hs
    obtain ⟨hanswered,c,q,hc,hstep⟩ := h.answers s hs
    exact ⟨hanswered,c,q,hasked hc,hstep⟩
  case parks => exact fun c q hc => h.parks c q (hold hc)
  case observed =>
    intro id status hs
    obtain ⟨c,q,hc,hid,hdecided⟩ := h.observed id status hs
    exact ⟨c,q,hasked hc,hid,hdecided⟩
  case decided => exact fun c q hc => h.decided c q (hold hc)
  case rows =>
    intro a ha
    obtain ⟨hagent,hop,c,hc,hrow⟩ := h.rows a ha
    exact ⟨hagent,hop,c,hmem hc,hrow⟩
  case ids => exact h.ids
  case frontier => exact hfrontier
  case stage => trivial
  case shown => exact h.shown
  case passed =>
    intro i c q hi hc hq
    have hlt := hplace i c hi hc
    have hlength : i < w.items.length := by
      obtain ⟨f,hf⟩ := h.frontier
      have := hf.place
      have := hf.length
      omega
    exact h.passed i c q hlt (by rwa [List.getElem?_append_left hlength] at hc) hq
  case executed =>
    intro x hx
    obtain ⟨happroved,c,hc,hcall⟩ := h.executed x hx
    exact ⟨happroved,c,hmem hc,hcall⟩

/-- At the end, everything before the frontier is what was there. -/
theorem Frontier.append {f : ℕ} (h : Frontier w f) (hend : w.place = w.items.length) {more : List Item} {turns : ℕ}
    (hnew : ∀ c, .call c ∈ more → w.journal.tools c.step = none) (hmore : ∀ n, .malformed n ∉ more) :
    Frontier { w with turns := turns, items := w.items ++ more, stage := .fresh } f := by
  have hf : f = w.items.length := le_antisymm h.length (hend ▸ h.place)
  have hbefore : ∀ {i : ℕ}, i < f → (w.items ++ more)[i]? = w.items[i]? := by
    intro i hi
    exact List.getElem?_append_left (by omega)
  have hafter : ∀ {i : ℕ} {item : Item}, f ≤ i → (w.items ++ more)[i]? = some item → item ∈ more := by
    intro i item hi hitem
    rw [List.getElem?_append_right (by omega)] at hitem
    exact List.mem_of_getElem? hitem
  refine ⟨h.place,by simp [hf],fun i c hmin hi hc => ?_,fun i c hi hc => hnew c (hafter hi hc),
    fun i c q hi hc hq => ?_,fun i n hi hn => hmore n (hafter hi hn)⟩
  · refine h.done i c ?_ hi (by rwa [hbefore hi] at hc)
    exact (min_le_min_left _ (resumePlace_le_append w.items more)).trans hmin
  · exact h.settled i c q hi (by rwa [hbefore (by omega)] at hc) hq

theorem Standing.provide (h : Standing w) {calls : List CallInput}
    (hok : admits w (.provide calls) = true) (hw : Questions.provide w calls = some w') : Standing w' := by
  unfold Questions.provide at hw
  split at hw
  swap
  · exact nomatch hw
  rename_i hend
  cases hw
  simp only [admits,Bool.and_eq_true,decide_eq_true_eq,List.all_eq_true] at hok
  obtain ⟨hids,hother⟩ := hok
  have hfresh : ∀ input ∈ calls, ∀ c, .call c ∈ w.items → c.id ≠ input.id :=
    fun input hinput c hc => of_decide_eq_true (hother input hinput _ hc)
  have hmore : ∀ {item : Item}, item ∈ calls.map (fun c => Item.call ⟨w.turns,c.id,c.name,c.arguments⟩) →
      ∃ input ∈ calls, item = .call ⟨w.turns,input.id,input.name,input.arguments⟩ := by
    intro item hitem
    obtain ⟨input,hinput,rfl⟩ := List.mem_map.mp hitem
    exact ⟨input,hinput,rfl⟩
  have hnew : ∀ c, .call c ∈ calls.map (fun c => Item.call ⟨w.turns,c.id,c.name,c.arguments⟩) →
      w.journal.tools c.step = none := by
    intro c hc
    obtain ⟨input,hinput,heq⟩ := hmore hc
    cases heq
    by_contra hran
    obtain ⟨d,hd,hstep⟩ := h.ran _ hran
    exact hfresh input hinput d hd (congrArg Prod.snd hstep)
  have hstage := h.fresh_of_end (current_none hend)
  have heq : ({ w with turns := w.turns + 1
                       items := w.items ++ calls.map fun c => .call ⟨w.turns,c.id,c.name,c.arguments⟩ } : World) =
      { w with turns := w.turns + 1
               items := w.items ++ calls.map fun c => .call ⟨w.turns,c.id,c.name,c.arguments⟩
               place := w.place
               stage := .fresh } := by rw [← hstage]
  obtain ⟨f,hf⟩ := h.frontier
  rw [heq]
  refine h.append _ _ ?_ hnew ⟨f,hf.append hend hnew fun n hn => ?_⟩ fun i c hi _ => hi
  · refine List.pairwise_append.mpr ⟨h.distinct,?_,fun a ha b hb c d hac hbd => ?_⟩
    · refine List.pairwise_map.mpr ((List.pairwise_map.mp hids).imp fun hne c d hc hd => ?_)
      cases hc
      cases hd
      exact hne
    · obtain ⟨input,hinput,rfl⟩ := hmore hb
      cases hbd
      exact hfresh input hinput c (hac ▸ ha)
  · obtain ⟨input,_,heq⟩ := hmore hn
    exact nomatch heq

theorem Standing.malformed (h : Standing w) (hw : Questions.malformed w = some w') : Standing w' := by
  unfold Questions.malformed at hw
  split at hw
  swap
  · exact nomatch hw
  rename_i hend
  cases hw
  obtain ⟨f,hf⟩ := h.frontier
  have hlength : f = w.items.length := le_antisymm hf.length (hend ▸ hf.place)
  have hitem : ∀ {i : ℕ} {item : Item}, w.items.length ≤ i → (w.items ++ [.malformed w.turns])[i]? = some item →
      i = w.items.length ∧ item = .malformed w.turns := by
    intro i item hi hitem
    have hi' : i < (w.items ++ [Item.malformed w.turns]).length := (List.getElem?_eq_some_iff.mp hitem).1
    rw [List.length_append,List.length_singleton] at hi'
    obtain rfl : i = w.items.length := by omega
    simpa [eq_comm] using hitem
  have hbefore : ∀ {i : ℕ}, i < w.items.length → (w.items ++ [.malformed w.turns])[i]? = w.items[i]? :=
    fun hi => List.getElem?_append_left hi
  refine h.append _ (w.place + 1) ?_ (fun c hc => ?_) ⟨f + 1,?_⟩ fun i c hi hc => ?_
  · refine List.pairwise_append.mpr ⟨h.distinct,List.pairwise_singleton _ _,fun a _ b hb c d _ hbd => ?_⟩
    rw [List.mem_singleton.mp hb] at hbd
    exact nomatch hbd
  · exact nomatch List.mem_singleton.mp hc
  · refine ⟨by simp [hend,hlength],by simp [hlength],fun i c hmin hi hc => ?_,fun i c hi hc => ?_,
      fun i c q hi hc hq => ?_,fun i n hi hn => ?_⟩
    · by_cases hi' : i < w.items.length
      · have hresume := resumePlace_le_append w.items [.malformed w.turns]
        refine hf.done i c ?_ (by omega) (by rwa [hbefore hi'] at hc)
        have hmin' : min (w.place + 1) (resumePlace (w.items ++ [.malformed w.turns])) ≤ i := hmin
        omega
      · exact nomatch (hitem (not_lt.mp hi') hc).2
    · exact nomatch (hitem (by omega) hc).2
    · have hi' : i < w.items.length := by omega
      exact h.passed i c q (by omega) (by rwa [hbefore hi'] at hc) hq
    · have := (hitem (by omega) hn).1
      omega
  · by_contra hle
    exact nomatch (hitem (by omega) hc).2

theorem Standing.pass (h : Standing w) (hw : Questions.pass w = some w') : Standing w' := by
  unfold Questions.pass at hw
  split at hw
  · rename_i n hitem
    cases hw
    refine h.next (fun f hf => ?_) fun c q hc => ?_
    · by_contra hle
      exact hf.wellFormed w.place n (by omega) hitem
    · exact nomatch hitem.symm.trans (current_eq hc)
  · exact nomatch hw

end Turns

section Consent
variable {w w' : World} {agentId : AgentId} {callId : CallId} {name : String} {arguments : Arguments}
variable {newId : ApprovalId} {consent : Option Approval} {outcome : Option Waiting}

theorem approvalOf_mem {row : Approval} (h : approvalOf w callId = some row) :
    row ∈ w.approvals ∧ row.callId = callId :=
  ⟨List.mem_of_find?_eq_some h,by simpa using List.find?_some h⟩

theorem operationConsent_cases (h : operationConsent w agentId callId name arguments newId = some (w',consent)) :
    (agentOperationForTool name = none ∧ w' = w ∧ consent = none) ∨
    (∃ row, approvalOf w callId = some row ∧ row.toolName = name ∧ row.arguments = arguments ∧
      w' = w ∧ consent = some row) ∨
    (∃ operationId, agentOperationForTool name = some operationId ∧ approvalOf w callId = none ∧
      w' = { w with approvals := w.approvals ++ [⟨newId,agentId,callId,operationId,name,arguments,.pending⟩] } ∧
      consent = some ⟨newId,agentId,callId,operationId,name,arguments,.pending⟩) ∨
    ∃ operationId, agentOperationForTool name = some operationId ∧ approvalOf w callId = none ∧
      operationId ∉ w.required ∧ w' = w ∧ consent = none := by
  unfold operationConsent at h
  cases hop : agentOperationForTool name with
  | none =>
    simp only [hop] at h
    cases h
    exact Or.inl ⟨rfl,rfl,rfl⟩
  | some operationId =>
    simp only [hop] at h
    cases hrow : approvalOf w callId with
    | some row =>
      simp only [hrow] at h
      split at h
      · rename_i hsame
        cases h
        exact Or.inr (Or.inl ⟨row,rfl,hsame.1,hsame.2.1,rfl,rfl⟩)
      · exact nomatch h
    | none =>
      simp only [hrow] at h
      split at h
      · cases h
        exact Or.inr (Or.inr (Or.inl ⟨operationId,rfl,rfl,rfl,rfl⟩))
      · rename_i hfree
        cases h
        exact Or.inr (Or.inr (Or.inr ⟨operationId,rfl,rfl,hfree,rfl,rfl⟩))

/-- Why a tool may run: its approval, or there is nothing to approve. -/
def Consented (w : World) (callId : CallId) (name : String) (arguments : Arguments) : Prop :=
  (∃ row, approvalOf w callId = some row ∧ row.status = .approved ∧ row.toolName = name ∧ row.arguments = arguments) ∨
    w.agentId = none ∨ agentOperationForTool name = none ∨
    approvalOf w callId = none ∧ ∃ operationId, agentOperationForTool name = some operationId ∧ operationId ∉ w.required

/-- What one tool call does: nothing, wait for an approval there is or for a new one, ask, or run. -/
inductive Executes (w : World) (callId : CallId) (name : String) (arguments : Arguments) (newId : ApprovalId) :
    World → Option Waiting → Prop
  | nothing : Executes w callId name arguments newId w none
  | waits (row : Approval) (label : String) : row ∈ w.approvals → row.status = .pending →
      Executes w callId name arguments newId w (some ⟨operationApprovalKey row.id,label⟩)
  | requests (agentId : AgentId) (operationId label : String) : w.agentId = some agentId →
      agentOperationForTool name = some operationId →
      Executes w callId name arguments newId
        { w with approvals := w.approvals ++ [⟨newId,agentId,callId,operationId,name,arguments,.pending⟩] }
        (some ⟨operationApprovalKey newId,label⟩)
  | asks : name = askForContext → Executes w callId name arguments newId w (askedFor arguments)
  | runs : Consented w callId name arguments →
      Executes w callId name arguments newId
        { w with executed := ⟨callId,name,arguments,
          w.agentId.isSome && (agentOperationForTool name).any fun operationId => operationId ∈ w.required,
          approvalOf w callId⟩ :: w.executed } none

theorem runTool_executes (h : Consented w callId name arguments) :
    Executes w callId name arguments newId (runTool w callId name arguments).1 (runTool w callId name arguments).2 := by
  unfold runTool
  split
  · rename_i hask
    exact .asks hask
  · exact .runs h

theorem executeTool_executes (h : executeTool w callId name arguments newId = some (w',outcome)) :
    Executes w callId name arguments newId w' outcome := by
  -- without a consent row that is pending or denied, the tool is prepared only or runs
  have hrun : ∀ prepared : Bool, Consented w callId name arguments →
      (if prepared then (w,none) else runTool w callId name arguments) = (w',outcome) →
      Executes w callId name arguments newId w' outcome := by
    intro prepared hconsented heq
    cases prepared with
    | true =>
      cases heq
      exact .nothing
    | false =>
      obtain ⟨rfl,rfl⟩ := Prod.mk.inj heq
      exact runTool_executes hconsented
  unfold executeTool at h
  cases hagent : w.agentId with
  | none =>
    simp only [hagent,Option.bind_eq_bind,Option.bind_some] at h
    exact hrun _ (Or.inr (Or.inl hagent)) (Option.some_inj.mp h)
  | some agentId =>
    simp only [hagent] at h
    by_cases hprepared : (w.plan && decide (name ∈ preparedTools)) = true
    · simp only [hprepared,if_true,Option.bind_eq_bind,Option.bind_some] at h
      cases h
      exact .nothing
    · simp only [hprepared,Bool.false_eq_true,if_false] at h
      obtain ⟨⟨w₁,consent⟩,hconsent,h⟩ := Option.bind_eq_some_iff.mp h
      rcases operationConsent_cases hconsent with ⟨hop,rfl,rfl⟩ | ⟨row,hrow,hname,hargs,rfl,rfl⟩ |
        ⟨operationId,hop,_,rfl,rfl⟩ | ⟨operationId,hop,hrow,hfree,rfl,rfl⟩
      · exact hrun false (Or.inr (Or.inr (Or.inl hop))) (Option.some_inj.mp h)
      · rcases row with ⟨id,rowAgent,rowCall,rowOp,rowName,rowArgs,status⟩
        cases status with
        | pending =>
          cases h
          exact .waits _ _ (approvalOf_mem hrow).1 rfl
        | denied =>
          cases h
          exact .nothing
        | approved => exact hrun false (Or.inl ⟨_,hrow,rfl,hname,hargs⟩) (Option.some_inj.mp h)
      · cases h
        exact .requests agentId operationId _ hagent hop
      · exact hrun false (Or.inr (Or.inr (Or.inr ⟨hrow,operationId,hop,hfree⟩))) (Option.some_inj.mp h)

theorem Standing.row_of_call (h : Standing w) {c : Call} {row : Approval} (hc : .call c ∈ w.items)
    (hrow : approvalOf w c.id = some row) : row.toolName = c.name ∧ row.arguments = c.arguments := by
  obtain ⟨hmem,hid⟩ := approvalOf_mem hrow
  obtain ⟨_,_,d,hd,hdid,hname,hargs⟩ := h.rows row hmem
  obtain rfl := h.eq_of_id hd hc (hdid.trans hid)
  exact ⟨hname.symm,hargs.symm⟩

/-- A tool that runs has the consent that it needs. -/
theorem Standing.approved (h : Standing w) {c : Call} (hc : .call c ∈ w.items)
    (hconsented : Consented w c.id c.name c.arguments) :
    Execution.Approved ⟨c.id,c.name,c.arguments,
      w.agentId.isSome && (agentOperationForTool c.name).any fun operationId => operationId ∈ w.required,
      approvalOf w c.id⟩ := by
  intro hneeds
  rcases hconsented with ⟨row,hrow,happroved,hname,hargs⟩ | hagent | hop | ⟨hrow,operationId,hop,hfree⟩
  · exact ⟨row,hrow,happroved,hname,hargs⟩
  · simp only [hagent,Option.isSome_none,Bool.false_and,Bool.false_eq_true,false_or] at hneeds
    obtain ⟨row,hrow⟩ := Option.isSome_iff_exists.mp hneeds
    have hsome := (h.rows row (approvalOf_mem hrow).1).1
    rw [hagent] at hsome
    exact nomatch hsome
  · simp only [hop,Option.any_none,Bool.and_false,Bool.false_eq_true,false_or] at hneeds
    obtain ⟨row,hrow⟩ := Option.isSome_iff_exists.mp hneeds
    have hsome := (h.rows row (approvalOf_mem hrow).1).2.1
    rw [(h.row_of_call hc hrow).1,hop] at hsome
    exact nomatch hsome
  · simp [hop,hfree,hrow] at hneeds

theorem loadOperationApproval_none (h : loadOperationApproval w newId = none) :
    ∀ a ∈ w.approvals, a.id ≠ newId := by
  intro a ha hid
  simpa [hid] using List.find?_eq_none.mp h a ha

/-- A tool call keeps the invariant, and what it asks names no approval that is decided. -/
theorem Standing.executes (h : Standing w) {c : Call} (hc : .call c ∈ w.items)
    (hnew : loadOperationApproval w newId = none)
    (hasks : c.name = askForContext → ∀ q, askedFor c.arguments = some q →
      ∀ a ∈ w.approvals, q.key = operationApprovalKey a.id → a.status = .pending)
    (he : Executes w c.id c.name c.arguments newId w' outcome) :
    Standing w' ∧ w'.items = w.items ∧ w'.journal = w.journal ∧ w'.place = w.place ∧ w'.stage = w.stage ∧
      ∀ q, outcome = some q → ∀ a ∈ w'.approvals, q.key = operationApprovalKey a.id → a.status = .pending := by
  have hkey : ∀ {i j : ApprovalId}, operationApprovalKey i = operationApprovalKey j → i = j := by
    intro i j hij
    have := operationApprovalId_key i
    rw [hij,operationApprovalId_key] at this
    exact (Option.some_inj.mp this).symm
  cases he with
  | nothing => exact ⟨h,rfl,rfl,rfl,rfl,fun q hq => nomatch hq⟩
  | waits row label hrow hpending =>
    refine ⟨h,rfl,rfl,rfl,rfl,fun q hq a ha hid => ?_⟩
    cases hq
    rw [← List.inj_on_of_nodup_map h.ids hrow ha (hkey hid)]
    exact hpending
  | requests agentId operationId label hagent hop =>
    have hfresh := loadOperationApproval_none hnew
    refine ⟨{ h with decided := fun d q hd a ha => ?_, rows := fun a ha => ?_, ids := ?_ },rfl,rfl,rfl,rfl,
      fun q hq a ha hid => ?_⟩
    · rcases List.mem_append.mp ha with ha | ha
      · exact h.decided d q hd a ha
      · rw [List.mem_singleton.mp ha]
        exact fun _ hdecided => absurd rfl hdecided
    · rcases List.mem_append.mp ha with ha | ha
      · exact h.rows a ha
      · rw [List.mem_singleton.mp ha]
        exact ⟨by rw [hagent]; rfl,by rw [hop]; rfl,c,hc,rfl,rfl,rfl⟩
    · rw [List.map_append,List.nodup_append]
      refine ⟨h.ids,List.nodup_singleton _,fun i hi j hj => ?_⟩
      obtain ⟨a,ha,rfl⟩ := List.mem_map.mp hi
      rw [List.mem_singleton.mp hj]
      exact hfresh a ha
    · cases hq
      rcases List.mem_append.mp ha with ha | ha
      · exact absurd (hkey hid).symm (hfresh a ha)
      · rw [List.mem_singleton.mp ha]
  | asks hname => exact ⟨h,rfl,rfl,rfl,rfl,fun q hq => hasks hname q hq⟩
  | runs hconsented =>
    refine ⟨{ h with executed := fun x hx => ?_ },rfl,rfl,rfl,rfl,fun q hq => nomatch hq⟩
    rcases List.mem_cons.mp hx with rfl | hx
    · exact ⟨h.approved hc hconsented,c,hc,rfl,rfl,rfl⟩
    · exact h.executed x hx

end Consent

section Tools
variable {w w' : World} {c : Call} {newId : ApprovalId}

/-- The first time a tool step completes, its call stands at the frontier. -/
theorem Standing.ranNow (h : Standing w) (hc : current w = some c) (hnew : w.journal.tools c.step = none)
    (hfresh : w.stage = .fresh) (outcome : Option Waiting)
    (hpending : ∀ q, outcome = some q → ∀ a ∈ w.approvals, q.key = operationApprovalKey a.id → a.status = .pending) :
    Standing { w with
      journal := { w.journal with tools := Function.update w.journal.tools c.step (some outcome) } } := by
  have hmem := current_mem hc
  have hother : ∀ {s : StepName}, w.journal.tools s ≠ none →
      Function.update w.journal.tools c.step (some outcome) s = w.journal.tools s := by
    intro s hs
    refine Function.update_of_ne ?_ _ _
    rintro rfl
    exact hs hnew
  have hasked : ∀ {d q}, Asked w d q → Asked { w with
      journal := { w.journal with tools := Function.update w.journal.tools c.step (some outcome) } } d q :=
    fun hd => ⟨hd.1,(hother (by rw [hd.2]; exact Option.some_ne_none _)).trans hd.2⟩
  have hold : ∀ {d q}, Asked { w with
      journal := { w.journal with tools := Function.update w.journal.tools c.step (some outcome) } } d q →
      d = c ∧ outcome = some q ∨ Asked w d q := by
    intro d q hd
    by_cases hstep : d.step = c.step
    · have hq := hd.2
      simp only [hstep,Function.update_self] at hq
      exact Or.inl ⟨h.eq_of_step hd.1 hmem hstep,Option.some_inj.mp hq⟩
    · have hq := hd.2
      simp only [Function.update_of_ne hstep] at hq
      exact Or.inr ⟨hd.1,hq⟩
  have hunsettled : c.step ∉ w.journal.answers := by
    intro hin
    obtain ⟨_,d,q,hd,hstep⟩ := h.answers _ hin
    exact nomatch (hstep ▸ hd.2).symm.trans hnew
  refine { h with
    ran := fun s hs => ?_
    parked := fun p hp => ?_
    answers := fun s hs => ?_
    parks := fun d q hd hop hin => ?_
    observed := fun id status hs => ?_
    decided := fun d q hd a ha hkey hdecided => ?_
    frontier := ?_
    stage := ?_
    passed := fun i d q hi hd hq => ?_ }
  · by_cases heq : s = c.step
    · exact ⟨c,hmem,heq.symm⟩
    · refine h.ran s fun hnone => hs ?_
      exact (Function.update_of_ne heq _ _).trans hnone
  · obtain ⟨d,q,hd,hstep,hkey⟩ := h.parked p hp
    exact ⟨d,q,hasked hd,hstep,hkey⟩
  · obtain ⟨hanswered,d,q,hd,hstep⟩ := h.answers s hs
    exact ⟨hanswered,d,q,hasked hd,hstep⟩
  · rcases hold hd with ⟨rfl,_⟩ | hd
    · exact absurd hin hunsettled
    · exact h.parks d q hd hop hin
  · obtain ⟨d,q,hd,hid,hdecided⟩ := h.observed id status hs
    exact ⟨d,q,hasked hd,hid,hdecided⟩
  · rcases hold hd with ⟨rfl,hq⟩ | hd
    · exact absurd (hpending q hq a ha hkey) hdecided
    · exact h.decided d q hd a ha hkey hdecided
  · obtain ⟨f,hf⟩ := h.frontier
    have hplace : w.place = f := by
      by_contra hne
      have := hf.place
      exact hf.done w.place c (min_le_left _ _) (by omega) (current_eq hc) hnew
    have hlt : w.place < w.items.length := (List.getElem?_eq_some_iff.mp (current_eq hc)).1
    refine ⟨f + 1,by simp [hplace],by simp only; omega,fun i d hmin hi hd => ?_,fun i d hi hd => ?_,
      fun i d q hi hd hq => ?_,fun i n hi => hf.wellFormed i n (by omega)⟩
    · by_cases hstep : d.step = c.step
      · simp [hstep]
      · have hi' : i ≠ f := by
          rintro rfl
          have hsame : Item.call c = .call d :=
            Option.some_inj.mp ((current_eq hc).symm.trans (by rw [hplace]; exact hd))
          cases hsame
          exact hstep rfl
        simp only [Function.update_of_ne hstep]
        exact hf.done i d hmin (by omega) hd
    · have hstep : d.step ≠ c.step := by
        intro hstep
        have := h.index_eq hd (current_eq hc) (congrArg Prod.snd hstep)
        omega
      simp only [Function.update_of_ne hstep]
      exact hf.beyond i d (by omega) hd
    · have hstep : d.step ≠ c.step := by
        intro hstep
        have := h.index_eq hd (current_eq hc) (congrArg Prod.snd hstep)
        omega
      simp only [Function.update_of_ne hstep] at hq
      exact h.passed i d q (by omega) hd hq
  · have hstage : AtStage w := h.stage
    simp only [AtStage,hfresh]
  · have hstep : d.step ≠ c.step := by
      intro hstep
      have := h.index_eq hd (current_eq hc) (congrArg Prod.snd hstep)
      exact absurd hi (by simp only; omega)
    simp only [Function.update_of_ne hstep] at hq
    exact h.passed i d q hi hd hq

theorem Standing.tool (h : Standing w) (hok : admits w (.tool newId) = true) (hw : toolStep w newId = some w') :
    Standing w' := by
  unfold toolStep at hw
  obtain ⟨c,hc,hw⟩ := Option.bind_eq_some_iff.mp hw
  split at hw
  · exact nomatch hw
  rename_i hguard
  obtain ⟨hfresh,hnew⟩ : w.stage = .fresh ∧ loadOperationApproval w newId = none := by
    simpa [not_or] using hguard
  cases htool : w.journal.tools c.step with
  | some outcome =>
    simp only [htool] at hw
    cases hw
    exact h.goOn hc htool
  | none =>
    simp only [htool] at hw
    have hasks : c.name = askForContext → ∀ q, askedFor c.arguments = some q →
        ∀ a ∈ w.approvals, q.key = operationApprovalKey a.id → a.status = .pending := by
      intro hname q hq a ha hkey
      by_contra hdecided
      simp only [admits,hc,Option.all_some,htool,Option.isSome_none,Bool.false_or,Bool.not_eq_true'] at hok
      have hask : asksDecided w c = true := by
        simp only [asksDecided,hname,hq,Option.bind_some,hkey,operationApprovalId_key,Option.any_some,decide_true,
          Bool.true_and,List.any_eq_true]
        exact ⟨a,ha,decide_eq_true ⟨rfl,hdecided⟩⟩
      exact nomatch hask.symm.trans hok
    split at hw
    · obtain ⟨⟨w₁,outcome⟩,hexec,hw⟩ := Option.bind_eq_some_iff.mp hw
      cases hw
      obtain ⟨h₁,hitems,hjournal,hplace,hstage,hpending⟩ :=
        h.executes (current_mem hc) hnew hasks (executeTool_executes hexec)
      have hc₁ : current w₁ = some c := by
        rw [current,hitems,hplace]
        exact hc
      have hran := h₁.ranNow hc₁ (by rw [hjournal]; exact htool) (hstage.trans hfresh) outcome hpending
      exact hran.goOn (c := c) hc₁ (Function.update_self _ _ _)
    · cases hw
      have hran := h.ranNow hc htool hfresh none fun q hq => nomatch hq
      exact hran.goOn (c := c) hc (Function.update_self _ _ _)

end Tools

section Waits
variable {w w' : World} {c : Call} {q : Waiting} {newId : ApprovalId}

/-- Nothing reads the empty row of a field that was asked for. -/
theorem Standing.ensured (h : Standing w) (key : Key) : Standing (ensureContextField w key) := by
  unfold ensureContextField
  split
  · exact h
  · exact { h with }

/-- The row shows the question of the current call as long as that is not settled. -/
theorem Standing.show (h : Standing w) (hc : current w = some c) (hq : w.journal.tools c.step = some (some q))
    (hopen : c.step ∉ w.journal.answers) : Standing (w.show c q) := by
  refine { h with parked := fun p hp => ?_, shown := fun _ key => ?_ }
  · rcases List.mem_append.mp hp with hp | hp
    · exact h.parked p hp
    · rw [List.mem_singleton.mp hp]
      exact ⟨c,q,⟨current_mem hc,hq⟩,rfl,rfl⟩
  · have hshown : shownKey (w.show c q) = some q.key := rfl
    rw [hshown,Option.some_inj]
    constructor
    · rintro rfl
      exact ⟨_,List.mem_append_right _ (List.mem_singleton.mpr rfl),hopen,rfl⟩
    · rintro ⟨p,hp,hopen',rfl⟩
      rcases List.mem_append.mp hp with hp | hp
      · obtain ⟨d,q',hd,hstep,hkey⟩ := h.parked p hp
        obtain rfl := h.last hc hq hopen hd (hstep ▸ hopen')
        rw [← hkey,← Option.some_inj.mp (Option.some_inj.mp (hq.symm.trans hd.2))]
      · rw [List.mem_singleton.mp hp]

theorem Standing.park (h : Standing w) (hok : admits w .park = true) (hw : Questions.park w = some w') :
    Standing w' := by
  unfold Questions.park at hw
  obtain ⟨c,hc,hw⟩ := Option.bind_eq_some_iff.mp hw
  split at hw
  swap
  · exact nomatch hw
  rename_i q hstage
  obtain ⟨d,hd,hq⟩ := h.asking hstage
  obtain rfl := Option.some_inj.mp (hc.symm.trans hd)
  split at hw
  · rename_i hcontext
    cases hw
    have hopen : c.step ∉ w.journal.answers := by
      simpa [admits,hc,hstage,hcontext] using hok
    have hshow : Standing ((ensureContextField w q.key).show c q) := by
      have hjournal : (ensureContextField w q.key).journal = w.journal := by
        unfold ensureContextField
        split <;> rfl
      have hcurrent : current (ensureContextField w q.key) = current w := by
        unfold ensureContextField
        split <;> rfl
      exact (h.ensured q.key).show (hcurrent.trans hc) (by rw [hjournal]; exact hq) (by rw [hjournal]; exact hopen)
    have hjournal : ((ensureContextField w q.key).show c q).journal = w.journal := by
      unfold ensureContextField
      split <;> rfl
    have hcurrent : current ((ensureContextField w q.key).show c q) = current w := by
      unfold ensureContextField
      split <;> rfl
    exact { hshow with stage := ⟨c,hcurrent.trans hc,by rw [hjournal]; exact hq,hcontext⟩ }
  · rename_i id hop
    split at hw
    · rename_i hparked
      cases hw
      exact { h with stage := ⟨c,hc,hq,hparked⟩ }
    · rename_i hparked
      cases hw
      have hopen : c.step ∉ w.journal.answers := fun hin =>
        hparked (h.parks c q ⟨current_mem hc,hq⟩ (by rw [hop]; rfl) hin)
      have hshow := h.show hc hq hopen
      refine { hshow with
        parks := fun d q' hd hop' hin => List.mem_cons_of_mem _ (hshow.parks d q' hd hop' hin)
        stage := ⟨c,hc,hq,List.mem_cons_self⟩
        frontier := ?_ }
      obtain ⟨f,hf⟩ := h.frontier
      exact ⟨f,{ hf with }⟩

theorem Standing.wait {slot : ℕ → ℕ} (h : Standing w) (hok : admits w .wait = true)
    (hw : waitForContext w slot = some w') : Standing w' := by
  unfold waitForContext at hw
  split at hw
  swap
  · exact nomatch hw
  rename_i q hstage
  obtain ⟨c,hc,hq,hcontext⟩ := h.parking hstage
  have hanswered : c.step ∈ w.answered := by
    simpa [admits,hc] using hok
  have hop : (operationApprovalId q.key).isSome → c.id ∈ w.journal.parks := by
    rw [hcontext]
    exact nofun
  split at hw
  · cases hw
    exact { h with stage := ⟨c,hc,hq,hanswered,hop⟩ }
  split at hw
  · exact nomatch hw
  · cases hw
    obtain ⟨f,hf⟩ := h.frontier
    exact { h with stage := ⟨c,hc,hq,hanswered,hop⟩, frontier := ⟨f,{ hf with }⟩ }

/-- An observation is what the approval says, or what was journaled; it ends the wait only after the decision. -/
theorem Standing.observe (h : Standing w) (hw : Questions.observe w = some w') : Standing w' := by
  unfold Questions.observe at hw
  obtain ⟨c,hc,hw⟩ := Option.bind_eq_some_iff.mp hw
  split at hw
  swap
  · exact nomatch hw
  rename_i q n hstage
  obtain ⟨d,hd,hq,hparked⟩ := h.observing hstage
  obtain rfl := Option.some_inj.mp (hc.symm.trans hd)
  obtain ⟨id,hid,hw⟩ := Option.bind_eq_some_iff.mp hw
  have hasked : Asked w c q := ⟨current_mem hc,hq⟩
  have hrow : ∀ status, ((loadOperationApproval w id).map Approval.status).getD .pending = status →
      status ≠ .pending → c.step ∈ w.answered := by
    intro status hstatus hdecided
    cases hload : loadOperationApproval w id with
    | none => simp [hload] at hstatus; exact absurd hstatus.symm hdecided
    | some a =>
      simp only [hload,Option.map_some,Option.getD_some] at hstatus
      have ha : a.id = id := by simpa using List.find?_some hload
      refine h.decided c q hasked a (List.mem_of_find?_eq_some hload) ?_ (hstatus ▸ hdecided)
      rw [ha]
      exact eq_operationApprovalKey hid
  cases hseen : (w.journal.observations c.id)[n]? with
  | some status =>
    simp only [hseen,Option.getD_some,Option.isSome_some,if_true] at hw
    cases hw
    refine { h with stage := ?_ }
    by_cases hpending : status = .pending
    · simp only [AtStage,hpending,if_true]
      exact ⟨c,hc,hq,hparked⟩
    · simp only [AtStage,hpending,if_false]
      obtain ⟨d,q',hd,hdid,hdecided⟩ := h.observed c.id status (List.mem_of_getElem? hseen)
      obtain rfl := h.eq_of_id hd.1 hasked.1 hdid
      exact ⟨d,hc,hq,hdecided hpending,fun _ => hparked⟩
  | none =>
    simp only [hseen,Option.getD_none,Option.isSome_none,Bool.false_eq_true,if_false] at hw
    cases hw
    obtain ⟨f,hf⟩ := h.frontier
    refine { h with observed := fun id' status hs => ?_, frontier := ⟨f,{ hf with }⟩, stage := ?_ }
    · by_cases hid' : id' = c.id
      · subst hid'
        simp only [Function.update_self] at hs
        rcases List.mem_append.mp hs with hs | hs
        · exact h.observed _ status hs
        · rw [List.mem_singleton.mp hs]
          exact ⟨c,q,hasked,rfl,hrow _ rfl⟩
      · simp only [Function.update_of_ne hid'] at hs
        exact h.observed _ status hs
    · by_cases hpending : ((loadOperationApproval w id).map Approval.status).getD .pending = .pending
      · simp only [AtStage,hpending,if_true]
        exact ⟨c,hc,hq,hparked⟩
      · simp only [AtStage,hpending,if_false]
        exact ⟨c,hc,hq,hrow _ rfl hpending,fun _ => hparked⟩

theorem Standing.wake (h : Standing w) (hw : Questions.wake w = some w') : Standing w' := by
  unfold Questions.wake at hw
  obtain ⟨c,hc,hw⟩ := Option.bind_eq_some_iff.mp hw
  split at hw
  swap
  · exact nomatch hw
  rename_i q n hstage
  obtain ⟨d,hd,hq,hparked⟩ := h.sleeping hstage
  obtain rfl := Option.some_inj.mp (hc.symm.trans hd)
  split at hw
  · cases hw
    exact { h with stage := ⟨c,hc,hq,hparked⟩ }
  split at hw
  · exact nomatch hw
  · cases hw
    obtain ⟨f,hf⟩ := h.frontier
    exact { h with stage := ⟨c,hc,hq,hparked⟩, frontier := ⟨f,{ hf with }⟩ }

/-- The answer step settles the question of the current call, and no other is open then. -/
theorem Standing.settle (h : Standing w) (hc : current w = some c) (hq : w.journal.tools c.step = some (some q))
    (hopen : c.step ∉ w.journal.answers) (hanswered : c.step ∈ w.answered)
    (hop : (operationApprovalId q.key).isSome → c.id ∈ w.journal.parks) (key : Key) (value : Option String) :
    Standing (w.settle c key value) := by
  have hsettled : Standing { w with
      status := .working
      waitingFor := none
      replies := w.replies ++ [(c.id,key,value)]
      journal := { w.journal with answers := c.step :: w.journal.answers } } := by
    refine { h with
      answers := fun s hs => ?_
      parks := fun d q' hd hop' hin => ?_
      frontier := ?_
      shown := fun _ key => ?_
      passed := fun i d q' hi hd hq' => List.mem_cons_of_mem _ (h.passed i d q' hi hd hq') }
    · rcases List.mem_cons.mp hs with rfl | hs
      · exact ⟨hanswered,c,q,⟨current_mem hc,hq⟩,rfl⟩
      · exact h.answers s hs
    · rcases List.mem_cons.mp hin with heq | hin
      · obtain rfl := h.eq_of_step hd.1 (current_mem hc) heq
        refine hop ?_
        rwa [Option.some_inj.mp (Option.some_inj.mp (hq.symm.trans hd.2))]
      · exact h.parks d q' hd hop' hin
    · obtain ⟨f,hf⟩ := h.frontier
      exact ⟨f,{ hf with
        settled := fun i d q' hi hd hq' => List.mem_cons_of_mem _ (hf.settled i d q' hi hd hq') }⟩
    · refine iff_of_false (by simp [shownKey]) ?_
      rintro ⟨p,hp,hout,_⟩
      obtain ⟨d,q',hd,hstep,_⟩ := h.parked p hp
      rw [← hstep] at hout
      have hout' : d.step ∉ w.journal.answers := fun hin => hout (List.mem_cons_of_mem _ hin)
      obtain rfl := h.last hc hq hopen hd hout'
      exact hout List.mem_cons_self
  exact hsettled.next_of_ran hc (by rw [hq]; exact Option.some_ne_none _) fun _ _ => List.mem_cons_self

theorem Standing.answer (h : Standing w) (hw : answerStep w newId = some w') : Standing w' := by
  unfold answerStep at hw
  obtain ⟨c,hc,hw⟩ := Option.bind_eq_some_iff.mp hw
  split at hw
  swap
  · exact nomatch hw
  rename_i q hstage
  obtain ⟨d,hd,hq,hanswered,hop⟩ := h.awake hstage
  obtain rfl := Option.some_inj.mp (hc.symm.trans hd)
  split at hw
  · rename_i hin
    cases hw
    exact h.next_of_ran hc (by rw [hq]; exact Option.some_ne_none _) fun _ _ => hin
  rename_i hopen
  split at hw
  · exact nomatch hw
  rename_i hnew
  have hnew : loadOperationApproval w newId = none := by simpa using hnew
  split at hw
  · obtain ⟨approval,hload,hw⟩ := Option.bind_eq_some_iff.mp hw
    obtain ⟨w₁,hexec,hw⟩ := Option.bind_eq_some_iff.mp hw
    cases hw
    obtain ⟨_,_,d,hd,hid,hname,hargs⟩ := h.rows approval (List.mem_of_find?_eq_some hload)
    have hkept : Standing w₁ ∧ w₁.items = w.items ∧ w₁.journal = w.journal ∧ w₁.place = w.place ∧
        w₁.answered = w.answered := by
      unfold executeApproved at hexec
      split at hexec
      · exact nomatch hexec
      · cases hexec
        exact ⟨h,rfl,rfl,rfl,rfl⟩
      split at hexec
      swap
      · cases hexec
        exact ⟨h,rfl,rfl,rfl,rfl⟩
      obtain ⟨⟨w₂,outcome⟩,hrun,rfl⟩ := Option.map_eq_some_iff.mp hexec
      rw [← hid,← hname,← hargs] at hrun
      have hruns := executeTool_executes hrun
      have hname' : d.name ≠ askForContext := by
        intro hask
        have hsome := (h.rows approval (List.mem_of_find?_eq_some hload)).2.1
        rw [← hname,hask] at hsome
        exact absurd hsome (by decide)
      obtain ⟨h₁,hitems,hjournal,hplace,_,_⟩ := h.executes hd hnew (fun hask => absurd hask hname') hruns
      refine ⟨h₁,hitems,hjournal,hplace,?_⟩
      cases hruns <;> rfl
    obtain ⟨h₁,hitems,hjournal,hplace,hanswered₁⟩ := hkept
    have hc₁ : current w₁ = some c := by
      rw [current,hitems,hplace]
      exact hc
    exact h₁.settle hc₁ (by rw [hjournal]; exact hq) (by rw [hjournal]; exact hopen)
      (by rw [hanswered₁]; exact hanswered) (by rw [hjournal]; exact hop) _ _
  · cases hw
    exact h.settle hc hq hopen hanswered hop _ _

/-- The frontier stays where a replay starts over before it, and moves to where it starts after it. -/
theorem Standing.replay (h : Standing w) (hok : admits w .replay = true) : Standing (Questions.replay w) := by
  simp only [admits,List.all_eq_true] at hok
  have hbefore : ∀ i c, i < resumePlace w.items → w.items[i]? = some (.call c) →
      ∀ q, w.journal.tools c.step = some (some q) → c.step ∈ w.journal.answers := by
    intro i c hi hc q hq
    have hmem : Item.call c ∈ w.items.take (resumePlace w.items) := by
      refine List.mem_of_getElem? ((List.getElem?_take_of_lt hi).trans hc)
    simpa [hq] using hok _ hmem
  refine { h with
    frontier := ?_
    stage := trivial
    passed := fun i c q hi hc hq => hbefore i c hi hc q hq }
  obtain ⟨f,hf⟩ := h.frontier
  have hresume : resumePlace w.items ≤ w.items.length := List.findIdx_le_length
  refine ⟨max f (resumePlace w.items),le_max_right _ _,max_le hf.length hresume,fun i c hmin hi hc => ?_,
    fun i c hi hc => hf.beyond i c ((le_max_left _ _).trans hi) hc,fun i c q hi hc hq => ?_,
    fun i n hi => hf.wellFormed i n ((le_max_left _ _).trans hi)⟩
  · have hmin' : resumePlace w.items ≤ i := by
      simpa [Questions.replay] using hmin
    exact hf.done i c ((min_le_right _ _).trans hmin') (by
      rcases lt_max_iff.mp hi with hlt | hlt
      · exact hlt
      · omega) hc
  · by_cases hlt : i < resumePlace w.items
    · exact hbefore i c hlt hc q hq
    · refine hf.settled i c q ?_ hc hq
      rcases lt_max_iff.mp hi with hlt' | hlt'
      · exact hlt'
      · omega

end Waits

section People
variable {w w' : World}

theorem askedWith_mem {c : Call} {q : Waiting} (hc : Asked w c q) : c.step ∈ askedWith w q.key := by
  refine List.mem_filterMap.mpr ⟨.call c,hc.1,?_⟩
  simp [hc.2]

/-- What was answered stays so. -/
theorem Standing.answering (h : Standing w) {answered : List StepName} (hsub : ∀ s ∈ w.answered, s ∈ answered) :
    Standing { w with answered := answered } := by
  refine { h with
    answers := fun s hs => ⟨hsub s (h.answers s hs).1,(h.answers s hs).2⟩
    observed := fun id status hs => ?_
    decided := fun c q hc a ha hkey hdecided => hsub _ (h.decided c q hc a ha hkey hdecided)
    stage := ?_ }
  · obtain ⟨c,q,hc,hid,hdecided⟩ := h.observed id status hs
    exact ⟨c,q,hc,hid,fun hne => hsub _ (hdecided hne)⟩
  · have hstage := h.stage
    unfold AtStage at hstage ⊢
    cases hs : w.stage with
    | fresh => trivial
    | asked q =>
      rw [hs] at hstage
      exact hstage
    | parked q =>
      rw [hs] at hstage
      exact hstage
    | observing q n =>
      rw [hs] at hstage
      exact hstage
    | sleeping q n =>
      rw [hs] at hstage
      exact hstage
    | woken q =>
      simp only [hs] at hstage ⊢
      obtain ⟨c,hc,hq,hanswered,hop⟩ := hstage
      exact ⟨c,hc,hq,hsub _ hanswered,hop⟩

theorem Standing.set (h : Standing w) (key : Key) (value : Option String) : Standing (setContextField w key value) := by
  have h' : Standing { w with answered := if value.isSome then askedWith w key ++ w.answered else w.answered } := by
    refine h.answering fun s hs => ?_
    split
    · exact List.mem_append_right _ hs
    · exact hs
  exact { h' with }

/-- Whoever asked for this approval is answered with its decision. -/
theorem Standing.decide (h : Standing w) {id : ApprovalId} {decision : ApprovalStatus}
    (hw : decideAgentOperation w id decision = some w') : Standing w' := by
  unfold decideAgentOperation at hw
  split at hw
  swap
  · exact nomatch hw
  split at hw
  · exact nomatch hw
  cases hw
  have h' : Standing { w with answered := askedWith w (operationApprovalKey id) ++ w.answered } :=
    h.answering fun s hs => List.mem_append_right _ hs
  have hrows : ∀ a ∈ updateWhere (fun a => decide (a.id = id)) (fun a => { a with status := decision }) w.approvals,
      ∃ b ∈ w.approvals, a.id = b.id ∧ a.toolName = b.toolName ∧ a.callId = b.callId ∧ a.arguments = b.arguments ∧
        (b.id = id ∨ a = b) := by
    intro a ha
    rcases mem_updateWhere.mp ha with ⟨b,hb,hid,rfl⟩ | ⟨hb,_⟩
    · exact ⟨b,hb,rfl,rfl,rfl,rfl,Or.inl (of_decide_eq_true hid)⟩
    · exact ⟨a,hb,rfl,rfl,rfl,rfl,Or.inr rfl⟩
  refine { h' with decided := fun c q hc a ha hkey hdecided => ?_, rows := fun a ha => ?_, ids := ?_ }
  · obtain ⟨b,hb,hid,_,_,_,hsame | rfl⟩ := hrows a ha
    · have hkey' : q.key = operationApprovalKey id := by rw [hkey,hid,hsame]
      exact List.mem_append_left _ (hkey' ▸ askedWith_mem hc)
    · exact h'.decided c q hc a hb hkey hdecided
  · obtain ⟨b,hb,_,htool,hcall,hargs,_⟩ := hrows a ha
    rw [htool,hcall,hargs]
    exact h.rows b hb
  · have hids : ((updateWhere (fun a => decide (a.id = id)) (fun a => { a with status := decision })
        w.approvals).map Approval.id) = w.approvals.map Approval.id := by
      rw [map_updateWhere]
      exact fun _ _ _ => rfl
    exact hids ▸ h.ids

end People

section Runs
variable {w w' : World}

theorem Initial.standing (h : Initial w) : Standing w := by
  have hmem : ∀ c : Call, .call c ∉ w.items := fun c => by rw [h.items]; exact List.not_mem_nil
  constructor
  case distinct => rw [h.items]; exact List.Pairwise.nil
  case ran => exact fun s hs => absurd (h.tools s) hs
  case parked => rw [h.parked]; exact fun p hp => absurd hp List.not_mem_nil
  case answers => rw [h.answers]; exact fun s hs => absurd hs List.not_mem_nil
  case parks => exact fun c q hc => absurd hc.1 (hmem c)
  case observed => exact fun id status hs => absurd (h.observations id ▸ hs) List.not_mem_nil
  case decided => exact fun c q hc => absurd hc.1 (hmem c)
  case rows => rw [h.approvals]; exact fun a ha => absurd ha List.not_mem_nil
  case ids => rw [h.approvals]; exact List.nodup_nil
  case frontier =>
    refine ⟨0,by rw [h.place],Nat.zero_le _,fun i c _ hi => absurd hi (Nat.not_lt_zero i),
      fun i c _ hc => absurd (List.mem_of_getElem? hc) (hmem c),fun i c q hi => absurd hi (by omega),
      fun i n _ hn => ?_⟩
    rw [h.items] at hn
    exact nomatch hn
  case stage => simp only [AtStage,h.stage]
  case shown =>
    intro _ key
    refine iff_of_false (by simp [shownKey,h.status]) ?_
    rintro ⟨p,hp,_⟩
    rw [h.parked] at hp
    exact absurd hp List.not_mem_nil
  case passed => exact fun i c q hi => absurd hi (by rw [h.place]; omega)
  case executed => rw [h.executed]; exact fun x hx => absurd hx List.not_mem_nil

theorem Standing.step {slot : ℕ → ℕ} (h : Standing w) {e : Event} (hok : admits w e = true)
    (hstep : Steps slot w e w') : Standing w' := by
  unfold Steps apply at hstep
  cases e with
  | deliver key => cases hstep; exact { h with }
  | setContextField key value => cases hstep; exact h.set key value
  | decide id decision => exact h.decide hstep
  | configure allowed required => cases hstep; exact { h with }
  | provide calls => exact h.provide hok (by simpa using (Option.ite_none_left_eq_some.mp hstep).2)
  | malformed => exact h.malformed (by simpa using (Option.ite_none_left_eq_some.mp hstep).2)
  | pass => exact h.pass (by simpa using (Option.ite_none_left_eq_some.mp hstep).2)
  | tool newId => exact h.tool hok (by simpa using (Option.ite_none_left_eq_some.mp hstep).2)
  | park => exact h.park hok (by simpa using (Option.ite_none_left_eq_some.mp hstep).2)
  | wait => exact h.wait hok (by simpa using (Option.ite_none_left_eq_some.mp hstep).2)
  | observe => exact h.observe (by simpa using (Option.ite_none_left_eq_some.mp hstep).2)
  | wake => exact h.wake (by simpa using (Option.ite_none_left_eq_some.mp hstep).2)
  | answer newId => exact h.answer (by simpa using (Option.ite_none_left_eq_some.mp hstep).2)
  | replay =>
    cases (Option.ite_none_left_eq_some.mp hstep).2
    exact h.replay hok
  | ends =>
    cases (Option.ite_none_left_eq_some.mp hstep).2
    exact { h with shown := fun hlive => absurd rfl hlive }

end Runs

section Samples

end Samples

end HermesEnterprise.Engine.Questions
