import HermesEnterprise.Caps.Admission

/-! # When the run cap is a cap

The number of working runs is what an admission read plus what was taken since, so the cap
holds behind its commit exactly when fewer slots were taken than it saw free. That a session
has one live run is the index's doing, and holds in every run.
-/
namespace HermesEnterprise.Caps
open Foundation.Runs Foundation.Tables RunLog
variable {w w' : World} {e : Event} {t t' : Tx} {r row : RunRow} {runs : List RunRow} {tx : TxId}

section Counting

theorem taken_append (a b : List Change) : taken (a ++ b) = taken a + taken b := by
  induction a with
  | nil => exact (Int.zero_add _).symm
  | cons change rest ih =>
    cases change <;> simp only [List.cons_append, taken, ih] <;> omega

/-- The slots in use minus those there are. -/
def balance (w : World) : ℤ := (count working w.runs : ℤ) - w.settings.maxConcurrentRuns

theorem count_singleton (row : RunRow) :
    count working (runs ++ [row]) = count working runs + if working row then 1 else 0 := by
  unfold count
  rw [List.filter_append, List.length_append]
  by_cases h : working row = true
  · rw [if_pos h, List.filter_cons_of_pos h, List.filter_nil]
    rfl
  · rw [if_neg h, List.filter_cons_of_neg h, List.filter_nil]
    rfl

/-- One row is replaced by another. -/
theorem count_replace (hids : (runs.map (·.id)).Nodup) (hr : r ∈ runs) (f : RunRow → RunRow) :
    count working (updateWhere (fun s => decide (s.id = r.id)) f runs) + (if working r then 1 else 0) =
      count working runs + if working (f r) then 1 else 0 := by
  have htotal := total_updateWhere (M := ℕ) (f := fun _ => 1) (p := working) (·.id) f hids hr
  rwa [← count_eq_total, ← count_eq_total] at htotal

end Counting

/-- The transaction has locked the run's row. -/
def Holds (t : Tx) (runId : RunId) : Prop := ∃ l ∈ t.locks, l.resource = .run runId

/-- What holds of each transaction while it is open. -/
structure TxKept (w : World) (t : Tx) : Prop where
  order : t.todo <:+ t.request.kind.phases
  /-- A retry behind its first statement has locked a run that has ended. -/
  admitted : t.request.kind = .retryTask → .opening ∉ t.todo →
    Holds t t.request.runId ∧ ∃ r ∈ w.runs, r.id = t.request.runId ∧ live r = false
  /-- The slots in use are those that were read and those taken since. -/
  read : ∀ c, t.capRead = some c → c.position ≤ w.log.length ∧ balance w = taken (w.log.drop c.position) - c.free
  hasRead : .caps ∉ t.todo → t.capRead.isSome = true
  /-- A written row is of a new run, or of a run that has ended and is locked. -/
  pending : ∀ row, t.pending = some row → row.status = .working ∧
    ((∀ r ∈ w.runs, r.id ≠ row.id) ∨
      (Holds t row.id ∧ ∃ r ∈ w.runs, r.id = row.id ∧ r.sessionId = row.sessionId ∧ live r = false))
  pendingLive : ∀ row, t.pending = some row → ∀ r ∈ w.runs, live r = true → r.sessionId ≠ row.sessionId

/-- What the transactions rely on. -/
structure Kept (w : World) : Prop where
  ids : (w.runs.map (·.id)).Nodup
  one : OneLive w
  txIds : (w.txs.map (·.id)).Nodup
  each : ∀ t ∈ w.txs, TxKept w t
  /-- Two transactions neither write one session or run, nor hold one run. -/
  apart : ∀ t ∈ w.txs, ∀ t' ∈ w.txs, ∀ row row', t.pending = some row → t'.pending = some row' →
    row.sessionId = row'.sessionId ∨ row.id = row'.id → t = t'
  locksApart : ∀ t ∈ w.txs, ∀ t' ∈ w.txs, ∀ runId, Holds t runId → Holds t' runId → t = t'

theorem live_of_working (h : r.status = .working) : live r = true := by
  unfold live
  rw [h]
  rfl

theorem mem_setTx {next s : Tx} (h : s ∈ (setTx w next).txs) : s = next ∨ (s ∈ w.txs ∧ s.id ≠ next.id) := by
  obtain ⟨t,ht,heq⟩ := List.mem_map.mp h
  by_cases hid : t.id = next.id
  · rw [if_pos hid] at heq
    exact Or.inl heq.symm
  · rw [if_neg hid] at heq
    exact Or.inr ⟨heq ▸ ht,heq ▸ hid⟩

theorem map_id_setTx (w : World) (next : Tx) : (setTx w next).txs.map (·.id) = w.txs.map (·.id) := by
  unfold setTx
  rw [List.map_map]
  refine List.map_congr_left fun s _ => ?_
  by_cases hs : s.id = next.id
  · simp only [Function.comp, hs, if_true]
  · simp only [Function.comp, hs, if_false]

/-- A run lock that is free for a transaction is held by no other. -/
theorem not_holds_of_blocked {runId : RunId} (h : blocked w t (.run runId) false = false) (ht' : t' ∈ w.txs)
    (hne : t'.id ≠ t.id) : ¬ Holds t' runId := by
  rintro ⟨l,hl,hresource⟩
  have hother := List.any_eq_false.mp h t' ht'
  simp only [ne_eq, hne, not_false_eq_true, decide_true, Bool.true_and] at hother
  exact hother (List.any_eq_true.mpr ⟨l,hl,by simp only [hresource, decide_true, Bool.false_and, Bool.not_false, Bool.and_self]⟩)

namespace TxKept

/-- A transaction reads the runs, the cap and the log. -/
theorem congr (h : TxKept w t) (hruns : w'.runs = w.runs) (hsettings : w'.settings = w.settings)
    (hlog : w'.log = w.log) : TxKept w' t := by
  have hbalance : balance w' = balance w := by
    unfold balance
    rw [hruns, hsettings]
  refine ⟨h.order,fun hkind hdone => hruns ▸ h.admitted hkind hdone,fun c hc => ?_,h.hasRead,
    fun row hrow => hruns ▸ h.pending row hrow,fun row hrow => hruns ▸ h.pendingLive row hrow⟩
  rw [hlog, hbalance]
  exact h.read c hc

/-- What is left to do is in order, so no statement is done twice. -/
theorem notMem_rest (h : TxKept w t) {phase : Phase} {rest : List Phase} (htodo : t.todo = phase :: rest) :
    phase ∉ rest := by
  have horder := h.order
  rw [htodo] at horder
  have hnodup : t.request.kind.phases.Nodup := by cases t.request.kind <;> decide
  exact (List.nodup_cons.mp (hnodup.sublist horder.sublist)).1

theorem order_rest (h : TxKept w t) {phase : Phase} {rest : List Phase} (htodo : t.todo = phase :: rest) :
    rest <:+ t.request.kind.phases :=
  (List.suffix_cons phase rest).trans (htodo ▸ h.order)

/-- A retry that comes to its write is admitted. -/
theorem write_admitted (h : TxKept w t) {rest : List Phase} (htodo : t.todo = .write :: rest) :
    .opening ∉ t.todo := by
  have horder := h.order
  rw [htodo] at horder ⊢
  have hrest : rest = [] := by
    revert horder
    cases t.request.kind <;> simp [Kind.phases, List.suffix_cons_iff]
  rw [hrest]
  decide

variable {phase : Phase} {rest : List Phase}

/-- A statement that is none of the first two kinds keeps what they found. -/
theorem admitted_rest (h : TxKept w t) (htodo : t.todo = phase :: rest) (hphase : phase ≠ .opening)
    (hkind : t.request.kind = .retryTask) (hdone : .opening ∉ rest) :
    Holds t t.request.runId ∧ ∃ r ∈ w.runs, r.id = t.request.runId ∧ live r = false := by
  refine h.admitted hkind ?_
  rw [htodo]
  exact fun hmem => (List.mem_cons.mp hmem).elim (fun he => hphase he.symm) hdone

theorem hasRead_rest (h : TxKept w t) (htodo : t.todo = phase :: rest) (hphase : phase ≠ .caps)
    (hdone : .caps ∉ rest) : t.capRead.isSome = true := by
  refine h.hasRead ?_
  rw [htodo]
  exact fun hmem => (List.mem_cons.mp hmem).elim (fun he => hphase he.symm) hdone

theorem holds_next {locks : List Lock} {runId : RunId} (h : Holds t runId) : Holds (t.next rest locks) runId := by
  obtain ⟨l,hl,hresource⟩ := h
  exact ⟨l,List.mem_append_right _ hl,hresource⟩

/-- A statement that takes locks and reads nothing that matters later. -/
theorem goes (h : TxKept w t) (htodo : t.todo = phase :: rest) (locks : List Lock) (hphase : phase ≠ .caps)
    (hopens : phase = .opening → t.request.kind = .retryTask →
      Holds (t.next rest locks) t.request.runId ∧ ∃ r ∈ w.runs, r.id = t.request.runId ∧ live r = false) :
    TxKept w (t.next rest locks) where
  order := h.order_rest htodo
  admitted := by
    intro hkind hdone
    by_cases hfirst : phase = .opening
    · exact hopens hfirst hkind
    · obtain ⟨hholds,hrow⟩ := h.admitted_rest htodo hfirst hkind hdone
      exact ⟨holds_next hholds,hrow⟩
  read := h.read
  hasRead := h.hasRead_rest htodo hphase
  pending := fun row hrow => ⟨(h.pending row hrow).1,(h.pending row hrow).2.imp id fun hheld => ⟨holds_next hheld.1,hheld.2⟩⟩
  pendingLive := h.pendingLive

/-- The caps are read: nothing is taken since. -/
theorem reads (h : TxKept w t) (htodo : t.todo = .caps :: rest) :
    TxKept w { t.next rest [] with
      capRead := some ⟨checkCaps (some w.settings) w.tokensToday w.runs,w.log.length⟩ } where
  order := h.order_rest htodo
  admitted := h.admitted_rest htodo (by decide)
  read := by
    rintro c ⟨⟩
    refine ⟨le_rfl,?_⟩
    rw [List.drop_length]
    unfold CapRead.free checkCaps balance
    dsimp only [Option.isSome_some, Option.map_some, Option.getD_some, taken]
    rw [if_pos rfl]
    omega
  hasRead := fun _ => rfl
  pending := h.pending
  pendingLive := h.pendingLive

/-- The row that an admission writes has its session to itself. -/
theorem writes (h : TxKept w t) (hids : (w.runs.map (·.id)).Nodup) (htodo : t.todo = .write :: rest)
    (hwritten : written w t = some row)
    (hlive : (w.runs.any fun r => r.sessionId = row.sessionId && r.id ≠ row.id && live r) = false) :
    TxKept w { t.next rest [] with pending := some row } := by
  have hnoLive : ∀ r ∈ w.runs, live r = true → r.id ≠ row.id → r.sessionId ≠ row.sessionId := by
    intro r hr hlive' hid hsession
    refine List.any_eq_false.mp hlive r hr ?_
    simp only [hsession, hid, hlive', ne_eq, not_false_eq_true, decide_true, Bool.and_self]
  suffices hrow : row.status = .working ∧ ((∀ r ∈ w.runs, r.id ≠ row.id) ∨
      (Holds t row.id ∧ ∃ r ∈ w.runs, r.id = row.id ∧ r.sessionId = row.sessionId ∧ live r = false)) by
    refine ⟨h.order_rest htodo,h.admitted_rest htodo (by decide),h.read,h.hasRead_rest htodo (by decide),?_,?_⟩
    · rintro _ ⟨⟩
      exact hrow
    · rintro _ ⟨⟩ r hr hrlive
      refine hnoLive r hr hrlive fun hid => ?_
      rcases hrow.2 with hfresh | ⟨-,s,hs,hsid,-,hended⟩
      · exact hfresh r hr hid
      · obtain rfl : s = r := List.inj_on_of_nodup_map hids hs hr (hsid.trans hid.symm)
        rw [hrlive] at hended
        cases hended
  unfold written at hwritten
  split at hwritten
  · rename_i hkind
    obtain ⟨r,hfind,rfl⟩ := Option.map_eq_some_iff.mp hwritten
    obtain ⟨hr,hid⟩ := of_find?_key hfind
    obtain ⟨hholds,s,hs,hsid,hended⟩ := h.admitted hkind (h.write_admitted htodo)
    obtain rfl : s = r := List.inj_on_of_nodup_map hids hs hr (hsid.trans hid.symm)
    exact ⟨rfl,Or.inr ⟨hid ▸ hholds,s,hs,rfl,rfl,hended⟩⟩
  · split at hwritten
    · cases hwritten
    · rename_i hfresh
      cases hwritten
      simp only [Bool.or_eq_true, not_or, Bool.not_eq_true] at hfresh
      exact ⟨rfl,Or.inl fun r hr hid => List.any_eq_false.mp hfresh.1 r hr (decide_eq_true hid)⟩

end TxKept

namespace Kept

/-- One transaction goes on. -/
theorem setTx {next : Tx} (h : Kept w) (hid : next.id = t.id) (hnext : TxKept w next)
    (hpending : ∀ row, next.pending = some row → ∀ t' ∈ w.txs, t'.id ≠ t.id → ∀ row', t'.pending = some row' →
      ¬(row.sessionId = row'.sessionId ∨ row.id = row'.id))
    (hholds : ∀ runId, Holds next runId → ∀ t' ∈ w.txs, t'.id ≠ t.id → ¬ Holds t' runId) :
    Kept (Caps.setTx w next) where
  ids := h.ids
  one := h.one
  txIds := by
    rw [map_id_setTx]
    exact h.txIds
  each := by
    intro s hs
    rcases mem_setTx hs with rfl | ⟨hold,-⟩
    · exact hnext.congr rfl rfl rfl
    · exact (h.each s hold).congr rfl rfl rfl
  apart := by
    intro s hs s' hs' row row' hrow hrow' hsame
    rcases mem_setTx hs with rfl | ⟨hold,hne⟩
    · rcases mem_setTx hs' with rfl | ⟨hold',hne'⟩
      · rfl
      · exact absurd hsame (hpending row hrow s' hold' (hid ▸ hne') row' hrow')
    · rcases mem_setTx hs' with rfl | ⟨hold',-⟩
      · exact absurd (hsame.imp Eq.symm Eq.symm) (hpending row' hrow' s hold (hid ▸ hne) row hrow)
      · exact h.apart s hold s' hold' row row' hrow hrow' hsame
  locksApart := by
    intro s hs s' hs' runId hheld hheld'
    rcases mem_setTx hs with rfl | ⟨hold,hne⟩
    · rcases mem_setTx hs' with rfl | ⟨hold',hne'⟩
      · rfl
      · exact absurd hheld' (hholds runId hheld s' hold' (hid ▸ hne'))
    · rcases mem_setTx hs' with rfl | ⟨hold',-⟩
      · exact absurd hheld (hholds runId hheld' s hold (hid ▸ hne))
      · exact h.locksApart s hold s' hold' runId hheld hheld'

/-- What a transaction wrote is apart from what the others wrote. -/
theorem apart_of_ne (h : Kept w) (ht : t ∈ w.txs) (hrow : t.pending = some row) (ht' : t' ∈ w.txs)
    (hne : t'.id ≠ t.id) (row' : RunRow) (hrow' : t'.pending = some row') :
    ¬(row.sessionId = row'.sessionId ∨ row.id = row'.id) :=
  fun hsame => hne (congrArg Tx.id (h.apart t ht t' ht' row row' hrow hrow' hsame)).symm

theorem holds_of_ne (h : Kept w) (ht : t ∈ w.txs) {runId : RunId} (hheld : Holds t runId) (ht' : t' ∈ w.txs)
    (hne : t'.id ≠ t.id) : ¬ Holds t' runId :=
  fun hheld' => hne (congrArg Tx.id (h.locksApart t ht t' ht' runId hheld hheld')).symm

theorem ends (h : Kept w) (tx : TxId) : Kept (endTx w tx) where
  ids := h.ids
  one := h.one
  txIds := h.txIds.sublist (List.filter_sublist.map _)
  each := fun s hs => (h.each s (List.mem_filter.mp hs).1).congr rfl rfl rfl
  apart := fun s hs s' hs' => h.apart s (List.mem_filter.mp hs).1 s' (List.mem_filter.mp hs').1
  locksApart := fun s hs s' hs' => h.locksApart s (List.mem_filter.mp hs).1 s' (List.mem_filter.mp hs').1

variable {phase : Phase} {rest : List Phase}

/-- A statement that takes locks, on no run that another transaction holds. -/
theorem goes (h : Kept w) (ht : t ∈ w.txs) (htodo : t.todo = phase :: rest) (locks : List Lock)
    (hphase : phase ≠ .caps)
    (hopens : phase = .opening → t.request.kind = .retryTask →
      Holds (t.next rest locks) t.request.runId ∧ ∃ r ∈ w.runs, r.id = t.request.runId ∧ live r = false)
    (hfree : ∀ l ∈ locks, ∀ runId, l.resource = .run runId → ∀ t' ∈ w.txs, t'.id ≠ t.id → ¬ Holds t' runId) :
    Kept (Caps.setTx w (t.next rest locks)) := by
  refine h.setTx (t := t) rfl ((h.each t ht).goes htodo locks hphase hopens) ?_ ?_
  · exact fun row hrow t' ht' hne => h.apart_of_ne ht hrow ht' hne
  · rintro runId ⟨l,hl,hresource⟩ t' ht' hne
    rcases List.mem_append.mp hl with hnew | hold
    · exact hfree l hnew runId hresource t' ht' hne
    · exact h.holds_of_ne ht ⟨l,hold,hresource⟩ ht' hne

theorem reads (h : Kept w) (ht : t ∈ w.txs) (htodo : t.todo = .caps :: rest) :
    Kept (Caps.setTx w { t.next rest [] with
      capRead := some ⟨checkCaps (some w.settings) w.tokensToday w.runs,w.log.length⟩ }) :=
  h.setTx (t := t) rfl ((h.each t ht).reads htodo) (fun _ hrow _ ht' hne => h.apart_of_ne ht hrow ht' hne)
    fun _ hheld _ ht' hne => h.holds_of_ne ht hheld ht' hne

theorem writes (h : Kept w) (ht : t ∈ w.txs) (htodo : t.todo = .write :: rest) (hwritten : written w t = some row)
    (hlive : (w.runs.any fun r => r.sessionId = row.sessionId && r.id ≠ row.id && live r) = false)
    (hother : (w.txs.any fun other => other.id ≠ t.id && other.pending.any fun r => r.sessionId = row.sessionId) =
      false) : Kept (Caps.setTx w { t.next rest [] with pending := some row }) := by
  have hnext := (h.each t ht).writes h.ids htodo hwritten hlive
  refine h.setTx (t := t) rfl hnext ?_ fun runId hheld t' ht' hne => h.holds_of_ne ht hheld ht' hne
  rintro _ ⟨⟩ t' ht' hne row' hrow' hsame
  have hapart : row'.sessionId ≠ row.sessionId := by
    intro hsession
    refine List.any_eq_false.mp hother t' ht' ?_
    simp only [hrow', Option.any_some, hsession, hne, ne_eq, not_false_eq_true, decide_true, Bool.and_self]
  rcases hsame with hsession | hsame
  · exact hapart hsession.symm
  · -- a new run's id is nobody else's; an ended run is locked by the one that writes it
    rcases (hnext.pending row rfl).2 with hfresh | ⟨hheld,r,hr,hid,-⟩
    · unfold written at hwritten
      split at hwritten
      · obtain ⟨r,hfind,rfl⟩ := Option.map_eq_some_iff.mp hwritten
        exact hfresh r (List.mem_of_find?_eq_some hfind) rfl
      · split at hwritten
        · cases hwritten
        · rename_i hnew
          cases hwritten
          simp only [Bool.or_eq_true, not_or, Bool.not_eq_true] at hnew
          refine List.any_eq_false.mp hnew.2 t' ht' ?_
          rw [hrow', Option.any_some]
          exact decide_eq_true hsame.symm
    · rcases ((h.each t' ht').pending row' hrow').2 with hfresh | ⟨hheld',-⟩
      · exact hfresh r hr (hid.trans hsame)
      · exact h.holds_of_ne ht hheld ht' hne (hsame ▸ hheld')

/-- An open transaction outlives a change that leaves its own runs alone. -/
theorem txKept_runs (hold : TxKept w t)
    (hadmitted : ∀ r ∈ w.runs, Holds t r.id → live r = false → r ∈ w'.runs)
    (hnew : ∀ r ∈ w'.runs, (∃ s ∈ w.runs, s.id = r.id ∧ (live r = true → live s = true ∧ s.sessionId = r.sessionId)) ∨
      ∀ row, t.pending = some row → r.id ≠ row.id ∧ r.sessionId ≠ row.sessionId)
    (hread : ∀ c, t.capRead = some c → c.position ≤ w'.log.length ∧
      balance w' = taken (w'.log.drop c.position) - c.free) : TxKept w' t where
  order := hold.order
  admitted := by
    intro hkind hdone
    obtain ⟨hheld,r,hr,hid,hended⟩ := hold.admitted hkind hdone
    exact ⟨hheld,r,hadmitted r hr (hid ▸ hheld) hended,hid,hended⟩
  read := hread
  hasRead := hold.hasRead
  pending := by
    intro row hrow
    obtain ⟨hworking,hwhy⟩ := hold.pending row hrow
    refine ⟨hworking,?_⟩
    rcases hwhy with hfresh | ⟨hheld,r,hr,hid,hsession,hended⟩
    · left
      intro r hr hid
      rcases hnew r hr with ⟨s,hs,hsid,-⟩ | hapart
      · exact hfresh s hs (hsid.trans hid)
      · exact (hapart row hrow).1 hid
    · exact Or.inr ⟨hheld,r,hadmitted r hr (hid ▸ hheld) hended,hid,hsession,hended⟩
  pendingLive := by
    intro row hrow r hr hlive hsession
    rcases hnew r hr with ⟨s,hs,-,hold'⟩ | hapart
    · exact hold.pendingLive row hrow s hs (hold' hlive).1 ((hold' hlive).2.trans hsession)
    · exact (hapart row hrow).2 hsession

/-- What was taken in the past and in this step. -/
theorem read_log (hold : TxKept w t) {changes : List Change} (hlog : w'.log = w.log ++ changes)
    (hbalance : balance w' = balance w + taken changes) {c : CapRead} (hc : t.capRead = some c) :
    c.position ≤ w'.log.length ∧ balance w' = taken (w'.log.drop c.position) - c.free := by
  obtain ⟨hle,hread⟩ := hold.read c hc
  rw [hlog, List.length_append, List.drop_append_of_le_length hle, taken_append]
  omega

theorem mem_store :
    r ∈ store w.runs row ↔ r = row ∨ (r ∈ w.runs ∧ r.id ≠ row.id) := by
  unfold store
  split
  · rename_i hany
    obtain ⟨s,hs,hid⟩ := List.any_eq_true.mp hany
    rw [mem_updateWhere]
    simp only [decide_eq_true_eq, decide_eq_false_iff_not]
    constructor
    · rintro (⟨s,hs,-,rfl⟩ | h)
      · exact Or.inl rfl
      · exact Or.inr h
    · rintro (rfl | h)
      · exact Or.inl ⟨s,hs,of_decide_eq_true hid,rfl⟩
      · exact Or.inr h
  · rename_i hany
    have hfresh : ∀ s ∈ w.runs, s.id ≠ row.id := fun s hs hid => hany (List.any_eq_true.mpr ⟨s,hs,decide_eq_true hid⟩)
    simp only [List.mem_append, List.mem_singleton]
    constructor
    · rintro (h | rfl)
      · exact Or.inr ⟨h,hfresh r h⟩
      · exact Or.inl rfl
    · rintro (rfl | h)
      · exact Or.inr rfl
      · exact Or.inl h.1

theorem nodup_store (hids : (w.runs.map (·.id)).Nodup) : ((store w.runs row).map (·.id)).Nodup := by
  unfold store
  split
  · rw [map_updateWhere fun r : RunRow => r.id]
    · exact hids
    · exact fun s _ hs => (of_decide_eq_true hs).symm
  · rename_i hany
    rw [List.map_append]
    refine hids.append (List.nodup_singleton _) fun id hid hid' => ?_
    obtain ⟨s,hs,rfl⟩ := List.mem_map.mp hid
    exact hany (List.any_eq_true.mpr ⟨s,hs,decide_eq_true (List.mem_singleton.mp hid')⟩)

/-- A commit makes one more run work. -/
theorem count_store (h : TxKept w t) (hids : (w.runs.map (·.id)).Nodup) (hrow : t.pending = some row) :
    count working (store w.runs row) = count working w.runs + 1 := by
  obtain ⟨hworking,hwhy⟩ := h.pending row hrow
  have hone : working row = true := decide_eq_true hworking
  unfold store
  split
  · rename_i hany
    obtain ⟨-,r,hr,hid,-,hended⟩ := hwhy.resolve_left fun hfresh => by
      obtain ⟨s,hs,hsid⟩ := List.any_eq_true.mp hany
      exact hfresh s hs (of_decide_eq_true hsid)
    have hnot : working r = false := by
      refine decide_eq_false fun hrworking => ?_
      rw [live_of_working hrworking] at hended
      cases hended
    have hcount := count_replace hids hr fun _ => row
    rw [hnot, hone, hid] at hcount
    exact hcount
  · rw [count_singleton, hone]
    rfl

theorem commits (h : Kept w) (ht : t ∈ w.txs) (hrow : t.pending = some row) :
    Kept { endTx w t.id with runs := store w.runs row, log := w.log ++ [.entered] } where
  ids := nodup_store h.ids
  one := by
    intro r hr r' hr' hlive hlive' hsession
    rcases mem_store.mp hr with rfl | ⟨hold,-⟩
    · rcases mem_store.mp hr' with rfl | ⟨hold',-⟩
      · rfl
      · exact absurd hsession.symm ((h.each t ht).pendingLive _ hrow r' hold' hlive')
    · rcases mem_store.mp hr' with rfl | ⟨hold',-⟩
      · exact absurd hsession ((h.each t ht).pendingLive _ hrow r hold hlive)
      · exact h.one r hold r' hold' hlive hlive' hsession
  txIds := (h.ends t.id).txIds
  each := by
    intro s hs
    obtain ⟨hmem,hne⟩ := List.mem_filter.mp hs
    have hne := of_decide_eq_true hne
    refine txKept_runs (h.each s hmem) ?_ ?_ ?_
    · intro r hr hheld hended
      refine mem_store.mpr (Or.inr ⟨hr,fun hid => ?_⟩)
      rcases ((h.each t ht).pending row hrow).2 with hfresh | ⟨hheld',-⟩
      · exact hfresh r hr hid
      · exact h.holds_of_ne ht hheld' hmem hne (hid ▸ hheld)
    · intro r hr
      rcases mem_store.mp hr with rfl | ⟨hold,-⟩
      · right
        intro row' hrow'
        have hapart := h.apart_of_ne ht hrow hmem hne row' hrow'
        exact ⟨fun hid => hapart (Or.inr hid),fun hsession => hapart (Or.inl hsession)⟩
      · exact Or.inl ⟨r,hold,rfl,fun hlive => ⟨hlive,rfl⟩⟩
    · intro c hc
      refine read_log (h.each s hmem) rfl ?_ hc
      unfold balance
      rw [count_store (h.each t ht) h.ids hrow]
      dsimp only [endTx, taken]
      omega
  apart := (h.ends t.id).apart
  locksApart := (h.ends t.id).locksApart

/-- What a change of one run's status is to the number of working runs. -/
theorem count_change (before : RunRow) (status : RunStatus) :
    (if working { before with status := status } then 1 else 0 : ℤ) =
      (if working before then 1 else 0) + taken (changeOf before.status status) := by
  unfold working changeOf
  by_cases hbefore : before.status = .working <;> by_cases hafter : status = .working <;>
    simp only [hbefore, hafter, ne_eq, not_true_eq_false, not_false_eq_true, and_true, and_false, and_self,
      decide_true, decide_false, if_true, if_false, taken, Bool.false_eq_true] <;> omega

theorem changes (h : Kept w) (hr : r ∈ w.runs) (hlive : live r = true) (hfree : ∀ t ∈ w.txs, ¬ Holds t r.id)
    (status : RunStatus) :
    Kept { w with
      runs := updateWhere (fun s => decide (s.id = r.id)) (fun s => { s with status := status }) w.runs,
      log := w.log ++ changeOf r.status status } where
  ids := by
    rw [map_updateWhere fun r : RunRow => r.id]
    · exact h.ids
    · exact fun _ _ _ => rfl
  one := by
    intro s hs s' hs' hslive hslive' hsession
    rcases mem_updateWhere_key h.ids hr hs with rfl | ⟨hold,hne⟩
    · rcases mem_updateWhere_key h.ids hr hs' with rfl | ⟨hold',hne'⟩
      · rfl
      · exact absurd (congrArg RunRow.id (h.one r hr s' hold' hlive hslive' hsession)).symm hne'
    · rcases mem_updateWhere_key h.ids hr hs' with rfl | ⟨hold',hne'⟩
      · exact absurd (congrArg RunRow.id (h.one s hold r hr hslive hlive hsession)) hne
      · exact h.one s hold s' hold' hslive hslive' hsession
  txIds := h.txIds
  each := by
    intro t ht
    refine txKept_runs (h.each t ht) ?_ ?_ ?_
    · intro s hs hheld _
      exact mem_updateWhere.mpr (Or.inr ⟨hs,decide_eq_false fun hid => hfree t ht (hid ▸ hheld)⟩)
    · intro s hs
      rcases mem_updateWhere_key h.ids hr hs with rfl | ⟨hold,-⟩
      · exact Or.inl ⟨r,hr,rfl,fun _ => ⟨hlive,rfl⟩⟩
      · exact Or.inl ⟨s,hold,rfl,fun hslive => ⟨hslive,rfl⟩⟩
    · intro c hc
      refine read_log (h.each t ht) rfl ?_ hc
      have hcount := count_replace h.ids hr fun s => { s with status := status }
      have hchange := count_change r status
      unfold balance
      dsimp only
      split_ifs at hcount hchange <;> omega
  apart := h.apart
  locksApart := h.locksApart

theorem settings (h : Kept w) (next : Settings) :
    Kept { w with settings := next,
                  log := w.log ++ [.capSet w.settings.maxConcurrentRuns next.maxConcurrentRuns] } where
  ids := h.ids
  one := h.one
  txIds := h.txIds
  each := by
    intro t ht
    refine txKept_runs (h.each t ht) (fun _ hr _ _ => hr) (fun s hs => Or.inl ⟨s,hs,rfl,fun hlive => ⟨hlive,rfl⟩⟩) ?_
    intro c hc
    refine read_log (h.each t ht) rfl ?_ hc
    unfold balance
    dsimp only [taken]
    omega
  apart := h.apart
  locksApart := h.locksApart

theorem begins (h : Kept w) (hfresh : (w.txs.any fun t => t.id = tx) = false) (request : Request) :
    Kept { w with txs := w.txs ++ [⟨tx,request,request.kind.phases,[],none,none⟩] } where
  ids := h.ids
  one := h.one
  txIds := by
    rw [List.map_append]
    refine h.txIds.append (List.nodup_singleton _) fun id hid hid' => ?_
    obtain ⟨s,hs,rfl⟩ := List.mem_map.mp hid
    exact List.any_eq_false.mp hfresh s hs (decide_eq_true (List.mem_singleton.mp hid'))
  each := by
    intro s hs
    rcases List.mem_append.mp hs with hold | hnew
    · exact (h.each s hold).congr rfl rfl rfl
    · cases List.mem_singleton.mp hnew
      have hall : .opening ∈ request.kind.phases ∧ .caps ∈ request.kind.phases := by
        cases request.kind <;> exact ⟨by decide,by decide⟩
      exact ⟨List.suffix_rfl,fun _ hdone => absurd hall.1 hdone,nofun,fun hdone => absurd hall.2 hdone,nofun,nofun⟩
  apart := by
    intro s hs s' hs' row row' hrow hrow'
    rcases List.mem_append.mp hs with hold | hnew
    · rcases List.mem_append.mp hs' with hold' | hnew'
      · exact h.apart s hold s' hold' row row' hrow hrow'
      · cases List.mem_singleton.mp hnew'
        cases hrow'
    · cases List.mem_singleton.mp hnew
      cases hrow
  locksApart := by
    intro s hs s' hs' runId hheld hheld'
    rcases List.mem_append.mp hs with hold | hnew
    · rcases List.mem_append.mp hs' with hold' | hnew'
      · exact h.locksApart s hold s' hold' runId hheld hheld'
      · cases List.mem_singleton.mp hnew'
        obtain ⟨l,hl,-⟩ := hheld'
        cases hl
    · cases List.mem_singleton.mp hnew
      obtain ⟨l,hl,-⟩ := hheld
      cases hl

/-- The first statement of an admission. -/
theorem admits (h : Kept w) (ht : t ∈ w.txs) {rest : List Phase} (htodo : t.todo = .opening :: rest)
    (hs : opening w t rest = .ok w') : Kept w' := by
  unfold opening at hs
  split at hs
  · rename_i hkind
    split at hs
    · split_ifs at hs
      · cases hs
        exact h.ends t.id
      · cases hs
        exact h.ends t.id
      · cases hs
        refine h.goes ht htodo _ (by decide) (fun _ hretry => ?_) ?_
        · rw [hkind] at hretry
          cases hretry
        · intro l hl runId hresource
          simp only [List.mem_cons, List.not_mem_nil, or_false] at hl
          rcases hl with rfl | rfl <;> cases hresource
    · cases hs
      exact h.ends t.id
  · rename_i hkind
    cases hs
    split_ifs
    · exact h.ends t.id
    · refine h.goes ht htodo _ (by decide) (fun _ hretry => ?_) (by rintro _ ⟨⟩)
      rw [hkind] at hretry
      cases hretry
  · split at hs
    · rename_i r hfind
      obtain ⟨hr,hid⟩ := of_find?_key hfind
      split_ifs at hs with hblocked hrefused
      · cases hs
        exact h.ends t.id
      · cases hs
        simp only [Bool.or_eq_true, not_or, Bool.not_eq_true] at hblocked
        refine h.goes ht htodo _ (by decide) (fun _ _ => ⟨⟨_,List.mem_append_left _ (List.mem_cons_of_mem _ (List.mem_cons_self ..)),?_⟩,r,hr,hid,?_⟩) ?_
        · dsimp only
          rw [hid]
        · simp only [Bool.or_eq_true, Bool.and_eq_true, decide_eq_true_eq, not_or] at hrefused
          have hended := hrefused.1.2
          unfold live
          cases hstatus : r.status <;> simp_all [RunStatus.terminal]
        · intro l hl runId hresource t' ht' hne
          simp only [List.mem_cons, List.not_mem_nil, or_false] at hl
          rcases hl with rfl | rfl
          · cases hresource
          · cases hresource
            exact not_holds_of_blocked hblocked.2 ht' hne
    · cases hs
      exact h.ends t.id

theorem does (h : Kept w) (ht : t ∈ w.txs) {window : ℕ} {phase : Phase} {rest : List Phase}
    (htodo : t.todo = phase :: rest) (hs : Caps.step w t window phase rest = .ok w') : Kept w' := by
  cases phase with
  | opening => exact h.admits ht htodo hs
  | rate =>
    simp only [Caps.step] at hs
    split_ifs at hs
    cases hs
    refine h.goes ht htodo _ (by decide) nofun ?_
    intro l hl runId hresource
    cases List.mem_singleton.mp hl
    cases hresource
  | caps =>
    simp only [Caps.step] at hs
    cases hs
    split_ifs
    · exact h.reads ht htodo
    · exact h.ends t.id
  | capacity =>
    simp only [Caps.step] at hs
    split_ifs at hs
    cases hs
    refine h.goes ht htodo _ (by decide) nofun ?_
    intro l hl runId hresource
    cases List.mem_singleton.mp hl
    cases hresource
  | write =>
    simp only [Caps.step, Caps.write] at hs
    split at hs
    · rename_i row hwritten
      split_ifs at hs with hlive hother
      · cases hs
        exact h.ends t.id
      · cases hs
        exact h.writes ht htodo hwritten (Bool.eq_false_iff.mpr hlive) (Bool.eq_false_iff.mpr hother)
    · cases hs

theorem step (h : Kept w) (hs : Step w e w') : Kept w' := by
  unfold Step Applied at hs
  cases e with
  | begins tx request =>
    simp only [apply] at hs
    split_ifs at hs with hany
    cases hs
    exact h.begins (Bool.eq_false_iff.mpr hany) request
  | does tx window =>
    simp only [apply] at hs
    split at hs
    · rename_i t hfind
      split at hs
      · rename_i htodo
        exact h.does (List.mem_of_find?_eq_some hfind) htodo hs
      · cases hs
    · cases hs
  | commits tx =>
    simp only [apply] at hs
    split at hs
    · rename_i t hfind
      split at hs
      · rename_i hrow
        cases hs
        obtain ⟨ht,rfl⟩ := of_find?_key hfind
        exact h.commits ht hrow
      · cases hs
    · cases hs
  | refuses tx =>
    cases hs
    exact h.ends tx
  | changes runId status =>
    simp only [apply] at hs
    split at hs
    · rename_i r hfind
      obtain ⟨hr,rfl⟩ := of_find?_key hfind
      split_ifs at hs with hrefused
      cases hs
      simp only [Bool.or_eq_true, not_or, Bool.not_eq_true, Bool.not_eq_false'] at hrefused
      refine h.changes hr hrefused.1 (fun t ht hheld => ?_) status
      obtain ⟨l,hl,hresource⟩ := hheld
      exact List.any_eq_false.mp (Bool.eq_false_iff.mpr (List.any_eq_false.mp hrefused.2 t ht)) l hl (decide_eq_true hresource)
    · cases hs
  | settings next =>
    cases hs
    exact h.settings next
  | tokens tokensToday =>
    cases hs
    exact ⟨h.ids,h.one,h.txIds,fun t ht => (h.each t ht).congr rfl rfl rfl,h.apart,h.locksApart⟩

theorem initial (h : Initial w) : Kept w := by
  obtain ⟨hruns,htxs,hlog⟩ := h
  constructor
  · rw [hruns]
    exact List.nodup_nil
  · intro r hr
    rw [hruns] at hr
    cases hr
  · rw [htxs]
    exact List.nodup_nil
  all_goals
    intro t ht
    rw [htxs] at ht
    cases ht

end Kept

theorem Kept.of_reachable (h : Reachable Initial Step w) : Kept w :=
  h.invariant (fun _ hw => .initial hw) fun _ _ _ hw hs => hw.step hs

section Examples

end Examples

end HermesEnterprise.Caps
