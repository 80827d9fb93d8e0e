import HermesEnterprise.AgentCash.System

/-! # What a lease leaves behind

A screening row is leased once, and a creator search keeps its run in the attempt that leased it: the
row names the run's runtime run, which a retry looks for. The contact row of a run counts its calls.
-/
namespace HermesEnterprise.AgentCash
open Approvals hiding RunId
open Foundation.CanonicalJson Foundation.Tables Foundation.Runs RunLog Recovery

variable {db db' : Db} {ds ds' : List Discovery} {hs new : List Entry} {s t : ScreeningRow} {e : ContactLeaseRow}
  {l : Lease} {r run : RunRow} {w w' : World}

section Entries
variable {subject : Subject} {entry : Entry}

theorem entriesOf_append : entriesOf (hs ++ new) subject = entriesOf hs subject ++ entriesOf new subject :=
  List.filter_append _ _

theorem entriesOf_of_ne (h : ∀ entry ∈ new, entry.subject ≠ subject) : entriesOf (hs ++ new) subject = entriesOf hs subject := by
  have hnone : entriesOf new subject = [] := List.filter_eq_nil_iff.mpr fun entry hentry => by simpa using h entry hentry
  rw [entriesOf_append, hnone, List.append_nil]

theorem entriesOf_self (h : entry.subject = subject) : entriesOf (hs ++ [entry]) subject = entriesOf hs subject ++ [entry] := by
  rw [entriesOf_append]
  exact congrArg (entriesOf hs subject ++ ·) (List.filter_cons_of_pos (decide_eq_true h))

theorem mem_leasesOf : l ∈ leasesOf hs ↔ .leased l ∈ hs := by
  unfold leasesOf
  rw [List.mem_filterMap]
  constructor
  · rintro ⟨entry,hentry,hlease⟩
    cases entry with
    | leased lease => cases hlease; exact hentry
    | imported => cases hlease
  · exact fun h => ⟨_,h,rfl⟩

theorem leasesOf_append : leasesOf (hs ++ new) = leasesOf hs ++ leasesOf new := List.filterMap_append

theorem granted_append (p : PaidCall → Bool) : granted (hs ++ new) p = granted hs p + granted new p := by
  unfold granted
  rw [leasesOf_append, List.filter_append, List.length_append]

/-- Leases that are all held in one row are counted among its entries. -/
theorem granted_le_entries {p : PaidCall → Bool} (h : ∀ l ∈ leasesOf hs, p l.call = true → l.subject = subject) :
    granted hs p ≤ granted (entriesOf hs subject) p := by
  induction hs with
  | nil => exact Nat.le_refl _
  | cons entry rest ih =>
    have hrest := ih fun l hl => h l (mem_leasesOf.mpr (List.mem_cons_of_mem _ (mem_leasesOf.mp hl)))
    have hsplit : granted (entry :: rest) p = granted [entry] p + granted rest p := @granted_append [entry] rest p
    have hentries : entriesOf (entry :: rest) subject = entriesOf [entry] subject ++ entriesOf rest subject :=
      @entriesOf_append [entry] rest subject
    rw [hsplit, hentries, granted_append]
    refine Nat.add_le_add ?_ hrest
    by_cases hsubject : entry.subject = subject
    · rw [show entriesOf [entry] subject = [entry] from List.filter_cons_of_pos (decide_eq_true hsubject)]
    · cases entry with
      | imported => exact Nat.zero_le _
      | leased lease =>
        have hno : p lease.call ≠ true := fun hp => hsubject (h lease (mem_leasesOf.mpr (List.mem_cons_self ..)) hp)
        have hzero : granted [.leased lease] p = 0 := by
          unfold granted
          rw [List.length_eq_zero_iff, List.filter_eq_nil_iff]
          intro l hl
          rw [List.mem_singleton.mp hl]
          exact hno
        omega

end Entries

section Invariant

/-- A screening row and its entries: none, a lease, or a lease and its import. -/
def ScreeningKept (hs : List Entry) (s : ScreeningRow) : Prop :=
  (s.agentcashToolCallId = none ∧ entriesOf hs (.screening s.id) = []) ∨
    ∃ l : Lease, s.agentcashToolCallId = some l.toolCallId ∧ l.subject = .screening s.id ∧
      (entriesOf hs (.screening s.id) = [.leased l] ∨
        (s.status = .completed ∧ entriesOf hs (.screening s.id) = [.leased l,.imported l.subject l.toolCallId]))

/-- The lease that a contact row holds, if any. -/
def Holds (e : ContactLeaseRow) : Option Lease → Prop
  | none => e.pendingKind = none
  | some l => l.subject = .contact e.runId ∧ e.pendingToolCallId = some l.toolCallId ∧
      ∃ kind, e.pendingKind = some kind ∧ l.call = .contact e.runId kind e.candidateId

/-- How many leases of a kind the contact row's entries have. -/
def contactLeases (hs : List Entry) (runId : RunId) (kind : ContactCallKind) : ℕ :=
  granted (entriesOf hs (.contact runId)) (PaidCall.isContact runId kind)

structure ContactKept (hs : List Entry) (e : ContactLeaseRow) : Prop where
  paired : ∃ held, Paired (entriesOf hs (.contact e.runId)) held ∧ Holds e held
  candidate : ∀ l ∈ leasesOf (entriesOf hs (.contact e.runId)), ∃ kind, l.call = .contact e.runId kind e.candidateId
  enrichment : contactLeases hs e.runId .enrichment ≤ 1
  verification : contactLeases hs e.runId .verification ≤ 1
  polls : contactLeases hs e.runId .verificationPoll = e.verificationPollCount
  pollBound : e.verificationPollCount ≤ 5
  unverified : e.status = .enrichmentReserved ∨ e.status = .enriched → contactLeases hs e.runId .verification = 0
  reserved : e.pendingKind = some .enrichment → e.status = .enrichmentReserved

/-- The run of a creator search stays in the attempt that leased it, and the row names its runtime run. -/
def CreatorLease (db : Db) (l : Lease) (runId : RunId) (kind : CreatorKind) : Prop :=
  ∃ run ∈ db.runs, run.id = runId ∧ kind ∈ requestedCreatorSearchKinds run.prompt ∧
    run.runtimeAttempt = some run.attempt ∧ ∃ remote, run.runtimeRunId = some remote ∧
      ∃ s ∈ db.screenings, l.subject = .screening s.id ∧ s.agentId = run.agentId ∧ s.source = .agentcashCreators ∧
        s.config = .creators remote kind ∧ s.idempotencyKey = creatorRunKey remote kind

def LeaseKept (db : Db) (l : Lease) : Prop :=
  match l.call with
  | .peopleSearch id => l.subject = .screening id
  | .creatorSearch runId kind => CreatorLease db l runId kind
  | .contact runId _ _ => l.subject = .contact runId

def Known (db : Db) : Subject → Prop
  | .screening id => ∃ s ∈ db.screenings, s.id = id
  | .contact runId => ∃ e ∈ db.contacts, e.runId = runId

structure RowKept (hs : List Entry) (s : ScreeningRow) : Prop where
  check : leaseCheck s = true
  creators : s.source = .agentcashCreators → s.status ≠ .failed ∧ ∃ remote kind, s.idempotencyKey = creatorRunKey remote kind
  entries : ScreeningKept hs s

structure Kept (db : Db) (ds : List Discovery) (hs : List Entry) : Prop where
  runIds : (db.runs.map (·.id)).Nodup
  ids : (db.screenings.map (·.id)).Nodup
  keys : ∀ s ∈ db.screenings, ∀ t ∈ db.screenings, s.agentId = t.agentId → s.idempotencyKey = t.idempotencyKey → s = t
  contactRuns : (db.contacts.map (·.runId)).Nodup
  rows : ∀ s ∈ db.screenings, RowKept hs s
  contacts : ∀ e ∈ db.contacts, ContactKept hs e
  leases : ∀ l ∈ leasesOf hs, LeaseKept db l
  subjects : ∀ entry ∈ hs, Known db entry.subject
  discoveries : ∀ d ∈ ds, ∃ s ∈ db.screenings, s.id = d.screeningId ∧ s.source ≠ .agentcashCreators

theorem RowKept.used (h : RowKept hs s) {toolCallId : ToolCallId} (htool : s.agentcashToolCallId = some toolCallId) :
    s.apiRequestsUsed = 1 ∧ s.source ≠ .github := by
  have hcheck := h.check
  unfold leaseCheck at hcheck
  cases hsource : s.source <;> simp [hsource, htool] at hcheck <;> exact ⟨hcheck,by simp⟩

/-- A row that is not leased has no entries. -/
theorem RowKept.unleased (h : RowKept hs s) (htool : s.agentcashToolCallId = none) : entriesOf hs (.screening s.id) = [] := by
  rcases h.entries with ⟨-,hnone⟩ | ⟨l,hl,-⟩
  · exact hnone
  · rw [htool] at hl
    cases hl

theorem ScreeningKept.of_ne (h : ScreeningKept hs s) (hne : ∀ entry ∈ new, entry.subject ≠ .screening s.id) :
    ScreeningKept (hs ++ new) s := by
  unfold ScreeningKept
  rw [entriesOf_of_ne hne]
  exact h

theorem contactLeases_of_ne {runId : RunId} {kind : ContactCallKind} (hne : ∀ entry ∈ new, entry.subject ≠ .contact runId) :
    contactLeases (hs ++ new) runId kind = contactLeases hs runId kind := by
  unfold contactLeases
  rw [entriesOf_of_ne hne]

theorem ContactKept.of_ne (h : ContactKept hs e) (hne : ∀ entry ∈ new, entry.subject ≠ .contact e.runId) :
    ContactKept (hs ++ new) e := by
  refine ⟨?_,?_,?_,?_,?_,h.pollBound,?_,h.reserved⟩
  · rw [entriesOf_of_ne hne]
    exact h.paired
  · rw [entriesOf_of_ne hne]
    exact h.candidate
  · rw [contactLeases_of_ne hne]
    exact h.enrichment
  · rw [contactLeases_of_ne hne]
    exact h.verification
  · rw [contactLeases_of_ne hne]
    exact h.polls
  · rw [contactLeases_of_ne hne]
    exact h.unverified

end Invariant

section Frames

/-- A run that has leased a creator search. -/
def Locked (hs : List Entry) (runId : RunId) : Prop := ∃ l ∈ leasesOf hs, ∃ kind, l.call = .creatorSearch runId kind

/-- A write to a run. The runtime run of a locked one stays. -/
structure RunMoved (hs : List Entry) (r r' : RunRow) : Prop where
  id : r'.id = r.id
  agentId : r'.agentId = r.agentId
  prompt : r'.prompt = r.prompt
  locked : Locked hs r.id → r.runtimeAttempt = some r.attempt → r.runtimeRunId.isSome →
    r'.runtimeRunId = r.runtimeRunId ∧ r'.runtimeAttempt = some r'.attempt

theorem Kept.mapRuns (h : Kept db ds hs) {f : RunRow → RunRow} (hf : ∀ r ∈ db.runs, RunMoved hs r (f r)) :
    Kept { db with runs := db.runs.map f } ds hs := by
  refine ⟨?_,h.ids,h.keys,h.contactRuns,h.rows,h.contacts,?_,h.subjects,h.discoveries⟩
  · have hids : (db.runs.map f).map (·.id) = db.runs.map (·.id) := by
      rw [List.map_map]
      exact List.map_congr_left fun r hr => (hf r hr).id
    rw [hids]
    exact h.runIds
  · intro l hl
    have hkept := h.leases l hl
    unfold LeaseKept at hkept ⊢
    cases hcall : l.call with
    | peopleSearch id => rw [hcall] at hkept; exact hkept
    | contact => rw [hcall] at hkept; exact hkept
    | creatorSearch runId kind =>
      rw [hcall] at hkept
      obtain ⟨run,hrun,hid,hasked,hattempt,remote,hremote,hrow⟩ := hkept
      have hmoved := hf run hrun
      obtain ⟨hremote',hattempt'⟩ := hmoved.locked ⟨l,hl,kind,hid ▸ hcall⟩ hattempt (by rw [hremote]; rfl)
      refine ⟨f run,List.mem_map_of_mem hrun,hmoved.id.trans hid,by rw [hmoved.prompt]; exact hasked,hattempt',
        remote,hremote'.trans hremote,?_⟩
      rw [hmoved.agentId]
      exact hrow

/-- A write to the runs of one id. -/
theorem Kept.moveRun (h : Kept db ds hs) {runId : RunId} {also : RunRow → Bool} {f : RunRow → RunRow}
    (hf : ∀ r ∈ db.runs, r.id = runId → also r = true → RunMoved hs r (f r)) : Kept (setRun db runId also f) ds hs := by
  refine h.mapRuns fun r hr => ?_
  dsimp only
  split
  next hp =>
    obtain ⟨hid,halso⟩ := Bool.and_eq_true_iff.mp hp
    exact hf r hr (of_decide_eq_true hid) halso
  next => exact ⟨rfl,rfl,rfl,fun _ hattempt _ => ⟨rfl,hattempt⟩⟩

/-- What an update of a screening row keeps. -/
structure Moved (s s' : ScreeningRow) : Prop where
  id : s'.id = s.id
  agentId : s'.agentId = s.agentId
  idempotencyKey : s'.idempotencyKey = s.idempotencyKey
  source : s'.source = s.source
  creators : s.source = .agentcashCreators → s'.config = s.config ∧ s'.status ≠ .failed

theorem RowKept.moved (h : RowKept hs s) : Moved s s := ⟨rfl,rfl,rfl,rfl,fun hsource => ⟨rfl,(h.creators hsource).1⟩⟩

theorem LeaseKept.mono (h : LeaseKept db l) (hcover : ∀ s ∈ db.screenings, ∃ s' ∈ db'.screenings, Moved s s')
    (hruns : db'.runs = db.runs) : LeaseKept db' l := by
  unfold LeaseKept at h ⊢
  cases hcall : l.call with
  | peopleSearch id => rw [hcall] at h; exact h
  | contact => rw [hcall] at h; exact h
  | creatorSearch runId kind =>
    rw [hcall] at h
    obtain ⟨run,hrun,hid,hasked,hattempt,remote,hremote,s,hs,hsubject,hagent,hsource,hconfig,hkey⟩ := h
    obtain ⟨s',hs',hm⟩ := hcover s hs
    exact ⟨run,hruns ▸ hrun,hid,hasked,hattempt,remote,hremote,s',hs',by rw [hm.id]; exact hsubject,
      hm.agentId.trans hagent,hm.source.trans hsource,(hm.creators hsource).1.trans hconfig,hm.idempotencyKey.trans hkey⟩

/-- A write to the screening rows. -/
theorem Kept.screenings (h : Kept db ds hs) (hcover : ∀ s ∈ db.screenings, ∃ s' ∈ db'.screenings, Moved s s')
    (hids : (db'.screenings.map (·.id)).Nodup)
    (hkeys : ∀ s ∈ db'.screenings, ∀ t ∈ db'.screenings, s.agentId = t.agentId → s.idempotencyKey = t.idempotencyKey → s = t)
    (hrows : ∀ s ∈ db'.screenings, RowKept (hs ++ new) s)
    (hsubjects : ∀ entry ∈ new, ∃ s ∈ db'.screenings, entry.subject = .screening s.id)
    (hleases : ∀ l ∈ leasesOf new, LeaseKept db' l)
    (hds : ∀ d ∈ ds', d ∈ ds ∨ ∃ s ∈ db'.screenings, s.id = d.screeningId ∧ s.source ≠ .agentcashCreators)
    (hruns : db'.runs = db.runs) (hcontacts : db'.contacts = db.contacts) : Kept db' ds' (hs ++ new) := by
  refine ⟨hruns ▸ h.runIds,hids,hkeys,hcontacts ▸ h.contactRuns,hrows,?_,?_,?_,?_⟩
  · intro e he
    refine (h.contacts e (hcontacts ▸ he)).of_ne fun entry hentry hsubject => ?_
    obtain ⟨s,-,hs⟩ := hsubjects entry hentry
    rw [hs] at hsubject
    cases hsubject
  · intro l hl
    rw [leasesOf_append] at hl
    rcases List.mem_append.mp hl with hl | hl
    · exact (h.leases l hl).mono hcover hruns
    · exact hleases l hl
  · intro entry hentry
    rcases List.mem_append.mp hentry with hentry | hentry
    · have hknown := h.subjects entry hentry
      unfold Known at hknown ⊢
      split at hknown
      next id =>
        obtain ⟨s,hs,hid⟩ := hknown
        obtain ⟨s',hs',hm⟩ := hcover s hs
        exact ⟨s',hs',hm.id.trans hid⟩
      next =>
        obtain ⟨e,he,hrun⟩ := hknown
        exact ⟨e,hcontacts ▸ he,hrun⟩
    · obtain ⟨s,hs,hsubject⟩ := hsubjects entry hentry
      rw [hsubject]
      exact ⟨s,hs,rfl⟩
  · intro d hd
    rcases hds d hd with hd | hrow
    · obtain ⟨s,hs,hid,hsource⟩ := h.discoveries d hd
      obtain ⟨s',hs',hm⟩ := hcover s hs
      exact ⟨s',hs',hm.id.trans hid,hm.source ▸ hsource⟩
    · exact hrow

/-- The rows of one id are updated, and perhaps it is leased for a people search, or imported. -/
theorem Kept.moveScreening (h : Kept db ds hs) {f : ScreeningRow → ScreeningRow} (hs₀ : s ∈ db.screenings)
    (hmoved : Moved s (f s)) (hcheck : leaseCheck (f s) = true) (hkept : ScreeningKept (hs ++ new) (f s))
    (hsubjects : ∀ entry ∈ new, entry.subject = .screening s.id)
    (hleases : ∀ l ∈ leasesOf new, l.call = .peopleSearch s.id) (hds : ∀ d ∈ ds', d ∈ ds)
    (hscreenings : db'.screenings = updateWhere (fun t => t.id = s.id) f db.screenings)
    (hruns : db'.runs = db.runs) (hcontacts : db'.contacts = db.contacts) : Kept db' ds' (hs ++ new) := by
  have hcases : ∀ t ∈ db'.screenings, t = f s ∨ (t ∈ db.screenings ∧ t.id ≠ s.id) := by
    intro t ht
    rw [hscreenings] at ht
    exact mem_updateWhere_key h.ids hs₀ ht
  have hself : f s ∈ db'.screenings := by
    rw [hscreenings]
    exact mem_updateWhere.mpr (Or.inl ⟨s,hs₀,decide_eq_true rfl,rfl⟩)
  have hother : ∀ t ∈ db.screenings, t.id ≠ s.id → t ∈ db'.screenings := by
    intro t ht hid
    rw [hscreenings]
    exact mem_updateWhere.mpr (Or.inr ⟨ht,decide_eq_false hid⟩)
  have hback : ∀ t ∈ db'.screenings, ∃ t₀ ∈ db.screenings, t.id = t₀.id ∧ t.agentId = t₀.agentId ∧
      t.idempotencyKey = t₀.idempotencyKey ∧ (t = f s ∧ t₀ = s ∨ t = t₀) := by
    intro t ht
    rcases hcases t ht with rfl | ⟨ht,-⟩
    · exact ⟨s,hs₀,hmoved.id,hmoved.agentId,hmoved.idempotencyKey,Or.inl ⟨rfl,rfl⟩⟩
    · exact ⟨t,ht,rfl,rfl,rfl,Or.inr rfl⟩
  refine h.screenings (fun t ht => ?_) ?_ ?_ ?_ ?_ ?_ (fun d hd => Or.inl (hds d hd)) hruns hcontacts
  · by_cases hid : t.id = s.id
    · rw [List.inj_on_of_nodup_map h.ids ht hs₀ hid]
      exact ⟨f s,hself,hmoved⟩
    · exact ⟨t,hother t ht hid,(h.rows t ht).moved⟩
  · rw [hscreenings, map_updateWhere]
    · exact h.ids
    · intro t ht hid
      rw [List.inj_on_of_nodup_map h.ids ht hs₀ (of_decide_eq_true hid)]
      exact hmoved.id
  · intro t ht u hu hagent hkey
    obtain ⟨t₀,ht₀,hidt,hat,hkt,hct⟩ := hback t ht
    obtain ⟨u₀,hu₀,hidu,hau,hku,hcu⟩ := hback u hu
    have hsame := h.keys t₀ ht₀ u₀ hu₀ (hat ▸ hau ▸ hagent) (hkt ▸ hku ▸ hkey)
    rcases hcases t ht with rfl | ⟨ht',hidt'⟩ <;> rcases hcases u hu with rfl | ⟨hu',hidu'⟩
    · rfl
    · exact absurd (hidu.trans (hsame ▸ hidt.symm.trans hmoved.id)) hidu'
    · exact absurd (hidt.trans (hsame ▸ hidu.symm.trans hmoved.id)) hidt'
    · exact List.inj_on_of_nodup_map h.ids ht' hu' (hidt.trans (hsame ▸ hidu.symm))
  · intro t ht
    rcases hcases t ht with rfl | ⟨ht,hid⟩
    · refine ⟨hcheck,fun hsource => ?_,hkept⟩
      rw [hmoved.source] at hsource
      rw [hmoved.idempotencyKey]
      exact ⟨(hmoved.creators hsource).2,((h.rows s hs₀).creators hsource).2⟩
    · have hrow := h.rows t ht
      refine ⟨hrow.check,hrow.creators,hrow.entries.of_ne fun entry hentry hsubject => ?_⟩
      rw [hsubjects entry hentry] at hsubject
      injection hsubject with hsubject
      exact hid hsubject.symm
  · intro entry hentry
    exact ⟨f s,hself,by rw [hmoved.id]; exact hsubjects entry hentry⟩
  · intro l hl
    unfold LeaseKept
    rw [hleases l hl]
    exact hsubjects _ (mem_leasesOf.mp hl)

/-- A row under a new id and a new key. -/
theorem Kept.addScreening (h : Kept db ds hs) (hid : ∀ t ∈ db.screenings, t.id ≠ s.id)
    (hkey : ∀ t ∈ db.screenings, t.agentId = s.agentId → t.idempotencyKey ≠ s.idempotencyKey)
    (hrow : RowKept (hs ++ new) s) (hsubjects : ∀ entry ∈ new, entry.subject = .screening s.id)
    (hleases : ∀ l ∈ leasesOf new, LeaseKept { db with screenings := db.screenings ++ [s] } l)
    (hds : ∀ d ∈ ds', d ∈ ds ∨ d.screeningId = s.id ∧ s.source ≠ .agentcashCreators) :
    Kept { db with screenings := db.screenings ++ [s] } ds' (hs ++ new) := by
  have hself : s ∈ db.screenings ++ [s] := List.mem_append_right _ (List.mem_singleton_self s)
  refine h.screenings (fun t ht => ⟨t,List.mem_append_left _ ht,(h.rows t ht).moved⟩) ?_ ?_ ?_ ?_ hleases ?_ rfl rfl
  · rw [List.map_append, List.map_singleton]
    refine h.ids.append (List.nodup_singleton _) ?_
    intro i hi hi'
    obtain ⟨t,ht,rfl⟩ := List.mem_map.mp hi
    exact hid t ht (List.mem_singleton.mp hi')
  · intro t ht u hu hagent hsame
    rcases List.mem_append.mp ht with ht | ht <;> rcases List.mem_append.mp hu with hu | hu
    · exact h.keys t ht u hu hagent hsame
    · cases List.mem_singleton.mp hu
      exact absurd hsame (hkey t ht hagent)
    · cases List.mem_singleton.mp ht
      exact absurd hsame.symm (hkey u hu hagent.symm)
    · rw [List.mem_singleton.mp ht, List.mem_singleton.mp hu]
  · intro t ht
    rcases List.mem_append.mp ht with ht | ht
    · have hold := h.rows t ht
      refine ⟨hold.check,hold.creators,hold.entries.of_ne fun entry hentry hsubject => ?_⟩
      rw [hsubjects entry hentry] at hsubject
      injection hsubject with hsubject
      exact hid t ht hsubject.symm
    · rw [List.mem_singleton.mp ht]
      exact hrow
  · exact fun entry hentry => ⟨s,hself,hsubjects entry hentry⟩
  · intro d hd
    rcases hds d hd with hd | ⟨hd,hsource⟩
    · exact Or.inl hd
    · exact Or.inr ⟨s,hself,hd.symm,hsource⟩

/-- A write to the contact rows. -/
theorem Kept.moveContacts (h : Kept db ds hs) (hcover : ∀ e ∈ db.contacts, ∃ e' ∈ db'.contacts, e'.runId = e.runId)
    (hnodup : (db'.contacts.map (·.runId)).Nodup) (hcontacts : ∀ e ∈ db'.contacts, ContactKept (hs ++ new) e)
    (hsubjects : ∀ entry ∈ new, ∃ e ∈ db'.contacts, entry.subject = .contact e.runId)
    (hleases : ∀ l ∈ leasesOf new, ∃ runId kind candidateId, l.call = .contact runId kind candidateId ∧ l.subject = .contact runId)
    (hruns : db'.runs = db.runs) (hscreenings : db'.screenings = db.screenings) : Kept db' ds (hs ++ new) := by
  refine ⟨hruns ▸ h.runIds,hscreenings ▸ h.ids,hscreenings ▸ h.keys,hnodup,?_,hcontacts,?_,?_,hscreenings ▸ h.discoveries⟩
  · intro s hs
    have hrow := h.rows s (hscreenings ▸ hs)
    refine ⟨hrow.check,hrow.creators,hrow.entries.of_ne fun entry hentry hsubject => ?_⟩
    obtain ⟨e,-,he⟩ := hsubjects entry hentry
    rw [he] at hsubject
    cases hsubject
  · intro l hl
    rw [leasesOf_append] at hl
    rcases List.mem_append.mp hl with hl | hl
    · refine (h.leases l hl).mono (fun s hs => ⟨s,hscreenings ▸ hs,(h.rows s hs).moved⟩) hruns
    · obtain ⟨runId,kind,candidateId,hcall,hsubject⟩ := hleases l hl
      unfold LeaseKept
      rw [hcall]
      exact hsubject
  · intro entry hentry
    rcases List.mem_append.mp hentry with hentry | hentry
    · have hknown := h.subjects entry hentry
      unfold Known at hknown ⊢
      split at hknown
      next id => exact hscreenings ▸ hknown
      next =>
        obtain ⟨e,he,hrun⟩ := hknown
        obtain ⟨e',he',hrun'⟩ := hcover e he
        exact ⟨e',he',hrun'.trans hrun⟩
    · obtain ⟨e,he,hsubject⟩ := hsubjects entry hentry
      rw [hsubject]
      exact ⟨e,he,rfl⟩

end Frames
end HermesEnterprise.AgentCash
