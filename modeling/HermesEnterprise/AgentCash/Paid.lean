import HermesEnterprise.AgentCash.Allowances

/-! # Paid calls stay within their allowance

A retry of a run that leased a creator search is refused, so every step keeps what the leases left in
the rows. Counting the entries of each row then bounds what was ever leased.
-/
namespace HermesEnterprise.AgentCash
open Approvals hiding RunId
open Foundation.CanonicalJson Foundation.Tables Foundation.Runs RunLog Recovery

variable {db db' : Db} {ds ds' : List Discovery} {hs new : List Entry} {s t : ScreeningRow} {e : ContactLeaseRow}
  {l : Lease} {r run : RunRow} {w w' : World} {agentId : AgentId} {o : Outcome} {f : Found} {runId : RunId}

section Runs

theorem RunMoved.written {r' : RunRow} (hid : r'.id = r.id) (hagent : r'.agentId = r.agentId) (hprompt : r'.prompt = r.prompt)
    (hremote : r'.runtimeRunId = r.runtimeRunId) (hruntime : r'.runtimeAttempt = r.runtimeAttempt)
    (hattempt : r'.attempt = r.attempt) : RunMoved hs r r' := by
  refine ⟨hid,hagent,hprompt,fun _ hcurrent _ => ⟨hremote,?_⟩⟩
  rw [hruntime, hcurrent, hattempt]

theorem Kept.addRun (h : Kept db ds hs) (hid : ∀ r ∈ db.runs, r.id ≠ run.id) : Kept { db with runs := db.runs ++ [run] } ds hs := by
  refine ⟨?_,h.ids,h.keys,h.contactRuns,h.rows,h.contacts,?_,h.subjects,h.discoveries⟩
  · rw [List.map_append, List.map_singleton]
    refine h.runIds.append (List.nodup_singleton _) ?_
    intro i hi hi'
    obtain ⟨r,hr,rfl⟩ := List.mem_map.mp hi
    exact hid r hr (List.mem_singleton.mp hi')
  · intro l hl
    have hkept := h.leases l hl
    unfold LeaseKept at hkept ⊢
    cases hcall : l.call with
    | peopleSearch id => rw [hcall] at hkept; exact hkept
    | contact => rw [hcall] at hkept; exact hkept
    | creatorSearch runId kind =>
      rw [hcall] at hkept
      obtain ⟨run',hrun,hrow⟩ := hkept
      exact ⟨run',List.mem_append_left _ hrun,hrow⟩

theorem Kept.bind (h : Kept db ds hs) {attempt : ℕ} {remote : RuntimeRunId} (hb : bindRun db runId attempt remote = .ok db') :
    Kept db' ds hs := by
  unfold bindRun at hb
  obtain ⟨u,-,hb⟩ := Result.bind_eq_ok.mp hb
  obtain rfl := Result.pure_eq_ok.mp hb
  refine h.moveRun fun r hr _ halso => ⟨rfl,rfl,rfl,fun _ hcurrent hsome => ?_⟩
  simp only [Bool.and_eq_true, Bool.or_eq_true, decide_eq_true_eq] at halso
  obtain ⟨⟨⟨hattempt,-⟩,-⟩,hfree⟩ := halso
  refine ⟨?_,congrArg some hattempt.symm⟩
  rcases hfree with (hother | hnone) | hsame
  · exact absurd (hattempt ▸ hcurrent) hother
  · rw [Option.isNone_iff_eq_none.mp hnone] at hsome
    cases hsome
  · exact hsame.symm

/-- A retry looks for the row of the search under the run's runtime run. -/
theorem Kept.retry_blocked (h : Kept db ds hs) (hr : r ∈ db.runs) (hlocked : Locked hs r.id) :
    (inspectRecoverySafety (evidence db) r.agentId r.id r.clientTurnId r.runtimeRunId).blockedReason.isNone = false := by
  obtain ⟨l,hl,kind,hcall⟩ := hlocked
  have hkept := h.leases l hl
  unfold LeaseKept at hkept
  rw [hcall] at hkept
  obtain ⟨run,hrun,hid,-,-,remote,hremote,s,hs₀,-,hagent,hsource,hconfig,-⟩ := hkept
  obtain rfl : run = r := List.inj_on_of_nodup_map h.runIds hrun hr hid
  have hpaid : ∀ screening, otherPaidWork (evidence db) run.agentId run.id run.runtimeRunId screening = true := by
    intro screening
    refine Bool.or_eq_true_iff.mpr (Or.inl (List.any_eq_true.mpr ⟨_,List.mem_map_of_mem hs₀,?_⟩))
    simp [hagent, hsource, hconfig, hremote, Source.text, ConfigSnapshot.runtimeRunId]
  unfold inspectRecoverySafety
  split
  next => rfl
  next =>
    split
    next blocked hblocked =>
      unfold requestsBlock at hblocked
      dsimp only at hblocked
      split at hblocked
      next => cases hblocked; rfl
      next =>
        split at hblocked
        next => cases hblocked; rfl
        next => cases hblocked
    next =>
      split
      next blocked hblocked =>
        unfold screeningOf at hblocked
        split at hblocked
        next => cases hblocked
        next =>
          split at hblocked
          next => cases hblocked; rfl
          next =>
            split at hblocked
            next => cases hblocked; rfl
            next =>
              split at hblocked
              next => cases hblocked; rfl
              next => cases hblocked
      next screening _ =>
        rw [if_pos (hpaid screening)]
        rfl

theorem Kept.retry (h : Kept db ds hs) (hretry : retryTask db runId = .ok db') : Kept db' ds hs := by
  unfold retryTask at hretry
  split at hretry
  next => cases hretry
  next run hrun =>
    obtain ⟨hmem,hid⟩ := of_find?_key hrun
    obtain ⟨u,-,hretry⟩ := Result.bind_eq_ok.mp hretry
    obtain ⟨u',hsafe,hretry⟩ := Result.bind_eq_ok.mp hretry
    obtain rfl := Result.pure_eq_ok.mp hretry
    refine h.moveRun fun r hr hsame _ => ⟨rfl,rfl,rfl,fun hlocked => ?_⟩
    obtain rfl : r = run := List.inj_on_of_nodup_map h.runIds hr hmem (hsame.trans hid.symm)
    have hblocked := h.retry_blocked hr hlocked
    rw [require_eq_ok.mp hsafe] at hblocked
    cases hblocked

theorem Kept.start (h : Kept db ds hs) {turn : Turn} (hs₀ : startRun db turn = .ok db') : Kept db' ds hs := by
  unfold startRun at hs₀
  obtain ⟨u,hfresh,hs₀⟩ := Result.bind_eq_ok.mp hs₀
  obtain rfl := Result.pure_eq_ok.mp hs₀
  exact h.addRun fun r hr => of_decide_eq_true (List.all_eq_true.mp (require_eq_ok.mp hfresh) r hr)

end Runs

section Screenings
variable {userId : UserId} {key : String} {config : PartnerAgentConfig} {newId : ScreeningId} {fresh : Bool}

def resumed (config : PartnerAgentConfig) (s : ScreeningRow) : ScreeningRow :=
  { s with status := .running, config := .agent config, apiRequestsUsed := 0, agentcashToolCallId := none }

/-- A screening is new, is there already, or failed without a lease and is taken up again. -/
inductive Begun (db : Db) (agentId : AgentId) (key : String) (config : PartnerAgentConfig) : ScreeningRow → Bool → Db → Prop
  | made {s : ScreeningRow} (hid : ∀ t ∈ db.screenings, t.id ≠ s.id)
      (hkey : ∀ t ∈ db.screenings, t.agentId = s.agentId → t.idempotencyKey ≠ s.idempotencyKey)
      (hsource : s.source ≠ .agentcashCreators) (htool : s.agentcashToolCallId = none) (hused : s.apiRequestsUsed = 0) :
      Begun db agentId key config s true { db with screenings := db.screenings ++ [s] }
  | found {s : ScreeningRow} (hmem : s ∈ db.screenings) (hkey : s.idempotencyKey = key) : Begun db agentId key config s false db
  | taken {s : ScreeningRow} (hmem : s ∈ db.screenings) (hfailed : s.status = .failed)
      (hunpaid : s.source = .agentcashPeople → s.apiRequestsUsed = 0) :
      Begun db agentId key config (resumed config s) true (setScreening db s.id (resumed config))

theorem beginPartnerScreening_begun (h : beginPartnerScreening db userId agentId key config newId = .ok (s,fresh,db')) :
    Begun db agentId key config s fresh db' := by
  unfold beginPartnerScreening at h
  split at h
  next hnone =>
    obtain ⟨u,hfresh,h⟩ := Result.bind_eq_ok.mp h
    cases Result.pure_eq_ok.mp h
    refine .made (fun t ht => of_decide_eq_true (List.all_eq_true.mp (require_eq_ok.mp hfresh) t ht)) ?_ ?_ rfl rfl
    · intro t ht hagent hkey
      exact List.find?_eq_none.mp hnone t ht (Bool.and_eq_true_iff.mpr ⟨decide_eq_true hagent,decide_eq_true hkey⟩)
    · show config.source.source ≠ _
      cases config.source <;> decide
  next run hfound =>
    have hmem := List.mem_of_find?_eq_some hfound
    have hrow := List.find?_some hfound
    simp only [Bool.and_eq_true, decide_eq_true_eq] at hrow
    split at h
    next => cases h
    next =>
      split at h
      next =>
        cases Result.pure_eq_ok.mp h
        exact .found hmem hrow.2
      next hfailed =>
        split at h
        next => cases h
        next hpaid =>
          cases Result.pure_eq_ok.mp h
          refine .taken hmem (not_not.mp hfailed) fun hsource => ?_
          exact Nat.eq_zero_of_not_pos fun hpos => hpaid ⟨hsource,hpos⟩

theorem creatorRunKey_ne (remote : RuntimeRunId) (kind : CreatorKind) (bucket : String) :
    creatorRunKey remote kind ≠ "auto:" ++ bucket := by
  intro h
  have hhead := congrArg (fun k => k.toList.head?) h
  cases kind <;> simp [creatorRunKey, String.toList_append] at hhead

/-- A row that failed has no lease, unless its search was paid. -/
theorem RowKept.unpaid (h : RowKept hs s) (hfailed : s.status = .failed)
    (hunpaid : s.source = .agentcashPeople → s.apiRequestsUsed = 0) : s.agentcashToolCallId = none := by
  cases htool : s.agentcashToolCallId with
  | none => rfl
  | some toolCallId =>
    obtain ⟨hused,hsource⟩ := h.used htool
    cases hs₀ : s.source with
    | github => exact absurd hs₀ hsource
    | agentcashCreators => exact absurd hfailed (h.creators hs₀).1
    | agentcashPeople =>
      have hzero := hunpaid hs₀
      omega

theorem Kept.begin {origin : Origin} (h : Kept db ds hs) (hbegun : Begun db agentId origin.key config s fresh db') :
    Kept db' (ds ++ discoveryOf userId agentId origin config s fresh) hs := by
  have hdiscovery : ∀ d ∈ discoveryOf userId agentId origin config s fresh, d.screeningId = s.id ∧
      (fresh = true ∨ ∃ bucket, origin = .automation bucket) := by
    intro d hd
    unfold discoveryOf at hd
    obtain ⟨hdue,hd⟩ := List.mem_ite_nil_right.mp hd
    rw [List.mem_singleton.mp hd]
    refine ⟨rfl,?_⟩
    cases origin with
    | route => exact Or.inl hdue.2
    | automation bucket => exact Or.inr ⟨bucket,rfl⟩
  rw [← List.append_nil hs]
  cases hbegun with
  | made hid hkey hsource htool hused =>
    refine h.addScreening hid hkey ?_ (fun _ hentry => by cases hentry) (fun _ hl => by cases hl) fun d hd => ?_
    · refine ⟨?_,fun hcreators => absurd hcreators hsource,Or.inl ⟨htool,?_⟩⟩
      · unfold leaseCheck
        rw [htool, hused]
        split <;> rfl
      · rw [List.append_nil]
        exact h.unknown fun ⟨t,ht,hsame⟩ => hid t ht hsame
    · rcases List.mem_append.mp hd with hd | hd
      · exact Or.inl hd
      · exact Or.inr ⟨(hdiscovery d hd).1,hsource⟩
  | found hmem hkey =>
    rw [List.append_nil]
    refine ⟨h.runIds,h.ids,h.keys,h.contactRuns,h.rows,h.contacts,h.leases,h.subjects,fun d hd => ?_⟩
    rcases List.mem_append.mp hd with hd | hd
    · exact h.discoveries d hd
    · obtain ⟨hid,hfresh | ⟨bucket,rfl⟩⟩ := hdiscovery d hd
      · cases hfresh
      · refine ⟨s,hmem,hid.symm,fun hsource => ?_⟩
        obtain ⟨-,remote,kind,hcreator⟩ := (h.rows s hmem).creators hsource
        exact creatorRunKey_ne remote kind bucket (hcreator.symm.trans hkey)
  | @taken s hmem hfailed hunpaid =>
    have hrow := h.rows s hmem
    have htool := hrow.unpaid hfailed hunpaid
    have hsource : s.source ≠ .agentcashCreators := fun hsource => (hrow.creators hsource).1 hfailed
    have hkept : Kept (setScreening db s.id (resumed config)) ds (hs ++ []) := by
      refine h.moveScreening hmem ⟨rfl,rfl,rfl,rfl,fun hcreators => absurd hcreators hsource⟩ ?_ ?_
        (fun _ hentry => by cases hentry) (fun _ hl => by cases hl) (fun d hd => hd) rfl rfl rfl
      · unfold leaseCheck resumed
        dsimp only
        split <;> rfl
      · rw [List.append_nil]
        exact Or.inl ⟨rfl,hrow.unleased htool⟩
    refine ⟨hkept.runIds,hkept.ids,hkept.keys,hkept.contactRuns,hkept.rows,hkept.contacts,hkept.leases,hkept.subjects,fun d hd => ?_⟩
    rcases List.mem_append.mp hd with hd | hd
    · exact hkept.discoveries d hd
    · exact ⟨resumed config s,mem_updateWhere.mpr (Or.inl ⟨s,hmem,decide_eq_true rfl,rfl⟩),(hdiscovery d hd).1.symm,hsource⟩

/-- A discovery that ends. It is never for a creator search. -/
theorem Kept.discover {n : ℕ} {candidates : List Discovered} {d : Discovery} (h : Kept db ds hs) (hd : d ∈ ds) (hds : ∀ d ∈ ds', d ∈ ds)
    (hdone : completePartnerScreening db d.userId d.screeningId d.agentId candidates n = .ok db') : Kept db' ds' hs := by
  obtain ⟨s,hmem,hid,hcases⟩ := completePartnerScreening_ok hdone
  obtain ⟨t,ht,htid,hsource⟩ := h.discoveries d hd
  obtain rfl : s = t := List.inj_on_of_nodup_map h.ids hmem ht (hid.trans htid.symm)
  rcases hcases with ⟨-,rfl⟩ | ⟨hrunning,hcheck,hscreenings,hruns,hcontacts⟩
  · exact ⟨h.runIds,h.ids,h.keys,h.contactRuns,h.rows,h.contacts,h.leases,h.subjects,fun d hd => h.discoveries d (hds d hd)⟩
  · rw [← List.append_nil hs]
    refine h.moveScreening hmem ⟨rfl,rfl,rfl,rfl,fun hcreators => absurd hcreators hsource⟩ hcheck ?_
      (fun _ hentry => by cases hentry) (fun _ hl => by cases hl) hds (hid ▸ hscreenings) hruns hcontacts
    rw [List.append_nil]
    rcases (h.rows s hmem).entries with hnone | ⟨l,hl,hsubject,hleased | ⟨-,himported⟩⟩
    · exact Or.inl hnone
    · exact Or.inr ⟨l,hl,hsubject,Or.inl hleased⟩
    · exact Or.inr ⟨l,hl,hsubject,Or.inr ⟨rfl,himported⟩⟩

theorem Kept.failDiscovery {d : Discovery} (h : Kept db ds hs) (hd : d ∈ ds) (hds : ∀ d ∈ ds', d ∈ ds) :
    Kept (failPartnerScreening db d.userId d.screeningId) ds' hs := by
  obtain ⟨s,hmem,hid,hsource⟩ := h.discoveries d hd
  let g := fun t : ScreeningRow => if t.createdBy = d.userId && t.status = .running then { t with status := .failed } else t
  have hscreenings : (failPartnerScreening db d.userId d.screeningId).screenings = updateWhere (fun t => t.id = s.id) g db.screenings := by
    refine List.map_congr_left fun t _ => ?_
    rw [hid]
    by_cases hsame : t.id = d.screeningId <;> simp [hsame, g]
  have hg : g s = s ∨ s.status = .running ∧ g s = { s with status := .failed } := by
    dsimp only [g]
    split
    next hp => exact Or.inr ⟨of_decide_eq_true (Bool.and_eq_true_iff.mp hp).2,rfl⟩
    next => exact Or.inl rfl
  have hrow := h.rows s hmem
  rw [← List.append_nil hs]
  refine h.moveScreening hmem ?_ ?_ ?_ (fun _ hentry => by cases hentry) (fun _ hl => by cases hl) hds hscreenings rfl rfl
  · rcases hg with hg | ⟨-,hg⟩ <;> rw [hg] <;> exact ⟨rfl,rfl,rfl,rfl,fun hcreators => absurd hcreators hsource⟩
  · rcases hg with hg | ⟨-,hg⟩ <;> rw [hg] <;> exact hrow.check
  · rw [List.append_nil]
    rcases hg with hg | ⟨hrunning,hg⟩
    · rw [hg]
      exact hrow.entries
    · rw [hg]
      rcases hrow.entries with hnone | ⟨l,hl,hsubject,hleased | ⟨hdone,-⟩⟩
      · exact Or.inl hnone
      · exact Or.inr ⟨l,hl,hsubject,Or.inl hleased⟩
      · rw [hrunning] at hdone
        cases hdone

end Screenings

section Steps
variable {event : Event}

/-- What executing a call does to the world. -/
theorem executes_did {position : ℕ} (h : Kept w.db w.discoveries w.history) (hs₀ : Step w (.executes position) w') :
    ∃ f o, w.found[position]? = some f ∧ Did w.db f o ∧ w'.db = o.db ∧ w'.discoveries = w.discoveries ∧ w'.history = w.history ++ o.entry.toList := by
  unfold Step Applied apply at hs₀
  dsimp only at hs₀
  split at hs₀
  next => cases hs₀
  next f hf =>
    obtain ⟨o,ho,hs₀⟩ := Result.bind_eq_ok.mp hs₀
    obtain rfl := Result.pure_eq_ok.mp hs₀
    exact ⟨f,o,hf,execute_did h.ids ho,rfl,rfl,rfl⟩

theorem Kept.step (h : Kept w.db w.discoveries w.history) (hs₀ : Step w event w') : Kept w'.db w'.discoveries w'.history := by
  cases event with
  | starts turn =>
    obtain ⟨db,hdb,hs₀⟩ := Result.bind_eq_ok.mp hs₀
    obtain rfl := Result.pure_eq_ok.mp hs₀
    exact h.start hdb
  | binds runId attempt remote =>
    obtain ⟨db,hdb,hs₀⟩ := Result.bind_eq_ok.mp hs₀
    obtain rfl := Result.pure_eq_ok.mp hs₀
    exact h.bind hdb
  | setsStatus runId status =>
    cases hs₀
    exact h.moveRun fun r _ _ _ => .written rfl rfl rfl rfl rfl rfl
  | stops runId =>
    cases hs₀
    exact h.moveRun fun r _ _ _ => .written rfl rfl rfl rfl rfl rfl
  | flags runId =>
    cases hs₀
    exact h.moveRun fun r _ _ _ => .written rfl rfl rfl rfl rfl rfl
  | retries runId =>
    obtain ⟨db,hdb,hs₀⟩ := Result.bind_eq_ok.mp hs₀
    obtain rfl := Result.pure_eq_ok.mp hs₀
    exact h.retry hdb
  | surroundings next =>
    cases hs₀
    exact ⟨h.runIds,h.ids,h.keys,h.contactRuns,h.rows,h.contacts,h.leases,h.subjects,h.discoveries⟩
  | begins userId agentId origin config newId =>
    obtain ⟨⟨s,fresh,db⟩,hdb,hs₀⟩ := Result.bind_eq_ok.mp hs₀
    obtain rfl := Result.pure_eq_ok.mp hs₀
    exact h.begin (beginPartnerScreening_begun hdb)
  | discovers d candidates n =>
    obtain ⟨u,hd,hs₀⟩ := Result.bind_eq_ok.mp hs₀
    obtain ⟨db,hdb,hs₀⟩ := Result.bind_eq_ok.mp hs₀
    obtain rfl := Result.pure_eq_ok.mp hs₀
    exact h.discover (of_decide_eq_true (require_eq_ok.mp hd)) (fun _ => List.mem_of_mem_erase) hdb
  | failsDiscovery d =>
    obtain ⟨u,hd,hs₀⟩ := Result.bind_eq_ok.mp hs₀
    obtain rfl := Result.pure_eq_ok.mp hs₀
    exact h.failDiscovery (of_decide_eq_true (require_eq_ok.mp hd)) fun _ => List.mem_of_mem_erase
  | finds action agentId input =>
    obtain ⟨r,-,hs₀⟩ := Result.bind_eq_ok.mp hs₀
    obtain rfl := Result.pure_eq_ok.mp hs₀
    exact h
  | executes position =>
    obtain ⟨f,o,-,hdid,hdb,hdiscoveries,hhistory⟩ := executes_did h hs₀
    rw [hdb, hdiscoveries, hhistory]
    exact h.did hdid

theorem kept_reachable (h : Reachable Initial Step w) : Kept w.db w.discoveries w.history := by
  refine h.invariant (P := fun w => Kept w.db w.discoveries w.history) ?_ fun _ _ _ hk => hk.step
  rintro w ⟨hruns,hscreenings,hcontacts,-,hdiscoveries,hhistory⟩
  refine ⟨?_,?_,?_,?_,?_,?_,?_,?_,?_⟩
  · rw [hruns]; exact List.nodup_nil
  · rw [hscreenings]; exact List.nodup_nil
  · rw [hscreenings]; exact fun _ hs => by cases hs
  · rw [hcontacts]; exact List.nodup_nil
  · rw [hscreenings]; exact fun _ hs => by cases hs
  · rw [hcontacts]; exact fun _ he => by cases he
  · rw [hhistory]; exact fun _ hl => by cases hl
  · rw [hhistory]; exact fun _ he => by cases he
  · rw [hdiscoveries]; exact fun _ hd => by cases hd

end Steps

section Counting
variable {p : PaidCall → Bool}

theorem granted_leased (l : Lease) : granted [.leased l] p ≤ 1 := by
  unfold granted
  exact List.length_filter_le _ [l]

/-- The entries of a screening row hold one lease at most. -/
theorem Kept.screeningOnce (h : Kept db ds hs) (id : ScreeningId) : granted (entriesOf hs (.screening id)) p ≤ 1 := by
  by_cases hknown : Known db (.screening id)
  · obtain ⟨s,hmem,rfl⟩ := hknown
    rcases (h.rows s hmem).entries with ⟨-,hnone⟩ | ⟨l,-,-,hleased | ⟨-,himported⟩⟩
    · rw [hnone]
      exact Nat.zero_le 1
    · rw [hleased]
      exact granted_leased l
    · rw [himported]
      exact granted_leased l
  · rw [h.unknown hknown]
    exact Nat.zero_le 1

theorem Kept.screeningLeases (h : Kept db ds hs) (id : ScreeningId)
    (hsubject : ∀ l ∈ leasesOf hs, p l.call = true → l.subject = .screening id) : granted hs p ≤ 1 :=
  (granted_le_entries hsubject).trans (h.screeningOnce id)

theorem Kept.peopleOnce (h : Kept db ds hs) (id : ScreeningId) : granted hs (fun c => c = .peopleSearch id) ≤ 1 := by
  refine h.screeningLeases id fun l hl hcall => ?_
  have hkept := h.leases l hl
  unfold LeaseKept at hkept
  rwa [of_decide_eq_true hcall] at hkept

theorem Kept.creatorLease (h : Kept db ds hs) {kind : CreatorKind} (hl : l ∈ leasesOf hs) (hcall : l.call = .creatorSearch runId kind) :
    CreatorLease db l runId kind := by
  have hkept := h.leases l hl
  unfold LeaseKept at hkept
  rwa [hcall] at hkept

/-- Two creator searches of a kind for one run are one row's. -/
theorem Kept.creatorsOnce (h : Kept db ds hs) (runId : RunId) (kind : CreatorKind) :
    granted hs (fun c => c = .creatorSearch runId kind) ≤ 1 := by
  by_cases hsome : ∃ l ∈ leasesOf hs, l.call = .creatorSearch runId kind
  · obtain ⟨l,hl,hcall⟩ := hsome
    obtain ⟨run,hrun,hid,-,-,remote,hremote,s,hs₀,hsubject,hagent,-,-,hkey⟩ := h.creatorLease hl hcall
    refine h.screeningLeases s.id fun l' hl' hcall' => ?_
    obtain ⟨run',hrun',hid',-,-,remote',hremote',s',hs',hsubject',hagent',-,-,hkey'⟩ := h.creatorLease hl' (of_decide_eq_true hcall')
    obtain rfl : run' = run := List.inj_on_of_nodup_map h.runIds hrun' hrun (hid'.trans hid.symm)
    have hsame : remote' = remote := Option.some.inj (hremote'.symm.trans hremote)
    have hrows := h.keys s' hs' s hs₀ (hagent'.trans hagent.symm) (by rw [hkey', hkey, hsame])
    exact hsubject'.trans (congrArg (fun s => Subject.screening s.id) hrows)
  · have hzero : granted hs (fun c => c = .creatorSearch runId kind) = 0 := by
      unfold granted
      rw [List.length_eq_zero_iff, List.filter_eq_nil_iff]
      exact fun l hl hcall => hsome ⟨l,hl,of_decide_eq_true hcall⟩
    rw [hzero]
    exact Nat.zero_le 1

theorem Kept.contactSubject (h : Kept db ds hs) {kind : ContactCallKind} {candidateId : CandidateId} (hl : l ∈ leasesOf hs)
    (hcall : l.call = .contact runId kind candidateId) : l.subject = .contact runId := by
  have hkept := h.leases l hl
  unfold LeaseKept at hkept
  rwa [hcall] at hkept

/-- The contact row of a run bounds its leases of each kind. -/
theorem Kept.contactBound (h : Kept db ds hs) {kind : ContactCallKind} {n : ℕ}
    (hbound : ∀ e ∈ db.contacts, ContactKept hs e → e.runId = runId → contactLeases hs runId kind ≤ n) :
    granted hs (PaidCall.isContact runId kind) ≤ n := by
  have hsubject : ∀ l ∈ leasesOf hs, PaidCall.isContact runId kind l.call = true → l.subject = .contact runId := by
    intro l hl hcall
    unfold PaidCall.isContact at hcall
    split at hcall
    next runId' kind' candidateId hl' =>
      obtain rfl := of_decide_eq_true (Bool.and_eq_true_iff.mp hcall).1
      exact h.contactSubject hl hl'
    next => cases hcall
  refine (granted_le_entries hsubject).trans ?_
  by_cases hknown : Known db (.contact runId)
  · obtain ⟨e,he,hrun⟩ := hknown
    exact hbound e he (h.contacts e he) hrun
  · rw [h.unknown hknown]
    exact Nat.zero_le n

theorem Kept.withinAllowance (h : Kept w.db w.discoveries w.history) : WithinAllowance w := by
  refine ⟨h.peopleOnce,h.creatorsOnce,?_,?_,?_,?_,?_⟩
  · intro l hl runId kind hcall
    obtain ⟨run,hrun,hid,hasked,-⟩ := h.creatorLease hl hcall
    exact ⟨run,hrun,hid,hasked⟩
  · exact fun runId => h.contactBound fun e _ hkept hrun => hrun ▸ hkept.enrichment
  · exact fun runId => h.contactBound fun e _ hkept hrun => hrun ▸ hkept.verification
  · exact fun runId => h.contactBound fun e _ hkept hrun => hrun ▸ hkept.polls ▸ hkept.pollBound
  · intro runId
    by_cases hknown : Known w.db (.contact runId)
    · obtain ⟨e,he,rfl⟩ := hknown
      refine ⟨e.candidateId,fun l hl kind candidateId hcall => ?_⟩
      have hsubject := h.contactSubject hl hcall
      have hentry : l ∈ leasesOf (entriesOf w.history (.contact e.runId)) :=
        mem_leasesOf.mpr (List.mem_filter.mpr ⟨mem_leasesOf.mp hl,decide_eq_true hsubject⟩)
      obtain ⟨kind',hcall'⟩ := (h.contacts e he).candidate l hentry
      rw [hcall] at hcall'
      injection hcall'
    · refine ⟨"",fun l hl kind candidateId hcall => absurd ?_ hknown⟩
      have hsubject := h.contactSubject hl hcall
      exact hsubject ▸ h.subjects _ (mem_leasesOf.mp hl)

theorem Kept.paired (h : Kept db ds hs) (subject : Subject) : ∃ held, Paired (entriesOf hs subject) held := by
  by_cases hknown : Known db subject
  · cases subject with
    | screening id =>
      obtain ⟨s,hmem,rfl⟩ := hknown
      rcases (h.rows s hmem).entries with ⟨-,hnone⟩ | ⟨l,-,-,hleased | ⟨-,himported⟩⟩
      · exact ⟨none,hnone ▸ .nil⟩
      · exact ⟨some l,hleased ▸ .leased .nil⟩
      · exact ⟨none,himported ▸ .imported (.leased .nil)⟩
    | contact runId =>
      obtain ⟨e,he,rfl⟩ := hknown
      obtain ⟨held,hpaired,-⟩ := (h.contacts e he).paired
      exact ⟨held,hpaired⟩
  · exact ⟨none,(h.unknown hknown) ▸ .nil⟩

theorem Did.storedPolicy (hdid : Did db f o) (hl : o.entry = some (.leased l)) :
    ∃ policy, StoredPolicy db policy l.call ∧ canonical l.arguments = canonical policy := by
  cases hdid with
  | nothing => cases hl
  | completes => cases hl
  | settles => cases hl
  | @leasesPeople s policy _ hmem _ _ hpolicy harguments =>
    cases hl
    exact ⟨policy,⟨s,hmem,rfl,hpolicy⟩,harguments⟩
  | leasesCreators _ _ _ _ _ _ harguments =>
    cases hl
    exact ⟨_,rfl,harguments⟩
  | @leasesEnrichment c runId _ hc harguments =>
    cases hl
    exact ⟨_,⟨c,hc,rfl,rfl⟩,harguments⟩
  | @leasesVerification e kind profileUrl expected g _ he hkind _ hexpected harguments =>
    cases hl
    refine ⟨expected,?_,harguments⟩
    rcases hkind with ⟨rfl,-⟩ | ⟨rfl,-⟩
    · refine ⟨e,he,rfl,rfl,?_⟩
      unfold expectedContactArguments at hexpected
      dsimp only at hexpected
      split at hexpected
      next => cases hexpected
      next email hemail =>
        cases hexpected
        rw [hemail]
        rfl
    · refine ⟨e,he,rfl,rfl,?_⟩
      unfold expectedContactArguments at hexpected
      dsimp only at hexpected
      split at hexpected
      next => cases hexpected
      next pollUrl hurl =>
        cases hexpected
        rw [hurl]
        rfl

theorem Did.importsHeld (h : Kept db ds hs) (hdid : Did db f o) (himports : f.action.imports = true) (hchanged : o.db ≠ db) :
    ∃ l, Paired (entriesOf hs l.subject) (some l) ∧ f.input.toolCallId = l.toolCallId ∧
      o.entry = some (.imported l.subject l.toolCallId) := by
  cases hdid with
  | nothing => exact absurd rfl hchanged
  | leasesPeople hno => rw [himports] at hno; cases hno
  | leasesCreators hno => rw [himports] at hno; cases hno
  | leasesEnrichment hno => rw [himports] at hno; cases hno
  | leasesVerification hno => rw [himports] at hno; cases hno
  | completes hmem hstatus htool =>
    rcases (h.rows _ hmem).entries with ⟨hnone,-⟩ | ⟨l,hl,hsubject,hleased | ⟨hdone,-⟩⟩
    · rw [htool] at hnone
      cases hnone
    · have hsame : f.input.toolCallId = l.toolCallId := Option.some.inj (htool.symm.trans hl)
      refine ⟨l,?_,hsame,by rw [hsubject, hsame]⟩
      rw [hsubject, hleased]
      exact .leased .nil
    · rw [hstatus] at hdone
      cases hdone
  | settles he hpending htool =>
    obtain ⟨held,hpaired,hheld⟩ := (h.contacts _ he).paired
    cases held with
    | none =>
      rw [show _ = none from hheld] at hpending
      cases hpending
    | some l =>
      obtain ⟨hsubject,htool',-⟩ := hheld
      have hsame : f.input.toolCallId = l.toolCallId := Option.some.inj (htool.symm.trans htool')
      refine ⟨l,?_,hsame,by rw [hsubject, hsame]⟩
      rw [hsubject]
      exact hpaired

/-- Only a call's transaction touches the leases. -/
theorem leases_step {event : Event} (hs₀ : Step w event w') : (∃ position, event = .executes position) ∨ w'.history = w.history := by
  cases event with
  | executes position => exact Or.inl ⟨position,rfl⟩
  | setsStatus => cases hs₀; exact Or.inr rfl
  | stops => cases hs₀; exact Or.inr rfl
  | flags => cases hs₀; exact Or.inr rfl
  | surroundings => cases hs₀; exact Or.inr rfl
  | starts | binds | retries | finds | begins =>
    obtain ⟨_,-,hs₀⟩ := Result.bind_eq_ok.mp hs₀
    obtain rfl := Result.pure_eq_ok.mp hs₀
    exact Or.inr rfl
  | discovers =>
    obtain ⟨_,-,hs₀⟩ := Result.bind_eq_ok.mp hs₀
    obtain ⟨_,-,hs₀⟩ := Result.bind_eq_ok.mp hs₀
    obtain rfl := Result.pure_eq_ok.mp hs₀
    exact Or.inr rfl
  | failsDiscovery =>
    obtain ⟨_,-,hs₀⟩ := Result.bind_eq_ok.mp hs₀
    obtain rfl := Result.pure_eq_ok.mp hs₀
    exact Or.inr rfl

theorem Kept.grantsPolicy {event : Event} (h : Kept w.db w.discoveries w.history) (hs₀ : Step w event w') : GrantsPolicy w w' := by
  intro l hl
  rcases leases_step hs₀ with ⟨position,rfl⟩ | hsame
  · obtain ⟨f,o,-,hdid,-,-,hhistory⟩ := executes_did h hs₀
    have hentry := mem_leasesOf.mp hl
    rw [hhistory] at hentry
    rcases List.mem_append.mp hentry with hold | hnew
    · exact Or.inl (mem_leasesOf.mpr hold)
    · exact Or.inr (hdid.storedPolicy (Option.mem_toList.mp hnew))
  · exact Or.inl (mem_leasesOf.mpr (hsame ▸ mem_leasesOf.mp hl))

theorem Kept.importsHeld {position : ℕ} (h : Kept w.db w.discoveries w.history) (hs₀ : Step w (.executes position) w')
    (hf : w.found[position]? = some f) : ImportsHeld w w' f := by
  intro himports hchanged
  obtain ⟨f',o,hf',hdid,hdb,-,hhistory⟩ := executes_did h hs₀
  obtain rfl : f' = f := Option.some.inj (hf'.symm.trans hf)
  obtain ⟨l,hpaired,htool,hentry⟩ := hdid.importsHeld h himports (hdb ▸ hchanged)
  refine ⟨l,hpaired,htool,?_⟩
  rw [hhistory, hentry]
  rfl

end Counting

/-- Whatever calls, retries and screenings are made, in any order: over all attempts, one people search
for a screening, one creator search of a kind for a user turn that asks for it, and one enrichment, one
verification and five polls for one candidate of a run. A lease is granted for the stored policy's
arguments only, and is imported once at most, by the tool call that holds it. -/
theorem paid_calls_within_allowance (h : Reachable Initial Step w) :
    WithinAllowance w ∧ (∀ subject, ∃ held, Paired (w.entries subject) held) ∧
      ∀ event w', Step w event w' → GrantsPolicy w w' ∧
        ∀ position f, event = .executes position → w.found[position]? = some f → ImportsHeld w w' f := by
  have hkept := kept_reachable h
  refine ⟨hkept.withinAllowance,hkept.paired,fun event w' hs₀ => ⟨hkept.grantsPolicy hs₀,?_⟩⟩
  rintro position f rfl hf
  exact hkept.importsHeld hs₀ hf

def emptyWorld : World := ⟨⟨[],[],[],[],[],[],[],[],[]⟩,[],[],[]⟩

def xSearch (toolCallId : ToolCallId) : Input := ⟨"run_0123456789abcdef0123456789abcdef",toolCallId,xCreatorSearchArguments⟩

/-- A search that is asked for is leased, and asked for again by another tool call, before it is imported. -/
def oneSearch : List Event :=
  [.starts ⟨"r1",1,2,"t1",false,some "\x7b\"role\": \"user\", \"content\": \"Find Hermes creators on X\"\x7d"⟩,
    .binds "r1" 1 "run_0123456789abcdef0123456789abcdef",
    .finds (.authorizeCreators "s1") 1 (xSearch "call_0"),.executes 0,
    .finds (.authorizeCreators "s2") 1 (xSearch "call_1"),
    .finds (.importCreators (some [⟨"c1","x:1","https://x.com/one",50⟩])) 1 (xSearch "call_0"),.executes 1,
    .setsStatus "r1" .error]

set_option maxRecDepth 8000 in
theorem paid_calls_within_allowance_searched :
    WithinAllowance (afterAll apply emptyWorld oneSearch) ∧
      (afterAll apply emptyWorld oneSearch).leased (fun c => c = .creatorSearch "r1" .x) = 1 ∧
      accepted apply (afterAll apply emptyWorld oneSearch) (.retries "r1") = false := by
  have hrun : Run Step emptyWorld oneSearch (afterAll apply emptyWorld oneSearch) := run_afterAll (by decide)
  exact ⟨(paid_calls_within_allowance ⟨emptyWorld,oneSearch,⟨rfl,rfl,rfl,rfl,rfl,rfl⟩,hrun⟩).1,by decide,by decide⟩

end HermesEnterprise.AgentCash
