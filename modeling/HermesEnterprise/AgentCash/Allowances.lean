import HermesEnterprise.AgentCash.Held

/-! # No call is paid twice

Every transaction either changes nothing, grants one lease, or imports the response of the lease that
its tool call holds. A retry of a run that leased a creator search is refused. So the leases of all
attempts of a run stay within its allowance.
-/
namespace HermesEnterprise.AgentCash
open Approvals hiding RunId
open Foundation.CanonicalJson Foundation.Tables Foundation.Runs RunLog Recovery

variable {db db' : Db} {ds ds' : List Discovery} {hs new : List Entry} {s t : ScreeningRow} {e : ContactLeaseRow}
  {l : Lease} {r run : RunRow} {w w' : World} {agentId : AgentId} {input : Input} {o : Outcome} {f : Found}

section Transactions

def completed (apiRequestsUsed : ℕ) (s : ScreeningRow) : ScreeningRow :=
  { s with status := .completed, apiRequestsUsed := apiRequestsUsed }

def leasedTo (toolCallId : ToolCallId) (s : ScreeningRow) : ScreeningRow :=
  { s with apiRequestsUsed := 1, agentcashToolCallId := some toolCallId }

def creatorRow (newId : ScreeningId) (agentId : AgentId) (ownerId : UserId) (input : Input) (kind : CreatorKind) : ScreeningRow :=
  ⟨newId,agentId,ownerId,creatorRunKey input.runtimeRunId kind,.running,.agentcashCreators,
    .creators input.runtimeRunId kind,1,some input.toolCallId⟩

def reservedRow (agentId : AgentId) (runId : RunId) (candidateId : CandidateId) (input : Input) : ContactLeaseRow :=
  ⟨agentId,candidateId,runId,input.runtimeRunId,.enrichmentReserved,some .enrichment,some input.toolCallId,none,none,0⟩

/-- What a transaction of a call does. -/
inductive Did (db : Db) (f : Found) : Outcome → Prop
  | nothing : Did db f ⟨db,none⟩
  | leasesPeople {s : ScreeningRow} {policy : Json} (himports : f.action.imports = false) (hs : s ∈ db.screenings)
      (hsource : s.source = .agentcashPeople) (hunleased : s.agentcashToolCallId = none)
      (hpolicy : peopleSearchArguments s = some policy) (harguments : canonical f.input.arguments = canonical policy) :
      Did db f ⟨setScreening db s.id (leasedTo f.input.toolCallId),
        some (.leased ⟨.screening s.id,.peopleSearch s.id,f.input.toolCallId,f.input.arguments⟩)⟩
  | leasesCreators {run : RunRow} {newId : ScreeningId} {ownerId : UserId} {kind : CreatorKind}
      (himports : f.action.imports = false) (hrun : run ∈ db.runs) (hagent : run.agentId = f.agentId)
      (hremote : run.runtimeRunId = some f.input.runtimeRunId) (hattempt : run.runtimeAttempt = some run.attempt)
      (hasked : ∃ authorized ∈ db.runs, authorized.id = run.id ∧ kind ∈ requestedCreatorSearchKinds authorized.prompt)
      (harguments : canonical f.input.arguments = canonical kind.arguments)
      (hid : ∀ t ∈ db.screenings, t.id ≠ newId)
      (hkey : ∀ t ∈ db.screenings, t.agentId = f.agentId → t.idempotencyKey ≠ creatorRunKey f.input.runtimeRunId kind) :
      Did db f ⟨{ db with screenings := db.screenings ++ [creatorRow newId f.agentId ownerId f.input kind] },
        some (.leased ⟨.screening newId,.creatorSearch run.id kind,f.input.toolCallId,f.input.arguments⟩)⟩
  | completes {s : ScreeningRow} {db' : Db} (hs : s ∈ db.screenings) (hstatus : s.status = .running)
      (htool : s.agentcashToolCallId = some f.input.toolCallId) (hcheck : leaseCheck (completed 1 s) = true)
      (hscreenings : db'.screenings = updateWhere (fun t => t.id = s.id) (completed 1) db.screenings)
      (hruns : db'.runs = db.runs) (hcontacts : db'.contacts = db.contacts) :
      Did db f ⟨db',some (.imported (.screening s.id) f.input.toolCallId)⟩
  | leasesEnrichment {c : CandidateRow} {runId : RunId} (himports : f.action.imports = false) (hc : c ∈ db.candidates)
      (harguments : canonical f.input.arguments = canonical (agentCashContactEnrichmentArguments c.id c.profileUrl))
      (hrun : ∀ e ∈ db.contacts, e.runId ≠ runId) :
      Did db f ⟨{ db with contacts := db.contacts ++ [reservedRow f.agentId runId c.id f.input] },
        some (.leased ⟨.contact runId,.contact runId .enrichment c.id,f.input.toolCallId,f.input.arguments⟩)⟩
  | leasesVerification {e : ContactLeaseRow} {kind : ContactCallKind} {profileUrl : String} {expected : Json}
      {g : ContactLeaseRow → ContactLeaseRow} (himports : f.action.imports = false) (he : e ∈ db.contacts)
      (hkind : kind = .verification ∧ e.status = .enriched ∨
        kind = .verificationPoll ∧ e.status = .verificationPending ∧ e.verificationPollCount < 5)
      (hfree : e.pendingKind = none) (hexpected : expectedContactArguments kind e profileUrl = .ok expected)
      (harguments : canonical f.input.arguments = canonical expected)
      (hg : g e = { e with status := if kind = .verification then .verificationReserved else .verificationPending,
                           pendingKind := some kind, pendingToolCallId := some f.input.toolCallId,
                           runtimeRunId := f.input.runtimeRunId,
                           verificationPollCount := e.verificationPollCount + if kind = .verificationPoll then 1 else 0 }) :
      Did db f ⟨setContact db e.runId g,
        some (.leased ⟨.contact e.runId,.contact e.runId kind e.candidateId,f.input.toolCallId,f.input.arguments⟩)⟩
  | settles {e : ContactLeaseRow} {kind : ContactCallKind} {g : ContactLeaseRow → ContactLeaseRow} (he : e ∈ db.contacts)
      (hpending : e.pendingKind = some kind) (htool : e.pendingToolCallId = some f.input.toolCallId)
      (hcandidate : (g e).candidateId = e.candidateId) (hrun : (g e).runId = e.runId)
      (hcount : (g e).verificationPollCount = e.verificationPollCount)
      (hnone : (g e).pendingKind = none ∧ (g e).pendingToolCallId = none)
      (hstatus : kind ≠ .enrichment → (g e).status = .verificationPending ∨ (g e).status = .completed) :
      Did db f ⟨setContact db e.runId g,some (.imported (.contact e.runId) f.input.toolCallId)⟩

theorem requireCurrentPaidRun_ok {runId : RunId} {remote : RuntimeRunId} {u : Unit}
    (h : requireCurrentPaidRun db agentId runId remote = .ok u) : ∃ r ∈ db.runs, r.id = runId ∧ r.agentId = agentId ∧
      r.runtimeRunId = some remote ∧ r.runtimeAttempt = some r.attempt := by
  unfold requireCurrentPaidRun at h
  split at h
  next => cases h
  next r hr =>
    have hfound := List.find?_some hr
    simp only [Bool.and_eq_true, decide_eq_true_eq] at hfound
    obtain ⟨⟨⟨⟨⟨hid,hagent⟩,hremote⟩,hattempt⟩,-⟩,-⟩ := hfound
    exact ⟨r,List.mem_of_find?_eq_some hr,hid,hagent,hremote,hattempt⟩

theorem peopleScreening_ok {id : ScreeningId} {admits : ScreeningStatus → Bool}
    (h : peopleScreening db agentId id admits = .ok s) :
    s ∈ db.screenings ∧ s.id = id ∧ s.source = .agentcashPeople ∧ admits s.status = true := by
  unfold peopleScreening at h
  split at h
  next => cases h
  next s' hs =>
    obtain ⟨u,hu,h⟩ := Result.bind_eq_ok.mp h
    cases Result.pure_eq_ok.mp h
    have hfound := List.find?_some hs
    simp only [Bool.and_eq_true, decide_eq_true_eq] at hfound
    have hok := require_eq_ok.mp hu
    simp only [Bool.and_eq_true, decide_eq_true_eq] at hok
    exact ⟨List.mem_of_find?_eq_some hs,hfound.2,hok⟩

theorem requireStoredPolicy_ok {u : Unit} (h : requireStoredPolicy input s = .ok u) :
    ∃ policy, peopleSearchArguments s = some policy ∧ canonical input.arguments = canonical policy := by
  unfold requireStoredPolicy at h
  split at h
  next => cases h
  next policy hpolicy => exact ⟨policy,hpolicy,of_decide_eq_true (require_eq_ok.mp h)⟩

theorem completePartnerScreening_ok {userId : UserId} {id : ScreeningId} {candidates : List Discovered} {n : ℕ}
    (h : completePartnerScreening db userId id agentId candidates n = .ok db') :
    ∃ s ∈ db.screenings, s.id = id ∧ (s.status = .completed ∧ db' = db ∨
      s.status = .running ∧ leaseCheck (completed n s) = true ∧
        db'.screenings = updateWhere (fun t => t.id = id) (completed n) db.screenings ∧
        db'.runs = db.runs ∧ db'.contacts = db.contacts) := by
  unfold completePartnerScreening at h
  split at h
  next => cases h
  next s hs =>
    have hfound := List.find?_some hs
    simp only [Bool.and_eq_true, decide_eq_true_eq] at hfound
    refine ⟨s,List.mem_of_find?_eq_some hs,hfound.1.1,?_⟩
    split at h
    next hstatus =>
      cases Result.pure_eq_ok.mp h
      exact Or.inl ⟨hstatus,rfl⟩
    next =>
      split at h
      next => cases h
      next hstatus =>
        obtain ⟨stored,hstored,h⟩ := Result.bind_eq_ok.mp h
        obtain ⟨u,hcheck,h⟩ := Result.bind_eq_ok.mp h
        cases Result.pure_eq_ok.mp h
        exact Or.inr ⟨not_not.mp hstatus,require_eq_ok.mp hcheck,rfl,rfl,rfl⟩

/-- The import of a search's response. -/
theorem completes_did {candidates : List Discovered} (hids : (db.screenings.map (·.id)).Nodup) (hmem : s ∈ db.screenings)
    (hstatus : s.status ≠ .completed) (htool : s.agentcashToolCallId = some f.input.toolCallId)
    (h : completePartnerScreening db s.createdBy s.id f.agentId candidates 1 = .ok db') :
    Did db f ⟨db',some (.imported (.screening s.id) f.input.toolCallId)⟩ := by
  obtain ⟨t,ht,hid,hcases⟩ := completePartnerScreening_ok h
  obtain rfl : t = s := List.inj_on_of_nodup_map hids ht hmem hid
  rcases hcases with ⟨hdone,-⟩ | ⟨hrunning,hcheck,hscreenings,hruns,hcontacts⟩
  · exact absurd hdone hstatus
  · exact .completes hmem hrunning htool hcheck hscreenings hruns hcontacts

theorem authorizeAgentCashPeopleSearch_did (himports : f.action.imports = false)
    (h : authorizeAgentCashPeopleSearch db f.agentId f.run f.input = .ok o) : Did db f o := by
  unfold authorizeAgentCashPeopleSearch at h
  obtain ⟨id,-,h⟩ := Result.bind_eq_ok.mp h
  obtain ⟨u,-,h⟩ := Result.bind_eq_ok.mp h
  obtain ⟨s,hfound,h⟩ := Result.bind_eq_ok.mp h
  obtain ⟨u',hstored,h⟩ := Result.bind_eq_ok.mp h
  obtain ⟨hmem,rfl,hsource,-⟩ := peopleScreening_ok hfound
  obtain ⟨policy,hpolicy,harguments⟩ := requireStoredPolicy_ok hstored
  split at h
  next =>
    obtain rfl := Result.pure_eq_ok.mp h
    exact .nothing
  next =>
    split at h
    next => cases h
    next hfree =>
      obtain rfl := Result.pure_eq_ok.mp h
      have hunleased := Option.not_isSome_iff_eq_none.mp fun hsome => hfree (Or.inr hsome)
      exact .leasesPeople himports hmem hsource hunleased hpolicy harguments

theorem importAgentCashPeopleSearch_did {parsed : Option (List Discovered)} (hids : (db.screenings.map (·.id)).Nodup)
    (h : importAgentCashPeopleSearch db f.agentId f.run f.input parsed = .ok o) : Did db f o := by
  unfold importAgentCashPeopleSearch at h
  obtain ⟨id,-,h⟩ := Result.bind_eq_ok.mp h
  obtain ⟨s,hfound,h⟩ := Result.bind_eq_ok.mp h
  obtain ⟨u,hlease,h⟩ := Result.bind_eq_ok.mp h
  obtain ⟨u',-,h⟩ := Result.bind_eq_ok.mp h
  obtain ⟨hmem,rfl,-,-⟩ := peopleScreening_ok hfound
  have htool := require_eq_ok.mp hlease
  simp only [Bool.and_eq_true, decide_eq_true_eq] at htool
  split at h
  next =>
    obtain rfl := Result.pure_eq_ok.mp h
    exact .nothing
  next hstatus =>
    split at h
    next => cases h
    next candidates =>
      obtain ⟨db',hdb,h⟩ := Result.bind_eq_ok.mp h
      obtain rfl := Result.pure_eq_ok.mp h
      exact completes_did hids hmem hstatus htool.2 hdb

theorem requireCreatorSpec_ok {kind : CreatorKind} (h : requireCreatorSpec input = .ok kind) :
    canonical input.arguments = canonical kind.arguments := by
  unfold requireCreatorSpec creatorSearchSpec at h
  split at h
  next => cases h
  next spec hspec =>
    cases h
    split at hspec
    next hsame => cases hspec; exact hsame
    next =>
      split at hspec
      next hsame => cases hspec; exact hsame
      next => cases hspec

theorem authorizeAgentCashCreatorSearch_did {newId : ScreeningId} (himports : f.action.imports = false)
    (h : authorizeAgentCashCreatorSearch db f.agentId f.run f.input newId = .ok o) : Did db f o := by
  unfold authorizeAgentCashCreatorSearch at h
  obtain ⟨kind,hkind,h⟩ := Result.bind_eq_ok.mp h
  obtain ⟨u,hcurrent,h⟩ := Result.bind_eq_ok.mp h
  obtain ⟨run,hrun,hid,hagent,hremote,hattempt⟩ := requireCurrentPaidRun_ok hcurrent
  split at h
  next => cases h
  next authorized hauthorized =>
    have hasked := List.find?_some hauthorized
    simp only [Bool.and_eq_true, decide_eq_true_eq] at hasked
    dsimp only at h
    split at h
    next =>
      obtain ⟨u',-,h⟩ := Result.bind_eq_ok.mp h
      obtain rfl := Result.pure_eq_ok.mp h
      exact .nothing
    next hnone =>
      obtain ⟨u',hfresh,h⟩ := Result.bind_eq_ok.mp h
      obtain rfl := Result.pure_eq_ok.mp h
      rw [← hid]
      refine .leasesCreators himports hrun hagent hremote hattempt
        ⟨authorized,List.mem_of_find?_eq_some hauthorized,hasked.1.1.trans hid.symm,hasked.2⟩ (requireCreatorSpec_ok hkind) ?_ ?_
      · intro t ht
        exact of_decide_eq_true (List.all_eq_true.mp (require_eq_ok.mp hfresh) t ht)
      · intro t ht hagent' hkey
        have hno := List.find?_eq_none.mp hnone t ht
        exact hno (Bool.and_eq_true_iff.mpr ⟨decide_eq_true hagent',decide_eq_true hkey⟩)

theorem importAgentCashCreatorSearch_did {parsed : Option (List Discovered)} (hids : (db.screenings.map (·.id)).Nodup)
    (h : importAgentCashCreatorSearch db f.agentId f.input parsed = .ok o) : Did db f o := by
  unfold importAgentCashCreatorSearch at h
  obtain ⟨kind,-,h⟩ := Result.bind_eq_ok.mp h
  split at h
  next => cases h
  next s hfound =>
    obtain ⟨u,hlease,h⟩ := Result.bind_eq_ok.mp h
    have htool := require_eq_ok.mp hlease
    simp only [Bool.and_eq_true, decide_eq_true_eq] at htool
    split at h
    next =>
      obtain rfl := Result.pure_eq_ok.mp h
      exact .nothing
    next hstatus =>
      split at h
      next => cases h
      next candidates =>
        obtain ⟨db',hdb,h⟩ := Result.bind_eq_ok.mp h
        obtain rfl := Result.pure_eq_ok.mp h
        exact completes_did hids (List.mem_of_find?_eq_some hfound) hstatus htool.2 hdb

theorem contactRow_some {runId : RunId} {profileUrl : String} (h : contactRow db agentId runId = some (e,profileUrl)) :
    e ∈ db.contacts ∧ e.runId = runId := by
  unfold contactRow at h
  obtain ⟨e',he,h⟩ := Option.bind_eq_some_iff.mp h
  obtain ⟨c,-,h⟩ := Option.map_eq_some_iff.mp h
  cases h
  have hfound := List.find?_some he
  simp only [Bool.and_eq_true, decide_eq_true_eq] at hfound
  exact ⟨List.mem_of_find?_eq_some he,hfound.2⟩

theorem holdsLease_true {kind : ContactCallKind} {profileUrl : String} (h : holdsLease input kind e profileUrl = .ok true) :
    e.pendingKind = some kind ∧ e.pendingToolCallId = some input.toolCallId := by
  unfold holdsLease at h
  split at h
  next hheld => exact hheld
  next => cases h

theorem reserveEnrichment_did (himports : f.action.imports = false)
    (h : reserveEnrichment db f.agentId f.run f.input = .ok o) : Did db f o := by
  unfold reserveEnrichment at h
  split at h
  next => cases h
  next candidateId =>
    split at h
    next => cases h
    next c hfound =>
      obtain ⟨u,harguments,h⟩ := Result.bind_eq_ok.mp h
      obtain ⟨u',hrun,h⟩ := Result.bind_eq_ok.mp h
      obtain rfl := Result.pure_eq_ok.mp h
      have hc := List.find?_some hfound
      simp only [Bool.and_eq_true, decide_eq_true_eq] at hc
      obtain rfl := hc.1.2
      refine .leasesEnrichment himports (List.mem_of_find?_eq_some hfound) (of_decide_eq_true (require_eq_ok.mp harguments)) ?_
      exact fun e he => of_decide_eq_true (List.all_eq_true.mp (require_eq_ok.mp hrun) e he)

theorem reserveVerification_did {kind : ContactCallKind} {profileUrl : String} (himports : f.action.imports = false)
    (he : e ∈ db.contacts) (hfree : e.pendingKind = none) (hkind : kind ≠ .enrichment)
    (h : reserveVerification db f.input kind e profileUrl = .ok o) : Did db f o := by
  unfold reserveVerification at h
  obtain ⟨expected,hexpected,h⟩ := Result.bind_eq_ok.mp h
  obtain ⟨u,harguments,h⟩ := Result.bind_eq_ok.mp h
  obtain ⟨u',hfirst,h⟩ := Result.bind_eq_ok.mp h
  obtain ⟨u'',hpoll,h⟩ := Result.bind_eq_ok.mp h
  obtain rfl := Result.pure_eq_ok.mp h
  refine .leasesVerification himports he ?_ hfree hexpected (of_decide_eq_true (require_eq_ok.mp harguments)) rfl
  have hfirst := require_eq_ok.mp hfirst
  have hpoll := require_eq_ok.mp hpoll
  cases kind with
  | enrichment => exact absurd rfl hkind
  | verification =>
    left
    simpa using hfirst
  | verificationPoll =>
    right
    simpa using hpoll

theorem authorizeAgentCashContact_did (himports : f.action.imports = false)
    (h : authorizeAgentCashContact db f.agentId f.run f.input = .ok o) : Did db f o := by
  unfold authorizeAgentCashContact at h
  split at h
  next => cases h
  next kind =>
    obtain ⟨u,-,h⟩ := Result.bind_eq_ok.mp h
    split at h
    next =>
      split at h
      next => exact reserveEnrichment_did himports h
      next => cases h
    next e profileUrl hrow =>
      obtain ⟨held,hheld,h⟩ := Result.bind_eq_ok.mp h
      split at h
      next =>
        obtain rfl := Result.pure_eq_ok.mp h
        exact .nothing
      next =>
        split at h
        next => cases h
        next hopen =>
          split at h
          next => cases h
          next hkind =>
            have hfree := Option.not_isSome_iff_eq_none.mp fun hsome => hopen (Or.inl hsome)
            exact reserveVerification_did himports (contactRow_some hrow).1 hfree hkind h

theorem importAgentCashContact_did {emails : Option (List String)} {verified : Option EmailVerification}
    (h : importAgentCashContact db f.agentId f.run f.input emails verified = .ok o) : Did db f o := by
  unfold importAgentCashContact at h
  split at h
  next => cases h
  next e profileUrl hrow =>
    have he := (contactRow_some hrow).1
    dsimp only at h
    split at h
    next =>
      split at h
      next =>
        obtain rfl := Result.pure_eq_ok.mp h
        exact .nothing
      next => cases h
    next kind hpending =>
      obtain ⟨held,hheld,h⟩ := Result.bind_eq_ok.mp h
      obtain ⟨u,hok,h⟩ := Result.bind_eq_ok.mp h
      rw [require_eq_ok.mp hok] at hheld
      obtain ⟨-,htool⟩ := holdsLease_true hheld
      split at h
      next henrichment =>
        split at h
        next => cases h
        next =>
          obtain rfl := Result.pure_eq_ok.mp h
          exact .settles he hpending htool rfl rfl rfl ⟨rfl,rfl⟩ fun hne => absurd henrichment hne
      next =>
        split at h
        next => cases h
        next =>
          obtain rfl := Result.pure_eq_ok.mp h
          refine .settles he hpending htool rfl rfl rfl ⟨rfl,rfl⟩ fun _ => ?_
          dsimp only
          split
          · exact Or.inl rfl
          · exact Or.inr rfl

theorem execute_did (hids : (db.screenings.map (·.id)).Nodup) (h : execute db f = .ok o) : Did db f o := by
  unfold execute at h
  split at h
  next haction => exact authorizeAgentCashPeopleSearch_did (by rw [haction]; rfl) h
  next => exact importAgentCashPeopleSearch_did hids h
  next haction => exact authorizeAgentCashCreatorSearch_did (by rw [haction]; rfl) h
  next => exact importAgentCashCreatorSearch_did hids h
  next haction => exact authorizeAgentCashContact_did (by rw [haction]; rfl) h
  next => exact importAgentCashContact_did h

end Transactions
section Transactions

/-- A row that does not exist has no entries. -/
theorem Kept.unknown (h : Kept db ds hs) {subject : Subject} (hno : ¬ Known db subject) : entriesOf hs subject = [] := by
  refine List.filter_eq_nil_iff.mpr fun entry hentry hsubject => hno ?_
  have hknown := h.subjects entry hentry
  rwa [of_decide_eq_true hsubject] at hknown

theorem ScreeningKept.leased (hsubject : l.subject = .screening s.id) (htool : s.agentcashToolCallId = some l.toolCallId)
    (hnone : entriesOf hs (.screening s.id) = []) : ScreeningKept (hs ++ [.leased l]) s := by
  refine Or.inr ⟨l,htool,hsubject,Or.inl ?_⟩
  have hself : entriesOf (hs ++ [.leased l]) (.screening s.id) = _ := entriesOf_self hsubject
  rw [hself, hnone]
  rfl

theorem Kept.leasePeople (h : Kept db ds hs) (hmem : s ∈ db.screenings) (hsource : s.source = .agentcashPeople)
    (hunleased : s.agentcashToolCallId = none) :
    Kept (setScreening db s.id (leasedTo input.toolCallId)) ds
      (hs ++ [.leased ⟨.screening s.id,.peopleSearch s.id,input.toolCallId,input.arguments⟩]) := by
  have hrow := h.rows s hmem
  refine h.moveScreening hmem ⟨rfl,rfl,rfl,rfl,fun hcreators => ?_⟩ ?_ ?_ ?_ ?_ (fun d hd => hd) rfl rfl rfl
  · rw [hsource] at hcreators
    cases hcreators
  · unfold leaseCheck leasedTo
    rw [hsource]
    rfl
  · exact .leased rfl rfl (hrow.unleased hunleased)
  · intro entry hentry
    rw [List.mem_singleton.mp hentry]
    rfl
  · intro l hl
    rw [List.mem_singleton.mp hl]

theorem Kept.leaseCreators (h : Kept db ds hs) {newId : ScreeningId} {ownerId : UserId} {kind : CreatorKind}
    (hrun : run ∈ db.runs) (hagent : run.agentId = agentId) (hremote : run.runtimeRunId = some input.runtimeRunId)
    (hattempt : run.runtimeAttempt = some run.attempt)
    (hasked : ∃ authorized ∈ db.runs, authorized.id = run.id ∧ kind ∈ requestedCreatorSearchKinds authorized.prompt)
    (hid : ∀ t ∈ db.screenings, t.id ≠ newId)
    (hkey : ∀ t ∈ db.screenings, t.agentId = agentId → t.idempotencyKey ≠ creatorRunKey input.runtimeRunId kind) :
    Kept { db with screenings := db.screenings ++ [creatorRow newId agentId ownerId input kind] } ds
      (hs ++ [.leased ⟨.screening newId,.creatorSearch run.id kind,input.toolCallId,input.arguments⟩]) := by
  have hnone : entriesOf hs (.screening newId) = [] := h.unknown fun ⟨t,ht,hsame⟩ => hid t ht hsame
  refine h.addScreening hid hkey ⟨rfl,fun _ => ⟨fun hfailed => (by cases hfailed),_,_,rfl⟩,?_⟩ ?_ ?_ fun d hd => Or.inl hd
  · exact .leased rfl rfl hnone
  · intro entry hentry
    rw [List.mem_singleton.mp hentry]
    rfl
  · intro l hl
    rw [List.mem_singleton.mp hl]
    obtain ⟨authorized,hauthorized,hsame,hasked⟩ := hasked
    obtain rfl : authorized = run := List.inj_on_of_nodup_map h.runIds hauthorized hrun hsame
    exact ⟨authorized,hrun,rfl,hasked,hattempt,_,hremote,_,List.mem_append_right _ (List.mem_singleton_self _),rfl,
      hagent.symm,rfl,rfl,rfl⟩

theorem Kept.complete (h : Kept db ds hs) {toolCallId : ToolCallId} (hmem : s ∈ db.screenings) (hstatus : s.status = .running)
    (htool : s.agentcashToolCallId = some toolCallId) (hcheck : leaseCheck (completed 1 s) = true)
    (hscreenings : db'.screenings = updateWhere (fun t => t.id = s.id) (completed 1) db.screenings)
    (hruns : db'.runs = db.runs) (hcontacts : db'.contacts = db.contacts) :
    Kept db' ds (hs ++ [.imported (.screening s.id) toolCallId]) := by
  refine h.moveScreening hmem ⟨rfl,rfl,rfl,rfl,fun _ => ⟨rfl,fun hfailed => (by cases hfailed)⟩⟩ hcheck ?_ ?_ ?_
    (fun d hd => hd) hscreenings hruns hcontacts
  · rcases (h.rows s hmem).entries with ⟨hnone,-⟩ | ⟨l,hl,hsubject,hleased | ⟨hdone,-⟩⟩
    · rw [htool] at hnone
      cases hnone
    · refine Or.inr ⟨l,hl,hsubject,Or.inr ⟨rfl,?_⟩⟩
      have hsame : toolCallId = l.toolCallId := Option.some.inj (htool.symm.trans hl)
      have hself : entriesOf (hs ++ [.imported (.screening s.id) toolCallId]) (.screening s.id) = _ := entriesOf_self rfl
      rw [hsubject, ← hsame]
      exact hself.trans (congrArg (· ++ _) hleased)
    · rw [hstatus] at hdone
      cases hdone
  · intro entry hentry
    rw [List.mem_singleton.mp hentry]
    rfl
  · intro l hl
    cases hl

theorem contactLeases_self {runId : RunId} {kind : ContactCallKind} {entry : Entry} (hsubject : entry.subject = .contact runId) :
    contactLeases (hs ++ [entry]) runId kind = contactLeases hs runId kind + granted [entry] (PaidCall.isContact runId kind) := by
  unfold contactLeases
  rw [entriesOf_self hsubject, granted_append]

/-- A lease of one kind is no lease of another. -/
theorem granted_contact (runId : RunId) (kind kind' : ContactCallKind) (candidateId : CandidateId) (hcall : l.call = .contact runId kind candidateId) :
    granted [.leased l] (PaidCall.isContact runId kind') = if kind = kind' then 1 else 0 := by
  have hsame : PaidCall.isContact runId kind' l.call = decide (kind = kind') := by
    rw [hcall]
    simp [PaidCall.isContact]
  unfold granted leasesOf
  simp only [List.filterMap_cons, Entry.lease, List.filterMap_nil, List.filter_cons, List.filter_nil, hsame, decide_eq_true_eq]
  split <;> rfl

/-- The rows of one run are updated. -/
theorem Kept.moveContact (h : Kept db ds hs) {g : ContactLeaseRow → ContactLeaseRow} {entry : Entry} (he : e ∈ db.contacts)
    (hrun : (g e).runId = e.runId) (hsubject : entry.subject = .contact e.runId) (hkept : ContactKept (hs ++ [entry]) (g e))
    (hlease : ∀ l, entry = .leased l → ∃ kind candidateId, l.call = .contact e.runId kind candidateId) :
    Kept (setContact db e.runId g) ds (hs ++ [entry]) := by
  have hcases : ∀ e' ∈ (setContact db e.runId g).contacts, e' = g e ∨ (e' ∈ db.contacts ∧ e'.runId ≠ e.runId) :=
    fun e' he' => mem_updateWhere_key h.contactRuns he he'
  have hself : g e ∈ (setContact db e.runId g).contacts := mem_updateWhere.mpr (Or.inl ⟨e,he,decide_eq_true rfl,rfl⟩)
  refine h.moveContacts (fun e' he' => ?_) ?_ (fun e' he' => ?_) ?_ ?_ rfl rfl
  · by_cases hsame : e'.runId = e.runId
    · exact ⟨g e,hself,hrun.trans hsame.symm⟩
    · exact ⟨e',mem_updateWhere.mpr (Or.inr ⟨he',decide_eq_false hsame⟩),rfl⟩
  · have hruns : (setContact db e.runId g).contacts.map (·.runId) = db.contacts.map (·.runId) := by
      refine map_updateWhere _ fun e' he' hsame => ?_
      rw [List.inj_on_of_nodup_map h.contactRuns he' he (of_decide_eq_true hsame)]
      exact hrun
    rw [hruns]
    exact h.contactRuns
  · rcases hcases e' he' with rfl | ⟨hold,hne⟩
    · exact hkept
    · refine (h.contacts e' hold).of_ne fun entry' hentry hsame => ?_
      rw [List.mem_singleton.mp hentry, hsubject] at hsame
      injection hsame with hsame
      exact hne hsame.symm
  · intro entry' hentry
    rw [List.mem_singleton.mp hentry]
    exact ⟨g e,hself,hrun ▸ hsubject⟩
  · intro l hl
    have hl := List.mem_singleton.mp (mem_leasesOf.mp hl)
    obtain ⟨kind,candidateId,hcall⟩ := hlease l hl.symm
    exact ⟨e.runId,kind,candidateId,hcall,(congrArg Entry.subject hl).trans hsubject⟩

/-- The first lease of a run. -/
theorem ContactKept.reserve {runId : RunId} {candidateId : CandidateId} (hsubject : l.subject = .contact runId)
    (hcall : l.call = .contact runId .enrichment candidateId) (htool : l.toolCallId = input.toolCallId)
    (hnone : entriesOf hs (.contact runId) = []) :
    ContactKept (hs ++ [.leased l]) (reservedRow agentId runId candidateId input) := by
  have hentry : (Entry.leased l).subject = .contact runId := hsubject
  have hentries : entriesOf (hs ++ [.leased l]) (.contact runId) = [.leased l] := by
    rw [entriesOf_self hentry, hnone]
    rfl
  have hcount : ∀ kind, contactLeases (hs ++ [.leased l]) runId kind = if .enrichment = kind then 1 else 0 := by
    intro kind
    unfold contactLeases
    rw [hentries]
    exact granted_contact runId .enrichment kind candidateId hcall
  refine ⟨⟨some l,?_,hsubject,congrArg some htool.symm,.enrichment,rfl,hcall⟩,?_,(hcount .enrichment).le,
    (hcount .verification).le.trans (by decide),hcount .verificationPoll,Nat.zero_le 5,fun _ => hcount .verification,fun _ => rfl⟩
  · show Paired (entriesOf (hs ++ [.leased l]) (.contact runId)) (some l)
    rw [hentries]
    exact .leased .nil
  · intro l' hl
    have hl : l' ∈ leasesOf (entriesOf (hs ++ [.leased l]) (.contact runId)) := hl
    rw [hentries] at hl
    rw [List.mem_singleton.mp hl]
    exact ⟨_,hcall⟩

theorem Kept.leaseEnrichment (h : Kept db ds hs) {runId : RunId} {candidateId : CandidateId} (hrun : ∀ e ∈ db.contacts, e.runId ≠ runId) :
    Kept { db with contacts := db.contacts ++ [reservedRow agentId runId candidateId input] } ds
      (hs ++ [.leased ⟨.contact runId,.contact runId .enrichment candidateId,input.toolCallId,input.arguments⟩]) := by
  have hnone : entriesOf hs (.contact runId) = [] := h.unknown fun ⟨e,he,hsame⟩ => hrun e he hsame
  refine h.moveContacts (fun e he => ⟨e,List.mem_append_left _ he,rfl⟩) ?_ (fun e he => ?_) ?_ ?_ rfl rfl
  · rw [List.map_append, List.map_singleton]
    refine h.contactRuns.append (List.nodup_singleton _) ?_
    intro i hi hi'
    obtain ⟨e,he,rfl⟩ := List.mem_map.mp hi
    exact hrun e he (List.mem_singleton.mp hi')
  · rcases List.mem_append.mp he with he | he
    · refine (h.contacts e he).of_ne fun entry hentry hsame => ?_
      rw [List.mem_singleton.mp hentry] at hsame
      injection hsame with hsame
      exact hrun e he hsame.symm
    · rw [List.mem_singleton.mp he]
      exact .reserve rfl rfl rfl hnone
  · intro entry hentry
    rw [List.mem_singleton.mp hentry]
    exact ⟨_,List.mem_append_right _ (List.mem_singleton_self _),rfl⟩
  · intro l hl
    rw [List.mem_singleton.mp hl]
    exact ⟨runId,.enrichment,candidateId,rfl,rfl⟩

/-- One more lease of a run, of a verification or of a poll. -/
theorem ContactKept.lease (h : ContactKept hs e) {kind : ContactCallKind} {e' : ContactLeaseRow}
    (hkind : kind = .verification ∧ e.status = .enriched ∨
      kind = .verificationPoll ∧ e.status = .verificationPending ∧ e.verificationPollCount < 5)
    (hfree : e.pendingKind = none) (hsubject : l.subject = .contact e.runId) (hcall : l.call = .contact e.runId kind e.candidateId)
    (hrun : e'.runId = e.runId) (hcandidate : e'.candidateId = e.candidateId) (hpending : e'.pendingKind = some kind)
    (htool : e'.pendingToolCallId = some l.toolCallId)
    (hstatus : e'.status = if kind = .verification then .verificationReserved else .verificationPending)
    (hcount : e'.verificationPollCount = e.verificationPollCount + if kind = .verificationPoll then 1 else 0) :
    ContactKept (hs ++ [.leased l]) e' := by
  have hentry : (Entry.leased l).subject = .contact e.runId := hsubject
  have hmore : ∀ kind', contactLeases (hs ++ [.leased l]) e'.runId kind' =
      contactLeases hs e.runId kind' + if kind = kind' then 1 else 0 := by
    intro kind'
    rw [hrun, contactLeases_self hentry, granted_contact e.runId kind kind' e.candidateId hcall]
  have hentries : entriesOf (hs ++ [.leased l]) (.contact e'.runId) = entriesOf hs (.contact e.runId) ++ [.leased l] := by
    rw [hrun, entriesOf_self hentry]
  obtain ⟨held,hpaired,hheld⟩ := h.paired
  obtain rfl : held = none := by
    cases held with
    | none => rfl
    | some l' =>
      obtain ⟨-,-,kind',hkind',-⟩ := hheld
      rw [hfree] at hkind'
      cases hkind'
  refine ⟨⟨some l,?_,hrun ▸ hsubject,htool,kind,hpending,by rw [hrun, hcandidate]; exact hcall⟩,?_,?_,?_,?_,?_,?_,?_⟩
  · rw [hentries]
    exact .leased hpaired
  · intro l' hl
    rw [hentries, leasesOf_append] at hl
    rw [hrun, hcandidate]
    rcases List.mem_append.mp hl with hl | hl
    · exact h.candidate l' hl
    · rw [List.mem_singleton.mp hl]
      exact ⟨kind,hcall⟩
  · rw [hmore]
    have hother : kind ≠ .enrichment := by rcases hkind with ⟨rfl,-⟩ | ⟨rfl,-⟩ <;> decide
    rw [if_neg hother]
    exact h.enrichment
  · rw [hmore]
    rcases hkind with ⟨rfl,henriched⟩ | ⟨rfl,-⟩
    · rw [h.unverified (Or.inr henriched)]
      exact Nat.le_refl 1
    · exact h.verification
  · rw [hmore, hcount, h.polls]
  · rw [hcount]
    rcases hkind with ⟨rfl,-⟩ | ⟨rfl,-,hlt⟩
    · exact h.pollBound
    · exact hlt
  · intro hearly
    rw [hstatus] at hearly
    split at hearly <;> rcases hearly with hearly | hearly <;> cases hearly
  · intro henrichment
    rw [hpending] at henrichment
    cases henrichment
    rcases hkind with ⟨hkind,-⟩ | ⟨hkind,-⟩ <;> cases hkind

/-- The held lease of a run is imported. -/
theorem ContactKept.settle (h : ContactKept hs e) {kind : ContactCallKind} {e' : ContactLeaseRow} {toolCallId : ToolCallId}
    (hpending : e.pendingKind = some kind) (htool : e.pendingToolCallId = some toolCallId)
    (hcandidate : e'.candidateId = e.candidateId) (hrun : e'.runId = e.runId)
    (hcount : e'.verificationPollCount = e.verificationPollCount) (hnone : e'.pendingKind = none)
    (hstatus : kind ≠ .enrichment → e'.status = .verificationPending ∨ e'.status = .completed) :
    ContactKept (hs ++ [.imported (.contact e.runId) toolCallId]) e' := by
  have hsame : ∀ kind', contactLeases (hs ++ [.imported (.contact e.runId) toolCallId]) e'.runId kind' =
      contactLeases hs e.runId kind' := by
    intro kind'
    rw [hrun]
    exact contactLeases_self rfl
  have hentries : entriesOf (hs ++ [.imported (.contact e.runId) toolCallId]) (.contact e'.runId) =
      entriesOf hs (.contact e.runId) ++ [.imported (.contact e.runId) toolCallId] := by
    rw [hrun]
    exact entriesOf_self rfl
  obtain ⟨held,hpaired,hheld⟩ := h.paired
  cases held with
  | none =>
    have hfree : e.pendingKind = none := hheld
    rw [hpending] at hfree
    cases hfree
  | some l =>
    obtain ⟨hsubject,htool',-⟩ := hheld
    have htools : toolCallId = l.toolCallId := Option.some.inj (htool.symm.trans htool')
    refine ⟨⟨none,?_,hnone⟩,?_,?_,?_,?_,?_,?_,?_⟩
    · have himported := Paired.imported hpaired
      rw [hsubject, ← htools] at himported
      rw [hentries]
      exact himported
    · intro l' hl
      rw [hentries, leasesOf_append] at hl
      rw [hrun, hcandidate]
      rcases List.mem_append.mp hl with hl | hl
      · exact h.candidate l' hl
      · cases hl
    · rw [hsame]
      exact h.enrichment
    · rw [hsame]
      exact h.verification
    · rw [hsame, hcount, h.polls]
    · rw [hcount]
      exact h.pollBound
    · intro hearly
      rw [hsame]
      by_cases hkind : kind = .enrichment
      · exact h.unverified (Or.inl (h.reserved (hkind ▸ hpending)))
      · rcases hstatus hkind with hlate | hlate <;> rw [hlate] at hearly <;> rcases hearly with hearly | hearly <;> cases hearly
    · intro henrichment
      rw [hnone] at henrichment
      cases henrichment

/-- What every transaction keeps. -/
theorem Kept.did (h : Kept db ds hs) (hdid : Did db f o) : Kept o.db ds (hs ++ o.entry.toList) := by
  cases hdid with
  | nothing =>
    show Kept db ds (hs ++ [])
    rw [List.append_nil]
    exact h
  | leasesPeople _ hmem hsource hunleased => exact h.leasePeople hmem hsource hunleased
  | leasesCreators _ hrun hagent hremote hattempt hasked _ hid hkey =>
    exact h.leaseCreators hrun hagent hremote hattempt hasked hid hkey
  | completes hmem hstatus htool hcheck hscreenings hruns hcontacts =>
    exact h.complete hmem hstatus htool hcheck hscreenings hruns hcontacts
  | leasesEnrichment _ _ _ hrun => exact h.leaseEnrichment hrun
  | leasesVerification _ he hkind hfree _ _ hg =>
    refine h.moveContact he (by rw [hg]) rfl ?_ fun l hl => ?_
    · refine (h.contacts _ he).lease hkind hfree rfl rfl ?_ ?_ ?_ ?_ ?_ ?_ <;> rw [hg]
    · injection hl with hl
      exact ⟨_,_,by rw [← hl]⟩
  | settles he hpending htool hcandidate hrun hcount hnone hstatus =>
    exact h.moveContact he hrun rfl ((h.contacts _ he).settle hpending htool hcandidate hrun hcount hnone.1 hstatus) fun l hl => by cases hl

end Transactions
end HermesEnterprise.AgentCash
