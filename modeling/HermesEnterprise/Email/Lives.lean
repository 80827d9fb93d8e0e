import Mathlib.Logic.Relation
import HermesEnterprise.Email.Authorized

/-! # The life of an outbox row

What a step may make of a row: nothing, or the next state in a fixed table, with the message kept and one
attempt counted for each commit as `sending`. Every provider call is behind such a commit.
-/
namespace HermesEnterprise.Email
open Approvals Jobs Foundation.Runs Foundation.Tables

/-- The states that a row may move to. -/
def OutboxState.next : OutboxState → List OutboxState
  | .pendingConnection => [.queued,.sending,.simulated,.cancelled]
  | .queued => [.pendingConnection,.queued,.sending,.simulated,.cancelled]
  | .sending => [.queued,.sent,.ambiguous,.failed]
  | .ambiguous => [.sent,.cancelled]
  | .sent | .simulated | .failed | .cancelled => []

/-- A row moved on by one edge, with its message; an attempt is one commit as `sending`. -/
structure MovesOn (r r' : OutboxRow) : Prop where
  message : r'.reviewed = r.reviewed
  edge : r'.state ∈ r.state.next
  attempts : r'.attemptCount = r.attemptCount + if r'.state = .sending then 1 else 0

/-- The row is what it was, or moved on. -/
def Lives (r r' : OutboxRow) : Prop := r' = r ∨ MovesOn r r'

/-- Every row lives on. -/
def Live (db db' : Db) : Prop := ∀ r ∈ db.outbox.rows, ∃ r' ∈ db'.outbox.rows, r'.id = r.id ∧ Lives r r'

theorem MovesOn.id {r r' : OutboxRow} (h : MovesOn r r') : r'.id = r.id := (congrArg OutboxRow.id h.message :)

theorem MovesOn.of_edge {r r' : OutboxRow} (next : OutboxState) (hstate : r'.state = next) (hedge : next ∈ r.state.next)
    (hmessage : r'.reviewed = r.reviewed)
    (hattempts : r'.attemptCount = r.attemptCount + if r'.state = .sending then 1 else 0) : MovesOn r r' :=
  ⟨hmessage,hstate ▸ hedge,hattempts⟩

/-- Both states of a row that waits lead to these. -/
theorem Waiting.next {r : OutboxRow} (h : Waiting r) {next : OutboxState}
    (hnext : next ∈ [OutboxState.queued,.sending,.simulated,.cancelled]) : next ∈ r.state.next := by
  rcases h with hs | hs
  · rw [hs]
    exact hnext
  · rw [hs]
    exact List.mem_cons_of_mem _ hnext

theorem Lives.attempts {r r' : OutboxRow} (h : Lives r r') : r.attemptCount ≤ r'.attemptCount := by
  rcases h with rfl | h
  · exact le_rfl
  · rw [h.attempts]
    exact Nat.le_add_right _ _

section Updates
variable {db db' : Db}

theorem Live.same (h : db'.outbox = db.outbox) : Live db db' := by
  intro r hr
  exact ⟨r,h ▸ hr,rfl,Or.inl rfl⟩

theorem live_updateOutbox {p : OutboxRow → Bool} {f : OutboxRow → OutboxRow}
    (h : ∀ r ∈ db.outbox.rows, p r = true → MovesOn r (f r)) : Live db (updateOutbox db p f) := by
  intro r hr
  by_cases hp : p r = true
  · have hmoves := h r hr hp
    exact ⟨f r,mem_updateWhere.mpr (Or.inl ⟨r,hr,hp,rfl⟩),hmoves.id,Or.inr hmoves⟩
  · exact ⟨r,mem_updateWhere.mpr (Or.inr ⟨hr,by simpa using hp⟩),rfl,Or.inl rfl⟩

theorem live_setRow (hk : OutboxKept db) {row : OutboxRow} (hrow : row ∈ db.outbox.rows) {f : OutboxRow → OutboxRow}
    (h : MovesOn row (f row)) : Live db (setRow db row f) := by
  refine live_updateOutbox fun r hr hid => ?_
  rw [hk.eq_of_id hr hrow (of_decide_eq_true hid)]
  exact h

theorem Live.of_outbox {db'' : Db} (h : Live db db') (hout : db''.outbox = db'.outbox) : Live db db'' := by
  intro r hr
  rw [hout]
  exact h r hr

/-- What the first transaction makes of a row. -/
theorem PreparesRow.movesOn {row : OutboxRow} {f : OutboxRow → OutboxRow} {q : ApprovalRow → ApprovalRow}
    {prepared : Option PreparedSend} (h : PreparesRow db row f q prepared) : MovesOn row (f row) := by
  cases h with
  | interrupted hs => exact .of_edge .ambiguous rfl (by rw [hs]; decide) rfl rfl
  | unauthorized hf hs ha => exact .of_edge .cancelled rfl ((waiting_of_open hf hs ha).next (by decide)) rfl rfl
  | cancelled reason hf hs ha => exact .of_edge .cancelled rfl ((waiting_of_open hf hs ha).next (by decide)) rfl rfl
  | disallowed reason hf hs ha => exact .of_edge .cancelled rfl ((waiting_of_open hf hs ha).next (by decide)) rfl rfl
  | simulated reference reason hf hs ha =>
    exact .of_edge .simulated rfl ((waiting_of_open hf hs ha).next (by decide)) rfl rfl
  | waits code hs => exact .of_edge .pendingConnection rfl (by rw [hs]; decide) rfl rfl
  | sends provider hf hs ha => exact .of_edge .sending rfl ((waiting_of_open hf hs ha).next (by decide)) rfl rfl

end Updates

section Steps
variable {env : Approvals.Platform} {w w' : World} {e : SendEvent}

theorem live_prepare {db db' : Db} (hk : OutboxKept db) {deployment : Deployment} {token : TokenAnswer}
    {reference : String} {outboxId : OutboxId} {prepared : Option PreparedSend}
    (h : prepareSend db deployment outboxId token reference = .ok (db',prepared)) : Live db db' := by
  rcases prepareSend_ok h with ⟨rfl,-⟩ | ⟨row,hrow,hid,f,q,hprepares,has⟩
  · exact .same rfl
  · exact (live_setRow hk hrow hprepares.movesOn).of_outbox has.outbox

theorem live_settle {requestId : RequestId} {outboxId : OutboxId} {userId : UserId} {outcome : SettledOutcome}
    {db db' : Db} {result : SettleResult} (hk : OutboxKept db)
    (h : settleEmailSend env db requestId outboxId userId outcome = .ok (db',result)) : Live db db' := by
  rcases settleEmailSend_ok h with rfl | ⟨row,hrow,-,-,hstate,⟨-,rfl⟩ | ⟨-,hnot⟩⟩
  · exact .same rfl
  · refine (live_setRow hk hrow ?_).of_outbox (settleSent_outbox db requestId userId row)
    exact .of_edge .sent rfl (by rw [hstate]; decide) rfl rfl
  · have hset : Live db (setRow db row (settledRow db userId .cancelled .notSent)) :=
      live_setRow hk hrow (.of_edge .cancelled rfl (by rw [hstate]; decide) rfl rfl)
    rcases settleNotSent_ok hnot with ⟨rfl,-⟩ | ⟨q,resolution,-,hrevised⟩
    · exact hset
    · exact hset.of_outbox hrevised.outbox

theorem live_isSending {db : Db} {prepared : PreparedSend} {f : OutboxRow → OutboxRow}
    (h : ∀ r, r.state = .sending → MovesOn r (f r)) : Live db (updateOutbox db (isSending prepared) f) :=
  live_updateOutbox fun r _ hp => h r (isSending_final hp)

theorem failedState_next (error : SendError) : failedState error ∈ OutboxState.sending.next ∧
    failedState error ≠ .sending := by
  unfold failedState
  split
  · decide
  · split <;> decide

/-- Every step lets every row live on. -/
theorem Acts.live (hk : OutboxKept w.db) (ha : Acts env w e w') : Live w.db w'.db := by
  cases ha with
  | approval approval db hs =>
    cases appended_of_step hk hs with
    | kept hout => exact .same hout
    | queued requestId row row' d thread ids new hrow hp hreq happroved hrev hhash hq =>
      intro r hr
      exact ⟨r,hq.rows ▸ List.mem_append_left _ hr,rfl,Or.inl rfl⟩
  | claim id jobId jobs job key outboxId hnone hclaim hkey hpayload => exact .same rfl
  | prepare id worker deployment token reference db prepared hw hp hprepare => exact live_prepare hk hprepare
  | prepareFails id worker deployment token reference message hw hp => exact .same rfl
  | startCall id worker prepared hw hp => exact .same rfl
  | answer id worker prepared call answer hw hp => exact .same rfl
  | record id worker prepared answer hw hp =>
    cases answer with
    | accepted messageId =>
      refine (live_isSending fun r hs => ?_).of_outbox (recordAccepted_outbox w.db prepared messageId)
      exact .of_edge .sent rfl (by rw [hs]; decide) rfl rfl
    | failed error =>
      refine (live_isSending fun r hs => ?_).of_outbox (recordFailed_outbox w.db prepared error)
      obtain ⟨hnext,hne⟩ := failedState_next error
      exact .of_edge (failedState error) rfl (hs ▸ hnext) rfl (by rw [if_neg hne]; rfl)
  | recordFails id worker prepared answer message hw hp =>
    cases answer with
    | accepted messageId => exact .same rfl
    | failed error => exact .same rfl
  | finish id worker hw hp => exact .same rfl
  | finishFails id worker message hw hp => exact .same rfl
  | fail id worker message hw hp => exact .same rfl
  | crash id worker hw => exact .same rfl
  | settle requestId outboxId userId outcome db result hs => exact live_settle hk hs
  | disconnect accountId db hd =>
    unfold disconnectMailbox at hd
    split at hd
    next =>
      cases hd
      refine (live_updateOutbox fun r _ hm => ?_).of_outbox rfl
      have hqueued : r.state = .queued := (of_decide_eq_true hm).2
      exact .of_edge .pendingConnection rfl (by rw [hqueued]; decide) rfl rfl
    next =>
      cases hd
      exact .same rfl
  | connect freshId provider address db hc =>
    obtain ⟨accountId,mail,rfl⟩ := connectMailbox_ok hc
    refine (@live_updateOutbox { w.db with mail := mail } _ _ fun r _ hm => ?_).of_outbox rfl
    exact .of_edge .queued rfl ((picksUp_waiting hm).next (by decide)) rfl rfl
  | contactReply address candidateId unsubscribe =>
    obtain ⟨reason,hout,-⟩ := recordContactReply_outbox w.db address candidateId unsubscribe
    refine (live_updateOutbox fun r _ hm => ?_).of_outbox hout
    exact .of_edge .cancelled rfl ((isFutureOutreach_waiting hm).next (by decide)) rfl rfl

end Steps

section Runs
variable {env : Approvals.Platform} {w w' : World} {es : List SendEvent}

/-- A state leads to another over the edges of a row. -/
def LeadsTo : OutboxState → OutboxState → Prop := Relation.ReflTransGen fun s s' => s' ∈ s.next

/-- A state that no edge leaves. -/
theorem OutboxState.next_of_final {s : OutboxState} (h : s.final = true) : s.next = [] := by
  cases s <;> first | rfl | cases h

/-- What a run makes of a row: it keeps its message, follows the edges, and stands still in a final state. -/
structure LivesOn (r r' : OutboxRow) : Prop where
  message : r'.reviewed = r.reviewed
  states : LeadsTo r.state r'.state
  attempts : r.attemptCount ≤ r'.attemptCount
  final : r.state.final = true → r' = r

theorem Lives.on {r r' : OutboxRow} (h : Lives r r') : LivesOn r r' := by
  have hattempts := h.attempts
  rcases h with rfl | h
  · exact ⟨rfl,.refl,hattempts,fun _ => rfl⟩
  · refine ⟨h.message,.single h.edge,hattempts,fun hf => ?_⟩
    have hedge := h.edge
    rw [OutboxState.next_of_final hf] at hedge
    exact absurd hedge List.not_mem_nil

theorem LivesOn.trans {r r' r'' : OutboxRow} (h : LivesOn r r') (h' : LivesOn r' r'') : LivesOn r r'' := by
  refine ⟨h'.message.trans h.message,h.states.trans h'.states,h.attempts.trans h'.attempts,fun hf => ?_⟩
  have hsame := h.final hf
  exact (h'.final (hsame ▸ hf)).trans hsame

/-- Along every run each row lives on, alone under its id. -/
theorem outbox_row_lives (hreach : ReachableWorld env w) (hrun : Run (SendStep env) w es w') {r : OutboxRow}
    (hr : r ∈ w.db.outbox.rows) : ∃ r' ∈ w'.db.outbox.rows, LivesOn r r' ∧
      ∀ s ∈ w'.db.outbox.rows, s.id = r.id → s = r' := by
  have hlives : ∃ r' ∈ w'.db.outbox.rows, LivesOn r r' := by
    have hk := hreach.outbox
    induction hrun generalizing r with
    | nil => exact ⟨r,hr,Lives.on (Or.inl rfl)⟩
    | cons hst _ ih =>
      obtain ⟨s,hs,-,hlives⟩ := hst.acts.live hk r hr
      obtain ⟨t,ht,hon⟩ := ih (hreach.tail hst) hs (hk.acts hst.acts)
      exact ⟨t,ht,hlives.on.trans hon⟩
  obtain ⟨r',hr',hon⟩ := hlives
  obtain ⟨w₀,before,hinit,hbefore⟩ := hreach
  have hk' : OutboxKept w'.db := ReachableWorld.outbox ⟨w₀,_,hinit,hbefore.append hrun⟩
  have hid : r'.id = r.id := (congrArg OutboxRow.id hon.message :)
  exact ⟨r',hr',hon,fun s hs hsid => hk'.eq_of_id hs hr' (hsid.trans hid.symm)⟩

/-- The first claim has committed its row as sending. -/
def sendingWorld : World := afterAll (World.apply samplePlatform) emailWorld sendingEvents

/-- The provider takes the message, and the answer is recorded. -/
def sentEvents : List SendEvent := [.startCall 0,.answer 0 (.accepted "m-1"),.record 0,.finish 0]

theorem reachable_sendingWorld : ReachableWorld samplePlatform sendingWorld := by
  have hrun : acceptedAll (World.apply samplePlatform) emailWorld sendingEvents = true := by decide +kernel
  exact ⟨emailWorld,_,initial_emailWorld,run_afterAll hrun⟩

theorem sendingWorld_row : ∃ r, r ∈ sendingWorld.db.outbox.rows := by
  have hsome : sendingWorld.db.outbox.rows.head?.isSome = true := by decide +kernel
  obtain ⟨r,hr⟩ := Option.isSome_iff_exists.mp hsome
  exact ⟨r,List.mem_of_head? hr⟩

/-- The row that is being sent lives on as the sent one. -/
theorem outbox_row_lives_sent : ∃ r w', r ∈ sendingWorld.db.outbox.rows ∧
    Run (SendStep samplePlatform) sendingWorld sentEvents w' ∧ ∃ r' ∈ w'.db.outbox.rows, LivesOn r r' ∧
      ∀ s ∈ w'.db.outbox.rows, s.id = r.id → s = r' := by
  have hrun : acceptedAll (World.apply samplePlatform) sendingWorld sentEvents = true := by decide +kernel
  obtain ⟨r,hr⟩ := sendingWorld_row
  exact ⟨r,_,hr,run_afterAll hrun,outbox_row_lives reachable_sendingWorld (run_afterAll hrun) hr⟩

end Runs

section Counting
variable {env : Approvals.Platform} {w w' : World} {e : SendEvent}

/-- How often a provider was called for a row. -/
def callsFor (w : World) (outboxId : OutboxId) : ℕ := (w.calls.filter fun c => c.outboxId = outboxId).length

/-- Each call for a row, and the call that a claim is about to make for it, has its own attempt. -/
structure Counted (w : World) : Prop where
  calls : ∀ r ∈ w.db.outbox.rows, callsFor w r.id ≤ r.attemptCount
  next : ∀ r ∈ w.db.outbox.rows, ∀ id worker p, w.workers id = some worker → worker.phase = .calling p →
    p.row.id = r.id → callsFor w r.id < r.attemptCount

theorem CallsKept.callsFor_fresh (h : CallsKept w) {outboxId : OutboxId} (hnone : ∀ r ∈ w.db.outbox.rows, r.id ≠ outboxId) :
    callsFor w outboxId = 0 := by
  rw [callsFor, List.length_eq_zero_iff, List.filter_eq_nil_iff]
  intro c hc hid
  obtain ⟨r,hr,hrid,-⟩ := h.placed c hc
  exact hnone r hr (hrid.trans (of_decide_eq_true hid))

/-- A row of the next state is an old one that lives on, or one that nothing was called for. -/
theorem old_or_fresh (hk' : OutboxKept w'.db) (hlive : Live w.db w'.db) (h : CallsKept w) {r : OutboxRow}
    (hr : r ∈ w'.db.outbox.rows) : (∃ s ∈ w.db.outbox.rows, s.id = r.id ∧ s.attemptCount ≤ r.attemptCount) ∨
      callsFor w r.id = 0 ∧ ∀ id worker p, w.workers id = some worker → worker.phase = .calling p → p.row.id ≠ r.id := by
  by_cases hold : ∃ s ∈ w.db.outbox.rows, s.id = r.id
  · obtain ⟨s,hs,hid⟩ := hold
    obtain ⟨t,ht,htid,hlives⟩ := hlive s hs
    rw [hk'.eq_of_id ht hr (htid.trans hid)] at hlives
    exact Or.inl ⟨s,hs,hid,hlives.attempts⟩
  · refine Or.inr ⟨h.callsFor_fresh fun s hs hid => hold ⟨s,hs,hid⟩,fun id worker p hw hp hid => ?_⟩
    obtain ⟨s,hs,hsame,-⟩ := h.held id p ⟨worker,hw,by rw [hp]; rfl⟩
    exact hold ⟨s,hs,hsame.id.trans hid⟩

/-- A step that calls nobody, after which no other claim is about to call. -/
theorem Counted.quiet (hc : Counted w) (h : CallsKept w) (hk' : OutboxKept w'.db) (hlive : Live w.db w'.db)
    (hcalls : ∀ outboxId, callsFor w' outboxId = callsFor w outboxId)
    (hcalling : ∀ id worker p, w'.workers id = some worker → worker.phase = .calling p →
      w.workers id = some worker ∨ ∀ r ∈ w'.db.outbox.rows, p.row.id = r.id → callsFor w r.id < r.attemptCount) :
    Counted w' := by
  refine ⟨fun r hr => ?_,fun r hr id worker p hw hp hid => ?_⟩
  · rw [hcalls]
    rcases old_or_fresh hk' hlive h hr with ⟨s,hs,hsid,hle⟩ | ⟨hzero,-⟩
    · exact hsid ▸ (hc.calls s hs).trans hle
    · exact hzero ▸ Nat.zero_le _
  · rw [hcalls]
    rcases hcalling id worker p hw hp with hold | hnew
    · rcases old_or_fresh hk' hlive h hr with ⟨s,hs,hsid,hle⟩ | ⟨-,hnone⟩
      · exact hsid ▸ (hc.next s hs id worker p hold hp (hid.trans hsid.symm)).trans_le hle
      · exact absurd hid (hnone id worker p hold hp)
    · exact hnew r hr hid

theorem calling_of_advance {id id' : WorkerId} {worker worker' : Worker} {phase : Phase} {p : PreparedSend}
    (hphase : ∀ p, phase ≠ .calling p)
    (h : Function.update w.workers id (some { worker with phase := phase }) id' = some worker')
    (hp : worker'.phase = .calling p) : w.workers id' = some worker' := by
  by_cases hid : id' = id
  · subst hid
    rw [advance_self h] at hp
    exact absurd hp (hphase p)
  · exact advance_other hid h

theorem calling_of_retire {id id' : WorkerId} {worker' : Worker} (h : Function.update w.workers id none id' = some worker') :
    w.workers id' = some worker' := by
  by_cases hid : id' = id
  · subst hid
    rw [Function.update_self] at h
    cases h
  · rwa [Function.update_of_ne hid] at h

/-- The commit as `sending` counts the call before it is made. -/
theorem Counted.prepare (hc : Counted w) (h : CallsKept w) (hk' : OutboxKept w'.db) (hlive : Live w.db w'.db)
    {id : WorkerId} {worker : Worker} {row : OutboxRow} {provider : Provider} (hrow : row ∈ w.db.outbox.rows)
    (hw : w'.workers = Function.update w.workers id (some { worker with phase := .calling ⟨row,provider⟩ }))
    (hcalls : w'.calls = w.calls)
    (hsending : ∀ r ∈ w'.db.outbox.rows, r.id = row.id → r.attemptCount = row.attemptCount + 1) : Counted w' := by
  refine hc.quiet h hk' hlive (fun outboxId => by rw [callsFor, callsFor, hcalls]) fun id' worker' p hworker hp => ?_
  rw [hw] at hworker
  by_cases hid : id' = id
  · subst hid
    rw [advance_self hworker] at hp
    cases hp
    refine Or.inr fun r hr hrid => ?_
    rw [hsending r hr hrid.symm, ← hrid]
    exact Nat.lt_succ_of_le (hc.calls row hrow)
  · exact Or.inl (advance_other hid hworker)

/-- The call that a claim was about to make is made, and no other claim is about to make it. -/
theorem Counted.startCall (hc : Counted w) (h : CallsKept w) {id : WorkerId} {worker : Worker} {prepared : PreparedSend}
    (hw : w.workers id = some worker) (hp : worker.phase = .calling prepared) :
    Counted (w.startCall id worker prepared) := by
  have hcalls : ∀ outboxId, callsFor (w.startCall id worker prepared) outboxId =
      callsFor w outboxId + if prepared.row.id = outboxId then 1 else 0 := by
    intro outboxId
    simp only [callsFor, World.startCall, List.filter_append, List.length_append, List.filter_cons, List.filter_nil]
    by_cases hid : prepared.row.id = outboxId <;> simp [hid]
  refine ⟨fun r hr => ?_,fun r hr id' worker' p hworker hphase hid => ?_⟩
  · rw [hcalls]
    split
    next hid => exact hc.next r hr id worker prepared hw hp hid
    next => exact hc.calls r hr
  · have hold : w.workers id' = some worker' := calling_of_advance (by simp) hworker hphase
    have hne : id' ≠ id := by
      rintro rfl
      rw [advance_self hworker] at hphase
      cases hphase
    have hother : p.row.id ≠ prepared.row.id :=
      h.other ⟨worker,hw,by rw [hp]; rfl⟩ ⟨worker',hold,by rw [hphase]; rfl⟩ hne
    rw [hcalls, if_neg fun heq => hother (hid.trans heq.symm)]
    exact hc.next r hr id' worker' p hold hphase hid

theorem Counted.acts (hc : Counted w) (h : CallsKept w) (ha : Acts env w e w') : Counted w' := by
  have hk' := h.outbox.acts ha
  have hlive := ha.live h.outbox
  have hquiet : w'.calls = w.calls → (∀ id worker p, w'.workers id = some worker → worker.phase = .calling p →
      w.workers id = some worker) → Counted w' := by
    intro hcalls hworkers
    refine hc.quiet h hk' hlive (fun outboxId => by rw [callsFor, callsFor, hcalls]) fun id worker p hw hp => ?_
    exact Or.inl (hworkers id worker p hw hp)
  cases ha with
  | approval approval db hs => exact hquiet rfl fun _ _ _ hw _ => hw
  | claim id jobId jobs job key outboxId hnone hclaim hkey hpayload =>
    refine hquiet rfl fun id' worker' p hw hp => ?_
    exact @calling_of_advance w _ id' ⟨job.id,job.attempts,outboxId,.claimed⟩ worker' _ p (by simp) hw hp
  | prepare id worker deployment token reference db prepared hw hp hprepare =>
    cases prepared with
    | none => exact hquiet rfl fun id' worker' p hw hp => calling_of_advance (by simp [afterPrepare]) hw hp
    | some prepared =>
      rcases prepareSend_ok hprepare with ⟨-,hnone⟩ | ⟨row,hrow,-,f,q,hprepares,has⟩
      · cases hnone
      · cases hprepares with
        | sends provider hf hs ha hauthorized =>
          refine hc.prepare h hk' hlive hrow rfl rfl fun r hr hid => ?_
          have hr : r ∈ db.outbox.rows := hr
          rw [has.outbox] at hr
          rcases mem_updateWhere.mp hr with ⟨s,hs,hsid,rfl⟩ | ⟨-,hne⟩
          · rw [h.outbox.eq_of_id hs hrow (of_decide_eq_true hsid)]
          · exact absurd hid (of_decide_eq_false hne)
  | prepareFails id worker deployment token reference message hw hp =>
    exact hquiet rfl fun id' worker' p hw hp => calling_of_advance (by simp) hw hp
  | startCall id worker prepared hw hp => exact hc.startCall h hw hp
  | answer id worker prepared call answer hw hp =>
    refine hc.quiet h hk' hlive (fun outboxId => ?_) fun id' worker' p hw hp =>
      Or.inl (calling_of_advance (by simp) hw hp)
    simp only [callsFor, World.answer]
    rw [filter_updateWhere (by intros; rfl), updateWhere, List.length_map]
  | record id worker prepared answer hw hp =>
    cases answer with
    | accepted messageId => exact hquiet rfl fun id' worker' p hw hp => calling_of_advance (by simp) hw hp
    | failed error =>
      refine hquiet rfl fun id' worker' p hw hp => calling_of_advance (fun p => ?_) hw hp
      split <;> simp
  | recordFails id worker prepared answer message hw hp =>
    cases answer with
    | accepted messageId => exact hquiet rfl fun id' worker' p hw hp => calling_of_advance (by simp) hw hp
    | failed error => exact hquiet rfl fun id' worker' p hw hp => calling_of_advance (by simp) hw hp
  | finish id worker hw hp => exact hquiet rfl fun id' worker' p hw hp => calling_of_retire hw
  | finishFails id worker message hw hp =>
    exact hquiet rfl fun id' worker' p hw hp => calling_of_advance (by simp) hw hp
  | fail id worker message hw hp => exact hquiet rfl fun id' worker' p hw hp => calling_of_retire hw
  | crash id worker hw => exact hquiet rfl fun id' worker' p hw hp => calling_of_retire hw
  | settle requestId outboxId userId outcome db result hs => exact hquiet rfl fun _ _ _ hw _ => hw
  | disconnect accountId db hd => exact hquiet rfl fun _ _ _ hw _ => hw
  | connect freshId provider address db hc => exact hquiet rfl fun _ _ _ hw _ => hw
  | contactReply address candidateId unsubscribe => exact hquiet rfl fun _ _ _ hw _ => hw

theorem Counted.initial (h : InitialWorld w) : Counted w := by
  have hrows : w.db.outbox.rows = [] := by rw [h.outbox]
  refine ⟨fun r hr => ?_,fun r hr => ?_⟩ <;> exact absurd (hrows ▸ hr) List.not_mem_nil

end Counting

end HermesEnterprise.Email
