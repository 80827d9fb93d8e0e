import HermesEnterprise.Approvals.Drift
import HermesEnterprise.Email.Steps

/-! # Provider calls for one recipient

A row is prepared by one claim at a time, and every call for a row that is neither sending, uncertain nor
sent was refused. So a call repeats an earlier one for its recipient only where the provider refused it or
a person said that it was not sent, unless the claim was overtaken before it called.
-/
namespace HermesEnterprise.Email
open Approvals Jobs Foundation.Runs Foundation.Tables

/-- What a claim holds between the two transactions of its job. -/
def Phase.prepared? : Phase → Option PreparedSend
  | .calling prepared => some prepared
  | .called prepared _ => some prepared
  | .answered prepared _ => some prepared
  | _ => none

/-- The provider surely did not take the message of this call. -/
def Call.refused (c : Call) : Bool := c.answer.any ProviderAnswer.refused

/-- A message of this row may have reached its recipient, or a person said that it did not. -/
def OutboxRow.Open (r : OutboxRow) : Prop :=
  r.state = .sending ∨ r.state = .ambiguous ∨ r.state = .sent ∨ r.settledOutcome = some .notSent

/-- The same row at two times. -/
structure SameRow (r r' : OutboxRow) : Prop where
  id : r.id = r'.id
  recipient : SameRecipient r r'
  revision : r.authorizationRevision = r'.authorizationRevision

section Invariant
variable (w : World)

def Holds (id : WorkerId) (prepared : PreparedSend) : Prop :=
  ∃ worker, w.workers id = some worker ∧ worker.phase.prepared? = some prepared

/-- Every call for the row was refused. -/
def Refused (outboxId : OutboxId) : Prop := ∀ c ∈ w.calls, c.outboxId = outboxId → c.refused = true

structure CallsKept : Prop where
  outbox : OutboxKept w.db
  settled : ∀ r ∈ w.db.outbox.rows, r.settledOutcome ≠ none → r.state.final = true
  held : ∀ id p, Holds w id p → ∃ r ∈ w.db.outbox.rows, SameRow r p.row ∧ r.Open
  single : ∀ id id' p p', Holds w id p → Holds w id' p' → p.row.id = p'.row.id → id = id'
  numbered : w.calls.map Call.id = List.range w.calls.length
  placed : ∀ c ∈ w.calls, ∃ r ∈ w.db.outbox.rows, r.id = c.outboxId ∧ r.requestId = c.requestId ∧
    r.recipientIndex = c.recipientIndex
  closed : ∀ r ∈ w.db.outbox.rows, ¬ r.Open → Refused w r.id
  calling : ∀ id worker p, w.workers id = some worker → worker.phase = .calling p → Refused w p.row.id
  called : ∀ id worker p k, w.workers id = some worker → worker.phase = .called p k →
    (∃ c ∈ w.calls, c.id = k ∧ c.outboxId = p.row.id) ∧
      ∀ c ∈ w.calls, c.outboxId = p.row.id → c.id ≠ k → c.refused = true
  answered : ∀ id worker p a, w.workers id = some worker → worker.phase = .answered p a → a.refused = true →
    Refused w p.row.id

end Invariant

theorem SameRow.trans {r r' r'' : OutboxRow} (h : SameRow r r') (h' : SameRow r' r'') : SameRow r r'' :=
  ⟨h.id.trans h'.id,⟨h.recipient.1.trans h'.recipient.1,h.recipient.2.trans h'.recipient.2⟩,h.revision.trans h'.revision⟩

theorem Moves.same {r r' : OutboxRow} (h : Moves r r') : SameRow r' r := ⟨h.id,⟨h.request,h.index⟩,h.revision⟩

section Steps
variable {env : Approvals.Platform} {w w' : World} {e : SendEvent}

/-- Calls and the claims that hold rows stay or end; rows may come to be refused in full, or stay open. -/
theorem CallsKept.quiet (h : CallsKept w) (hk : OutboxKept w'.db) (hcalls : w'.calls = w.calls)
    (hworkers : ∀ id worker, w'.workers id = some worker →
      worker.phase.prepared? = none ∨ w.workers id = some worker)
    {g : OutboxRow → OutboxRow} (hrows : w'.db.outbox.rows = w.db.outbox.rows.map g)
    (hmoves : ∀ r ∈ w.db.outbox.rows, Moves r (g r))
    (hopen : ∀ r ∈ w.db.outbox.rows, r.Open → (g r).Open ∨ (Refused w r.id ∧ ∀ id p, Holds w' id p → p.row.id ≠ r.id))
    (hsettled : ∀ r ∈ w.db.outbox.rows, (g r).settledOutcome ≠ none → (g r).state.final = true) : CallsKept w' := by
  have hholds : ∀ id p, Holds w' id p → Holds w id p := by
    rintro id p ⟨worker,hw,hp⟩
    rcases hworkers id worker hw with hnone | hold
    · cases hnone.symm.trans hp
    · exact ⟨worker,hold,hp⟩
  have hphase : ∀ {id worker p}, w'.workers id = some worker → worker.phase.prepared? = some p →
      w.workers id = some worker := by
    intro id worker p hw hp
    rcases hworkers id worker hw with hnone | hold
    · cases hnone.symm.trans hp
    · exact hold
  have hrefused : ∀ outboxId, Refused w outboxId → Refused w' outboxId := by
    intro outboxId href c hc
    exact href c (hcalls ▸ hc)
  have hmem : ∀ r ∈ w.db.outbox.rows, g r ∈ w'.db.outbox.rows := fun r hr => hrows ▸ List.mem_map_of_mem hr
  have hold : ∀ r ∈ w'.db.outbox.rows, ∃ s ∈ w.db.outbox.rows, r = g s := by
    intro r hr
    rw [hrows] at hr
    obtain ⟨s,hs,rfl⟩ := List.mem_map.mp hr
    exact ⟨s,hs,rfl⟩
  refine ⟨hk,?_,?_,?_,?_,?_,?_,?_,?_,?_⟩
  · intro r hr hne
    obtain ⟨s,hs,rfl⟩ := hold r hr
    exact hsettled s hs hne
  · intro id p hp
    obtain ⟨r,hr,hsame,hopened⟩ := h.held id p (hholds id p hp)
    refine ⟨g r,hmem r hr,(hmoves r hr).same.trans hsame,?_⟩
    rcases hopen r hr hopened with hgo | ⟨-,hnot⟩
    · exact hgo
    · exact absurd hsame.id.symm (hnot id p hp)
  · exact fun id id' p p' hp hp' => h.single id id' p p' (hholds id p hp) (hholds id' p' hp')
  · rw [hcalls]
    exact h.numbered
  · intro c hc
    obtain ⟨r,hr,hid,hreq,hindex⟩ := h.placed c (hcalls ▸ hc)
    have hm := hmoves r hr
    exact ⟨g r,hmem r hr,hm.id.trans hid,hm.request.trans hreq,hm.index.trans hindex⟩
  · intro r hr hclosed
    obtain ⟨s,hs,rfl⟩ := hold r hr
    rw [(hmoves s hs).id]
    apply hrefused
    by_cases hso : s.Open
    · rcases hopen s hs hso with hgo | ⟨href,-⟩
      · exact absurd hgo hclosed
      · exact href
    · exact h.closed s hs hso
  · intro id worker p hw hp
    exact hrefused _ (h.calling id worker p (hphase hw (by rw [hp]; rfl)) hp)
  · intro id worker p k hw hp
    rw [hcalls]
    exact h.called id worker p k (hphase hw (by rw [hp]; rfl)) hp
  · intro id worker p a hw hp ha
    exact hrefused _ (h.answered id worker p a (hphase hw (by rw [hp]; rfl)) hp ha)

/-- Neither rows nor calls change. -/
theorem CallsKept.same (h : CallsKept w) (hk : OutboxKept w'.db) (hcalls : w'.calls = w.calls)
    (hworkers : ∀ id worker, w'.workers id = some worker →
      worker.phase.prepared? = none ∨ w.workers id = some worker)
    (hrows : w'.db.outbox.rows = w.db.outbox.rows) : CallsKept w' :=
  h.quiet hk hcalls hworkers (hrows.trans (List.map_id _).symm) (fun r _ => .refl r) (fun _ _ ho => Or.inl ho)
    fun r hr hne => h.settled r hr hne

/-- A row that waits was neither settled nor sent. -/
theorem CallsKept.not_open (h : CallsKept w) {r : OutboxRow} (hr : r ∈ w.db.outbox.rows) (hw : Waiting r) :
    ¬ r.Open ∧ r.settledOutcome = none := by
  have hnone : r.settledOutcome = none := by
    by_contra hne
    exact absurd (hw.open.1.symm.trans (h.settled r hr hne)) nofun
  refine ⟨?_,hnone⟩
  rintro (hs | hs | hs | hs)
  · exact hw.open.2.1 hs
  · exact hw.open.2.2 hs
  · have hfinal := hw.open.1
    rw [hs] at hfinal
    cases hfinal
  · cases hnone.symm.trans hs

/-- Rows are rewritten: one that was open stays open, or is given up by a claim whose calls were all refused. -/
theorem CallsKept.update (h : CallsKept w) (hk : OutboxKept w'.db) (hcalls : w'.calls = w.calls)
    (hworkers : ∀ id worker, w'.workers id = some worker →
      worker.phase.prepared? = none ∨ w.workers id = some worker)
    {p : OutboxRow → Bool} {f : OutboxRow → OutboxRow} (hrows : w'.db.outbox.rows = updateWhere p f w.db.outbox.rows)
    (hp : ∀ r ∈ w.db.outbox.rows, p r = true → Moves r (f r) ∧
      ((f r).settledOutcome ≠ none → (f r).state.final = true) ∧
      (r.Open → (f r).Open ∨ (Refused w r.id ∧ ∀ id p, Holds w' id p → p.row.id ≠ r.id))) : CallsKept w' := by
  refine h.quiet hk hcalls hworkers (g := fun r => if p r then f r else r) hrows (fun r hr => ?_) (fun r hr ho => ?_)
    fun r hr hne => ?_
  · split
    next hm => exact (hp r hr hm).1
    next => exact .refl r
  · split
    next hm => exact (hp r hr hm).2.2 ho
    next => exact Or.inl ho
  · split at hne
    next hm =>
      rw [if_pos hm]
      exact (hp r hr hm).2.1 hne
    next hm =>
      rw [if_neg hm]
      exact h.settled r hr hne

/-- Rows that wait are rewritten. -/
theorem CallsKept.waiting (h : CallsKept w) (hk : OutboxKept w'.db) (hcalls : w'.calls = w.calls)
    (hworkers : ∀ id worker, w'.workers id = some worker →
      worker.phase.prepared? = none ∨ w.workers id = some worker)
    {p : OutboxRow → Bool} {f : OutboxRow → OutboxRow} (hrows : w'.db.outbox.rows = updateWhere p f w.db.outbox.rows)
    (hp : ∀ r ∈ w.db.outbox.rows, p r = true → Waiting r ∧ Moves r (f r) ∧ (f r).settledOutcome = r.settledOutcome) :
    CallsKept w' := by
  refine h.update hk hcalls hworkers hrows fun r hr hm => ?_
  obtain ⟨hwaiting,hmoves,hsettled⟩ := hp r hr hm
  obtain ⟨hclosed,hnone⟩ := h.not_open hr hwaiting
  exact ⟨hmoves,fun hne => absurd (hsettled.trans hnone) hne,fun ho => absurd ho hclosed⟩

/-- An approval that becomes final appends rows that nothing was called for. -/
theorem CallsKept.appended (h : CallsKept w) {db : Db} (hk : OutboxKept db) {new : List OutboxRow}
    (hrows : db.outbox.rows = w.db.outbox.rows ++ new)
    (hnew : ∀ r ∈ new, r.settledOutcome = none ∧ w.db.outbox.nextId ≤ r.id) : CallsKept { w with db := db } := by
  have hold : ∀ r ∈ w.db.outbox.rows, r ∈ db.outbox.rows := fun r hr => hrows ▸ List.mem_append_left _ hr
  refine ⟨hk,?_,?_,h.single,h.numbered,?_,?_,h.calling,h.called,h.answered⟩
  · intro r hr hne
    rcases List.mem_append.mp (hrows ▸ hr) with hr | hr
    · exact h.settled r hr hne
    · exact absurd (hnew r hr).1 hne
  · intro id p hp
    obtain ⟨r,hr,hfound⟩ := h.held id p hp
    exact ⟨r,hold r hr,hfound⟩
  · intro c hc
    obtain ⟨r,hr,hfound⟩ := h.placed c hc
    exact ⟨r,hold r hr,hfound⟩
  · intro r hr hclosed
    rcases List.mem_append.mp (hrows ▸ hr) with hr | hr
    · exact h.closed r hr hclosed
    · intro c hc heq
      obtain ⟨s,hs,hid,-⟩ := h.placed c hc
      have hlt : r.id < w.db.outbox.nextId := heq ▸ hid ▸ h.outbox.ids s hs
      exact absurd (hnew r hr).2 (Nat.not_le.mpr hlt)

/-- A claim other than this one holds another row. -/
theorem CallsKept.other (h : CallsKept w) {id id' : WorkerId} {p p' : PreparedSend} (hp : Holds w id p)
    (hp' : Holds w id' p') (hne : id' ≠ id) : p'.row.id ≠ p.row.id :=
  fun heq => hne (h.single id' id p' p hp' hp heq)

theorem advance_other {workers : WorkerId → Option Worker} {id id' : WorkerId} {worker worker' : Worker} (hne : id' ≠ id)
    (h : Function.update workers id (some worker) id' = some worker') : workers id' = some worker' := by
  rwa [Function.update_of_ne hne] at h

theorem advance_self {workers : WorkerId → Option Worker} {id : WorkerId} {worker worker' : Worker}
    (h : Function.update workers id (some worker) id = some worker') : worker' = worker := by
  rw [Function.update_self] at h
  exact (Option.some.inj h).symm

/-- A claim that holds no row any more. -/
theorem advance_quiet {workers : WorkerId → Option Worker} {id : WorkerId} {worker : Worker}
    (hnone : worker.phase.prepared? = none) (id' : WorkerId) (worker' : Worker)
    (h : Function.update workers id (some worker) id' = some worker') :
    worker'.phase.prepared? = none ∨ workers id' = some worker' := by
  by_cases hid : id' = id
  · subst hid
    rw [advance_self h]
    exact Or.inl hnone
  · exact Or.inr (advance_other hid h)

theorem retire_quiet {workers : WorkerId → Option Worker} {id : WorkerId} (id' : WorkerId) (worker' : Worker)
    (h : Function.update workers id none id' = some worker') :
    worker'.phase.prepared? = none ∨ workers id' = some worker' := by
  by_cases hid : id' = id
  · subst hid
    rw [Function.update_self] at h
    cases h
  · rw [Function.update_of_ne hid] at h
    exact Or.inr h

/-- The row is committed as sending, and its claim is the one that holds it. -/
theorem CallsKept.sends (h : CallsKept w) {db : Db} (hk : OutboxKept db) {id : WorkerId} {worker : Worker} {row : OutboxRow}
    {provider : Provider} {f : OutboxRow → OutboxRow} (hrow : row ∈ w.db.outbox.rows) (hwaiting : Waiting row)
    (hrows : db.outbox.rows = updateWhere (fun r => decide (r.id = row.id)) f w.db.outbox.rows)
    (hf : ∀ r, (f r).state = .sending ∧ (f r).settledOutcome = r.settledOutcome) (hmoves : Moves row (f row)) :
    CallsKept (w.advance id worker db (.calling ⟨row,provider⟩)) := by
  obtain ⟨hclosed,-⟩ := h.not_open hrow hwaiting
  have hkeep : ∀ r ∈ w.db.outbox.rows, r.id ≠ row.id → r ∈ db.outbox.rows := by
    intro r hr hne
    rw [hrows]
    exact mem_updateWhere.mpr (Or.inr ⟨hr,by simpa using hne⟩)
  have hself : f row ∈ db.outbox.rows := by
    rw [hrows]
    exact mem_updateWhere.mpr (Or.inl ⟨row,hrow,by simp,rfl⟩)
  have hold : ∀ r ∈ db.outbox.rows, r = f row ∨ (r ∈ w.db.outbox.rows ∧ r.id ≠ row.id) := by
    intro r hr
    rw [hrows] at hr
    exact mem_updateWhere_key h.outbox.nodup hrow hr
  have hnew : ∀ id' p, Holds (w.advance id worker db (.calling ⟨row,provider⟩)) id' p →
      (id' = id ∧ p = ⟨row,provider⟩) ∨ (id' ≠ id ∧ Holds w id' p ∧ p.row.id ≠ row.id) := by
    rintro id' p ⟨worker',hw',hp'⟩
    by_cases hid : id' = id
    · subst hid
      have hworker' := advance_self hw'
      subst hworker'
      cases hp'
      exact Or.inl ⟨rfl,rfl⟩
    · have hheld : Holds w id' p := ⟨worker',advance_other hid hw',hp'⟩
      obtain ⟨r,hr,hsame,ho⟩ := h.held id' p hheld
      refine Or.inr ⟨hid,hheld,fun heq => ?_⟩
      have hrr := h.outbox.eq_of_id hr hrow (hsame.id.trans heq)
      exact hclosed (hrr ▸ ho)
  refine ⟨hk,?_,?_,?_,h.numbered,?_,?_,?_,?_,?_⟩
  · intro r hr hne
    rcases hold r hr with rfl | ⟨hr,-⟩
    · exact absurd ((hf row).2.trans (h.not_open hrow hwaiting).2) hne
    · exact h.settled r hr hne
  · intro id' p hp
    rcases hnew id' p hp with ⟨-,rfl⟩ | ⟨-,hheld,hne⟩
    · exact ⟨f row,hself,hmoves.same,Or.inl (hf row).1⟩
    · obtain ⟨r,hr,hsame,ho⟩ := h.held id' p hheld
      exact ⟨r,hkeep r hr (hsame.id ▸ hne),hsame,ho⟩
  · intro id₁ id₂ p₁ p₂ hp₁ hp₂ heq
    rcases hnew id₁ p₁ hp₁ with ⟨rfl,rfl⟩ | ⟨-,hheld₁,hne₁⟩
    · rcases hnew id₂ p₂ hp₂ with ⟨rfl,-⟩ | ⟨-,-,hne₂⟩
      · rfl
      · exact absurd heq.symm hne₂
    · rcases hnew id₂ p₂ hp₂ with ⟨-,rfl⟩ | ⟨-,hheld₂,-⟩
      · exact absurd heq hne₁
      · exact h.single id₁ id₂ p₁ p₂ hheld₁ hheld₂ heq
  · intro c hc
    obtain ⟨r,hr,hrid,hreq,hindex⟩ := h.placed c hc
    by_cases hid : r.id = row.id
    · have hrr := h.outbox.eq_of_id hr hrow hid
      subst hrr
      exact ⟨f r,hself,hmoves.id.trans hrid,hmoves.request.trans hreq,hmoves.index.trans hindex⟩
    · exact ⟨r,hkeep r hr hid,hrid,hreq,hindex⟩
  · intro r hr hnot
    rcases hold r hr with rfl | ⟨hr,-⟩
    · exact absurd (Or.inl (hf row).1) hnot
    · exact h.closed r hr hnot
  · intro id' worker' p hw' hp'
    by_cases hid : id' = id
    · subst hid
      rw [advance_self hw'] at hp'
      cases hp'
      exact h.closed row hrow hclosed
    · exact h.calling id' worker' p (advance_other hid hw') hp'
  · intro id' worker' p k hw' hp'
    by_cases hid : id' = id
    · subst hid
      rw [advance_self hw'] at hp'
      cases hp'
    · exact h.called id' worker' p k (advance_other hid hw') hp'
  · intro id' worker' p a hw' hp' ha
    by_cases hid : id' = id
    · subst hid
      rw [advance_self hw'] at hp'
      cases hp'
    · exact h.answered id' worker' p a (advance_other hid hw') hp' ha

/-- A claim goes on with its row: other rows keep their calls. -/
theorem CallsKept.goes (h : CallsKept w) {id : WorkerId} {worker : Worker} {p : PreparedSend} {phase : Phase}
    {calls : List Call} (hw : w.workers id = some worker) (hp : worker.phase.prepared? = some p)
    (hphase : phase.prepared? = some p) (hnot : ∀ q, phase ≠ .calling q)
    (hnumbered : calls.map Call.id = List.range calls.length)
    (hothers : ∀ c : Call, c.outboxId ≠ p.row.id → (c ∈ calls ↔ c ∈ w.calls))
    (hplaced : ∀ c ∈ calls, c.outboxId = p.row.id →
      c.requestId = p.row.requestId ∧ c.recipientIndex = p.row.recipientIndex)
    (hcalled : ∀ k, phase = .called p k → (∃ c ∈ calls, c.id = k ∧ c.outboxId = p.row.id) ∧
      ∀ c ∈ calls, c.outboxId = p.row.id → c.id ≠ k → c.refused = true)
    (hanswered : ∀ a, phase = .answered p a → a.refused = true →
      ∀ c ∈ calls, c.outboxId = p.row.id → c.refused = true) :
    CallsKept { w.advance id worker w.db phase with calls := calls } := by
  have hheld : Holds w id p := ⟨worker,hw,hp⟩
  have hholds : ∀ id' q, Holds { w.advance id worker w.db phase with calls := calls } id' q → Holds w id' q := by
    rintro id' q ⟨worker',hw',hq⟩
    by_cases hid : id' = id
    · subst hid
      rw [advance_self hw'] at hq
      cases hphase.symm.trans hq
      exact hheld
    · exact ⟨worker',advance_other hid hw',hq⟩
  have hrefused : ∀ outboxId, outboxId ≠ p.row.id → Refused w outboxId →
      Refused { w.advance id worker w.db phase with calls := calls } outboxId := by
    intro outboxId hne href c hc heq
    exact href c ((hothers c (heq ▸ hne)).mp hc) heq
  obtain ⟨s,hs,hsame,hopen⟩ := h.held id p hheld
  refine ⟨h.outbox,h.settled,fun id' q hq => h.held id' q (hholds id' q hq),?_,hnumbered,?_,?_,?_,?_,?_⟩
  · exact fun id₁ id₂ q q' hq hq' => h.single id₁ id₂ q q' (hholds id₁ q hq) (hholds id₂ q' hq')
  · intro c hc
    by_cases hid : c.outboxId = p.row.id
    · obtain ⟨hreq,hindex⟩ := hplaced c hc hid
      exact ⟨s,hs,hsame.id.trans hid.symm,hsame.recipient.1.trans hreq.symm,hsame.recipient.2.trans hindex.symm⟩
    · exact h.placed c ((hothers c hid).mp hc)
  · intro r hr hclosed
    refine hrefused r.id (fun heq => hclosed ?_) (h.closed r hr hclosed)
    have hrs := h.outbox.eq_of_id hr hs (heq.trans hsame.id.symm)
    exact hrs ▸ hopen
  · intro id' worker' q hw' hq
    by_cases hid : id' = id
    · subst hid
      rw [advance_self hw'] at hq
      exact absurd hq (hnot q)
    · have hold := advance_other hid hw'
      exact hrefused _ (h.other hheld ⟨worker',hold,by rw [hq]; rfl⟩ hid) (h.calling id' worker' q hold hq)
  · intro id' worker' q k hw' hq
    by_cases hid : id' = id
    · subst hid
      rw [advance_self hw'] at hq
      have hcall : phase = .called q k := hq
      rw [hcall] at hphase
      cases hphase
      exact hcalled k hcall
    · have hold := advance_other hid hw'
      have hne := h.other hheld ⟨worker',hold,by rw [hq]; rfl⟩ hid
      obtain ⟨⟨c,hc,hck,hcid⟩,hrest⟩ := h.called id' worker' q k hold hq
      refine ⟨⟨c,(hothers c (hcid ▸ hne)).mpr hc,hck,hcid⟩,fun d hd hdid => ?_⟩
      exact hrest d ((hothers d (hdid ▸ hne)).mp hd) hdid
  · intro id' worker' q a hw' hq ha
    by_cases hid : id' = id
    · subst hid
      rw [advance_self hw'] at hq
      have hanswer : phase = .answered q a := hq
      rw [hanswer] at hphase
      cases hphase
      exact hanswered a hanswer ha
    · have hold := advance_other hid hw'
      exact hrefused _ (h.other hheld ⟨worker',hold,by rw [hq]; rfl⟩ hid) (h.answered id' worker' q a hold hq ha)

/-- The calls for a held row are for its recipient. -/
theorem CallsKept.place (h : CallsKept w) {id : WorkerId} {p : PreparedSend} (hp : Holds w id p) {c : Call}
    (hc : c ∈ w.calls) (hid : c.outboxId = p.row.id) :
    c.requestId = p.row.requestId ∧ c.recipientIndex = p.row.recipientIndex := by
  obtain ⟨r,hr,hrid,hreq,hindex⟩ := h.placed c hc
  obtain ⟨s,hs,hsame,-⟩ := h.held id p hp
  have hrs := h.outbox.eq_of_id hr hs (hrid.trans (hid.trans hsame.id.symm))
  subst hrs
  exact ⟨hreq.symm.trans hsame.recipient.1,hindex.symm.trans hsame.recipient.2⟩

theorem CallsKept.startCall (h : CallsKept w) {id : WorkerId} {worker : Worker} {p : PreparedSend}
    (hw : w.workers id = some worker) (hp : worker.phase = .calling p) : CallsKept (w.startCall id worker p) := by
  have hprepared : worker.phase.prepared? = some p := by rw [hp]; rfl
  unfold World.startCall
  refine h.goes hw hprepared rfl (fun _ => nofun) ?_ (fun c hne => ?_) (fun c hc hid => ?_) (fun k hk => ?_)
    fun a ha => nomatch ha
  · rw [List.map_append, h.numbered, List.length_append, List.length_singleton, List.range_succ]
    rfl
  · rw [List.mem_append, List.mem_singleton]
    refine or_iff_left ?_
    rintro rfl
    exact hne rfl
  · rcases List.mem_append.mp hc with hc | hc
    · exact h.place ⟨worker,hw,hprepared⟩ hc hid
    · rw [List.mem_singleton.mp hc]
      exact ⟨rfl,rfl⟩
  · cases hk
    refine ⟨⟨_,List.mem_append_right _ (List.mem_singleton_self _),rfl,rfl⟩,fun c hc hid hne => ?_⟩
    rcases List.mem_append.mp hc with hc | hc
    · exact h.calling id worker p hw hp c hc hid
    · rw [List.mem_singleton.mp hc] at hne
      exact absurd rfl hne

theorem CallsKept.answer (h : CallsKept w) {id : WorkerId} {worker : Worker} {p : PreparedSend} {k : CallId}
    (hw : w.workers id = some worker) (hp : worker.phase = .called p k) (a : ProviderAnswer) :
    CallsKept (w.answer id worker p k a) := by
  have hprepared : worker.phase.prepared? = some p := by rw [hp]; rfl
  obtain ⟨⟨c₀,hc₀,hk₀,hid₀⟩,hrest⟩ := h.called id worker p k hw hp
  have hnodup : (w.calls.map Call.id).Nodup := h.numbered ▸ List.nodup_range
  have hcall : ∀ c ∈ w.calls, c.id = k → c = c₀ := fun c hc hk =>
    List.inj_on_of_nodup_map hnodup hc hc₀ (hk.trans hk₀.symm)
  unfold World.answer
  refine h.goes hw hprepared rfl (fun _ => nofun) ?_ (fun c hne => ?_) (fun c hc hid => ?_) (fun j hj => nomatch hj)
    fun b hb hrefused c hc hid => ?_
  · have hids : (updateWhere (fun c => decide (c.id = k)) (fun c => { c with answer := some a }) w.calls).map Call.id =
        w.calls.map Call.id := map_updateWhere Call.id fun _ _ _ => rfl
    rw [hids, h.numbered, updateWhere, List.length_map]
  · rw [mem_updateWhere]
    constructor
    · rintro (⟨s,hs,hsk,rfl⟩ | ⟨hc,-⟩)
      · rw [hcall s hs (of_decide_eq_true hsk)] at hne
        exact absurd hid₀ hne
      · exact hc
    · intro hc
      refine Or.inr ⟨hc,decide_eq_false fun hk => ?_⟩
      rw [hcall c hc hk] at hne
      exact hne hid₀
  · rcases mem_updateWhere.mp hc with ⟨s,hs,-,rfl⟩ | ⟨hc,-⟩
    · exact h.place (c := s) ⟨worker,hw,hprepared⟩ hs hid
    · exact h.place ⟨worker,hw,hprepared⟩ hc hid
  · cases hb
    rcases mem_updateWhere.mp hc with ⟨s,-,-,rfl⟩ | ⟨hc,hk⟩
    · exact hrefused
    · exact hrest c hc hid (of_decide_eq_false hk)

theorem isSending_row {p : PreparedSend} {r : OutboxRow} (h : isSending p r = true) :
    r.id = p.row.id ∧ r.state = .sending := of_decide_eq_true h

theorem CallsKept.unsettled (h : CallsKept w) {r : OutboxRow} (hr : r ∈ w.db.outbox.rows) (hs : r.state.final = false) :
    r.settledOutcome = none := by
  by_contra hne
  exact absurd (hs.symm.trans (h.settled r hr hne)) nofun

theorem CallsKept.record (h : CallsKept w) {id : WorkerId} {worker : Worker} {p : PreparedSend} {a : ProviderAnswer}
    (hw : w.workers id = some worker) (hp : worker.phase = .answered p a) : CallsKept (w.record id worker p a) := by
  have hheld : Holds w id p := ⟨worker,hw,by rw [hp]; rfl⟩
  have hnone : ∀ r ∈ w.db.outbox.rows, isSending p r = true → r.settledOutcome = none := by
    intro r hr hm
    refine h.unsettled hr ?_
    rw [(isSending_row hm).2]
    rfl
  cases a with
  | accepted messageId =>
    refine h.update (h.outbox.rewrites (rewrites_recordAccepted w.db p messageId)) rfl (advance_quiet rfl)
      (congrArg Outbox.rows (recordAccepted_outbox w.db p messageId)) fun r hr hm => ⟨?_,fun _ => rfl,fun _ => ?_⟩
    · refine ⟨rfl,rfl,rfl,rfl,rfl,fun hf => ?_⟩
      rw [(isSending_row hm).2] at hf
      cases hf
    · exact Or.inl (Or.inr (Or.inr (Or.inl rfl)))
  | failed error =>
    have hphase : (if error.retryable then Phase.failing error.message else .finishing).prepared? = none := by
      split <;> rfl
    refine h.update (h.outbox.rewrites (rewrites_recordFailed w.db p error)) rfl (advance_quiet hphase)
      (congrArg Outbox.rows (recordFailed_outbox w.db p error)) fun r hr hm => ⟨?_,fun hne => ?_,fun _ => ?_⟩
    · refine ⟨rfl,rfl,rfl,rfl,rfl,fun hf => ?_⟩
      rw [(isSending_row hm).2] at hf
      cases hf
    · exact absurd (hnone r hr hm) hne
    · -- Only a refused call lets the row go on or fail.
      by_cases hrefused : (ProviderAnswer.failed error).refused = true
      · rw [(isSending_row hm).1]
        refine Or.inr ⟨h.answered id worker p _ hw hp hrefused,fun id' q ⟨worker',hw',hq⟩ => ?_⟩
        by_cases hid : id' = id
        · subst hid
          rw [advance_self hw'] at hq
          cases hphase.symm.trans hq
        · exact h.other hheld ⟨worker',advance_other hid hw',hq⟩ hid
      · simp only [ProviderAnswer.refused, Bool.or_eq_true, Bool.not_eq_true', not_or, Bool.not_eq_true,
          Bool.not_eq_false] at hrefused
        refine Or.inl (Or.inr (Or.inl ?_))
        simp [failedState, hrefused.1, hrefused.2]

/-- A claim that records nothing keeps its row. -/
theorem CallsKept.recordFails (h : CallsKept w) {id : WorkerId} {worker : Worker} {p : PreparedSend} {a : ProviderAnswer}
    (hw : w.workers id = some worker) (hp : worker.phase = .answered p a) (message : String) :
    CallsKept (w.recordFails id worker p message a) := by
  have hprepared : worker.phase.prepared? = some p := by rw [hp]; rfl
  cases a with
  | accepted messageId =>
    refine h.goes hw hprepared rfl (fun _ => nofun) h.numbered (fun _ _ => Iff.rfl) (fun c hc hid => ?_)
      (fun j hj => nomatch hj) fun b hb hrefused => ?_
    · exact h.place ⟨worker,hw,hprepared⟩ hc hid
    · cases hb
      cases hrefused
  | failed error =>
    refine h.same h.outbox rfl (fun id' worker' hw' => ?_) rfl
    by_cases hid : id' = id
    · subst hid
      rw [advance_self hw']
      exact Or.inl rfl
    · exact Or.inr (advance_other hid hw')

theorem waiting_of_open {r : OutboxRow} (hf : r.state.final = false) (hs : r.state ≠ .sending) (ha : r.state ≠ .ambiguous) :
    Waiting r := by
  cases hstate : r.state with
  | pendingConnection => exact Or.inl hstate
  | queued => exact Or.inr hstate
  | sending => exact absurd hstate hs
  | ambiguous => exact absurd hstate ha
  | _ => rw [hstate] at hf; cases hf

/-- One row is rewritten. -/
theorem CallsKept.setRow (h : CallsKept w) (hk : OutboxKept w'.db) (hcalls : w'.calls = w.calls)
    (hworkers : ∀ id worker, w'.workers id = some worker →
      worker.phase.prepared? = none ∨ w.workers id = some worker)
    {row : OutboxRow} (hrow : row ∈ w.db.outbox.rows) {f : OutboxRow → OutboxRow}
    (hout : w'.db.outbox = (Email.setRow w.db row f).outbox) (hmoves : Moves row (f row))
    (hsettled : (f row).settledOutcome ≠ none → (f row).state.final = true) (hopen : row.Open → (f row).Open) :
    CallsKept w' := by
  refine h.update hk hcalls hworkers (congrArg Outbox.rows hout) fun r hr hid => ?_
  rw [h.outbox.eq_of_id hr hrow (of_decide_eq_true hid)]
  exact ⟨hmoves,hsettled,fun ho => Or.inl (hopen ho)⟩

theorem CallsKept.prepare (h : CallsKept w) {id : WorkerId} {worker : Worker} {deployment : Deployment}
    {token : TokenAnswer} {reference : String} {db : Db} {prepared : Option PreparedSend}
    (hprepare : prepareSend w.db deployment worker.outboxId token reference = .ok (db,prepared)) :
    CallsKept (w.advance id worker db (afterPrepare prepared)) := by
  rcases prepareSend_ok hprepare with ⟨rfl,rfl⟩ | ⟨row,hrow,-,f,q,hrewrites,has⟩
  · exact h.same h.outbox rfl (advance_quiet rfl) rfl
  · have hk : OutboxKept db := h.outbox.rewrites (has.rewrites h.outbox hrow hrewrites.moves.1 hrewrites.moves.2)
    have hmoves := hrewrites.moves.1
    -- A row that waited stays closed.
    have hclosed : ∀ phase : Phase, phase.prepared? = none → Waiting row → (f row).settledOutcome = row.settledOutcome →
        CallsKept (w.advance id worker db phase) := by
      intro phase hnone hwaiting hsettled
      obtain ⟨hnot,hnothing⟩ := h.not_open hrow hwaiting
      exact h.setRow hk rfl (advance_quiet hnone) hrow has.outbox hmoves
        (fun hne => absurd (hsettled.trans hnothing) hne) fun ho => absurd ho hnot
    cases hrewrites with
    | interrupted hs =>
      refine h.setRow hk rfl (advance_quiet rfl) hrow has.outbox hmoves (fun hne => ?_) fun _ => Or.inr (Or.inl rfl)
      exact absurd (h.unsettled hrow (by rw [hs]; rfl)) hne
    | unauthorized hf hs ha hauthorized => exact hclosed _ rfl (waiting_of_open hf hs ha) rfl
    | cancelled reason hf hs ha hauthorized hne => exact hclosed _ rfl (waiting_of_open hf hs ha) rfl
    | disallowed reason hf hs ha hauthorized => exact hclosed _ rfl (waiting_of_open hf hs ha) rfl
    | simulated reference reason hf hs ha hauthorized => exact hclosed _ rfl (waiting_of_open hf hs ha) rfl
    | waits code hs hauthorized => exact hclosed _ rfl (Or.inr hs) rfl
    | sends provider hf hs ha hauthorized =>
      exact h.sends hk hrow (waiting_of_open hf hs ha) (congrArg Outbox.rows has.outbox) (fun r => ⟨rfl,rfl⟩) hmoves

theorem CallsKept.settle (h : CallsKept w) {requestId : RequestId} {outboxId : OutboxId} {userId : UserId}
    {outcome : SettledOutcome} {db : Db} {result : SettleResult}
    (hsettle : settleEmailSend env w.db requestId outboxId userId outcome = .ok (db,result)) :
    CallsKept { w with db := db } := by
  have hk : OutboxKept db := h.outbox.rewrites (rewrites_settle h.outbox hsettle)
  rcases settleEmailSend_ok hsettle with rfl | ⟨row,hrow,-,-,hstate,⟨-,rfl⟩ | ⟨-,hnot⟩⟩
  · exact h
  · refine h.setRow hk rfl (fun _ _ hw => Or.inr hw) hrow (settleSent_outbox w.db requestId userId row)
      ⟨rfl,rfl,rfl,rfl,rfl,fun hf => ?_⟩ (fun _ => rfl) fun _ => Or.inr (Or.inr (Or.inl rfl))
    rw [hstate] at hf
    cases hf
  · have hout : db.outbox = (Email.setRow w.db row (settledRow w.db userId .cancelled .notSent)).outbox := by
      rcases settleNotSent_ok hnot with ⟨rfl,-⟩ | ⟨q,r,-,hrevised⟩
      · rfl
      · exact hrevised.outbox
    refine h.setRow hk rfl (fun _ _ hw => Or.inr hw) hrow hout ⟨rfl,rfl,rfl,rfl,rfl,fun hf => ?_⟩ (fun _ => rfl)
      fun _ => Or.inr (Or.inr (Or.inr rfl))
    rw [hstate] at hf
    cases hf

theorem CallsKept.acts (h : CallsKept w) (ha : Acts env w e w') : CallsKept w' := by
  have hk : OutboxKept w'.db := h.outbox.acts ha
  have hsame : ∀ id worker, w.workers id = some worker → worker.phase.prepared? = none ∨ w.workers id = some worker :=
    fun _ _ hw => Or.inr hw
  cases ha with
  | approval e db hs =>
    cases appended_of_step h.outbox hs with
    | kept hout => exact h.same hk rfl hsame (congrArg Outbox.rows hout)
    | queued requestId row row' d thread ids new hrow hp hreq happroved hrev hhash hq =>
      refine h.appended hk hq.rows fun r hr => ?_
      obtain ⟨_,j,recipient,address,hmade,-⟩ := hq.made r hr
      have hid : r.id ∈ new.map OutboxRow.id := List.mem_map_of_mem hr
      rw [hq.fresh, List.mem_range'_1] at hid
      exact ⟨hmade ▸ rfl,hid.1⟩
  | claim id jobId jobs job key outboxId hnone hclaim hkey hpayload => exact h.same hk rfl (advance_quiet rfl) rfl
  | prepare id worker deployment token reference db prepared hw hp hprepare => exact h.prepare hprepare
  | prepareFails id worker deployment token reference message hw hp => exact h.same hk rfl (advance_quiet rfl) rfl
  | startCall id worker prepared hw hp => exact h.startCall hw hp
  | answer id worker prepared call answer hw hp => exact h.answer hw hp answer
  | record id worker prepared answer hw hp => exact h.record hw hp
  | recordFails id worker prepared answer message hw hp => exact h.recordFails hw hp message
  | finish id worker hw hp => exact h.same hk rfl retire_quiet rfl
  | finishFails id worker message hw hp => exact h.same hk rfl (advance_quiet rfl) rfl
  | fail id worker message hw hp => exact h.same hk rfl retire_quiet rfl
  | crash id worker hw => exact h.same hk rfl retire_quiet rfl
  | settle requestId outboxId userId outcome db result hs => exact h.settle hs
  | disconnect accountId db hd =>
    unfold disconnectMailbox at hd
    split at hd
    next =>
      cases hd
      refine h.waiting hk rfl hsame rfl fun r hr hm => ?_
      have hqueued : r.state = .queued := (of_decide_eq_true hm).2
      exact ⟨Or.inr hqueued,⟨rfl,rfl,rfl,rfl,rfl,fun hf => by rw [hqueued] at hf; cases hf⟩,rfl⟩
    next =>
      cases hd
      exact h
  | connect freshId provider address db hc =>
    obtain ⟨accountId,mail,rfl⟩ := connectMailbox_ok hc
    refine h.waiting hk rfl hsame rfl fun r hr hm => ?_
    have hwaiting := picksUp_waiting hm
    exact ⟨hwaiting,⟨rfl,rfl,rfl,rfl,rfl,fun hf => absurd (hwaiting.open.1.symm.trans hf) nofun⟩,rfl⟩
  | contactReply address candidateId unsubscribe =>
    obtain ⟨reason,hout,-⟩ := recordContactReply_outbox w.db address candidateId unsubscribe
    refine h.waiting hk rfl hsame (congrArg Outbox.rows hout) fun r hr hm => ?_
    have hwaiting := isFutureOutreach_waiting hm
    exact ⟨hwaiting,⟨rfl,rfl,rfl,rfl,rfl,fun hf => absurd (hwaiting.open.1.symm.trans hf) nofun⟩,rfl⟩

theorem CallsKept.initial (h : InitialWorld w) : CallsKept w := by
  have hheld : ∀ id p, ¬ Holds w id p := by
    rintro id p ⟨worker,hw,-⟩
    rw [h.workers id] at hw
    cases hw
  have hrows : w.db.outbox.rows = [] := by rw [h.outbox]
  have hnone : ∀ id worker, w.workers id ≠ some worker := fun id worker hw => nomatch (h.workers id).symm.trans hw
  refine ⟨.initial h.toInitial,?_,fun id p hp => absurd hp (hheld id p),fun id _ p _ hp => absurd hp (hheld id p),?_,?_,?_,
    fun id worker _ hw => absurd hw (hnone id worker),fun id worker _ _ hw => absurd hw (hnone id worker),
    fun id worker _ _ hw => absurd hw (hnone id worker)⟩
  · rw [hrows]
    exact fun _ hr => absurd hr List.not_mem_nil
  · rw [h.calls]
    rfl
  · rw [h.calls]
    exact fun _ hc => absurd hc List.not_mem_nil
  · rw [hrows]
    exact fun _ hr => absurd hr List.not_mem_nil

end Steps

section Safety
variable {env : Approvals.Platform} {w w' : World} {id : WorkerId} {worker : Worker} {prepared : PreparedSend}

/-- A person settled the row of this call as not sent. -/
def Settled (w : World) (c : Call) : Prop :=
  ∃ r ∈ w.db.outbox.rows, r.id = c.outboxId ∧ r.settledOutcome = some .notSent

/-- A message of this row is out, or may be. -/
def OutboxRow.Out (r : OutboxRow) : Prop := r.state = .sending ∨ r.state = .ambiguous ∨ r.state = .sent

/-- A call for this row sends nothing twice. -/
structure SendsOnce (w : World) (row : OutboxRow) : Prop where
  calls : ∀ c ∈ w.calls, c.requestId = row.requestId → c.recipientIndex = row.recipientIndex →
    c.refused = true ∨ Settled w c
  rows : ∀ r ∈ w.db.outbox.rows, SameRecipient r row → r.authorizationRevision < row.authorizationRevision → ¬ r.Out

/-- A person settled this row as not sent, and the row of a later approval was called for since. -/
def Overtaken (w : World) (row : OutboxRow) : Prop :=
  (∃ r ∈ w.db.outbox.rows, r.id = row.id ∧ r.settledOutcome = some .notSent) ∧
    ∃ r ∈ w.db.outbox.rows, SameRecipient r row ∧ row.authorizationRevision < r.authorizationRevision ∧
      r.settledOutcome ≠ some .notSent ∧ ∃ c ∈ w.calls, c.outboxId = r.id ∧ c.refused = false

/-- What holds of the claim that is about to call. -/
def AtCall (P : World → OutboxRow → Prop) (w : World) (e : SendEvent) : Prop :=
  ∀ id worker prepared, e = .startCall id → w.workers id = some worker → worker.phase = .calling prepared → P w prepared.row

/-- A cancelled row was given up, or a person said that it was not sent. -/
theorem OutboxRow.Open.settled {r : OutboxRow} (h : r.Open) (hc : r.state = .cancelled) :
    r.settledOutcome = some .notSent := by
  rcases h with h | h | h | h
  · cases hc.symm.trans h
  · cases hc.symm.trans h
  · cases hc.symm.trans h
  · exact h

theorem CallsKept.sends_once_iff (h : CallsKept w) (hw : w.workers id = some worker) (hp : worker.phase = .calling prepared) :
    SendsOnce w prepared.row ↔ ¬ Overtaken w prepared.row := by
  obtain ⟨s,hs,hsame,hopen⟩ := h.held id prepared ⟨worker,hw,by rw [hp]; rfl⟩
  constructor
  · rintro hsafe ⟨-,r,hr,hrecipient,-,hnot,c,hc,hcid,hunrefused⟩
    obtain ⟨t,ht,htid,hreq,hindex⟩ := h.placed c hc
    have htr := h.outbox.eq_of_id ht hr (htid.trans hcid)
    subst htr
    rcases hsafe.calls c hc (hreq.symm.trans hrecipient.1) (hindex.symm.trans hrecipient.2) with hrefused | ⟨u,hu,huid,hsettled⟩
    · cases hunrefused.symm.trans hrefused
    · have hut := h.outbox.eq_of_id hu ht (huid.trans htid.symm)
      exact hnot (hut ▸ hsettled)
  · intro hnot
    refine ⟨fun c hc hreq hindex => ?_,fun r hr hrecipient hlt hout => ?_⟩
    · by_contra hboth
      obtain ⟨hunrefused,hunsettled⟩ := not_or.mp hboth
      obtain ⟨r,hr,hrid,hrreq,hrindex⟩ := h.placed c hc
      have hropen : r.Open := by
        by_contra hclosed
        exact hunrefused (h.closed r hr hclosed c hc hrid.symm)
      have hrnot : r.settledOutcome ≠ some .notSent := fun hsettled => hunsettled ⟨r,hr,hrid,hsettled⟩
      have hrecipient : SameRecipient r s :=
        ⟨hrreq.trans (hreq.trans hsame.recipient.1.symm),hrindex.trans (hindex.trans hsame.recipient.2.symm)⟩
      rcases h.outbox.earlier r hr s hs hrecipient with rfl | ⟨-,hcancelled⟩ | ⟨hlt,hcancelled⟩
      · exact hunrefused (h.calling id worker prepared hw hp c hc (hrid.symm.trans hsame.id))
      · exact hrnot (hropen.settled hcancelled)
      · refine hnot ⟨⟨s,hs,hsame.id,hopen.settled hcancelled⟩,r,hr,?_,hsame.revision ▸ hlt,hrnot,c,hc,hrid.symm,?_⟩
        · exact ⟨hrreq.trans hreq,hrindex.trans hindex⟩
        · exact Bool.not_eq_true _ ▸ hunrefused
    · have hrecipient' : SameRecipient r s :=
        ⟨hrecipient.1.trans hsame.recipient.1.symm,hrecipient.2.trans hsame.recipient.2.symm⟩
      rw [← hsame.revision] at hlt
      rcases h.outbox.earlier r hr s hs hrecipient' with rfl | ⟨-,hcancelled⟩ | ⟨hgt,-⟩
      · exact absurd hlt (Nat.lt_irrefl _)
      · rcases hout with hout | hout | hout <;> cases hcancelled.symm.trans hout
      · exact absurd hgt (Nat.lt_asymm hlt)

/-- The runs in which no call repeats another are those in which no claim that was overtaken calls. -/
theorem calls_once_iff {es : List SendEvent} (h : InitialWorld w) :
    Run (fun s e t => SendStep env s e t ∧ AtCall SendsOnce s e) w es w' ↔
      Run (Guarded (SendStep env) (AtCall fun w row => ¬ Overtaken w row)) w es w' := by
  refine Run.guarded_iff (P := CallsKept) (.initial h) (fun s e t hk hs => ?_) fun s e t hk hs _ => hk.acts hs.acts
  constructor
  · exact fun hsafe id worker prepared he hw hp => (hk.sends_once_iff hw hp).mp (hsafe id worker prepared he hw hp)
  · exact fun hnot id worker prepared he hw hp => (hk.sends_once_iff hw hp).mpr (hnot id worker prepared he hw hp)

end Safety

section Sample

/-- The approvals of one Admin, who is also the sender; nothing was proposed yet. -/
def emailWorld : World := ⟨emailDb,fun _ => none,[]⟩

def sampleDeployment : Deployment := ⟨"production","","",false⟩

def emailDecision (revision : ℕ) (hash key : String) : SendEvent :=
  .approval (.decide 0 ⟨1,false⟩ ⟨revision,hash,key,.approve,none⟩)

/-- The email is approved with its mailbox connected, and a first claim commits it as sending. -/
def sendingEvents : List SendEvent :=
  [.connect 7 .gmail "a@example.com",.approval (sampleProposal (.communication emailDetails)),
    emailDecision 1 "sha256:3600000" "vote-1",.claim 0 0,.prepare 0 sampleDeployment .resolved ""]

/-- The first claim stalls past its lease; its row is settled as not sent, approved again and called for. -/
def overtakingEvents : List SendEvent :=
  [.approval (.tick 120001),.claim 1 0,.prepare 1 sampleDeployment .resolved "",.finish 1,.settle 0 0 1 .notSent,
    emailDecision 2 "sha256:3720001" "vote-2",.claim 1 2,.prepare 1 sampleDeployment .resolved "",.startCall 1]

def overtakenWorld : World := afterAll (World.apply samplePlatform) emailWorld (sendingEvents ++ overtakingEvents)

/-- The claim is about to call, and an unanswered call for its recipient stands on a row that nobody settled. -/
def callRepeats (w : World) (id : WorkerId) : Bool :=
  (w.workers id).any fun worker =>
    match worker.phase with
    | .calling prepared => w.calls.any fun c =>
      c.requestId = prepared.row.requestId ∧ c.recipientIndex = prepared.row.recipientIndex ∧ c.refused = false ∧
        ∀ r ∈ w.db.outbox.rows, r.id = c.outboxId → r.settledOutcome ≠ some .notSent
    | _ => false

theorem initial_emailWorld : InitialWorld emailWorld := by
  refine ⟨initial_sampleDb _,rfl,rfl,fun _ => rfl,rfl⟩

theorem not_sendsOnce_of_repeats {w : World} {id : WorkerId} (h : callRepeats w id = true) :
    ¬ AtCall SendsOnce w (.startCall id) := by
  rw [callRepeats, Option.any_eq_true] at h
  obtain ⟨worker,hw,h⟩ := h
  split at h
  next prepared hp =>
    obtain ⟨c,hc,h⟩ := List.any_eq_true.mp h
    obtain ⟨hreq,hindex,hunrefused,hunsettled⟩ := of_decide_eq_true h
    intro honce
    rcases (honce id worker prepared rfl hw hp).calls c hc hreq hindex with hrefused | ⟨r,hr,hid,hsettled⟩
    · cases hunrefused.symm.trans hrefused
    · exact hunsettled r hr hid hsettled
  next => cases h

/-- The overtaken claim calls for the recipient that the second row was just called for. -/
theorem overtaken_call_repeats : ReachableWorld samplePlatform overtakenWorld ∧
    (∃ w', SendStep samplePlatform overtakenWorld (.startCall 0) w') ∧
      ¬ AtCall SendsOnce overtakenWorld (.startCall 0) := by
  have hrun : acceptedAll (World.apply samplePlatform) emailWorld (sendingEvents ++ overtakingEvents) = true := by
    decide +kernel
  have hcalls : accepted (World.apply samplePlatform) overtakenWorld (.startCall 0) = true := by
    decide +kernel
  have hrepeats : callRepeats overtakenWorld 0 = true := by
    decide +kernel
  exact ⟨⟨emailWorld,_,initial_emailWorld,run_afterAll hrun⟩,⟨_,step_after hcalls⟩,not_sendsOnce_of_repeats hrepeats⟩

/-- No row of a later revision is there for the claim that is about to call. -/
def callsNewest (w : World) : SendEvent → Bool
  | .startCall id => (w.workers id).all fun worker =>
    match worker.phase with
    | .calling prepared => w.db.outbox.rows.all fun r =>
      r.authorizationRevision ≤ prepared.row.authorizationRevision
    | _ => true
  | _ => true

theorem not_overtaken_of_newest {w : World} {e : SendEvent} (h : callsNewest w e = true) :
    AtCall (fun w row => ¬ Overtaken w row) w e := by
  rintro id worker prepared rfl hw hp ⟨-,r,hr,-,hlt,-⟩
  simp only [callsNewest, hw, Option.all_some, hp, List.all_eq_true, decide_eq_true_eq] at h
  exact absurd (h r hr) (Nat.not_le.mpr hlt)

/-- The first claim in time calls once, and its answer is recorded. -/
theorem calls_once_sent : ∃ es w', Run (fun s e t => SendStep samplePlatform s e t ∧ AtCall SendsOnce s e) emailWorld es w' ∧
    w'.db.outbox.rows.map OutboxRow.state = [.sent] := by
  have hrun : admittedAll callsNewest (World.apply samplePlatform) emailWorld
      (sendingEvents ++ [.startCall 0,.answer 0 (.accepted "m-1"),.record 0,.finish 0]) = true := by
    decide +kernel
  have hguarded := (run_admittedAll hrun).mono fun s e t h => And.intro (not_overtaken_of_newest h.1) h.2
  exact ⟨_,_,(calls_once_iff initial_emailWorld).mpr hguarded,by decide +kernel⟩

end Sample

end HermesEnterprise.Email
