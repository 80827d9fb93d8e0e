import HermesEnterprise.Calls.Replays

/-! # What a delivery does

Every delivery reads or writes the rows of its own call only: it is answered from them, or
goes on from its call row, or makes one. So a call that has an answer gets it again, and nothing
is executed.
-/
namespace HermesEnterprise.Calls
open Foundation.Runs Foundation.Tables Foundation.CanonicalJson
variable {digest : String → String} {w w' : World} {e : Event} {rows : List Row} {a b : Row} {call own : Call}
  {id : CallId} {content : String} {ok : Bool} {turn seq : ℕ} {f : Flight}

/-- A proposal between its halves has its call row. -/
def FlightKept (rows : List Row) (f : Flight) : Prop :=
  ∃ a ∈ rows, ∃ own, a.body = .call f.callId own ∧ Same own f.call ∧ a.turn = f.turn ∧ a.seq = f.seq

structure Kept (digest : String → String) (w : World) : Prop where
  rows : RowsKept digest w.rows
  run : w.run.wellFormed = true
  flights : ∀ f ∈ w.flights, FlightKept w.rows f
  replies : ∀ reply ∈ w.replies, Replied w reply

section Frames

theorem Answered.mono (h : Answered w call ok content) (hsub : ∀ a ∈ w.rows, a ∈ w'.rows) : Answered w' call ok content := by
  obtain ⟨a,ha,b,hb,rest⟩ := h
  exact ⟨a,hsub a ha,b,hsub b hb,rest⟩

theorem Replied.mono {reply : Call × Reply} (h : Replied w reply) (hsub : ∀ a ∈ w.rows, a ∈ w'.rows) : Replied w' reply := by
  obtain ⟨call,reply⟩ := reply
  cases reply with
  | content ok content => exact Answered.mono h hsub
  | pending =>
    obtain ⟨a,ha,rest⟩ := h
    exact ⟨a,hsub a ha,rest⟩

theorem FlightKept.mono {rows' : List Row} (h : FlightKept rows f) (hsub : ∀ a ∈ rows, a ∈ rows') : FlightKept rows' f := by
  obtain ⟨a,ha,rest⟩ := h
  exact ⟨a,hsub a ha,rest⟩

/-- A step adds rows, flights and replies. -/
theorem Kept.next (h : Kept digest w) (hrows : RowsKept digest w'.rows) (hsub : ∀ a ∈ w.rows, a ∈ w'.rows)
    (hrun : w'.run.wellFormed = true) (hflights : ∀ f ∈ w'.flights, f ∈ w.flights ∨ FlightKept w'.rows f)
    (hreplies : ∀ reply ∈ w'.replies, reply ∈ w.replies ∨ Replied w' reply) : Kept digest w' where
  rows := hrows
  run := hrun
  flights := fun f hf => (hflights f hf).elim (fun hold => (h.flights f hold).mono hsub) id
  replies := fun reply hr => (hreplies reply hr).elim (fun hold => (h.replies reply hold).mono hsub) id

theorem resume_frame (w : World) : (resume w).rows = w.rows ∧ (resume w).flights = w.flights ∧ (resume w).replies = w.replies ∧
    (resume w).executed = w.executed ∧ (resume w).run.wellFormed = w.run.wellFormed := by
  unfold resume
  split <;> exact ⟨rfl,rfl,rfl,rfl,rfl⟩

theorem Kept.resume (h : Kept digest w) : Kept digest (Calls.resume w) := by
  obtain ⟨hrows,hflights,hreplies,-,hrun⟩ := resume_frame w
  refine h.next (hrows ▸ h.rows) (fun a ha => hrows ▸ ha) (hrun ▸ h.run) (fun f hf => Or.inl (hflights ▸ hf)) fun reply hr => ?_
  exact Or.inl (hreplies ▸ hr)

theorem Kept.endFlight (h : Kept digest w) (flight : FlightId) : Kept digest (Calls.endFlight w flight) :=
  h.next h.rows (fun _ ha => ha) h.run (fun _ hf => Or.inl (List.mem_filter.mp hf).1) fun _ hr => Or.inl hr

theorem Kept.waits (h : Kept digest w) (waitingFor : Option String) : Kept digest { w with run := { w.run with waitingFor := waitingFor } } :=
  h.next h.rows (fun _ ha => ha) h.run (fun _ hf => Or.inl hf) fun _ hr => Or.inl hr

theorem Kept.reply (h : Kept digest w) {reply : Reply} (hreplied : Replied w (call,reply)) :
    Kept digest { w with replies := w.replies ++ [(call,reply)] } := by
  refine h.next h.rows (fun _ ha => ha) h.run (fun _ hf => Or.inl hf) fun other hr => ?_
  rcases List.mem_append.mp hr with hr | hr
  · exact Or.inl hr
  · cases List.mem_singleton.mp hr
    exact Or.inr (hreplied.mono fun _ ha => ha)

theorem Kept.park (h : Kept digest w) (ha : a ∈ w.rows) (hbody : a.body = .call id own) (hsame : Same own call) (key : String) :
    Kept digest (Calls.park w call key) :=
  have hreplied : Replied w (call,.pending) := ⟨a,ha,id,own,hbody,hsame⟩
  (h.reply hreplied).waits _

/-- The call's row is there, and nothing behind it yet. -/
theorem Kept.answer (h : Kept digest w) (ha : a ∈ w.rows) (hbody : a.body = .call id own) (hsame : Same own call)
    (hturn : a.turn = turn) (hseq : a.seq = seq) (hopen : ∀ b ∈ w.rows, ∀ content ok, b.body ≠ .result id content ok) :
    Kept digest (Calls.answer w call id turn seq ok content) := by
  subst hturn hseq
  obtain ⟨hrows,hkept⟩ := h.rows.resultRow content ok ha hbody hopen
  unfold Calls.answer
  rw [hrows]
  have hsub : ∀ b ∈ w.rows, b ∈ w.rows ++ [(⟨a.turn,a.seq + 1,.result id content ok⟩ : Row)] := fun _ hb => List.mem_append_left _ hb
  refine h.next hkept hsub h.run (fun _ hf => Or.inl hf) fun other hr => ?_
  rcases List.mem_append.mp hr with hr | hr
  · exact Or.inl hr
  · cases List.mem_singleton.mp hr
    exact Or.inr ⟨a,hsub a ha,_,List.mem_append_right _ (List.mem_singleton_self _),id,own,hbody,hsame,rfl,rfl,rfl⟩

end Frames

section Begin

theorem answered_of_record (h : Kept digest w) {record : RuntimeCallRecord} (hrecord : runtimeCall w.rows id = some record)
    (hsame : Same record.call call) (hresult : record.result = some (content,ok)) : Answered w call ok content := by
  obtain ⟨a,ha,hbody,-,-,hfound⟩ := runtimeCall_some hrecord
  obtain ⟨b,hb,hbody'⟩ := result_some (hfound ▸ hresult)
  obtain ⟨a',ha',own,hcall,hturn,hseq⟩ := h.rows.results b hb id content ok hbody'
  obtain rfl := h.rows.callIds a ha a' ha' id _ _ hbody hcall
  exact ⟨a,ha,b,hb,id,record.call,hbody,hsame,hbody',hturn,hseq⟩

/-- The record that the probe finds is of this call. -/
theorem same_of_resolved (hdigest : Function.Injective digest) (h : Kept digest w) {record : RuntimeCallRecord}
    (hrun : ':' ∉ call.runtimeRunId.toList) (hcall : '#' ∉ call.toolCallId.toList)
    (hresolve : resolveCallSlot digest w.rows call = some (id,some record)) :
    runtimeCall w.rows id = some record ∧ Same record.call call := by
  obtain ⟨slot,hslot,rfl,hfound,hsame,-⟩ := resolveCallSlot_spec hresolve
  obtain ⟨a,ha,hbody,-⟩ := runtimeCall_some hfound
  obtain ⟨hr,hc⟩ := native_of_id hdigest h.rows ha hbody hrun hcall
  exact ⟨hfound,hr,hc,hsame record rfl⟩

/-- The rest of what a dispatch begins with. -/
theorem begin_inv {begun : Begun} (h : begin digest w call = .ok begun) :
    w.run.runtimeRunId = some call.runtimeRunId ∧ ∃ id existing, resolveCallSlot digest w.rows call = some (id,existing) ∧
      ((∃ content ok, existing.bind (·.result) = some (content,ok) ∧ begun = .answered ok content) ∨
        (existing.bind (·.result) = none ∧
          ((∃ record, existing = some record ∧ begun = .goes id record.turn record.seq w.rows) ∨
            (existing = none ∧ begun = .goes id 0 (nextRuntimeSequence w.rows)
              (appendTurn w.rows ⟨0,nextRuntimeSequence w.rows,.call id call⟩))))) := by
  unfold begin at h
  split at h
  · cases h
  · rename_i hrun
    refine ⟨not_not.mp hrun,?_⟩
    split at h
    · cases h
    split at h
    · cases h
    split at h
    · cases h
    split at h
    · cases h
    · rename_i id existing hresolve
      refine ⟨id,existing,hresolve,?_⟩
      split at h
      · rename_i content ok hresult
        split at h
        · cases h
        · cases h
          exact Or.inl ⟨content,ok,hresult,rfl⟩
      · rename_i hresult
        split at h
        · cases h
        · refine Or.inr ⟨hresult,?_⟩
          split at h
          · rename_i record
            cases h
            exact Or.inl ⟨record,rfl,rfl⟩
          · split at h
            · cases h
            · cases h
              exact Or.inr ⟨rfl,rfl⟩

theorem colon_free (h : Kept digest w) (hrun : w.run.runtimeRunId = some call.runtimeRunId) : ':' ∉ call.runtimeRunId.toList := by
  have hwell := h.run
  unfold RunState.wellFormed at hwell
  rw [hrun] at hwell
  simpa using hwell

/-- A call that does not have its answer yet goes on from its own row. -/
theorem begin_goes (hdigest : Function.Injective digest) (h : Kept digest w) (hcall : '#' ∉ call.toolCallId.toList)
    (hb : begin digest w call = .ok (.goes id turn seq rows)) :
    RowsKept digest rows ∧ (∀ a ∈ w.rows, a ∈ rows) ∧ (∃ a ∈ rows, ∃ own, a.body = .call id own ∧ Same own call ∧ a.turn = turn ∧ a.seq = seq) ∧
      ∀ b ∈ rows, ∀ content ok, b.body ≠ .result id content ok := by
  obtain ⟨hrun,id',existing,hresolve,hanswered | ⟨hopen,hgoes⟩⟩ := begin_inv hb
  · obtain ⟨content,ok,-,hbegun⟩ := hanswered
    cases hbegun
  · have hcolon := colon_free h hrun
    rcases hgoes with ⟨record,rfl,hbegun⟩ | ⟨rfl,hbegun⟩
    · cases hbegun
      obtain ⟨hfound,hsame⟩ := same_of_resolved hdigest h hcolon hcall hresolve
      obtain ⟨a,ha,hbody,hturn,hseq,hresult⟩ := runtimeCall_some hfound
      exact ⟨h.rows,fun _ hc => hc,⟨a,ha,record.call,hbody,hsame,hturn,hseq⟩,
        fun b hb' _ _ => result_none (hresult ▸ hopen) hb'⟩
    · cases hbegun
      obtain ⟨hrows,hkept⟩ := h.rows.callRow hdigest hcolon hcall hresolve
      rw [hrows]
      refine ⟨hkept,fun _ hc => List.mem_append_left _ hc,
        ⟨_,List.mem_append_right _ (List.mem_singleton_self _),call,rfl,.refl call,rfl,rfl⟩,?_⟩
      intro b hmem content ok hbody
      obtain ⟨-,-,-,hfree,-⟩ := resolveCallSlot_spec hresolve
      rcases List.mem_append.mp hmem with hmem | hmem
      · obtain ⟨a',ha',own',hown',-⟩ := h.rows.results b hmem _ content ok hbody
        exact runtimeCall_none hfree ha' hown'
      · cases List.mem_singleton.mp hmem
        cases hbody

theorem begin_replied (hdigest : Function.Injective digest) (h : Kept digest w) (hcall : '#' ∉ call.toolCallId.toList)
    (hb : begin digest w call = .ok (.answered ok content)) : Answered w call ok content := by
  obtain ⟨hrun,id,existing,hresolve,⟨content',ok',hresult,hbegun⟩ | ⟨-,⟨record,-,hbegun⟩ | ⟨-,hbegun⟩⟩⟩ := begin_inv hb
  · cases hbegun
    cases existing with
    | none => cases hresult
    | some record =>
      obtain ⟨hfound,hsame⟩ := same_of_resolved hdigest h (colon_free h hrun) hcall hresolve
      exact answered_of_record h hfound hsame hresult
  · cases hbegun
  · cases hbegun

end Begin

section Steps
variable (hdigest : Function.Injective digest)
include hdigest

theorem Kept.dispatch (h : Kept digest w) (hcall : '#' ∉ call.toolCallId.toList) {outcome : Outcome}
    (hs : Calls.dispatch digest w call outcome = .ok w') : Kept digest w' := by
  unfold Calls.dispatch at hs
  cases hbegin : begin digest w call with
  | error refusal =>
    rw [hbegin] at hs
    cases hs
  | ok begun =>
    rw [hbegin] at hs
    cases begun with
    | answered ok content =>
      cases hs
      exact h.reply (begin_replied hdigest h hcall hbegin)
    | goes id turn seq rows =>
      obtain ⟨hkept,hsub,⟨a,ha,own,hbody,hsame,hturn,hseq⟩,hopen⟩ := begin_goes hdigest h hcall hbegin
      have hnext : Kept digest { w with rows := rows, executed := w.executed ++ [id] } :=
        h.next hkept hsub h.run (fun _ hf => Or.inl hf) fun _ hr => Or.inl hr
      dsimp only [bind, Except.bind] at hs
      split at hs
      · cases hs
        exact hnext.park ha hbody hsame _
      · cases hs
        exact hnext.park ha hbody hsame _
      · cases hs
        exact (hnext.waits none).answer ha hbody hsame hturn hseq hopen
      · cases hs
        have hrows := (resume_frame { w with rows := rows, executed := w.executed ++ [id] }).1
        exact hnext.resume.answer (hrows ▸ ha) hbody hsame hturn hseq (hrows ▸ hopen)

theorem Kept.prepare (h : Kept digest w) (hcall : '#' ∉ call.toolCallId.toList) {flight : FlightId}
    (hs : Calls.prepare digest w flight call = .ok w') : Kept digest w' := by
  unfold Calls.prepare at hs
  cases hbegin : begin digest w call with
  | error refusal =>
    rw [hbegin] at hs
    cases hs
  | ok begun =>
    rw [hbegin] at hs
    cases begun with
    | answered ok content =>
      cases hs
      exact h.reply (begin_replied hdigest h hcall hbegin)
    | goes id turn seq rows =>
      obtain ⟨hkept,hsub,⟨a,ha,own,hbody,hsame,hturn,hseq⟩,-⟩ := begin_goes hdigest h hcall hbegin
      cases hs
      refine h.next hkept hsub h.run (fun f hf => ?_) fun _ hr => Or.inl hr
      rcases List.mem_append.mp hf with hf | hf
      · exact Or.inl hf
      · cases List.mem_singleton.mp hf
        exact Or.inr ⟨a,ha,own,hbody,hsame,hturn,hseq⟩

omit hdigest in
/-- The second half of a proposal. -/
theorem Kept.finish (h : Kept digest w) (hf : f ∈ w.flights) {outcome : Outcome} (hs : Calls.finish w f outcome = .ok w') :
    Kept digest w' := by
  obtain ⟨a,ha,own,hbody,hsame,hturn,hseq⟩ := h.flights f hf
  have hend := h.endFlight f.id
  unfold Calls.finish at hs
  split at hs
  · cases hs
  split at hs
  · rename_i content ok hresult
    cases hs
    obtain ⟨record,hrecord,hfound⟩ := Option.bind_eq_some_iff.mp hresult
    obtain ⟨a',ha',hbody',-⟩ := runtimeCall_some hrecord
    obtain rfl := h.rows.callIds a ha a' ha' _ _ _ hbody hbody'
    rw [hbody] at hbody'
    have hown : own = record.call := by injection hbody'
    exact hend.reply (Answered.mono (answered_of_record h hrecord (hown ▸ hsame) hfound) fun _ hb => hb)
  · rename_i hresult
    have hopen : ∀ b ∈ w.rows, ∀ content ok, b.body ≠ .result f.callId content ok := by
      intro b hb content ok
      obtain ⟨record,hrecord⟩ := runtimeCall_isSome ha hbody
      obtain ⟨-,-,-,-,-,hfound⟩ := runtimeCall_some hrecord
      rw [hrecord, Option.bind_some, hfound] at hresult
      exact result_none hresult hb
    have hrows := (resume_frame (Calls.endFlight w f.id)).1
    split at hs
    · cases hs
      exact hend.park ha hbody hsame _
    · cases hs
      exact hend.resume.answer (hrows ▸ ha) hbody hsame hturn hseq (hrows ▸ hopen)
    · cases hs
      exact hend.resume.answer (hrows ▸ ha) hbody hsame hturn hseq (hrows ▸ hopen)

omit hdigest in
/-- A digest is in hexadecimal, so no derived id is a final answer's. -/
theorem final_ne_derived (hhex : ∀ text, ∀ c ∈ (digest text).toList, c ∈ "0123456789abcdef".toList) (attempt : ℕ)
    (run native : String) (slot : ℕ) : "hermes-final-" ++ toString attempt ≠ durableCallId digest run native slot := by
  intro h
  have hlist := congrArg String.toList h
  unfold durableCallId at hlist
  have hbegin : "hermes-final-".toList = "hermes-".toList ++ "final-".toList := by decide
  rw [String.toList_append, String.toList_append, hbegin, List.append_assoc] at hlist
  have hdigits := List.append_cancel_left hlist
  have hi : 'i' ∈ "0123456789abcdef".toList := by
    refine hhex _ 'i' (hdigits ▸ List.mem_append_left _ ?_)
    decide
  revert hi
  decide

theorem Kept.step (hhex : ∀ text, ∀ c ∈ (digest text).toList, c ∈ "0123456789abcdef".toList) (h : Kept digest w)
    (hs : Step digest w e w') : Kept digest w' := by
  have hwell : ∀ call : Call, call.wellFormed = true → '#' ∉ call.toolCallId.toList := fun call hc => by
    simpa [Call.wellFormed] using hc
  unfold Step Applied at hs
  cases e with
  | dispatch call outcome =>
    simp only [apply] at hs
    split_ifs at hs with hrefused
    simp only [Bool.or_eq_true, not_or, Bool.not_eq_true', Bool.not_eq_false] at hrefused
    exact h.dispatch hdigest (hwell call hrefused.1) hs
  | prepare flight call =>
    simp only [apply] at hs
    split_ifs at hs with hrefused
    simp only [Bool.or_eq_true, not_or, Bool.not_eq_true', Bool.not_eq_false] at hrefused
    exact h.prepare hdigest (hwell call hrefused.1.1) hs
  | execute flight outcome =>
    simp only [apply] at hs
    split at hs
    · rename_i f hfind
      split_ifs at hs
      cases hs
      refine h.next h.rows (fun _ ha => ha) h.run (fun g hg => ?_) fun _ hr => Or.inl hr
      rcases mem_updateWhere.mp hg with ⟨g',hg',-,rfl⟩ | ⟨hg,-⟩
      · exact Or.inr (h.flights g' hg')
      · exact Or.inl hg
    · cases hs
  | finish flight =>
    simp only [apply] at hs
    split at hs
    · rename_i f hfind
      split at hs
      · exact h.finish (of_find?_key hfind).1 hs
      · cases hs
    · cases hs
  | crash flight =>
    cases hs
    exact h.endFlight flight
  | setRun run =>
    simp only [apply] at hs
    split_ifs at hs with hrun
    cases hs
    exact h.next h.rows (fun _ ha => ha) hrun (fun _ hf => Or.inl hf) fun _ hr => Or.inl hr
  | finalize maxTurns attempt =>
    simp only [apply] at hs
    split_ifs at hs with hattempt
    cases hs
    refine h.next (h.rows.otherRow (by omega) (final_ne_derived hhex attempt)) (fun a ha => ?_) h.run (fun _ hf => Or.inl hf)
      fun _ hr => Or.inl hr
    dsimp only [appendTurn]
    split
    · exact ha
    · exact List.mem_append_left _ ha

end Steps

theorem Kept.initial (h : Initial digest w) : Kept digest w := by
  obtain ⟨hplaces,hothers,hrun,hflights,-,hreplies⟩ := h
  have hnot : ∀ a ∈ w.rows, ∀ id own, a.body ≠ .call id own := by
    intro a ha id own hbody
    obtain ⟨other,hother,-⟩ := hothers a ha
    rw [hother] at hbody
    cases hbody
  refine ⟨⟨hplaces,?_,?_,?_,?_,?_,?_,?_⟩,hrun,?_,?_⟩
  · exact fun a ha id own hbody => absurd hbody (hnot a ha id own)
  · exact fun a ha _ _ id own _ hbody => absurd hbody (hnot a ha id own)
  · exact fun a ha _ _ id own _ _ hbody => absurd hbody (hnot a ha id own)
  · intro b hb id content ok hbody
    obtain ⟨other,hother,-⟩ := hothers b hb
    rw [hother] at hbody
    cases hbody
  · exact fun a ha id own hbody => absurd hbody (hnot a ha id own)
  · intro b hb other hbody run native slot he
    obtain ⟨other',hother,hne⟩ := hothers b hb
    rw [hbody] at hother
    cases hother
    exact hne run native slot (congrArg some he)
  · exact fun a ha id own hbody => absurd hbody (hnot a ha id own)
  · rw [hflights]
    nofun
  · rw [hreplies]
    nofun

section Examples

def bound (runtimeRunId : String) (tools : List String) : RunState := ⟨some runtimeRunId,false,true,none,false,tools,.noWatch⟩

def started : World := ⟨[⟨0,0,.other none⟩],bound "r" ["look"],[],[],[]⟩

def look (runtimeRunId : String) : Call := ⟨runtimeRunId,"c","look",.null⟩

/-- The same native id, tool and arguments in the next attempt's runtime run. -/
def nextAttempt : List Event :=
  [.dispatch (look "r") (.finishes true "1"),.setRun (bound "s" ["look"]),.dispatch (look "s") (.finishes true "2")]

/-- The tool is withdrawn behind the answer. -/
def withdrawn : List Event := [.dispatch (look "r") (.finishes true "1"),.setRun (bound "r" [])]

end Examples

end HermesEnterprise.Calls
