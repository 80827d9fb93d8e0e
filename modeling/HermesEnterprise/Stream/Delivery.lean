import HermesEnterprise.Stream.Network

/-! # What the hub has delivered

Every event that a socket has delivered is behind the cursor, in the buffer, or owed by
the replay that is under way. While the steps of a run keep that, the hub has passed on
the log up to its cursor.
-/
namespace HermesEnterprise.Stream
open Foundation.Cursor Foundation.Runs

variable {α : Type*} {o : HubOptions α} {limit : ℕ} {w w' : World α} {h h' : Hub α}
variable {e x : StreamEvent α} {chunk : List (StreamEvent α)}

abbrev eventId (e : StreamEvent α) : ℕ := e.id

/-- What the hub's variables say about its reading. -/
structure SameReading (h h' : Hub α) : Prop where
  cursor : h'.cursor = h.cursor
  delivered : h'.delivered = h.delivered
  buffering : h'.buffering = h.buffering
  buffer : h'.buffer = h.buffer
  catchUpInFlight : h'.catchUpInFlight = h.catchUpInFlight
  everOpened : h'.everOpened = h.everOpened
  socketOpen : h'.socketOpen = true → h.socketOpen = true
  closed : h.closed = true → h'.closed = true

/-- The replay under way will bring this event. -/
def Owed (h : Hub α) (e : StreamEvent α) : Prop :=
  match h.catchUpInFlight with
  | none => True
  | some ⟨true,_,.replay (.asked _)⟩ => True
  | some ⟨true,_,.replay (.answered page)⟩ => ∃ head, page.head = some head ∧ e.id ≤ head
  | _ => False

/-- Behind the cursor, or to be applied before the hub stops buffering. -/
def Known (h : Hub α) (e : StreamEvent α) : Prop :=
  e.id ≤ h.cursor ∨ (h.buffering = true ∧ (e ∈ h.buffer ∨ Owed h e))

/-- An open socket will deliver this position next. -/
def OpenAt (sockets : List Socket) (next : ℕ) : Prop := ∃ s ∈ sockets, s.stage = .opened next

/-- Some socket has delivered this event, or one after it that waits in the buffer. -/
def Received (w : World α) (e : StreamEvent α) : Prop :=
  e ∈ w.log ∧ ((∃ next, OpenAt w.sockets next ∧ e ∈ w.log.take next) ∨ ∃ x ∈ w.hub.buffer, e.id ≤ x.id)

/-- What a page says about the log, for a reader at this cursor or beyond. -/
structure PageSound (log : List (StreamEvent α)) (cursor : ℕ) (page : ReplayPage α) : Prop where
  resync : page.resync = false
  sub : page.events ⊆ log
  sorted : page.events.Pairwise fun a b => eventId a ≤ eventId b
  fills : Fills eventId log cursor page.events
  head : ∃ head, page.head = some head ∧ (head = 0 ∨ ∃ x ∈ log, x.id = head) ∧
    ∀ e ∈ log, cursor < e.id → e.id ≤ head → page.events ≠ []

def CallSound (log : List (StreamEvent α)) (cursor : ℕ) : ReplayCall α → Prop
  | .asked after => after ≤ cursor
  | .answered page => PageSound log cursor page

structure Sound (o : HubOptions α) (w : World α) : Prop where
  sorted : Sorted eventId w.log
  after_le : o.after ≤ w.hub.cursor
  mark : w.hub.cursor = o.after ∨ ∃ x ∈ w.log, x.id = w.hub.cursor
  passed : w.hub.delivered = window eventId o.accept w.log o.after w.hub.cursor
  buffer_sub : w.hub.buffer ⊆ w.log
  unbuffered : w.hub.buffering = false → w.hub.buffer = []
  next_le : ∀ next, OpenAt w.sockets next → next ≤ w.log.length
  known : ∀ e, Received w e → Known w.hub e
  call : ∀ required pageCount call, w.hub.catchUpInFlight = some ⟨required,pageCount,.replay call⟩ →
    w.hub.buffering = true ∧ CallSound w.log w.hub.cursor call
  pollCall : ∀ call, w.hub.pollInFlight = some (.replay call) → CallSound w.log w.hub.cursor call
  idle : w.hub.buffering = true →
    (∀ required pageCount call, w.hub.catchUpInFlight ≠ some ⟨required,pageCount,.replay call⟩) →
    w.hub.socketOpen = false ∨ w.hub.closed = true
  openSocket : w.hub.socketOpen = true → ∃ next, OpenAt w.sockets next
  everOpened : ((∃ next, OpenAt w.sockets next) ∨ w.hub.catchUpInFlight.isSome = true) →
    w.hub.everOpened = true

section Reading

theorem PageSound.mono {log : List (StreamEvent α)} {cursor cursor' : ℕ} {page : ReplayPage α}
    (h : PageSound log cursor page) (hle : cursor ≤ cursor') : PageSound log cursor' page := by
  obtain ⟨head,hhead,hin,hne⟩ := h.head
  exact ⟨h.resync,h.sub,h.sorted,h.fills.mono hle,head,hhead,hin,
    fun e he hlt hle' => hne e he (hle.trans_lt hlt) hle'⟩

theorem CallSound.mono {log : List (StreamEvent α)} {cursor cursor' : ℕ} {call : ReplayCall α}
    (h : CallSound log cursor call) (hle : cursor ≤ cursor') : CallSound log cursor' call := by
  cases call with
  | asked after => exact (show after ≤ cursor from h).trans hle
  | answered page => exact PageSound.mono h hle

/-- A new event lies beyond every page that was read before it. -/
theorem CallSound.commit {log : List (StreamEvent α)} {cursor : ℕ} {call : ReplayCall α}
    (h : CallSound log cursor call) (hnew : ∀ y ∈ log, y.id < e.id) :
    CallSound (log ++ [e]) cursor call := by
  cases call with
  | asked after => exact h
  | answered page =>
    have h : PageSound log cursor page := h
    obtain ⟨head,hhead,hin,hne⟩ := h.head
    refine ⟨h.resync,fun y hy => List.mem_append_left _ (h.sub hy),h.sorted,?_,head,hhead,?_,?_⟩
    · intro y hy z hz hlt hle
      rcases List.mem_append.mp hz with hz | hz
      · exact h.fills y hy z hz hlt hle
      · rw [List.mem_singleton.mp hz] at hle
        exact absurd (hnew y (h.sub hy)) (Nat.not_lt.mpr hle)
    · rcases hin with hzero | ⟨y,hy,hkey⟩
      · exact Or.inl hzero
      · exact Or.inr ⟨y,List.mem_append_left _ hy,hkey⟩
    · intro z hz hlt hle
      rcases List.mem_append.mp hz with hz | hz
      · exact hne z hz hlt hle
      · rw [List.mem_singleton.mp hz] at hlt hle
        rcases hin with hzero | ⟨y,hy,hkey⟩
        · omega
        · exact absurd (hnew y hy) (by omega)

theorem le_headOf {log : List (StreamEvent α)} (hs : Sorted eventId log) (he : e ∈ log) :
    e.id ≤ headOf log := by
  have hne : log ≠ [] := List.ne_nil_of_mem he
  unfold headOf
  rw [List.getLast?_eq_some_getLast hne, Option.map_some, Option.getD_some]
  rw [← List.dropLast_append_getLast hne] at hs he
  rcases List.mem_append.mp he with he | he
  · exact (List.pairwise_append.mp hs).2.2 e he _ (List.mem_singleton_self _) |>.le
  · rw [List.mem_singleton.mp he]

/-- A page has every event up to its last one, and one at least when there is one to bring. -/
theorem replay_sound {log : List (StreamEvent α)} {after cursor : ℕ} (hl : 0 < limit)
    (hs : Sorted eventId log) (hle : after ≤ cursor) : PageSound log cursor (replay limit log after) := by
  have hfiltered : Sorted eventId (log.filter fun e => decide (after < e.id)) := hs.filter _
  have hmem : ∀ y ∈ log, cursor < y.id → y ∈ log.filter fun e => decide (after < e.id) :=
    fun y hy hlt => List.mem_filter.mpr ⟨hy,decide_eq_true (hle.trans_lt hlt)⟩
  refine ⟨rfl,?_,?_,?_,headOf log,rfl,?_,?_⟩
  · exact fun y hy => List.mem_of_mem_filter (List.mem_of_mem_take hy)
  · exact (hfiltered.sublist (List.take_sublist _ _)).imp fun h => Nat.le_of_lt h
  · exact fun y hy z hz hlt hkey => mem_take_of_le hfiltered (hmem z hz hlt) hy hkey
  · unfold headOf
    rcases List.eq_nil_or_concat' log with rfl | ⟨init,last,rfl⟩
    · exact Or.inl rfl
    · exact Or.inr ⟨last,List.mem_append_right _ (List.mem_singleton_self _),by simp⟩
  · intro y hy hlt _ hnil
    have hy := hmem y hy hlt
    rcases List.take_eq_nil_iff.mp hnil with hzero | hempty
    · omega
    · rw [hempty] at hy
      exact List.not_mem_nil hy

theorem intakeAll_buffering (hb : h.buffering = true) :
    intakeAll o h chunk = { h with buffer := h.buffer ++ chunk } := by
  unfold intakeAll
  induction chunk generalizing h with
  | nil => rw [List.foldl_nil, List.append_nil]
  | cons x rest ih =>
    have hx : intake o h x = { h with buffer := h.buffer ++ [x] } := by
      unfold intake
      rw [if_pos hb]
    rw [List.foldl_cons, hx, ih (h := { h with buffer := h.buffer ++ [x] }) hb, List.append_assoc,
      List.singleton_append]

theorem intakeAll_direct (hb : h.buffering = false) :
    intakeAll o h chunk = { h with
      cursor := (chunk.foldl (advance eventId o.accept) (h.cursor,h.delivered)).1
      delivered := (chunk.foldl (advance eventId o.accept) (h.cursor,h.delivered)).2 } := by
  unfold intakeAll
  induction chunk generalizing h with
  | nil => rfl
  | cons x rest ih =>
    have hx : intake o h x = { h with
        cursor := (advance eventId o.accept (h.cursor,h.delivered) x).1
        delivered := (advance eventId o.accept (h.cursor,h.delivered) x).2 } := by
      by_cases hle : x.id ≤ h.cursor
      · have hskip : intake o h x = h := by simp [intake, hb, hle]
        have hstay : advance eventId o.accept (h.cursor,h.delivered) x = (h.cursor,h.delivered) := if_pos hle
        rw [hskip, hstay]
      · simp [intake, advance, hb, hle]
    rw [List.foldl_cons, List.foldl_cons, hx]
    exact ih hb

/-- A chunk that fills what lies before it is read as it stands. -/
theorem read_through {log : List (StreamEvent α)} (hs : Sorted eventId log) (hb : h.buffering = false)
    (hafter : o.after ≤ h.cursor) (hw : h.delivered = window eventId o.accept log o.after h.cursor)
    (hsub : chunk ⊆ log) (hsorted : chunk.Pairwise fun a b => eventId a ≤ eventId b)
    (hfills : Fills eventId log h.cursor chunk) :
    ∃ cursor, h.cursor ≤ cursor ∧ (∀ x ∈ chunk, x.id ≤ cursor) ∧
      (cursor = h.cursor ∨ ∃ x ∈ chunk, x.id = cursor) ∧
      intakeAll o h chunk = { h with
        cursor := cursor, delivered := window eventId o.accept log o.after cursor } := by
  obtain ⟨cursor,hle,hall,hwhere,hfold⟩ := window_advance hs hsub hsorted hafter hfills hw
  refine ⟨cursor,hle,hall,hwhere,?_⟩
  rw [intakeAll_direct hb, hfold]

theorem byId_perm (events : List (StreamEvent α)) : (byId events).Perm events :=
  List.perm_insertionSort _ _

theorem byId_sorted (events : List (StreamEvent α)) :
    (byId events).Pairwise fun a b => eventId a ≤ eventId b := by
  have : Std.Total fun a b : StreamEvent α => a.id ≤ b.id := ⟨fun a b => Nat.le_total _ _⟩
  have : IsTrans (StreamEvent α) fun a b => a.id ≤ b.id := ⟨fun a b c => Nat.le_trans⟩
  exact List.pairwise_insertionSort _ _

end Reading

section Sockets

theorem openAt_setStage {sockets : List Socket} {socket : SocketId} {next m : ℕ}
    (h : OpenAt (setStage sockets socket (.opened m)) next) : OpenAt sockets next ∨ next = m := by
  obtain ⟨s,hs,hstage⟩ := h
  obtain ⟨s',hs',rfl⟩ := List.mem_map.mp hs
  split at hstage
  · exact Or.inr (Stage.opened.inj hstage).symm
  · exact Or.inl ⟨s',hs',hstage⟩

theorem openAt_closing {sockets : List Socket} {socket : SocketId} {next : ℕ}
    (h : OpenAt (setStage sockets socket .closing) next) : OpenAt sockets next := by
  obtain ⟨s,hs,hstage⟩ := h
  obtain ⟨s',hs',rfl⟩ := List.mem_map.mp hs
  split at hstage
  · cases hstage
  · exact ⟨s',hs',hstage⟩

theorem openAt_closeSocket {next : ℕ} (h : OpenAt (closeSocket w) next) : OpenAt w.sockets next := by
  unfold closeSocket at h
  split at h
  · exact openAt_closing h
  · exact h

theorem openAt_opened {socket : SocketId} {s : Socket} {m : ℕ} (h : findSocket w socket = some s) :
    OpenAt (setStage w.sockets socket (.opened m)) m := by
  have hfound : decide (s.id = socket) = true :=
    List.find?_some (p := fun s : Socket => decide (s.id = socket)) h
  have hkey : s.id = socket := of_decide_eq_true hfound
  refine ⟨_,List.mem_map_of_mem (List.mem_of_find?_eq_some h),?_⟩
  rw [if_pos hkey]

theorem Received.of_open (hlog : w'.log = w.log) (hbuffer : w'.hub.buffer = w.hub.buffer)
    (hopen : ∀ next, OpenAt w'.sockets next → OpenAt w.sockets next) (h : Received w' e) :
    Received w e := by
  unfold Received at h ⊢
  rw [hlog, hbuffer] at h
  obtain ⟨he,⟨next,hnext,htake⟩ | hbuf⟩ := h
  · exact ⟨he,Or.inl ⟨next,hopen next hnext,htake⟩⟩
  · exact ⟨he,Or.inr hbuf⟩

end Sockets

section Invariant

theorem SameReading.known (hs : SameReading h h') (hk : Known h e) : Known h' e := by
  unfold Known Owed at hk ⊢
  rwa [hs.cursor, hs.buffering, hs.buffer, hs.catchUpInFlight]

/-- Steps that read nothing and open nothing. -/
theorem Sound.quiet (hw : Sound o w) (hs : SameReading w.hub w'.hub) (hlog : w'.log = w.log)
    (hpoll : ∀ call, w'.hub.pollInFlight = some (.replay call) → CallSound w.log w.hub.cursor call)
    (hopen : ∀ next, OpenAt w'.sockets next → OpenAt w.sockets next)
    (hsocket : w'.hub.socketOpen = true → ∃ next, OpenAt w'.sockets next) : Sound o w' := by
  constructor
  · rw [hlog]; exact hw.sorted
  · rw [hs.cursor]; exact hw.after_le
  · rw [hs.cursor, hlog]; exact hw.mark
  · rw [hs.cursor, hs.delivered, hlog]; exact hw.passed
  · rw [hs.buffer, hlog]; exact hw.buffer_sub
  · rw [hs.buffering, hs.buffer]; exact hw.unbuffered
  · intro next hnext
    rw [hlog]
    exact hw.next_le next (hopen next hnext)
  · exact fun e he => hs.known (hw.known e (he.of_open hlog hs.buffer hopen))
  · rw [hs.catchUpInFlight, hs.buffering, hs.cursor, hlog]; exact hw.call
  · rw [hs.cursor, hlog]; exact hpoll
  · rw [hs.buffering, hs.catchUpInFlight]
    intro hb hidle
    rcases hw.idle hb hidle with hfalse | hclosed
    · refine Or.inl (Bool.eq_false_iff.mpr fun htrue => ?_)
      rw [hs.socketOpen htrue] at hfalse
      cases hfalse
    · exact Or.inr (hs.closed hclosed)
  · exact hsocket
  · rw [hs.catchUpInFlight, hs.everOpened]
    rintro (⟨next,hnext⟩ | hin)
    · exact hw.everOpened (Or.inl ⟨next,hopen next hnext⟩)
    · exact hw.everOpened (Or.inr hin)

/-- The cursor moves on, over the window that it passes. -/
theorem Sound.ahead {cursor : ℕ} (hw : Sound o w) (hle : w.hub.cursor ≤ cursor)
    (hmark : cursor = w.hub.cursor ∨ ∃ x ∈ w.log, x.id = cursor) :
    Sound o { w with hub := { w.hub with
      cursor := cursor, delivered := window eventId o.accept w.log o.after cursor } } := by
  refine ⟨hw.sorted,hw.after_le.trans hle,?_,rfl,hw.buffer_sub,hw.unbuffered,hw.next_le,?_,?_,?_,hw.idle,
    hw.openSocket,hw.everOpened⟩
  · rcases hmark with rfl | hmem
    · exact hw.mark
    · exact Or.inr hmem
  · intro e he
    rcases hw.known e he with hbehind | hahead
    · exact Or.inl (hbehind.trans hle)
    · exact Or.inr hahead
  · intro required pageCount call hcall
    obtain ⟨hb,hsound⟩ := hw.call required pageCount call hcall
    exact ⟨hb,hsound.mono hle⟩
  · exact fun call hcall => (hw.pollCall call hcall).mono hle

/-- Taking in a chunk that leaves nothing unknown before it. -/
theorem Sound.intakeAll (hw : Sound o w) (hsub : chunk ⊆ w.log)
    (hsorted : chunk.Pairwise fun a b => eventId a ≤ eventId b)
    (hchunk : ∀ x ∈ chunk, ∀ e ∈ w.log, e.id ≤ x.id → e ∈ chunk ∨ Known w.hub e) :
    Sound o { w with hub := intakeAll o w.hub chunk } ∧
      (∀ e ∈ chunk, Known (intakeAll o w.hub chunk) e) ∧
      ∀ e, Known w.hub e → Known (intakeAll o w.hub chunk) e := by
  cases hb : w.hub.buffering with
  | true =>
    rw [intakeAll_buffering hb]
    have hkept : ∀ e, Known w.hub e → Known { w.hub with buffer := w.hub.buffer ++ chunk } e := by
      rintro e (hbehind | ⟨hb',hbuf | howed⟩)
      · exact Or.inl hbehind
      · exact Or.inr ⟨hb',Or.inl (List.mem_append_left _ hbuf)⟩
      · exact Or.inr ⟨hb',Or.inr howed⟩
    have hnew : ∀ e ∈ chunk, Known { w.hub with buffer := w.hub.buffer ++ chunk } e :=
      fun e he => Or.inr ⟨hb,Or.inl (List.mem_append_right _ he)⟩
    refine ⟨⟨hw.sorted,hw.after_le,hw.mark,hw.passed,?_,?_,hw.next_le,?_,hw.call,hw.pollCall,hw.idle,
      hw.openSocket,hw.everOpened⟩,hnew,hkept⟩
    · exact List.append_subset.mpr ⟨hw.buffer_sub,hsub⟩
    · intro hfalse
      rw [hb] at hfalse
      cases hfalse
    · rintro e ⟨he,hopen | ⟨x,hx,hle⟩⟩
      · exact hkept e (hw.known e ⟨he,Or.inl hopen⟩)
      · rcases List.mem_append.mp hx with hx | hx
        · exact hkept e (hw.known e ⟨he,Or.inr ⟨x,hx,hle⟩⟩)
        · rcases hchunk x hx e he hle with hin | hknown
          · exact hnew e hin
          · exact hkept e hknown
  | false =>
    have hfills : Fills eventId w.log w.hub.cursor chunk := by
      intro x hx e he hlt hle
      rcases hchunk x hx e he hle with hin | hbehind | ⟨hb',-⟩
      · exact hin
      · exact absurd hbehind (Nat.not_le.mpr hlt)
      · rw [hb] at hb'
        cases hb'
    obtain ⟨cursor,hle,hall,hwhere,hread⟩ :=
      read_through hw.sorted hb hw.after_le hw.passed hsub hsorted hfills
    rw [hread]
    refine ⟨hw.ahead hle ?_,fun e he => Or.inl (hall e he),?_⟩
    · rcases hwhere with heq | ⟨x,hx,hkey⟩
      · exact Or.inl heq
      · exact Or.inr ⟨x,hsub hx,hkey⟩
    · rintro e (hbehind | hbuf)
      · exact Or.inl (hbehind.trans hle)
      · exact Or.inr hbuf

/-- The replay has brought what it owed, so the buffer can be applied. -/
theorem Sound.endReplay {c : CatchUp α} (hw : Sound o w)
    (hin : w.hub.catchUpInFlight.isSome = true)
    (hall : ∀ e, Received w e → e.id ≤ w.hub.cursor ∨ e ∈ w.hub.buffer) :
    Sound o { w with hub := endReplay o w.hub c } := by
  have hmem : ∀ x, x ∈ byId w.hub.buffer ↔ x ∈ w.hub.buffer := fun x => (byId_perm _).mem_iff
  have hfills : Fills eventId w.log w.hub.cursor (byId w.hub.buffer) := by
    intro x hx e he hlt hle
    rcases hall e ⟨he,Or.inr ⟨x,(hmem x).mp hx,hle⟩⟩ with hbehind | hbuf
    · exact absurd hbehind (Nat.not_le.mpr hlt)
    · exact (hmem e).mpr hbuf
  have hsub : byId w.hub.buffer ⊆ w.log := fun x hx => hw.buffer_sub ((hmem x).mp hx)
  obtain ⟨cursor,hle,hread,hwhere,happlied⟩ :=
    read_through (h := { w.hub with buffer := [], buffering := false }) hw.sorted rfl hw.after_le hw.passed
      hsub (byId_sorted _) hfills
  unfold Stream.endReplay applyBuffered
  rw [happlied]
  refine ⟨hw.sorted,hw.after_le.trans hle,?_,rfl,List.nil_subset _,fun _ => rfl,hw.next_le,?_,?_,?_,?_,
    hw.openSocket,?_⟩
  · rcases hwhere with heq | ⟨x,hx,hkey⟩
    · rw [heq]
      exact hw.mark
    · exact Or.inr ⟨x,hsub hx,hkey⟩
  · rintro e ⟨he,hopen | ⟨x,hx,-⟩⟩
    · rcases hall e ⟨he,Or.inl hopen⟩ with hbehind | hbuf
      · exact Or.inl (hbehind.trans hle)
      · exact Or.inl (hread e ((hmem e).mpr hbuf))
    · exact absurd hx List.not_mem_nil
  · intro required pageCount call hcall
    cases hcall
  · exact fun call hcall => (hw.pollCall call hcall).mono hle
  · intro hb
    cases hb
  · rintro (hopen | -)
    · exact hw.everOpened (Or.inl hopen)
    · exact hw.everOpened (Or.inr hin)

end Invariant

section Steps

/-- A first catch-up that has used up its pages has reached the head. -/
def reachesHead (required : Bool) (pageCount : ℕ) (page : ReplayPage α) : Bool :=
  !required || decide (pageCount + 1 < maxReplayPages) || page.events.isEmpty ||
    page.head.any fun head => page.events.any fun e => decide (head ≤ e.id)

/-- The steps that leave no replay unfinished: no socket opens during a catch-up, the hub connects with
no socket open, and a first catch-up does not run out of pages. -/
def smooth (w : World α) : Event α → Bool
  | .opens .. => w.hub.catchUpInFlight.isNone
  | .reconnect _ => w.hub.closed || w.hub.polling || w.sockets.all fun s => !s.isOpen
  | .replayAnswer =>
    match w.hub.catchUpInFlight with
    | some ⟨required,pageCount,.replay (.answered page)⟩ => reachesHead required pageCount page
    | _ => true
  | _ => true

theorem enabled_ok {condition : Bool} {next : World α} (h : enabled condition next = .ok w') :
    condition = true ∧ w' = next := by
  unfold enabled at h
  split at h
  · cases h
    exact ⟨‹_›,rfl⟩
  · cases h

theorem Sound.commit (hw : Sound o w) (hnew : ∀ y ∈ w.log, y.id < e.id) :
    Sound o { w with log := w.log ++ [e] } := by
  have htake : ∀ next, OpenAt w.sockets next → (w.log ++ [e]).take next = w.log.take next :=
    fun next hnext => List.take_append_of_le_length (hw.next_le next hnext)
  refine ⟨?_,hw.after_le,?_,?_,?_,hw.unbuffered,?_,?_,?_,?_,hw.idle,hw.openSocket,hw.everOpened⟩
  · refine List.pairwise_append.mpr ⟨hw.sorted,List.pairwise_singleton _ _,fun a ha b hb => ?_⟩
    rw [List.mem_singleton.mp hb]
    exact hnew a ha
  · rcases hw.mark with heq | ⟨x,hx,hkey⟩
    · exact Or.inl heq
    · exact Or.inr ⟨x,List.mem_append_left _ hx,hkey⟩
  · refine hw.passed.trans (window_append ?_).symm
    rcases hw.mark with heq | ⟨x,hx,hkey⟩
    · exact Or.inl heq
    · exact Or.inr (hkey ▸ hnew x hx)
  · exact fun x hx => List.mem_append_left _ (hw.buffer_sub hx)
  · intro next hnext
    have := hw.next_le next hnext
    rw [List.length_append]
    omega
  · rintro y ⟨hy,⟨next,hnext,hin⟩ | ⟨x,hx,hle⟩⟩
    · rw [htake next hnext] at hin
      exact hw.known y ⟨List.mem_of_mem_take hin,Or.inl ⟨next,hnext,hin⟩⟩
    · rcases List.mem_append.mp hy with hy | hy
      · exact hw.known y ⟨hy,Or.inr ⟨x,hx,hle⟩⟩
      · rw [List.mem_singleton.mp hy] at hle
        exact absurd (hnew x (hw.buffer_sub hx)) (Nat.not_lt.mpr hle)
  · intro required pageCount call hcall
    obtain ⟨hb,hsound⟩ := hw.call required pageCount call hcall
    exact ⟨hb,hsound.commit hnew⟩
  · exact fun call hcall => (hw.pollCall call hcall).commit hnew

/-- A catch-up that starts owes everything, or the hub knows what there is. -/
theorem Sound.catchUp {required : Bool} (hw : Sound o w)
    (hknown : required = true ∨ ∀ e, Received w e → e.id ≤ w.hub.cursor ∨ e ∈ w.hub.buffer)
    (hopened : w.hub.everOpened = true) : Sound o { w with hub := catchUp w.hub required } := by
  refine ⟨hw.sorted,hw.after_le,hw.mark,hw.passed,hw.buffer_sub,?_,hw.next_le,?_,?_,hw.pollCall,?_,
    hw.openSocket,fun _ => hopened⟩
  · intro hb
    cases hb
  · intro e he
    rcases hknown with rfl | hknown
    · exact Or.inr ⟨rfl,Or.inr trivial⟩
    · rcases hknown e he with hbehind | hbuf
      · exact Or.inl hbehind
      · exact Or.inr ⟨rfl,Or.inl hbuf⟩
  · intro required' pageCount call hcall
    cases hcall
    exact ⟨rfl,le_refl _⟩
  · intro _ hidle
    exact absurd rfl (hidle _ _ _)

theorem Sound.opens {socket : SocketId} {start : ℕ} (hw : Sound o w)
    (hfind : findSocket w socket = some ⟨socket,.connecting⟩) (hstart : start ≤ w.log.length)
    (hnone : w.hub.catchUpInFlight = none) :
    Sound o { w with hub := onOpen w.hub, sockets := setStage w.sockets socket (.opened start) } := by
  have honOpen : onOpen w.hub = Stream.catchUp { w.hub with
      attempts := 0, everOpened := true, handshakeFailures := 0, socketOpen := true,
      silenceArmed := true } true := by
    unfold onOpen initialCatchUp
    rw [hnone]
    exact if_neg Bool.false_ne_true
  rw [honOpen]
  refine ⟨hw.sorted,hw.after_le,hw.mark,hw.passed,hw.buffer_sub,?_,?_,?_,?_,hw.pollCall,?_,?_,fun _ => rfl⟩
  · intro hb
    cases hb
  · intro next hnext
    rcases openAt_setStage hnext with hold | rfl
    · exact hw.next_le next hold
    · exact hstart
  · exact fun e _ => Or.inr ⟨rfl,Or.inr trivial⟩
  · intro required pageCount call hcall
    cases hcall
    exact ⟨rfl,le_refl _⟩
  · intro _ hidle
    exact absurd rfl (hidle _ _ _)
  · exact fun _ => ⟨start,openAt_opened hfind⟩

theorem Sound.frame {socket : SocketId} {s : Socket} {next count : ℕ} (hw : Sound o w)
    (hfind : findSocket w socket = some s) (hstage : s.stage = .opened next)
    (hcount : next + count ≤ w.log.length) :
    Sound o { w with hub := onMessage o w.hub ((w.log.drop next).take count),
                     sockets := setStage w.sockets socket (.opened (next + count)) } := by
  have hopen : OpenAt w.sockets next := ⟨s,List.mem_of_find?_eq_some hfind,hstage⟩
  have hsplit : w.log.take (next + count) = w.log.take next ++ (w.log.drop next).take count :=
    List.take_add
  have hchunk : ∀ x ∈ (w.log.drop next).take count, ∀ e ∈ w.log, e.id ≤ x.id →
      e ∈ (w.log.drop next).take count ∨ Known w.hub e := by
    intro x hx e he hle
    have hx' : x ∈ w.log.take (next + count) := hsplit ▸ List.mem_append_right _ hx
    have he' := mem_take_of_le hw.sorted he hx' hle
    rw [hsplit] at he'
    rcases List.mem_append.mp he' with hold | hin
    · exact Or.inr (hw.known e ⟨he,Or.inl ⟨next,hopen,hold⟩⟩)
    · exact Or.inl hin
  have hquiet : Sound o { w with hub := { w.hub with silenceArmed := true } } :=
    hw.quiet ⟨rfl,rfl,rfl,rfl,rfl,rfl,id,id⟩ rfl hw.pollCall (fun _ => id) hw.openSocket
  have hsub : (w.log.drop next).take count ⊆ w.log :=
    fun x hx => List.mem_of_mem_drop (List.mem_of_mem_take hx)
  have hsorted : ((w.log.drop next).take count).Pairwise fun a b => eventId a ≤ eventId b :=
    ((hw.sorted.sublist (List.drop_sublist _ _)).sublist (List.take_sublist _ _)).imp
      fun h => Nat.le_of_lt h
  obtain ⟨hread,hnew,hkept⟩ := hquiet.intakeAll hsub hsorted hchunk
  have hever : (onMessage o w.hub ((w.log.drop next).take count)).everOpened = true :=
    hread.everOpened (Or.inl ⟨next,hopen⟩)
  refine ⟨hread.sorted,hread.after_le,hread.mark,hread.passed,hread.buffer_sub,hread.unbuffered,?_,?_,
    hread.call,hread.pollCall,hread.idle,?_,fun _ => hever⟩
  · intro n hn
    rcases openAt_setStage hn with hold | rfl
    · exact hw.next_le n hold
    · exact hcount
  · rintro e ⟨he,⟨n,hn,hin⟩ | hbuf⟩
    · rcases openAt_setStage hn with hold | rfl
      · exact hread.known e ⟨he,Or.inl ⟨n,hold,hin⟩⟩
      · have hin : e ∈ w.log.take (next + count) := hin
        rw [hsplit] at hin
        rcases List.mem_append.mp hin with hold | hnew'
        · exact hread.known e ⟨he,Or.inl ⟨next,hopen,hold⟩⟩
        · exact hnew e hnew'
    · exact hread.known e ⟨he,Or.inr hbuf⟩
  · exact fun _ => ⟨next + count,openAt_opened hfind⟩

/-- A page is applied before the buffer. -/
theorem Sound.answered {required : Bool} {pageCount : ℕ} {page : ReplayPage α} (hw : Sound o w)
    (hcall : w.hub.catchUpInFlight = some ⟨required,pageCount,.replay (.answered page)⟩)
    (hreach : reachesHead required pageCount page = true) :
    Sound o { w with hub := replayAnswered o w.hub ⟨required,pageCount,.replay (.answered page)⟩ page } := by
  obtain ⟨hb,hpage⟩ := hw.call required pageCount _ hcall
  have hpage : PageSound w.log w.hub.cursor page := hpage
  have hmem : ∀ x, x ∈ byId page.events ↔ x ∈ page.events := fun x => (byId_perm _).mem_iff
  have hsub : byId page.events ⊆ w.log := fun x hx => hpage.sub ((hmem x).mp hx)
  have hfills : Fills eventId w.log w.hub.cursor (byId page.events) := fun x hx e he hlt hle =>
    (hmem e).mpr (hpage.fills x ((hmem x).mp hx) e he hlt hle)
  obtain ⟨cursor,hle,hread,hwhere,hevents⟩ :=
    read_through (h := { w.hub with buffering := false }) hw.sorted rfl hw.after_le hw.passed hsub
      (byId_sorted _) hfills
  have hle : w.hub.cursor ≤ cursor := hle
  have hbuffering : ({ w.hub with
        cursor := cursor
        buffering := true
        delivered := window eventId o.accept w.log o.after cursor } : Hub α) = { w.hub with
        cursor := cursor
        delivered := window eventId o.accept w.log o.after cursor } := by rw [← hb]
  have hmark : cursor = w.hub.cursor ∨ ∃ x ∈ w.log, x.id = cursor := by
    rcases hwhere with heq | ⟨x,hx,hkey⟩
    · exact Or.inl heq
    · exact Or.inr ⟨x,hsub hx,hkey⟩
  have hahead := hw.ahead hle hmark
  unfold replayAnswered
  rw [hpage.resync, if_neg Bool.false_ne_true, hevents]
  dsimp only
  split
  · rename_i hstop
    rw [hbuffering]
    -- whatever ended the paging, what a first catch-up owed is behind the cursor
    have howed : ∀ e ∈ w.log, Owed w.hub e → e.id ≤ cursor := by
      intro e he howed
      unfold Owed at howed
      rw [hcall] at howed
      cases required with
      | false => exact howed.elim
      | true =>
        obtain ⟨head,hhead,hid⟩ := howed
        obtain ⟨head',hhead',-,hne⟩ := hpage.head
        cases hhead.symm.trans hhead'
        by_contra hover
        have hevents := hne e he (by omega) hid
        have hempty : page.events.isEmpty = false := by
          rw [Bool.eq_false_iff]
          exact fun hnil => hevents (List.isEmpty_iff.mp hnil)
        have hreached : ∀ x ∈ page.events, head ≤ x.id → False := fun x hx hhx =>
          hover (hid.trans (hhx.trans (hread x ((hmem x).mpr hx))))
        simp only [hempty, hhead, Option.all_some, Bool.false_or, Bool.or_eq_true, decide_eq_true_eq] at hstop
        rcases hstop with hle' | hpages
        · exact hover (hid.trans hle')
        · unfold reachesHead at hreach
          have hpages' : ¬ pageCount + 1 < maxReplayPages := Nat.not_lt.mpr hpages
          simp only [hempty, hhead, hpages', Bool.not_true, Bool.false_or, decide_false,
            Option.any_some, List.any_eq_true, decide_eq_true_eq] at hreach
          obtain ⟨x,hx,hhx⟩ := hreach
          exact hreached x hx hhx
    have hin : w.hub.catchUpInFlight.isSome = true := by rw [hcall]; rfl
    have hend := hahead.endReplay (c := ⟨required,pageCount,.replay (.answered page)⟩) hin fun e he => by
      rcases hw.known e he with hbehind | ⟨-,hbuf | howed'⟩
      · exact Or.inl (hbehind.trans hle)
      · exact Or.inr hbuf
      · exact Or.inl (howed e he.1 howed')
    exact hend.quiet ⟨rfl,rfl,rfl,rfl,rfl,rfl,id,id⟩ rfl hend.pollCall (fun _ => id) hend.openSocket
  · refine ⟨hahead.sorted,hahead.after_le,hahead.mark,hahead.passed,hahead.buffer_sub,?_,
      hahead.next_le,?_,?_,hahead.pollCall,?_,hahead.openSocket,?_⟩
    · intro hfalse
      cases hfalse
    · intro e he
      rcases hw.known e he with hbehind | ⟨-,hbuf | howed⟩
      · exact Or.inl (hbehind.trans hle)
      · exact Or.inr ⟨rfl,Or.inl hbuf⟩
      · refine Or.inr ⟨rfl,Or.inr ?_⟩
        unfold Owed at howed ⊢
        rw [hcall] at howed
        cases required with
        | false => exact howed.elim
        | true => trivial
    · intro required' pageCount' call hcall'
      cases hcall'
      exact ⟨rfl,le_refl _⟩
    · intro _ hidle
      exact absurd rfl (hidle _ _ _)
    · rintro (hopen | -)
      · exact hw.everOpened (Or.inl hopen)
      · exact hw.everOpened (Or.inr (by rw [hcall]; rfl))

theorem sameReading_scheduleReconnect : SameReading h (scheduleReconnect h) := by
  unfold scheduleReconnect
  split
  · exact ⟨rfl,rfl,rfl,rfl,rfl,rfl,id,id⟩
  · exact ⟨rfl,rfl,rfl,rfl,rfl,rfl,id,id⟩

theorem pollInFlight_scheduleReconnect : (scheduleReconnect h).pollInFlight = h.pollInFlight := by
  unfold scheduleReconnect
  split <;> rfl

theorem SameReading.trans {h'' : Hub α} (hs : SameReading h h') (hs' : SameReading h' h'') :
    SameReading h h'' :=
  ⟨hs'.cursor.trans hs.cursor,hs'.delivered.trans hs.delivered,hs'.buffering.trans hs.buffering,
    hs'.buffer.trans hs.buffer,hs'.catchUpInFlight.trans hs.catchUpInFlight,
    hs'.everOpened.trans hs.everOpened,fun ht => hs.socketOpen (hs'.socketOpen ht),
    fun hc => hs'.closed (hs.closed hc)⟩

/-- The hub without its socket. -/
theorem sameReading_lost : SameReading h { h with silenceArmed := false, socketOpen := false, socket := none } :=
  ⟨rfl,rfl,rfl,rfl,rfl,rfl,fun ht => (Bool.false_ne_true ht).elim,id⟩

theorem scheduleReconnect_socketOpen (hclosed : h.socketOpen = false) :
    (scheduleReconnect h).socketOpen = false := by
  rw [Bool.eq_false_iff]
  intro htrue
  rw [sameReading_scheduleReconnect.socketOpen htrue] at hclosed
  cases hclosed

theorem Sound.drop (hw : Sound o w) : Sound o (drop w) := by
  unfold Stream.drop
  split
  · exact hw
  · rename_i hclosed
    have hdrop : dropAndReconnect w.hub = scheduleReconnect { w.hub with
        silenceArmed := false, socketOpen := false, socket := none } := if_neg hclosed
    rw [hdrop]
    refine hw.quiet (sameReading_lost.trans sameReading_scheduleReconnect) rfl ?_
      (fun _ => openAt_closeSocket) ?_
    · dsimp only
      rw [pollInFlight_scheduleReconnect]
      exact hw.pollCall
    · intro htrue
      have htrue : (scheduleReconnect _).socketOpen = true := htrue
      rw [scheduleReconnect_socketOpen rfl] at htrue
      cases htrue

/-- A failed replay keeps the buffer, or gives up the socket. -/
theorem Sound.failed {required : Bool} {pageCount : ℕ} {call : ReplayCall α} (hw : Sound o w)
    (hcall : w.hub.catchUpInFlight = some ⟨required,pageCount,.replay call⟩) :
    Sound o { w with
      hub := replayFailed o w.hub ⟨required,pageCount,.replay call⟩
      sockets := if required then (Stream.drop w).sockets else w.sockets } := by
  cases required with
  | false =>
    have hin : w.hub.catchUpInFlight.isSome = true := by rw [hcall]; rfl
    refine hw.endReplay hin fun e he => ?_
    rcases hw.known e he with hbehind | ⟨-,hbuf | howed⟩
    · exact Or.inl hbehind
    · exact Or.inr hbuf
    · unfold Owed at howed
      rw [hcall] at howed
      exact howed.elim
  | true =>
    have hd := hw.drop
    have hhub : (Stream.drop w).hub = dropAndReconnect w.hub := by
      unfold Stream.drop dropAndReconnect
      split <;> rfl
    have hlog : (Stream.drop w).log = w.log := by
      unfold Stream.drop
      split <;> rfl
    unfold replayFailed
    rw [if_pos rfl, ← hhub, if_pos rfl, ← hlog]
    have hdropped : (Stream.drop w).hub.socketOpen = false ∨ (Stream.drop w).hub.closed = true := by
      unfold Stream.drop
      split
      · exact Or.inr ‹_›
      · rename_i hclosed
        left
        unfold dropAndReconnect
        rw [if_neg hclosed]
        exact scheduleReconnect_socketOpen rfl
    refine ⟨hd.sorted,hd.after_le,hd.mark,hd.passed,hd.buffer_sub,hd.unbuffered,hd.next_le,?_,?_,hd.pollCall,
      fun _ _ => hdropped,hd.openSocket,?_⟩
    · intro e he
      rcases hd.known e he with hbehind | ⟨hb,hbuf | -⟩
      · exact Or.inl hbehind
      · exact Or.inr ⟨hb,Or.inl hbuf⟩
      · exact Or.inr ⟨hb,Or.inr trivial⟩
    · intro required' pageCount' call' hcall'
      cases hcall'
    · rintro (hopen | hin)
      · exact hd.everOpened (Or.inl hopen)
      · cases hin

theorem openAt_filter {sockets : List Socket} {keep : Socket → Bool} {next : ℕ}
    (h : OpenAt (sockets.filter keep) next) : OpenAt sockets next := by
  obtain ⟨s,hs,hstage⟩ := h
  exact ⟨s,List.mem_of_mem_filter hs,hstage⟩

theorem sameReading_reopenAfter {code : ℕ} (hlost : h.socketOpen = false) :
    SameReading h (reopenAfter h code) ∧ (reopenAfter h code).pollInFlight = h.pollInFlight ∧
      (reopenAfter h code).socketOpen = false := by
  unfold reopenAfter
  split
  · exact ⟨⟨rfl,rfl,rfl,rfl,rfl,rfl,id,id⟩,rfl,hlost⟩
  · split
    · exact ⟨⟨rfl,rfl,rfl,rfl,rfl,rfl,id,id⟩,rfl,hlost⟩
    · exact ⟨sameReading_scheduleReconnect,pollInFlight_scheduleReconnect,scheduleReconnect_socketOpen hlost⟩

/-- Polling starts in place of a socket, and only where none ever opened. -/
theorem Sound.startPolling (hw : Sound o w) (hnever : w.hub.everOpened = false) :
    Sound o { w with hub := startPolling w.hub } := by
  have hnone : ¬ ((∃ next, OpenAt w.sockets next) ∨ w.hub.catchUpInFlight.isSome = true) := by
    intro hsome
    rw [hw.everOpened hsome] at hnever
    cases hnever
  obtain ⟨hclosed,hidle⟩ := not_or.mp hnone
  unfold Stream.startPolling
  split
  · exact hw
  · rename_i hguard
    simp only [Bool.or_eq_true, not_or, Bool.not_eq_true] at hguard
    unfold Stream.poll
    dsimp only
    rw [hguard.2, if_neg (by simp)]
    refine ⟨hw.sorted,hw.after_le,hw.mark,hw.passed,List.nil_subset _,fun _ => rfl,hw.next_le,?_,?_,?_,?_,
      hw.openSocket,fun h => absurd h hnone⟩
    · rintro e ⟨-,⟨next,hnext,-⟩ | ⟨x,hx,-⟩⟩
      · exact absurd ⟨next,hnext⟩ hclosed
      · exact absurd hx List.not_mem_nil
    · intro required pageCount call hcall
      refine absurd ?_ hidle
      rw [show w.hub.catchUpInFlight = _ from hcall]
      rfl
    · intro call hcall
      cases hcall
      exact le_refl _
    · intro hb
      cases hb

theorem Sound.closes {socket : SocketId} {code : ℕ} (hw : Sound o w) :
    Sound o { w with hub := onClose o w.hub code, sockets := w.sockets.filter fun s => s.id ≠ socket } := by
  have hlost : Sound o { w with
      hub := { w.hub with silenceArmed := false, socketOpen := false, socket := none }
      sockets := w.sockets.filter fun s => s.id ≠ socket } :=
    hw.quiet sameReading_lost rfl hw.pollCall (fun _ => openAt_filter)
      fun htrue => (Bool.false_ne_true htrue).elim
  have hreopen : ∀ {hub : Hub α}, hub.socketOpen = false →
      SameReading { w.hub with silenceArmed := false, socketOpen := false, socket := none } hub →
      hub.pollInFlight = w.hub.pollInFlight →
      Sound o { w with
        hub := reopenAfter hub code, sockets := w.sockets.filter fun s => s.id ≠ socket } := by
    intro hub hoff hs hpoll
    obtain ⟨hs',hpoll',hoff'⟩ := @sameReading_reopenAfter α hub code hoff
    refine hlost.quiet (hs.trans hs') rfl ?_ (fun _ => id) ?_
    · dsimp only
      rw [hpoll', hpoll]
      exact hw.pollCall
    · intro htrue
      exact absurd (hoff'.symm.trans htrue) Bool.false_ne_true
  unfold onClose
  dsimp only
  split
  · exact hlost
  · split
    · exact hreopen rfl ⟨rfl,rfl,rfl,rfl,rfl,rfl,id,id⟩ rfl
    · rename_i hnever
      split
      · have hfailed : Sound o { w with
            hub := { w.hub with
              silenceArmed := false
              socketOpen := false
              socket := none
              handshakeFailures := w.hub.handshakeFailures + 1 }
            sockets := w.sockets.filter fun s => s.id ≠ socket } :=
          hlost.quiet ⟨rfl,rfl,rfl,rfl,rfl,rfl,id,id⟩ rfl hlost.pollCall (fun _ => id) hlost.openSocket
        exact hfailed.startPolling (Bool.eq_false_iff.mpr hnever)
      · exact hreopen rfl ⟨rfl,rfl,rfl,rfl,rfl,rfl,id,id⟩ rfl

theorem openAt_append {sockets : List Socket} {socket : SocketId} {next : ℕ}
    (h : OpenAt (sockets ++ [⟨socket,.connecting⟩]) next) : OpenAt sockets next := by
  obtain ⟨s,hs,hstage⟩ := h
  rcases List.mem_append.mp hs with hs | hs
  · exact ⟨s,hs,hstage⟩
  · rw [List.mem_singleton.mp hs] at hstage
    cases hstage

/-- A connection discards the buffer, which holds nothing that an open socket brought. -/
theorem Sound.connect {made : Bool} (hw : Sound o w)
    (hsmooth : smooth w (.reconnect made) = true) : Sound o (connect w made) := by
  unfold Stream.connect
  split
  · exact hw
  · rename_i hguard
    simp only [Bool.or_eq_true, not_or, Bool.not_eq_true] at hguard
    have hnone : ∀ next, ¬ OpenAt w.sockets next := by
      rintro next ⟨s,hs,hstage⟩
      unfold smooth at hsmooth
      rw [hguard.1, hguard.2] at hsmooth
      have hclosed := List.all_eq_true.mp hsmooth s hs
      unfold Socket.isOpen at hclosed
      rw [hstage] at hclosed
      cases hclosed
    have hoff : w.hub.socketOpen = false := by
      rw [Bool.eq_false_iff]
      intro htrue
      obtain ⟨next,hnext⟩ := hw.openSocket htrue
      exact hnone next hnext
    have hstart : Sound o { w with hub := startConnect w.hub } := by
      refine ⟨hw.sorted,hw.after_le,hw.mark,hw.passed,List.nil_subset _,fun _ => rfl,hw.next_le,?_,?_,
        hw.pollCall,fun _ _ => Or.inl hoff,hw.openSocket,hw.everOpened⟩
      · rintro e ⟨-,⟨next,hnext,-⟩ | ⟨x,hx,-⟩⟩
        · exact absurd hnext (hnone next)
        · exact absurd hx List.not_mem_nil
      · intro required pageCount call hcall
        exact ⟨rfl,(hw.call required pageCount call hcall).2⟩
    split
    · exact hstart.quiet ⟨rfl,rfl,rfl,rfl,rfl,rfl,id,id⟩ rfl hstart.pollCall (fun _ => openAt_append)
        fun htrue => (Bool.false_ne_true (hoff.symm.trans htrue)).elim
    · refine hstart.quiet sameReading_scheduleReconnect rfl ?_ (fun _ => id) ?_
      · dsimp only
        rw [pollInFlight_scheduleReconnect]
        exact hstart.pollCall
      · exact fun htrue => hstart.openSocket (sameReading_scheduleReconnect.socketOpen htrue)

theorem Sound.reconcile (hw : Sound o w) : Sound o { w with hub := reconcile w.hub } := by
  unfold Stream.reconcile
  split
  · exact hw
  · rename_i hguard
    simp only [Bool.or_eq_true, not_or, Bool.not_eq_true, Bool.not_eq_eq_eq_not, Bool.not_true,
      Bool.not_eq_false, Option.isSome_eq_false_iff, Option.isNone_iff_eq_none] at hguard
    obtain ⟨⟨⟨hclosed,-⟩,hon⟩,hnone⟩ := hguard
    have hdirect : w.hub.buffering = false := by
      rw [Bool.eq_false_iff]
      intro hb
      have hidle := hw.idle hb fun required pageCount call hcall => by
        rw [hnone] at hcall
        cases hcall
      rcases hidle with hoff | hclosed'
      · exact Bool.false_ne_true (hoff.symm.trans hon)
      · exact Bool.false_ne_true (hclosed.symm.trans hclosed')
    refine hw.catchUp (Or.inr fun e he => ?_) (hw.everOpened (Or.inl (hw.openSocket hon)))
    rcases hw.known e he with hbehind | ⟨hb,-⟩
    · exact Or.inl hbehind
    · exact (Bool.false_ne_true (hdirect.symm.trans hb)).elim

theorem Sound.replayRead {required : Bool} {pageCount after : ℕ} (hl : 0 < limit) (hw : Sound o w)
    (hcall : w.hub.catchUpInFlight = some ⟨required,pageCount,.replay (.asked after)⟩) :
    Sound o { w with hub := { w.hub with
      catchUpInFlight := some ⟨required,pageCount,.replay (.answered (replay limit w.log after))⟩ } } := by
  obtain ⟨hb,hle⟩ := hw.call required pageCount _ hcall
  refine ⟨hw.sorted,hw.after_le,hw.mark,hw.passed,hw.buffer_sub,hw.unbuffered,hw.next_le,?_,?_,hw.pollCall,
    ?_,hw.openSocket,fun _ => hw.everOpened (Or.inr (by rw [hcall]; rfl))⟩
  · intro e he
    rcases hw.known e he with hbehind | ⟨hb',hbuf | howed⟩
    · exact Or.inl hbehind
    · exact Or.inr ⟨hb',Or.inl hbuf⟩
    · refine Or.inr ⟨hb',Or.inr ?_⟩
      unfold Owed at howed ⊢
      rw [hcall] at howed
      cases required with
      | false => exact howed.elim
      | true => exact ⟨headOf w.log,rfl,le_headOf hw.sorted he.1⟩
  · intro required' pageCount' call hcall'
    cases hcall'
    exact ⟨hb,replay_sound hl hw.sorted hle⟩
  · intro _ hidle
    exact absurd rfl (hidle _ _ _)

/-- What happens to a poll leaves the hub's reading as it is. -/
theorem Sound.polls {poll : Option (Waiting α)} {armed : Bool} {status : LinkStatus} {resyncs : ℕ}
    (hw : Sound o w) (hpoll : ∀ call, poll = some (.replay call) → CallSound w.log w.hub.cursor call) :
    Sound o { w with hub := { w.hub with
      pollInFlight := poll, pollArmed := armed, status := status, resyncs := resyncs } } :=
  hw.quiet ⟨rfl,rfl,rfl,rfl,rfl,rfl,id,id⟩ rfl hpoll (fun _ => id) hw.openSocket

theorem Sound.pollAnswered {page : ReplayPage α} (hw : Sound o w)
    (hcall : w.hub.pollInFlight = some (.replay (.answered page))) :
    Sound o { w with hub := pollAnswered o w.hub page } := by
  have hpage : PageSound w.log w.hub.cursor page := hw.pollCall _ hcall
  have hno : ∀ call, (none : Option (Waiting α)) = some (.replay call) →
      CallSound w.log w.hub.cursor call := fun call h => by cases h
  unfold Stream.pollAnswered
  split
  · exact hw.polls hno
  · rw [hpage.resync, if_neg Bool.false_ne_true]
    have hread := (hw.intakeAll hpage.sub hpage.sorted fun x hx e he hle => by
      by_cases hbehind : e.id ≤ w.hub.cursor
      · exact Or.inr (Or.inl hbehind)
      · exact Or.inl (hpage.fills x hx e he (Nat.lt_of_not_le hbehind) hle)).1
    refine hread.quiet ⟨rfl,rfl,rfl,rfl,rfl,rfl,id,id⟩ rfl (fun call h => ?_) (fun _ => id) hread.openSocket
    cases h

/-- One smooth step keeps the reading sound. -/
theorem sound_step (hl : 0 < limit) (hw : Sound o w) {event : Event α} (hsmooth : smooth w event = true)
    (hstep : Step o limit w event w') : Sound o w' := by
  have hno : ∀ call, (none : Option (Waiting α)) = some (.replay call) →
      CallSound w.log w.hub.cursor call := fun call h => by cases h
  cases event with
  | commit e =>
    obtain ⟨hnew,rfl⟩ := enabled_ok hstep
    exact hw.commit fun y hy => of_decide_eq_true (List.all_eq_true.mp hnew y hy)
  | opens socket start =>
    obtain ⟨hguard,rfl⟩ := enabled_ok hstep
    obtain ⟨hfind,hstart⟩ := Bool.and_eq_true_iff.mp hguard
    exact hw.opens (of_decide_eq_true hfind) (of_decide_eq_true hstart) (Option.isNone_iff_eq_none.mp hsmooth)
  | frame socket count =>
    have hstep : apply o limit w (.frame socket count) = .ok w' := hstep
    simp only [apply] at hstep
    split at hstep
    · rename_i id next hfind
      obtain ⟨hcount,rfl⟩ := enabled_ok hstep
      exact hw.frame hfind rfl (of_decide_eq_true hcount)
    · cases hstep
  | closes socket code =>
    obtain ⟨-,rfl⟩ := enabled_ok hstep
    exact hw.closes
  | silence =>
    obtain ⟨-,rfl⟩ := enabled_ok hstep
    have hquiet : Sound o { w with hub := { w.hub with silenceArmed := false } } :=
      hw.quiet ⟨rfl,rfl,rfl,rfl,rfl,rfl,id,id⟩ rfl hw.pollCall (fun _ => id) hw.openSocket
    exact hquiet.drop
  | reconnect made =>
    obtain ⟨-,rfl⟩ := enabled_ok hstep
    have hquiet : Sound o { w with hub := { w.hub with reconnectArmed := false } } :=
      hw.quiet ⟨rfl,rfl,rfl,rfl,rfl,rfl,id,id⟩ rfl hw.pollCall (fun _ => id) hw.openSocket
    exact hquiet.connect hsmooth
  | reconcile =>
    cases hstep
    exact hw.reconcile
  | replayRead =>
    have hstep : apply o limit w .replayRead = .ok w' := hstep
    simp only [apply] at hstep
    split at hstep
    · rename_i required pageCount after hcall
      cases hstep
      exact hw.replayRead hl hcall
    · cases hstep
  | replayAnswer =>
    have hstep : apply o limit w .replayAnswer = .ok w' := hstep
    simp only [apply] at hstep
    split at hstep
    · rename_i required pageCount page hcall
      cases hstep
      simp only [smooth, hcall] at hsmooth
      exact hw.answered hcall hsmooth
    · cases hstep
  | replayFail =>
    have hstep : apply o limit w .replayFail = .ok w' := hstep
    simp only [apply] at hstep
    split at hstep
    · rename_i required pageCount call hcall
      cases hstep
      exact hw.failed hcall
    · cases hstep
  | reconciled =>
    have hstep : apply o limit w .reconciled = .ok w' := hstep
    simp only [apply] at hstep
    split at hstep
    · rename_i required pageCount hcall
      cases hstep
      refine ⟨hw.sorted,hw.after_le,hw.mark,hw.passed,hw.buffer_sub,hw.unbuffered,hw.next_le,?_,?_,
        hw.pollCall,?_,hw.openSocket,?_⟩
      · intro e he
        rcases hw.known e he with hbehind | ⟨hb,hbuf | -⟩
        · exact Or.inl hbehind
        · exact Or.inr ⟨hb,Or.inl hbuf⟩
        · exact Or.inr ⟨hb,Or.inr trivial⟩
      · intro required' pageCount' call hcall'
        cases hcall'
      · intro hb _
        refine hw.idle hb fun required' pageCount' call hcall' => ?_
        rw [hcall] at hcall'
        cases hcall'
      · rintro (hopen | hin)
        · exact hw.everOpened (Or.inl hopen)
        · cases hin
    · cases hstep
  | poll =>
    obtain ⟨-,rfl⟩ := enabled_ok hstep
    unfold Stream.poll
    split
    · exact hw.polls hw.pollCall
    · refine hw.polls fun call hcall => ?_
      cases hcall
      exact le_refl _
  | pollRead =>
    have hstep : apply o limit w .pollRead = .ok w' := hstep
    simp only [apply] at hstep
    split at hstep
    · rename_i after hcall
      cases hstep
      refine hw.polls fun call hcall' => ?_
      cases hcall'
      exact replay_sound hl hw.sorted (hw.pollCall _ hcall)
    · cases hstep
  | pollAnswer =>
    have hstep : apply o limit w .pollAnswer = .ok w' := hstep
    simp only [apply] at hstep
    split at hstep
    · rename_i page hcall
      cases hstep
      exact hw.pollAnswered hcall
    · cases hstep
  | pollFail =>
    have hstep : apply o limit w .pollFail = .ok w' := hstep
    simp only [apply] at hstep
    split at hstep
    · cases hstep
      exact hw.polls hno
    · cases hstep
  | polled =>
    have hstep : apply o limit w .polled = .ok w' := hstep
    simp only [apply] at hstep
    split at hstep
    · cases hstep
      exact hw.polls hno
    · cases hstep
  | close =>
    cases hstep
    exact hw.quiet ⟨rfl,rfl,rfl,rfl,rfl,rfl,fun htrue => (Bool.false_ne_true htrue).elim,fun _ => rfl⟩ rfl
      hw.pollCall (fun _ => openAt_closeSocket) fun htrue => (Bool.false_ne_true htrue).elim

theorem sound_initial (hinit : Initial o w) : Sound o w := by
  obtain ⟨log,made,hs,rfl⟩ := hinit
  have hnone : ∀ next, ¬ OpenAt [] next := by
    rintro next ⟨s,hs',-⟩
    exact List.not_mem_nil hs'
  have hfresh : Sound o (⟨newHub o,[],0,log⟩ : World α) := by
    refine ⟨hs,le_refl _,Or.inl rfl,(window_self _).symm,List.nil_subset _,fun _ => rfl,?_,?_,?_,?_,?_,?_,?_⟩
    · exact fun next hnext => absurd hnext (hnone next)
    · rintro e ⟨-,⟨next,hnext,-⟩ | ⟨x,hx,-⟩⟩
      · exact absurd hnext (hnone next)
      · exact absurd hx List.not_mem_nil
    · intro required pageCount call hcall
      cases hcall
    · intro call hcall
      cases hcall
    · intro hb
      cases hb
    · intro htrue
      cases htrue
    · rintro (⟨next,hnext⟩ | hin)
      · exact absurd hnext (hnone next)
      · cases hin
  exact hfresh.connect rfl

/-- In every run of smooth steps, what the hub has passed on is, at every moment, the accepted events
above `after` up to the cursor, each once and in order. -/
theorem hub_delivers_in_order (hl : 0 < limit) {w₀ : World α} {events : List (Event α)}
    (hinit : Initial o w₀) (hrun : Run (Guarded (Step o limit) fun w e => smooth w e = true) w₀ events w) :
    w.hub.delivered = window eventId o.accept w.log o.after w.hub.cursor ∧
      w.hub.delivered.Pairwise (fun a b => a.id < b.id) := by
  have hw : Sound o w := hrun.invariant (sound_initial hinit) fun _ _ _ hs hstep =>
    sound_step hl hs hstep.1 hstep.2
  refine ⟨hw.passed,?_⟩
  rw [hw.passed]
  exact window_keys_sorted hw.sorted

end Steps

section Runs

def sampleOptions : HubOptions Unit := ⟨0,fun _ => true,2⟩

def hubOver (log : List (StreamEvent Unit)) : World Unit := connect ⟨newHub sampleOptions,[],0,log⟩ true

/-- The first catch-up finds nothing, the socket drops, and another one is replayed for. -/
def reconnecting : List (Event Unit) :=
  [.opens 0 0, .replayRead, .replayAnswer, .reconciled, .commit ⟨1,()⟩, .frame 0 1, .closes 0 1006,
    .commit ⟨2,()⟩, .reconnect true, .opens 1 2, .commit ⟨3,()⟩, .replayRead, .frame 1 1, .replayAnswer]

theorem hub_delivers_in_order_reconnecting :
    (afterAll (apply sampleOptions 500) (hubOver []) reconnecting).hub.delivered =
      [⟨1,()⟩,⟨2,()⟩,⟨3,()⟩] ∧
    (afterAll (apply sampleOptions 500) (hubOver []) reconnecting).hub.delivered.Pairwise
      fun a b => a.id < b.id :=
  ⟨by decide,(hub_delivers_in_order (o := sampleOptions) (by decide)
    ⟨[],true,List.Pairwise.nil,rfl⟩ (run_admittedAll (by decide :
      admittedAll smooth (apply sampleOptions 500) (hubOver []) reconnecting = true))).2⟩

/-- A socket opens while the catch-up of the one before it still waits for its page. -/
def opensDuringReplay : List (Event Unit) :=
  [.opens 0 0, .replayRead, .closes 0 1006, .reconnect true, .commit ⟨1,()⟩, .opens 1 1, .replayAnswer,
    .reconciled, .commit ⟨2,()⟩, .frame 1 1]

/-- A silent socket reports its close after the next one has opened. -/
def closesLate : List (Event Unit) :=
  [.opens 0 0, .replayRead, .replayAnswer, .reconciled, .silence, .reconnect true, .opens 1 0, .replayRead,
    .closes 0 1006, .commit ⟨1,()⟩, .frame 1 1, .reconnect true, .replayAnswer, .reconciled,
    .commit ⟨2,()⟩, .frame 1 1]

/-- More pages are due than a catch-up asks for. -/
def farBehind : List (Event Unit) :=
  [.opens 0 21] ++ (List.replicate 20 [.replayRead, .replayAnswer]).flatten ++
    [.reconciled, .commit ⟨22,()⟩, .frame 0 1]

/-- The hub ends a run with an event behind its cursor that it never passed on. -/
def Skips (limit : ℕ) (log : List (StreamEvent Unit)) (events : List (Event Unit)) : Prop :=
  ∃ w, Initial sampleOptions (hubOver log) ∧ Run (Step sampleOptions limit) (hubOver log) events w ∧
    ∃ e ∈ w.log, e.id ≤ w.hub.cursor ∧ e ∉ w.hub.delivered

theorem hub_skips_events : Skips 500 [] opensDuringReplay ∧ Skips 500 [] closesLate ∧
    Skips 1 ((List.range' 1 21).map fun id => ⟨id,()⟩) farBehind := by
  refine ⟨⟨_,⟨[],true,List.Pairwise.nil,rfl⟩,run_afterAll (by decide),⟨1,()⟩,?_⟩,
    ⟨_,⟨[],true,List.Pairwise.nil,rfl⟩,run_afterAll (by decide),⟨1,()⟩,?_⟩,
    ⟨_,⟨_,true,?_,rfl⟩,run_afterAll (by decide),⟨21,()⟩,?_⟩⟩
  · decide
  · decide
  · unfold Sorted
    decide
  · decide

end Runs
end HermesEnterprise.Stream
