import HermesEnterprise.Members.Admins
import HermesEnterprise.Foundation.Exclusion

/-! # The last Admin

A transaction of `revokeAccess` holds the lock on the workspace row when it writes, so the trigger sees every
earlier removal. The upsert of a membership event takes no such lock. An active Admin remains while no
demotion by an event overlaps the loss of the last other one, and the last Admin is promoted back.
-/
namespace HermesEnterprise.Members
open Foundation.Runs Foundation.Exclusion

variable {s s' : State} {t : ℕ} {x x' : Tx} {e : Event} {old new a : Member} {freshId : ℕ}

/-- A membership event that writes by `mirrorMembership`. -/
def Tx.mirrors (x : Tx) : Bool :=
  match x.request with
  | .membership _ _ inactive _ _ => !inactive
  | _ => false

/-- The uncommitted version that a transaction has written of the row is no active Admin's. -/
def Tx.drops (x : Tx) (a : Member) : Bool := x.row.any fun r => r.userId == a.userId && !r.isAdmin

/-- An active Admin whose row no open transaction is taking away. -/
def State.stands (s : State) (a : Member) : Bool := a.isAdmin && s.txs.all fun y => !y.drops a

/-- An event takes an active Admin away, or is doing so while another transaction does, only when another
active Admin stands. -/
def calm (s : State) : Event → Bool
  | .write t freshId =>
    match s.txs[t]? with
    | none => true
    | some x =>
      match x.update s.members freshId with
      | some (some old,new) =>
        !(old.isAdmin && !new.isAdmin
            && (x.mirrors || s.txs.any fun y => y.mirrors && s.members.any fun b => b.isAdmin && y.drops b))
          || s.members.any fun b => b.userId != old.userId && s.stands b
      | _ => true
  | _ => true

/-- What a transaction holds, it holds in the right place. -/
structure Tx.Sound (x : Tx) : Prop where
  row : x.row.isSome → x.phase = .ready ∧ (x.mirrors = true ∨ x.workspaceLock = true)
  mirroring : ∀ u r i, x.phase = .mirroring u r i → x.mirrors = true
  counting : ∀ e m i, x.phase = .counting e m i → x.mirrors = true

/-- Two transactions that both hold the lock on the workspace row. -/
def bothLock (x y : Tx) : Prop := x.workspaceLock = true ∧ y.workspaceLock = true

/-- Two transactions that have both written the row of one user. -/
def sameRow (x y : Tx) : Prop := ∃ r ∈ x.row, ∃ r' ∈ y.row, r.userId = r'.userId

/-- A lock has one holder. -/
structure Locks (txs : List Tx) : Prop where
  sound : ∀ x ∈ txs, x.Sound
  workspace : Exclusive bothLock txs
  rows : Exclusive sameRow txs

/-- A statement that writes no row. -/
structure Quiet (txs : List Tx) (x x' : Tx) : Prop where
  request : x'.request = x.request
  row : x'.row = none ∨ x'.row = x.row
  lock : x'.workspaceLock = true → x.workspaceLock = true ∨ txs.any Tx.workspaceLock = false
  sound : x.Sound → x'.Sound

/-- A transaction that comes to write: `revokeAccess` under the workspace lock, or the upsert. -/
def Tx.writing (x : Tx) : Prop :=
  (∃ m action, x.phase = .revoking m action ∧ x.workspaceLock = true) ∨ ∃ u role i, x.phase = .mirroring u role i

theorem Tx.writing.not_ready (h : x.writing) : x.phase ≠ .ready := by
  rcases h with ⟨m,action,hp,-⟩ | ⟨u,role,i,hp⟩ <;> rw [hp] <;> simp

theorem Tx.sound_new (request : Request) : ({ request := request } : Tx).Sound :=
  ⟨by simp,by simp,by simp⟩

theorem Tx.sound_over (x : Tx) : x.over.Sound := ⟨by simp [Tx.over],by simp [Tx.over],by simp [Tx.over]⟩

theorem mirrors_congr (h : x'.request = x.request) : x'.mirrors = x.mirrors := by
  simp only [Tx.mirrors, h]

theorem quiet_over : Quiet s.txs x x.over :=
  ⟨rfl,.inl rfl,by simp [Tx.over],fun _ => x.sound_over⟩

/-- Only a membership event that is no removal comes to the upsert. -/
theorem afterRead_mirrors (r : Request) (members : List Member) :
    (∃ u role i, r.afterRead members = .mirroring u role i) ∨ (∃ e m i, r.afterRead members = .counting e m i) →
      ({ request := r } : Tx).mirrors = true := by
  intro h
  cases r with
  | route memberId action =>
    cases action <;> simp only [Request.afterRead] at h <;> split at h <;> (try split at h) <;> simp at h
  | userDeleted userId => simp only [Request.afterRead] at h; split at h <;> simp at h
  | membership eventId userId inactive role i =>
    cases inactive with
    | false => rfl
    | true => simp only [Request.afterRead, if_true] at h; split at h <;> (try split at h) <;> simp at h

theorem quiet_read (hp : x.phase = .begun) (members : List Member) :
    Quiet s.txs x { x with phase := x.request.afterRead members } := by
  refine ⟨rfl,.inr rfl,.inl,fun hx => ⟨fun hr => ?_,fun u r i hm => ?_,fun e m i hm => ?_⟩⟩
  · have := (hx.row hr).1
    rw [hp] at this
    cases this
  · exact afterRead_mirrors _ members (.inl ⟨u,r,i,hm⟩)
  · exact afterRead_mirrors _ members (.inr ⟨e,m,i,hm⟩)

theorem quiet_count {eventId : ℕ} {m : Member} {i : Option ℕ} (hp : x.phase = .counting eventId m i)
    (members : List Member) : Quiet s.txs x { x with phase := afterCount members eventId m i } := by
  refine ⟨rfl,.inr rfl,.inl,fun hx => ⟨fun hr => ?_,fun _ _ _ _ => hx.counting _ m i hp,
    fun _ _ _ _ => hx.counting _ m i hp⟩⟩
  have := (hx.row hr).1
  rw [hp] at this
  cases this

theorem quiet_ready (hp : x.phase ≠ .ready) (hr : x'.request = x.request) (hrow : x'.row = x.row)
    (hphase : x'.phase = .ready) (hl : x'.workspaceLock = x.workspaceLock) : Quiet s.txs x x' := by
  have hnone (hx : x.Sound) : x'.row = none := by
    rw [hrow]
    cases hc : x.row with
    | none => rfl
    | some r => exact absurd (hx.row (by rw [hc]; rfl)).1 hp
  refine ⟨hr,.inr hrow,fun h => .inl (hl ▸ h),fun hx => ⟨fun h => ?_,?_,?_⟩⟩
  · rw [hnone hx] at h
    cases h
  all_goals rw [hphase]; intro _ _ _ h; cases h

theorem writeRow_cases (hp : x.phase ≠ .ready) (h : writeRow s t x freshId = .ok s') :
    (∃ x', s' = s.setTx t x' ∧ Quiet s.txs x x') ∨
    (∃ new, rowLocked s.txs new.userId = false ∧ s' = s.setTx t { x with phase := .ready, row := some new } ∧
      (x.update s.members freshId = some (none,new) ∨
        ∃ old, x.update s.members freshId = some (some old,new) ∧ keepsOneAdmin s.members old new = true)) := by
  unfold writeRow at h
  split at h
  next => exact .inl ⟨_,(Except.ok.inj h).symm,quiet_ready hp rfl rfl rfl rfl⟩
  next old new hu =>
    split at h
    next => cases h
    next hlock =>
      rw [Bool.not_eq_true] at hlock
      cases old with
      | none =>
        simp only at h
        split at h
        · cases h
        · exact .inr ⟨new,hlock,(Except.ok.inj h).symm,.inl hu⟩
      | some old =>
        simp only at h
        split at h
        next hk => exact .inr ⟨new,hlock,(Except.ok.inj h).symm,.inr ⟨old,hu,hk⟩⟩
        next => exact .inl ⟨_,(Except.ok.inj h).symm,quiet_over⟩

/-- A statement writes no row, writes one, or commits. -/
theorem statement_cases (he : e.tx = some t) (h : statement s t x e = .ok s') :
    (∃ x', s' = s.setTx t x' ∧ Quiet s.txs x x') ∨
    (∃ freshId new, e = .write t freshId ∧ x.writing ∧ rowLocked s.txs new.userId = false ∧
      s' = s.setTx t { x with phase := .ready, row := some new } ∧
      (x.update s.members freshId = some (none,new) ∨
        ∃ old, x.update s.members freshId = some (some old,new) ∧ keepsOneAdmin s.members old new = true)) ∨
    (e = .commit t ∧ s' = commitTx s t x ∧ x.phase = .ready) := by
  cases e with
  | begin request => cases he
  | read t' =>
    simp only [statement] at h
    split at h
    next hp => exact .inl ⟨_,(Except.ok.inj h).symm,quiet_read hp _⟩
    next => cases h
  | count t' =>
    simp only [statement] at h
    split at h
    next hp => exact .inl ⟨_,(Except.ok.inj h).symm,quiet_count hp _⟩
    next => cases h
  | queue t' =>
    simp only [statement] at h
    split at h
    next hp => exact .inl ⟨_,(Except.ok.inj h).symm,quiet_ready (by rw [hp]; simp) rfl rfl rfl rfl⟩
    next => cases h
  | lock t' =>
    simp only [statement] at h
    split at h
    next hp =>
      split at h
      · cases h
      next hfree =>
        rw [Bool.not_eq_true] at hfree
        exact .inl ⟨_,(Except.ok.inj h).symm,rfl,.inr rfl,fun _ => .inr hfree,
          fun hx => ⟨fun hr => ⟨(hx.row hr).1,.inr rfl⟩,hx.mirroring,hx.counting⟩⟩
    next => cases h
  | write t' freshId =>
    obtain rfl : t' = t := Option.some.inj he
    have hw : x.writing ∧ writeRow s t' x freshId = .ok s' := by
      simp only [statement] at h
      split at h
      next m action hp =>
        split at h
        next hl => exact ⟨.inl ⟨m,action,hp,hl⟩,h⟩
        next => cases h
      next u role i hp => exact ⟨.inr ⟨u,role,i,hp⟩,h⟩
      next => cases h
    rcases writeRow_cases hw.1.not_ready hw.2 with hq | ⟨new,hnew⟩
    · exact .inl hq
    · exact .inr (.inl ⟨freshId,new,rfl,hw.1,hnew⟩)
  | commit t' =>
    obtain rfl : t' = t := Option.some.inj he
    simp only [statement] at h
    split at h
    next hp => exact .inr (.inr ⟨rfl,(Except.ok.inj h).symm,hp⟩)
    next => cases h
  | rollback t' =>
    simp only [statement] at h
    split at h
    · cases h
    · exact .inl ⟨_,(Except.ok.inj h).symm,quiet_over⟩

theorem apply_cases (h : apply s e = .ok s') :
    (∃ request, e = .begin request ∧ s' = { s with txs := s.txs ++ [{ request := request }] }) ∨
    ∃ t x, e.tx = some t ∧ s.txs[t]? = some x ∧ statement s t x e = .ok s' := by
  cases e with
  | begin request => exact .inl ⟨request,rfl,(Except.ok.inj h).symm⟩
  | read t | count t | queue t | lock t | write t f | commit t | rollback t =>
    simp only [apply] at h
    split at h
    · cases h
    · exact .inr ⟨t,_,rfl,‹_›,h⟩

theorem bothLock_symm (x y : Tx) (h : bothLock x y) : bothLock y x := ⟨h.2,h.1⟩

theorem sameRow_symm (x y : Tx) : sameRow x y → sameRow y x := by
  rintro ⟨r,hr,r',hr',hu⟩
  exact ⟨r',hr',r,hr,hu.symm⟩

/-- The locks stay exclusive where one transaction takes only what is free. -/
theorem Locks.set (h : Locks s.txs) (hx : s.txs[t]? = some x) (hs : x'.Sound)
    (hl : x'.workspaceLock = true → x.workspaceLock = true ∨ s.txs.any Tx.workspaceLock = false)
    (hr : ∀ r, x'.row = some r → x.row = some r ∨ rowLocked s.txs r.userId = false) :
    Locks (s.txs.set t x') := by
  refine ⟨fun y hy => ?_,h.workspace.set bothLock_symm fun j y hy hj hb => ?_,
    h.rows.set sameRow_symm fun j y hy hj hb => ?_⟩
  · rcases List.mem_or_eq_of_mem_set hy with hy | rfl
    · exact h.sound y hy
    · exact hs
  · rcases hl hb.1 with hl | hl
    · exact hj (h.workspace j t y x hy hx ⟨hb.2,hl⟩)
    · exact absurd hb.2 (by simpa using List.any_eq_false.1 hl y (List.mem_of_getElem? hy))
  · obtain ⟨r,hrx,r',hry,hu⟩ := hb
    rcases hr r hrx with hr | hr
    · exact hj (h.rows j t y x hy hx ⟨r',hry,r,hr,hu.symm⟩)
    · have := List.any_eq_false.1 hr y (List.mem_of_getElem? hy)
      rw [hry] at this
      simp [hu] at this

theorem Locks.begin (h : Locks s.txs) (request : Request) : Locks (s.txs ++ [{ request := request }]) := by
  have hlock : ∀ y, ¬ bothLock { request := request } y := fun y hb => by cases hb.1
  have hrow : ∀ y, ¬ sameRow { request := request } y := by
    rintro y ⟨r,hr,-⟩
    cases hr
  refine ⟨fun y hy => ?_,h.workspace.append bothLock_symm (fun y _ => hlock y) (hlock _),
    h.rows.append sameRow_symm (fun y _ => hrow y) (hrow _)⟩
  rcases List.mem_append.1 hy with hy | hy
  · exact h.sound y hy
  · rw [List.mem_singleton.1 hy]
    exact Tx.sound_new request

theorem drops_iff : x.drops a = true ↔ ∃ r, x.row = some r ∧ r.userId = a.userId ∧ r.isAdmin = false := by
  simp only [Tx.drops, Option.any_eq_true, Bool.and_eq_true, beq_iff_eq, Bool.not_eq_true']

theorem stands_iff : s.stands a = true ↔ a.isAdmin = true ∧ ∀ y ∈ s.txs, ¬ y.drops a = true := by
  simp only [State.stands, Bool.and_eq_true, List.all_eq_true, Bool.not_eq_true', Bool.not_eq_true]

theorem of_update {members : List Member} (h : x.update members freshId = some (some old,new)) :
    old ∈ members ∧ new.userId = old.userId := by
  unfold Tx.update at h
  split at h
  next m action hp =>
    obtain ⟨o,ho,hon⟩ := Option.map_eq_some_iff.1 h
    simp only [Prod.mk.injEq, Option.some.injEq] at hon
    obtain ⟨rfl,rfl⟩ := hon
    exact ⟨List.mem_of_find?_eq_some ho,action.on_userId o⟩
  next u role i hp =>
    obtain ⟨ho,hou,hnu⟩ := of_mirror (Option.some.inj h)
    exact ⟨ho,hnu.trans hou.symm⟩
  next => cases h

/-- An insert meets no row of its user. -/
theorem of_update_none {members : List Member} (h : x.update members freshId = some (none,new)) :
    ∀ m ∈ members, m.userId ≠ new.userId := by
  unfold Tx.update at h
  split at h
  next m action hp => simp at h
  next u role i hp => exact of_mirror_none (Option.some.inj h)
  next => cases h

/-- The rows and the locks of a workspace. -/
structure Placed (s : State) : Prop where
  users : (s.members.map Member.userId).Nodup
  locks : Locks s.txs

theorem placed_initial (h : Initial s) : Placed s := by
  refine ⟨h.users,?_⟩
  rw [h.txs]
  exact ⟨by simp,exclusive_nil,exclusive_nil⟩

theorem locks_quiet (h : Locks s.txs) (hx : s.txs[t]? = some x) (hq : Quiet s.txs x x') :
    Locks (s.txs.set t x') := by
  refine h.set hx (hq.sound (h.sound x (List.mem_of_getElem? hx))) hq.lock fun r hr => ?_
  rcases hq.row with hn | he
  · rw [hn] at hr
    cases hr
  · exact .inl (he ▸ hr)

theorem writing_sound (hx : x.Sound) (hw : x.writing) : x.mirrors = true ∨ x.workspaceLock = true := by
  rcases hw with ⟨m,action,-,hl⟩ | ⟨u,role,i,hp⟩
  · exact .inr hl
  · exact .inl (hx.mirroring u role i hp)

theorem locks_write (h : Locks s.txs) (hx : s.txs[t]? = some x) (hw : x.writing)
    (hlock : rowLocked s.txs new.userId = false) :
    Locks (s.txs.set t { x with phase := .ready, row := some new }) := by
  have hheld := writing_sound (h.sound x (List.mem_of_getElem? hx)) hw
  refine h.set hx ⟨fun _ => ⟨rfl,hheld⟩,by simp,by simp⟩ .inl fun r hr => .inr ?_
  obtain rfl : new = r := Option.some.inj hr
  exact hlock

theorem placed_step (h : Placed s) (hs : apply s e = .ok s') : Placed s' := by
  rcases apply_cases hs with ⟨request,-,rfl⟩ | ⟨t,x,he,hx,hst⟩
  · exact ⟨h.users,h.locks.begin request⟩
  · rcases statement_cases he hst with ⟨x',rfl,hq⟩ | ⟨f,new,-,hw,hlock,rfl,-⟩ | ⟨-,rfl,-⟩
    · exact ⟨h.users,locks_quiet h.locks hx hq⟩
    · exact ⟨h.users,locks_write h.locks hx hw hlock⟩
    · refine ⟨?_,locks_quiet h.locks hx quiet_over⟩
      simp only [commitTx]
      cases x.row with
      | none => exact h.users
      | some row => exact place_users h.users row

/-- Some active Admin stands. -/
def Standing (s : State) : Prop := ∃ a ∈ s.members, s.stands a = true

theorem standing_quiet (h : Standing s) (hx : s.txs[t]? = some x) (hq : Quiet s.txs x x') :
    Standing (s.setTx t x') := by
  obtain ⟨a,ha,hst⟩ := h
  obtain ⟨hadmin,hno⟩ := stands_iff.1 hst
  refine ⟨a,ha,stands_iff.2 ⟨hadmin,fun y hy hd => ?_⟩⟩
  rcases List.mem_or_eq_of_mem_set hy with hy | rfl
  · exact hno y hy hd
  · obtain ⟨r,hr,hra⟩ := drops_iff.1 hd
    rcases hq.row with hn | he
    · rw [hn] at hr
      cases hr
    · exact hno x (List.mem_of_getElem? hx) (drops_iff.2 ⟨r,he ▸ hr,hra⟩)

/-- A written row leaves standing the Admins that it does not take away. -/
theorem standing_of (ha : a ∈ s.members) (hst : s.stands a = true)
    (hnew : new.userId = a.userId → new.isAdmin = true) :
    Standing (s.setTx t { x with phase := .ready, row := some new }) := by
  obtain ⟨hadmin,hno⟩ := stands_iff.1 hst
  refine ⟨a,ha,stands_iff.2 ⟨hadmin,fun y hy hd => ?_⟩⟩
  rcases List.mem_or_eq_of_mem_set hy with hy | rfl
  · exact hno y hy hd
  · obtain ⟨r,hr,hu,hr'⟩ := drops_iff.1 hd
    obtain rfl : new = r := Option.some.inj hr
    rw [hnew hu] at hr'
    cases hr'

/-- Beside a transaction of `revokeAccess` about to write, only an event can be taking an Admin away. -/
theorem dropper_mirrors (h : Locks s.txs) (hx : s.txs[t]? = some x) (hw : x.writing) (hm : x.mirrors = false)
    {y : Tx} (hy : y ∈ s.txs) (hd : y.drops a = true) : y.mirrors = true := by
  obtain ⟨r,hr,-⟩ := drops_iff.1 hd
  have hxl : x.workspaceLock = true := by
    rcases writing_sound (h.sound x (List.mem_of_getElem? hx)) hw with h' | h'
    · rw [hm] at h'
      cases h'
    · exact h'
  rcases ((h.sound y hy).row (by rw [hr]; rfl)).2 with hym | hyl
  · exact hym
  · obtain ⟨j,hj⟩ := List.mem_iff_getElem?.1 hy
    obtain rfl := h.workspace t j x y hx hj ⟨hxl,hyl⟩
    obtain rfl : x = y := Option.some.inj (hx.symm.trans hj)
    exact absurd ((h.sound x hy).row (by rw [hr]; rfl)).1 hw.not_ready

theorem standing_write (h : Placed s) (hst : Standing s) (hc : calm s (.write t freshId) = true)
    (hx : s.txs[t]? = some x) (hw : x.writing)
    (hu : x.update s.members freshId = some (none,new) ∨
      ∃ old, x.update s.members freshId = some (some old,new) ∧ keepsOneAdmin s.members old new = true) :
    Standing (s.setTx t { x with phase := .ready, row := some new }) := by
  obtain ⟨a,ha,hsa⟩ := hst
  rcases hu with hu | ⟨old,hu,hk⟩
  · exact standing_of ha hsa fun he => absurd he.symm (of_update_none hu a ha)
  obtain ⟨ho,hou⟩ := of_update hu
  by_cases hn : new.isAdmin = true
  · exact standing_of ha hsa fun _ => hn
  rw [Bool.not_eq_true] at hn
  by_cases hold : old.isAdmin = true
  · simp only [calm, hx, hu, hold, hn, Bool.not_false, Bool.true_and, Bool.or_eq_true, Bool.not_eq_true',
      Bool.or_eq_false_iff, List.any_eq_true, Bool.and_eq_true, bne_iff_ne] at hc
    rcases hc with ⟨hm,hev⟩ | ⟨b,hb,hne,hsb⟩
    · obtain ⟨b,hb,hbadmin,hid⟩ := other_of_keeps hk hold hn
      have hne : b.userId ≠ old.userId := fun hu => hid (congrArg Member.id (eq_of_user h.users hb ho hu))
      refine standing_of hb (stands_iff.2 ⟨hbadmin,fun y hy hd => ?_⟩) fun he => absurd (he.symm.trans hou) hne
      have hym := dropper_mirrors h.locks hx hw hm hy hd
      have hfree := List.any_eq_false.1 hev y hy
      refine hfree ?_
      rw [hym, Bool.true_and]
      exact List.any_eq_true.2 ⟨b,hb,by rw [hbadmin, hd]; rfl⟩
    · exact standing_of hb hsb fun he => absurd (he.symm.trans hou) hne
  · refine standing_of ha hsa fun he => absurd ?_ hold
    rw [← eq_of_user h.users ha ho (he.symm.trans hou)]
    exact (stands_iff.1 hsa).1

theorem standing_commit (h : Placed s) (hst : Standing s) (hx : s.txs[t]? = some x) :
    Standing (commitTx s t x) := by
  obtain ⟨a,ha,hsa⟩ := hst
  obtain ⟨hadmin,hno⟩ := stands_iff.1 hsa
  have hrest : ∀ b, (∀ j y, s.txs[j]? = some y → j ≠ t → ¬ y.drops b = true) →
      ∀ y ∈ s.txs.set t x.over, ¬ y.drops b = true := by
    intro b hb y hy hd
    obtain ⟨j,hj⟩ := List.mem_iff_getElem?.1 hy
    rcases of_getElem?_set hj with ⟨-,rfl⟩ | ⟨hjt,hj⟩
    · cases hd
    · exact hb j y hj hjt hd
  have hothers : ∀ j y, s.txs[j]? = some y → j ≠ t → ¬ y.drops a = true :=
    fun j y hj _ => hno y (List.mem_of_getElem? hj)
  cases hr : x.row with
  | none =>
    refine ⟨a,?_,stands_iff.2 ⟨hadmin,hrest a hothers⟩⟩
    simp only [commitTx, hr]
    exact ha
  | some r =>
    have hm : ∀ b, b ∈ (commitTx s t x).members ↔ (b ∈ s.members ∧ b.userId ≠ r.userId) ∨ b = r := by
      intro b
      simp only [commitTx, hr]
      exact mem_place
    by_cases hu : r.userId = a.userId
    · have hra : r.isAdmin = true := by
        by_contra hra
        exact hno x (List.mem_of_getElem? hx) (drops_iff.2 ⟨r,hr,hu,by simpa using hra⟩)
      refine ⟨r,(hm r).2 (.inr rfl),stands_iff.2 ⟨hra,hrest r fun j y hj hjt hd => ?_⟩⟩
      obtain ⟨r',hr',hur,-⟩ := drops_iff.1 hd
      exact hjt (h.locks.rows j t y x hj hx ⟨r',hr',r,hr,hur⟩)
    · exact ⟨a,(hm a).2 (.inl ⟨ha,Ne.symm hu⟩),stands_iff.2 ⟨hadmin,hrest a hothers⟩⟩

/-- What one admitted statement preserves. -/
theorem standing_step (h : Placed s) (hst : Standing s) (hc : calm s e = true) (hs : apply s e = .ok s') :
    Standing s' := by
  rcases apply_cases hs with ⟨request,-,rfl⟩ | ⟨t,x,he,hx,hst'⟩
  · obtain ⟨a,ha,hsa⟩ := hst
    obtain ⟨hadmin,hno⟩ := stands_iff.1 hsa
    refine ⟨a,ha,stands_iff.2 ⟨hadmin,fun y hy hd => ?_⟩⟩
    rcases List.mem_append.1 hy with hy | hy
    · exact hno y hy hd
    · rw [List.mem_singleton.1 hy] at hd
      cases hd
  · rcases statement_cases he hst' with ⟨x',rfl,hq⟩ | ⟨f,new,rfl,hw,-,rfl,hu⟩ | ⟨-,rfl,-⟩
    · exact standing_quiet hst hx hq
    · exact standing_write h hst hc hx hw hu
    · exact standing_commit h hst hx

theorem standing_run {es : List Event} (h : Initial s)
    (hrun : Run (Guarded (Applied apply) fun s e => calm s e = true) s es s') : Standing s' := by
  obtain ⟨a,ha,hadmin⟩ := h.admin
  have hst : Standing s := ⟨a,ha,stands_iff.2 ⟨hadmin,by rw [h.txs]; simp⟩⟩
  exact (hrun.invariant (P := fun s => Placed s ∧ Standing s) ⟨placed_initial h,hst⟩
    fun _ _ _ hp hstep => ⟨placed_step hp.1 hstep.2,standing_step hp.1 hp.2 hstep.1 hstep.2⟩).2

/-- What stays of a demotion event that found no other Admin: it has written no row, and what is ready to
commit queues the promotion back. -/
def Repromotes (job : Repromotion) (x : Tx) : Prop :=
  x.row = none ∧ ((∃ m i, x.phase = .lastAdmin job.eventId m i ∧ m.id = job.memberId) ∨
    (x.phase = .ready ∧ x.job = some job) ∨ x.phase = .ended)

theorem repromotes_statement {job : Repromotion} (h : Repromotes job x) (he : e.tx = some t)
    (hs : statement s t x e = .ok s') : ∃ x', s'.txs = s.txs.set t x' ∧ Repromotes job x' := by
  obtain ⟨hrow,hphase⟩ := h
  cases e with
  | begin request => cases he
  | read t' | count t' | lock t' | write t' f =>
    rcases hphase with ⟨m,i,hp,-⟩ | ⟨hp,-⟩ | hp <;> simp only [statement, hp] at hs <;> cases hs
  | queue t' =>
    rcases hphase with ⟨m,i,hp,hm⟩ | ⟨hp,-⟩ | hp <;> simp only [statement, hp] at hs <;> cases hs
    exact ⟨_,rfl,hrow,.inr (.inl ⟨rfl,by rw [hm]⟩)⟩
  | commit t' =>
    simp only [statement] at hs
    split at hs
    · obtain rfl := Except.ok.inj hs
      exact ⟨_,rfl,rfl,.inr (.inr rfl)⟩
    · cases hs
  | rollback t' =>
    simp only [statement] at hs
    split at hs
    · cases hs
    · obtain rfl := Except.ok.inj hs
      exact ⟨_,rfl,rfl,.inr (.inr rfl)⟩

/-- The statements of the others leave a transaction as it is. -/
theorem txs_of_apply (hs : apply s e = .ok s') (hx : s.txs[t]? = some x) (he : e.tx ≠ some t) :
    s'.txs[t]? = some x := by
  rcases apply_cases hs with ⟨request,-,rfl⟩ | ⟨t',y,he',hy,hst⟩
  · have hlt : t < s.txs.length := (List.getElem?_eq_some_iff.1 hx).1
    simpa only [List.getElem?_append_left hlt] using hx
  · have hne : t' ≠ t := fun h => he (h ▸ he')
    have hset : ∃ x', s'.txs = s.txs.set t' x' := by
      rcases statement_cases he' hst with ⟨x',rfl,-⟩ | ⟨f,new,-,-,-,rfl,-⟩ | ⟨-,rfl,-⟩ <;> exact ⟨_,rfl⟩
    obtain ⟨x',hx'⟩ := hset
    rw [hx', List.getElem?_set_ne hne]
    exact hx

theorem repromotes_run {job : Repromotion} {es : List Event}
    (h : ∃ x, s.txs[t]? = some x ∧ Repromotes job x) (hrun : Run (Applied apply) s es s') :
    ∃ x, s'.txs[t]? = some x ∧ Repromotes job x := by
  refine hrun.invariant (P := fun s => ∃ x, s.txs[t]? = some x ∧ Repromotes job x) h fun u e v hu hs => ?_
  obtain ⟨x,hx,hrep⟩ := hu
  by_cases he : e.tx = some t
  · rcases apply_cases hs with ⟨request,rfl,-⟩ | ⟨t',y,he',hy,hst⟩
    · cases he
    · obtain rfl := Option.some.inj (he.symm.trans he')
      obtain rfl := Option.some.inj (hx.symm.trans hy)
      obtain ⟨x',hset,hrep'⟩ := repromotes_statement hrep he hst
      have hlt : t < u.txs.length := (List.getElem?_eq_some_iff.1 hx).1
      exact ⟨x',by rw [hset, List.getElem?_set_self hlt],hrep'⟩
  · exact ⟨x,txs_of_apply hs hx he,hrep⟩

theorem mem_enqueueJob (jobs : List Repromotion) (job : Repromotion) : job ∈ enqueueJob id jobs job := by
  unfold enqueueJob
  split
  next h =>
    obtain ⟨j,hj,hk⟩ := List.any_eq_true.1 h
    simp only [id_eq, decide_eq_true_eq] at hk
    exact hk ▸ hj
  next => exact List.mem_append_right _ (List.mem_singleton_self job)

/-- The commit of such an event leaves every member row and queues the promotion back. -/
theorem repromotes_commit {job : Repromotion} (h : ∃ x, s.txs[t]? = some x ∧ Repromotes job x)
    (hs : apply s (.commit t) = .ok s') : s'.members = s.members ∧ job ∈ s'.jobs := by
  obtain ⟨x,hx,hrow,hphase⟩ := h
  rcases apply_cases hs with ⟨request,h',-⟩ | ⟨t',y,he,hy,hst⟩
  · cases h'
  obtain rfl : t = t' := Option.some.inj he
  obtain rfl := Option.some.inj (hx.symm.trans hy)
  simp only [statement] at hst
  split at hst
  next hp =>
    obtain rfl := Except.ok.inj hst
    have hjob : x.job = some job := by
      rcases hphase with ⟨m,i,hp',-⟩ | ⟨-,hjob⟩ | hp'
      · rw [hp] at hp'
        cases hp'
      · exact hjob
      · rw [hp] at hp'
        cases hp'
    simp only [commitTx, hrow, hjob]
    exact ⟨trivial,mem_enqueueJob _ _⟩
  next => cases hst

/-- The count of a demotion event that finds no other active Admin. -/
theorem repromotes_count {eventId : ℕ} {m : Member} {i : Option ℕ} (hl : Placed s) (hx : s.txs[t]? = some x)
    (hp : x.phase = .counting eventId m i) (hlast : otherAdmins s.members m.id = 0)
    (hs : apply s (.count t) = .ok s') : ∃ y, s'.txs[t]? = some y ∧ Repromotes ⟨m.id,eventId⟩ y := by
  have hrow : x.row = none := by
    cases hr : x.row with
    | none => rfl
    | some r =>
      have := ((hl.locks.sound x (List.mem_of_getElem? hx)).row (by rw [hr]; rfl)).1
      rw [hp] at this
      cases this
  simp only [apply, hx, statement, hp] at hs
  obtain rfl := Except.ok.inj hs
  have hlt : t < s.txs.length := (List.getElem?_eq_some_iff.1 hx).1
  refine ⟨_,List.getElem?_set_self hlt,hrow,.inl ⟨m,i,?_,rfl⟩⟩
  simp [afterCount, hlast]

/-- While no demotion by a membership event overlaps the loss of the last other Admin, an active Admin
remains after every commit. A demotion event that finds no other one changes no row and queues the promotion
back. -/
theorem active_admin_kept {es : List Event} (h : Initial s)
    (hrun : Run (Guarded (Applied apply) fun s e => calm s e = true) s es s') :
    (∃ a ∈ s'.members, a.isAdmin = true) ∧
      ∀ t x eventId m i s₁ fs u v, s'.txs[t]? = some x → x.phase = .counting eventId m i →
        otherAdmins s'.members m.id = 0 → apply s' (.count t) = .ok s₁ → Run (Applied apply) s₁ fs u →
        apply u (.commit t) = .ok v → v.members = u.members ∧ ⟨m.id,eventId⟩ ∈ v.jobs := by
  have hplaced : Placed s' :=
    hrun.invariant (placed_initial h) fun _ _ _ hp hstep => placed_step hp hstep.2
  obtain ⟨a,ha,hst⟩ := standing_run h hrun
  refine ⟨⟨a,ha,(stands_iff.1 hst).1⟩,fun t x eventId m i s₁ fs u v hx hp hlast hcount hfs hcommit => ?_⟩
  exact repromotes_commit (repromotes_run (repromotes_count hplaced hx hp hlast hcount) hfs) hcommit

/-- A workspace of two Admins. -/
def twoAdmins : State :=
  { members := [⟨1,11,.admin,.active,some 21⟩,⟨2,12,.admin,.active,some 22⟩], jobs := [], txs := [] }

/-- An event demotes the first Admin, and a later one the second. -/
def demotions : List Event :=
  [.begin (.membership 7 11 false .member (some 21)),.read 0,.count 0,.write 0 0,.commit 0,
    .begin (.membership 8 12 false .member (some 22)),.read 1]

theorem active_admin_kept_demotions :
    let s := afterAll apply twoAdmins demotions;
    let u := afterAll apply (after apply s (.count 1)) [.queue 1];
    let v := after apply u (.commit 1);
    (∃ a ∈ s.members, a.isAdmin = true) ∧ v.members = u.members ∧ ⟨2,8⟩ ∈ v.jobs := by
  intro s u v
  have hi : Initial twoAdmins := ⟨by decide,by decide,⟨⟨1,11,.admin,.active,some 21⟩,by decide,rfl⟩,rfl⟩
  have hrun : Run (Guarded (Applied apply) fun s e => calm s e = true) twoAdmins demotions s :=
    run_admittedAll (by decide)
  have hqueue : Run (Applied apply) (after apply s (.count 1)) [.queue 1] u := run_afterAll (by decide)
  obtain ⟨h₁,h₂⟩ := active_admin_kept hi hrun
  exact ⟨h₁,h₂ 1 _ 8 ⟨2,12,.admin,.active,some 22⟩ (some 22) _ _ u v rfl rfl rfl rfl hqueue rfl⟩

/-- A demotion of the first Admin by an event and a removal of the second, at the same time. -/
def overlap : List Event :=
  [.begin (.membership 7 11 false .member (some 21)),.begin (.route 2 .remove),.read 0,.count 0,.read 1,.lock 1,
    .write 0 0,.write 1 0,.commit 0,.commit 1]

theorem no_admin_after_overlap :
    Initial twoAdmins ∧ Run (Applied apply) twoAdmins overlap (afterAll apply twoAdmins overlap) ∧
      ∀ a ∈ (afterAll apply twoAdmins overlap).members, a.isAdmin = false :=
  ⟨⟨by decide,by decide,⟨⟨1,11,.admin,.active,some 21⟩,by decide,rfl⟩,rfl⟩,run_afterAll (by decide),by decide⟩

end HermesEnterprise.Members
