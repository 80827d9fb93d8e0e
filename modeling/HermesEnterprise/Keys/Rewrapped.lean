import HermesEnterprise.Keys.Rewraps

/-! # Secrets that are rewritten while they are re-wrapped

Under a row lock a re-wrap meets the envelope that it has read. `rewrapProviderKey` holds no lock, and its
guard only compares versions: its `UPDATE` is safe as long as the row still has the envelope it has read.
-/
namespace HermesEnterprise.Secrets
open Foundation Foundation.Tables Foundation.Utf8 Envelope Foundation.Runs

variable {P : Platform} {master : ℕ → Bytes} {w w' : World} {rows : List SecretRow} {r s : SecretRow}
  {k : SecretKey} {tx : TxId} {e : Event master}

/-- The secret of the row has been overwritten. -/
def SecretRow.erased (r : SecretRow) : Bool := r.standing = .consumed || r.standing = .over

/-- A row that still has its secret is paired, and one that lost it has no wrapped data key. -/
structure Good (P : Platform) (master : ℕ → Bytes) (r : SecretRow) : Prop where
  paired : r.erased = false → r.Paired P master
  unmarked : r.text.toList.head? ≠ some mark
  zeroed : r.erased = true → r.envelope.wrappedDek = zeroed

/-- Some process has computed the wrap from the envelope. -/
def Computed (P : Platform) (master : ℕ → Bytes) (k : SecretKey) (read : StoredEnvelope) (wrap : Wrap) : Prop :=
  ∃ (p : Process master) (toVersion : ℕ) (wrapIv : Bytes), rewrapAs P p.env k.owner read toVersion wrapIv = .ok wrap

structure Consistent (P : Platform) (master : ℕ → Bytes) (w : World) : Prop where
  good : ∀ r ∈ w.rows, Good P master r
  nodup : (w.rows.map (·.key)).Nodup
  held : ∀ k tx, w.locks k = some tx → ∃ r ∈ w.rows, r.key = k
  selected : ∀ tx k read wrap, w.stages tx = some (.selected k read wrap) → Computed P master k read wrap
  locked : ∀ tx k read wrap, w.stages tx = some (.locked k read wrap) → Computed P master k read wrap ∧
    w.locks k = some tx ∧ ∀ r ∈ w.rows, r.key = k → r.envelope = read
  refreshing : ∀ tx k, w.stages tx = some (.refreshing k) →
    w.locks k = some tx ∧ ∀ r ∈ w.rows, r.key = k → r.erased = false
  uninstalling : ∀ tx k, w.stages tx = some (.uninstalling k) → w.locks k = some tx

theorem consistent_empty : Consistent P master World.empty where
  good := by simp [World.empty]
  nodup := List.nodup_nil
  held := by simp [World.empty]
  selected := by simp [World.empty]
  locked := by simp [World.empty]
  refreshing := by simp [World.empty]
  uninstalling := by simp [World.empty]

/-! ## Writes -/

/-- Rows that replace those of the world: good ones, with the rows that others have locked as they were. -/
structure Writes (P : Platform) (master : ℕ → Bytes) (w : World) (own : Option TxId) (rows : List SecretRow) : Prop where
  good : ∀ r ∈ rows, Good P master r
  nodup : (rows.map (·.key)).Nodup
  kept : ∀ r ∈ rows, ∀ tx, own ≠ some tx → w.locks r.key = some tx → r ∈ w.rows
  stays : ∀ r ∈ w.rows, w.locks r.key ≠ none → ∃ r' ∈ rows, r'.key = r.key

section Writes
variable {own : Option TxId} {p : SecretRow → Bool} {f : SecretRow → SecretRow} {new : SecretRow}

/-- An update of rows that nobody else has locked, by what keeps them good. -/
theorem Writes.update (h : Consistent P master w) (hkey : ∀ r, (f r).key = r.key)
    (hgood : ∀ r ∈ w.rows, p r = true → Good P master (f r))
    (hlock : ∀ r ∈ w.rows, p r = true → ∀ tx, own ≠ some tx → w.locks r.key ≠ some tx) :
    Writes P master w own (updateWhere p f w.rows) where
  good := by
    intro r hr
    rcases mem_updateWhere.mp hr with ⟨s,hs,hp,rfl⟩ | ⟨hr,-⟩
    · exact hgood s hs hp
    · exact h.good r hr
  nodup := by
    rw [map_updateWhere (·.key) (fun s _ _ => hkey s)]
    exact h.nodup
  kept := by
    intro r hr tx hown htx
    rcases mem_updateWhere.mp hr with ⟨s,hs,hp,rfl⟩ | ⟨hr,-⟩
    · rw [hkey] at htx
      exact absurd htx (hlock s hs hp tx hown)
    · exact hr
  stays := by
    intro r hr _
    by_cases hp : p r = true
    · exact ⟨f r,mem_updateWhere.mpr (Or.inl ⟨r,hr,hp,rfl⟩),hkey r⟩
    · exact ⟨r,mem_updateWhere.mpr (Or.inr ⟨hr,by simpa using hp⟩),rfl⟩

/-- The rows as they are. -/
theorem Writes.refl (h : Consistent P master w) : Writes P master w own w.rows where
  good := h.good
  nodup := h.nodup
  kept := fun _ hr _ _ _ => hr
  stays := fun r hr _ => ⟨r,hr,rfl⟩

/-- Rows that nobody has locked can go. -/
theorem Writes.filter (h : Consistent P master w) (hlock : ∀ r ∈ w.rows, p r = false → w.locks r.key = none) :
    Writes P master w own (w.rows.filter p) where
  good := fun r hr => h.good r (List.mem_of_mem_filter hr)
  nodup := (h.nodup).sublist (List.filter_sublist.map _)
  kept := fun r hr _ _ _ => List.mem_of_mem_filter hr
  stays := by
    intro r hr hlocked
    cases hp : p r with
    | true => exact ⟨r,List.mem_filter.mpr ⟨hr,hp⟩,rfl⟩
    | false => exact absurd (hlock r hr hp) hlocked

/-- A new row under a fresh key. -/
theorem Writes.insert (hw : Writes P master w own rows) (h : Consistent P master w) (hgood : Good P master new)
    (hfresh : ∀ r ∈ w.rows, r.key ≠ new.key) (hkeys : ∀ r ∈ rows, ∃ s ∈ w.rows, s.key = r.key) :
    Writes P master w own (rows ++ [new]) where
  good := by
    intro r hr
    rcases List.mem_append.mp hr with hr | hr
    · exact hw.good r hr
    · obtain rfl := List.mem_singleton.mp hr
      exact hgood
  nodup := by
    rw [List.map_append, List.nodup_append]
    refine ⟨hw.nodup,by simp,?_⟩
    intro a ha b hb hab
    obtain ⟨r,hr,rfl⟩ := List.mem_map.mp ha
    obtain ⟨s,hs,hkey⟩ := hkeys r hr
    rw [List.map_singleton, List.mem_singleton] at hb
    exact hfresh s hs (by rw [hkey, hab, hb])
  kept := by
    intro r hr tx hown htx
    rcases List.mem_append.mp hr with hr | hr
    · exact hw.kept r hr tx hown htx
    · obtain rfl := List.mem_singleton.mp hr
      obtain ⟨s,hs,hkey⟩ := h.held _ tx htx
      exact absurd hkey (hfresh s hs)
  stays := by
    intro r hr hlocked
    obtain ⟨r',hr',hkey⟩ := hw.stays r hr hlocked
    exact ⟨r',List.mem_append_left _ hr',hkey⟩

theorem key_of_update (hkey : ∀ r, (f r).key = r.key) : ∀ r ∈ updateWhere p f w.rows, ∃ s ∈ w.rows, s.key = r.key := by
  intro r hr
  rcases mem_updateWhere.mp hr with ⟨s,hs,-,rfl⟩ | ⟨hr,-⟩
  · exact ⟨s,hs,(hkey s).symm⟩
  · exact ⟨r,hr,rfl⟩

theorem key_of_filter : ∀ r ∈ w.rows.filter p, ∃ s ∈ w.rows, s.key = r.key :=
  fun r hr => ⟨r,List.mem_of_mem_filter hr,rfl⟩

/-- A write of a transaction that holds no locks. -/
theorem Consistent.write (h : Consistent P master w) (hw : Writes P master w none rows) :
    Consistent P master { w with rows } where
  good := hw.good
  nodup := hw.nodup
  held := by
    intro k tx htx
    obtain ⟨r,hr,rfl⟩ := h.held k tx htx
    exact hw.stays r hr (by rw [show w.locks r.key = some tx from htx]; exact Option.some_ne_none tx)
  selected := h.selected
  locked := by
    intro tx k read wrap hstage
    obtain ⟨hcomputed,hlock,hread⟩ := h.locked tx k read wrap hstage
    refine ⟨hcomputed,hlock,?_⟩
    rintro r hr rfl
    exact hread r (hw.kept r hr tx (by simp) hlock) rfl
  refreshing := by
    intro tx k hstage
    obtain ⟨hlock,herased⟩ := h.refreshing tx k hstage
    refine ⟨hlock,?_⟩
    rintro r hr rfl
    exact herased r (hw.kept r hr tx (by simp) hlock) rfl
  uninstalling := h.uninstalling

theorem close_stages {tx' : TxId} {stage : Stage} (h : (w.close tx rows).stages tx' = some stage) :
    tx' ≠ tx ∧ w.stages tx' = some stage := by
  simp only [World.close, Function.update_apply] at h
  split at h
  · cases h
  · exact ⟨by assumption,h⟩

theorem close_locks {tx' : TxId} (hne : tx' ≠ tx) (h : w.locks k = some tx') : (w.close tx rows).locks k = some tx' := by
  simp only [World.close, h, Option.some.injEq, hne, if_false]

theorem of_close_locks {tx' : TxId} (h : (w.close tx rows).locks k = some tx') : w.locks k = some tx' := by
  simp only [World.close] at h
  split at h
  · cases h
  · exact h

/-- The last writes of a transaction. -/
theorem Consistent.close (h : Consistent P master w) (hw : Writes P master w (some tx) rows) :
    Consistent P master (w.close tx rows) where
  good := hw.good
  nodup := hw.nodup
  held := by
    intro k tx' hlock
    obtain ⟨r,hr,rfl⟩ := h.held k tx' (of_close_locks hlock)
    exact hw.stays r hr (by rw [of_close_locks hlock]; exact Option.some_ne_none tx')
  selected := fun tx' k read wrap hstage => h.selected tx' k read wrap (close_stages hstage).2
  locked := by
    intro tx' k read wrap hstage
    obtain ⟨hne,hstage⟩ := close_stages hstage
    obtain ⟨hcomputed,hlock,hread⟩ := h.locked tx' k read wrap hstage
    refine ⟨hcomputed,close_locks hne hlock,?_⟩
    rintro r hr rfl
    exact hread r (hw.kept r hr tx' (fun heq => hne (Option.some.inj heq).symm) hlock) rfl
  refreshing := by
    intro tx' k hstage
    obtain ⟨hne,hstage⟩ := close_stages hstage
    obtain ⟨hlock,herased⟩ := h.refreshing tx' k hstage
    refine ⟨close_locks hne hlock,?_⟩
    rintro r hr rfl
    exact herased r (hw.kept r hr tx' (fun heq => hne (Option.some.inj heq).symm) hlock) rfl
  uninstalling := by
    intro tx' k hstage
    obtain ⟨hne,hstage⟩ := close_stages hstage
    exact close_locks hne (h.uninstalling tx' k hstage)

end Writes

/-! ## Stages -/

/-- What is asked of a stage that a transaction enters without a lock. -/
def Stage.open (P : Platform) (master : ℕ → Bytes) : Stage → Prop
  | .selected k read wrap => Computed P master k read wrap
  | .removing _ | .disconnecting _ => True
  | _ => False

theorem Consistent.enter {stage : Stage} (h : Consistent P master w) (hopen : stage.open P master) :
    Consistent P master { w with stages := Function.update w.stages tx (some stage) } where
  good := h.good
  nodup := h.nodup
  held := h.held
  selected := by
    intro tx' k read wrap hstage
    simp only [Function.update_apply] at hstage
    split at hstage
    · obtain rfl := Option.some.inj hstage
      exact hopen
    · exact h.selected tx' k read wrap hstage
  locked := by
    intro tx' k read wrap hstage
    simp only [Function.update_apply] at hstage
    split at hstage
    · obtain rfl := Option.some.inj hstage
      exact hopen.elim
    · exact h.locked tx' k read wrap hstage
  refreshing := by
    intro tx' k hstage
    simp only [Function.update_apply] at hstage
    split at hstage
    · obtain rfl := Option.some.inj hstage
      exact hopen.elim
    · exact h.refreshing tx' k hstage
  uninstalling := by
    intro tx' k hstage
    simp only [Function.update_apply] at hstage
    split at hstage
    · obtain rfl := Option.some.inj hstage
      exact hopen.elim
    · exact h.uninstalling tx' k hstage

/-- What is asked of a stage that a transaction enters with the lock of the row `k`. -/
def Stage.holding (P : Platform) (master : ℕ → Bytes) (k : SecretKey) (r : SecretRow) : Stage → Prop
  | .locked k' read wrap => k' = k ∧ Computed P master k read wrap ∧ r.envelope = read
  | .refreshing k' => k' = k ∧ r.erased = false
  | .uninstalling k' => k' = k
  | _ => False

theorem hold_locks {stage : Stage} {k' : SecretKey} {tx' : TxId} (hfree : w.locks k = none)
    (hlock : w.locks k' = some tx') : (w.hold tx k stage).locks k' = some tx' := by
  have hne : k' ≠ k := by
    rintro rfl
    rw [hfree] at hlock
    cases hlock
  simp only [World.hold, Function.update_apply, if_neg hne, hlock]

theorem Consistent.hold {stage : Stage} (h : Consistent P master w) (hfree : w.locks k = none) (hr : r ∈ w.rows)
    (hkey : r.key = k) (hholding : stage.holding P master k r) : Consistent P master (w.hold tx k stage) := by
  have hown : (w.hold tx k stage).locks k = some tx := by simp [World.hold]
  have honly : ∀ s ∈ w.rows, s.key = k → s = r := fun s hs hs' =>
    List.inj_on_of_nodup_map h.nodup hs hr (hs'.trans hkey.symm)
  have hcases : ∀ tx' stage', (w.hold tx k stage).stages tx' = some stage' →
      (tx' = tx ∧ stage' = stage) ∨ w.stages tx' = some stage' := by
    intro tx' stage' hstage
    simp only [World.hold, Function.update_apply] at hstage
    split at hstage
    · exact Or.inl ⟨by assumption,(Option.some.inj hstage).symm⟩
    · exact Or.inr hstage
  constructor
  · exact h.good
  · exact h.nodup
  · intro k' tx' hlock
    by_cases hk : k' = k
    · exact ⟨r,hr,hkey.trans hk.symm⟩
    · simp only [World.hold, Function.update_apply, if_neg hk] at hlock
      exact h.held k' tx' hlock
  · intro tx' k' read wrap hstage
    rcases hcases tx' _ hstage with ⟨-,rfl⟩ | hstage
    · exact hholding.elim
    · exact h.selected tx' k' read wrap hstage
  · intro tx' k' read wrap hstage
    rcases hcases tx' _ hstage with ⟨rfl,rfl⟩ | hstage
    · obtain ⟨rfl,hcomputed,hread⟩ := hholding
      refine ⟨hcomputed,hown,?_⟩
      intro s hs hs'
      rw [honly s hs hs', hread]
    · obtain ⟨hcomputed,hlock,hread⟩ := h.locked tx' k' read wrap hstage
      exact ⟨hcomputed,hold_locks hfree hlock,hread⟩
  · intro tx' k' hstage
    rcases hcases tx' _ hstage with ⟨rfl,rfl⟩ | hstage
    · obtain ⟨rfl,herased⟩ := hholding
      refine ⟨hown,?_⟩
      intro s hs hs'
      rw [honly s hs hs', herased]
    · obtain ⟨hlock,herased⟩ := h.refreshing tx' k' hstage
      exact ⟨hold_locks hfree hlock,herased⟩
  · intro tx' k' hstage
    rcases hcases tx' _ hstage with ⟨rfl,rfl⟩ | hstage
    · obtain rfl := hholding
      exact hown
    · exact hold_locks hfree (h.uninstalling tx' k' hstage)

/-! ## Good rows -/

/-- No data key comes out of the byte that overwrites a wrapped key. -/
def ZeroFails (P : Platform) : Prop := ∀ key iv aad, P.aead.decrypt key iv aad zeroed = none

theorem good_sealed {p : Process master} {k : SecretKey} {slackInstallKey : String} {t : Plaintext} {rand : Randomness}
    {envelope : StoredEnvelope} (h : sealAs P p.env k.owner t.text rand = .ok envelope) :
    Good P master (sealedRow k slackInstallKey envelope t.text) where
  paired := fun _ => paired_of_sealed (r := sealedRow k slackInstallKey envelope t.text) h
  unmarked := t.unmarked
  zeroed := fun herased => absurd herased (by simp [SecretRow.erased, sealedRow])

theorem Good.zero {standing : Standing} (h : Good P master r) (hs : (r.zero standing).erased = true) :
    Good P master (r.zero standing) where
  paired := fun herased => absurd (hs.symm.trans herased) (by simp)
  unmarked := h.unmarked
  zeroed := fun _ => rfl

theorem Good.zeroAll (h : Good P master r) : Good P master r.zeroAll where
  paired := fun herased => absurd herased (by simp [SecretRow.erased, SecretRow.zeroAll])
  unmarked := h.unmarked
  zeroed := fun _ => rfl

/-- A standing that keeps the secret, or keeps it away. -/
theorem Good.moved {standing : Standing} (h : Good P master r)
    (hs : ({ r with standing } : SecretRow).erased = r.erased) : Good P master { r with standing } where
  paired := fun herased => h.paired (hs.symm.trans herased)
  unmarked := h.unmarked
  zeroed := fun herased => h.zeroed (hs.symm.trans herased)

/-- The wrap of the envelope that a row has keeps the row good. -/
theorem Good.rewrapped {wrap : Wrap} (hzero : ZeroFails P) (h : Good P master r)
    (hcomputed : Computed P master r.key r.envelope wrap) : Good P master (r.rewrapped wrap) := by
  obtain ⟨p,toVersion,wrapIv,hwrap⟩ := hcomputed
  cases herased : r.erased with
  | false =>
    exact ⟨fun _ => (h.paired herased).rewrapped hwrap,h.unmarked,fun h' => absurd (herased.symm.trans h') (by simp)⟩
  | true =>
    rw [rewrapAs_eq] at hwrap
    simp only [rewrapUnder, bind, Except.bind, aesDecrypt, h.zeroed herased, hzero _ _ _] at hwrap
    split at hwrap <;> cases hwrap

theorem Good.unusable (hzero : ZeroFails P) (h : Good P master r) (herased : r.erased = true) : r.Unusable P := by
  intro kek
  rw [h.zeroed herased]
  exact hzero _ _ _

/-! ## Steps -/

section Steps
variable {α β : Type}

theorem guard_bind {c : Prop} [Decidable c] {f : Unit → Option α} {a : α} :
    (guard c >>= f) = some a ↔ c ∧ f () = some a := by
  by_cases hc : c <;> simp [guard, hc]

theorem bind_some {x : Option β} {f : β → Option α} {a : α} : (x >>= f) = some a ↔ ∃ b, x = some b ∧ f b = some a :=
  Option.bind_eq_some_iff

theorem toOption_some {x : Outcome α} {a : α} : x.toOption = some a ↔ x = .ok a := by
  cases x <;> simp [Except.toOption]

theorem free_locks {p : SecretRow → Bool} (h : w.free p = true) (hr : r ∈ w.rows) (hp : p r = true) :
    w.locks r.key = none := by
  have hfree := List.all_eq_true.mp h r hr
  simpa [hp] using hfree

theorem free_update {own : Option TxId} {p : SecretRow → Bool} (h : w.free p = true) :
    ∀ r ∈ w.rows, p r = true → ∀ tx, own ≠ some tx → w.locks r.key ≠ some tx := by
  intro r hr hp tx _
  rw [free_locks h hr hp]
  exact (Option.some_ne_none tx).symm

theorem fresh_key {k : SecretKey} (h : w.fresh k = true) : ∀ r ∈ w.rows, r.key ≠ k := by
  intro r hr
  simpa using List.all_eq_true.mp h r hr

/-- The rows of one key, which the transaction has locked. -/
theorem own_update (hlock : w.locks k = some tx) :
    ∀ r ∈ w.rows, decide (r.key = k) = true → ∀ tx', some tx ≠ some tx' → w.locks r.key ≠ some tx' := by
  intro r _ hkey tx' hne
  rw [of_decide_eq_true hkey, hlock]
  exact hne

theorem selectProviderKey_some {p : Process master} {toVersion : ℕ} {wrapIv : Bytes}
    (h : selectProviderKey P w tx p k toVersion wrapIv = some w') : ∃ read wrap, Computed P master k read wrap ∧
      w' = { w with stages := Function.update w.stages tx (some (.selected k read wrap)) } := by
  obtain ⟨-,h⟩ := guard_bind.mp h
  obtain ⟨r,-,h⟩ := bind_some.mp h
  obtain ⟨-,h⟩ := guard_bind.mp h
  obtain ⟨wrap,hwrap,h⟩ := bind_some.mp h
  exact ⟨_,_,⟨p,toVersion,wrapIv,toOption_some.mp hwrap⟩,(Option.some.inj h).symm⟩

theorem lockForRewrap_some {p : Process master} {toVersion : ℕ} {wrapIv : Bytes}
    (h : lockForRewrap P w tx p k toVersion wrapIv = some w') : ∃ r wrap, r ∈ w.rows ∧ r.key = k ∧ w.locks k = none ∧
      Computed P master k r.envelope wrap ∧ w' = w.hold tx k (.locked k r.envelope wrap) := by
  obtain ⟨hguard,h⟩ := guard_bind.mp h
  obtain ⟨r,hr,h⟩ := bind_some.mp h
  obtain ⟨-,h⟩ := guard_bind.mp h
  obtain ⟨wrap,hwrap,h⟩ := bind_some.mp h
  obtain ⟨hmem,hkey⟩ := selectForRewrap_mem hr
  exact ⟨r,wrap,hmem,hkey,hguard.2.2,⟨p,toVersion,wrapIv,toOption_some.mp hwrap⟩,(Option.some.inj h).symm⟩

/-- The wrap that a re-wrap writes fits the rows that its update matches. -/
theorem Writes.rewrapped {read : StoredEnvelope} {wrap : Wrap} (hzero : ZeroFails P) (h : Consistent P master w)
    (hcomputed : Computed P master k read wrap)
    (hread : ∀ r ∈ w.rows, r.key = k → r.envelope.kekVersion = read.kekVersion → r.envelope = read)
    (hlock : ∀ r ∈ w.rows, matchesRewrap k read.kekVersion r = true → ∀ tx', some tx ≠ some tx' → w.locks r.key ≠ some tx') :
    Writes P master w (some tx) (updateRewrapped w.rows k read.kekVersion wrap) := by
  refine Writes.update h (fun _ => rfl) ?_ hlock
  intro r hr hmatch
  simp only [matchesRewrap, Bool.and_eq_true, decide_eq_true_eq] at hmatch
  refine (h.good r hr).rewrapped hzero ?_
  rw [hread r hr hmatch.1.1 hmatch.1.2, hmatch.1.1]
  exact hcomputed

theorem Consistent.updateProviderKey (hzero : ZeroFails P) (h : Consistent P master w)
    (hread : ∀ k read wrap, w.stages tx = some (.selected k read wrap) → ∀ r ∈ w.rows, r.key = k →
      r.envelope.kekVersion = read.kekVersion → r.envelope = read)
    (hstep : updateProviderKey w tx = some w') : Consistent P master w' := by
  unfold Secrets.updateProviderKey at hstep
  split at hstep
  · rename_i k read wrap hstage
    split at hstep
    · rename_i hfree
      obtain rfl := Option.some.inj hstep
      exact h.close (Writes.rewrapped hzero h (h.selected tx k read wrap hstage) (hread k read wrap hstage)
        (free_update hfree))
    · cases hstep
  · cases hstep

theorem Consistent.updateLocked (hzero : ZeroFails P) (h : Consistent P master w)
    (hstep : updateLocked w tx = some w') : Consistent P master w' := by
  unfold Secrets.updateLocked at hstep
  split at hstep
  · rename_i k read wrap hstage
    obtain rfl := Option.some.inj hstep
    obtain ⟨hcomputed,hlock,hread⟩ := h.locked tx k read wrap hstage
    refine h.close (Writes.rewrapped hzero h hcomputed (fun r hr hkey _ => hread r hr hkey) ?_)
    intro r hr hmatch
    refine own_update hlock r hr ?_
    simp only [matchesRewrap, Bool.and_eq_true] at hmatch
    exact hmatch.1.1
  · cases hstep

theorem Consistent.lockForRefresh (h : Consistent P master w) (hstep : lockForRefresh w tx k = some w') :
    Consistent P master w' := by
  obtain ⟨hguard,hstep⟩ := guard_bind.mp hstep
  obtain ⟨r,hr,hstep⟩ := bind_some.mp hstep
  obtain ⟨hcurrent,hstep⟩ := guard_bind.mp hstep
  obtain rfl := Option.some.inj hstep
  obtain ⟨hmem,hkey⟩ := rowOf_mem hr
  exact h.hold hguard.2.2 hmem hkey ⟨rfl,by simp [SecretRow.erased, hcurrent]⟩

theorem Consistent.storeRefreshed {p : Process master} {next : Plaintext} {rand : Randomness} (h : Consistent P master w)
    (hstep : storeRefreshed P w tx p next rand = some w') : Consistent P master w' := by
  unfold Secrets.storeRefreshed at hstep
  split at hstep
  · rename_i k hstage
    obtain ⟨envelope,hsealed,hstep⟩ := bind_some.mp hstep
    obtain rfl := Option.some.inj hstep
    obtain ⟨hlock,herased⟩ := h.refreshing tx k hstage
    refine h.close (Writes.update h (fun _ => rfl) ?_ (own_update hlock))
    intro r hr hkey
    have hk : r.key = k := of_decide_eq_true hkey
    have hpaired : ({ r with envelope, text := next.text } : SecretRow).Paired P master :=
      paired_of_sealed (r := { r with envelope, text := next.text }) (by rw [← toOption_some, ← hsealed, ← hk])
    exact ⟨fun _ => hpaired,next.unmarked,fun h' => absurd ((herased r hr hk).symm.trans h') (by simp)⟩
  · cases hstep

theorem Consistent.addProviderKey {p : Process master} {workspaceId id : Uuid} {plaintext : Plaintext} {rand : Randomness}
    (h : Consistent P master w) (hstep : addProviderKey P w p workspaceId id plaintext rand = some w') :
    Consistent P master w' := by
  obtain ⟨hfresh,hstep⟩ := guard_bind.mp hstep
  obtain ⟨envelope,hsealed,hstep⟩ := bind_some.mp hstep
  obtain rfl := Option.some.inj hstep
  exact h.write ((Writes.refl h).insert h (good_sealed (toOption_some.mp hsealed)) (fresh_key hfresh)
    (fun r hr => ⟨r,hr,rfl⟩))

theorem Consistent.readForRemoval (h : Consistent P master w) (hstep : readForRemoval w tx k = some w') :
    Consistent P master w' := by
  obtain ⟨-,hstep⟩ := guard_bind.mp hstep
  obtain ⟨r,-,hstep⟩ := bind_some.mp hstep
  obtain ⟨-,hstep⟩ := guard_bind.mp hstep
  obtain rfl := Option.some.inj hstep
  exact h.enter trivial

/-- Rows that nobody has locked are overwritten. -/
theorem Writes.overwrite {own : Option TxId} {p : SecretRow → Bool} (h : Consistent P master w) (hfree : w.free p = true) :
    Writes P master w own (updateWhere p (·.zero .over) w.rows) :=
  Writes.update h (fun _ => rfl) (fun r hr _ => (h.good r hr).zero rfl) (free_update hfree)

theorem Consistent.removeProviderKey (h : Consistent P master w) (hstep : removeProviderKey w tx = some w') :
    Consistent P master w' := by
  unfold Secrets.removeProviderKey at hstep
  split at hstep
  · split at hstep
    · rename_i hfree
      obtain rfl := Option.some.inj hstep
      exact h.close (Writes.overwrite h hfree)
    · cases hstep
  · cases hstep

theorem Consistent.rotateProviderKey {p : Process master} {id : Uuid} {plaintext : Plaintext} {rand : Randomness}
    (h : Consistent P master w) (hstep : rotateProviderKey P w tx p id plaintext rand = some w') :
    Consistent P master w' := by
  unfold Secrets.rotateProviderKey at hstep
  split at hstep
  · obtain ⟨hguard,hstep⟩ := guard_bind.mp hstep
    obtain ⟨envelope,hsealed,hstep⟩ := bind_some.mp hstep
    obtain rfl := Option.some.inj hstep
    exact h.close ((Writes.overwrite h hguard.1).insert h (good_sealed (toOption_some.mp hsealed)) (fresh_key hguard.2)
      (key_of_update (fun _ => rfl)))
  · cases hstep

theorem Consistent.addProviderOAuthConnection {p : Process master} {workspaceId id : Uuid} {plaintext : Plaintext}
    {rand : Randomness} {replaces : Option Uuid} (h : Consistent P master w)
    (hstep : addProviderOAuthConnection P w p workspaceId id plaintext rand replaces = some w') :
    Consistent P master w' := by
  obtain ⟨hguard,hstep⟩ := guard_bind.mp hstep
  obtain ⟨envelope,hsealed,hstep⟩ := bind_some.mp hstep
  obtain rfl := Option.some.inj hstep
  exact h.write ((Writes.overwrite h hguard.2.1).insert h (good_sealed (toOption_some.mp hsealed)) (fresh_key hguard.1)
    (key_of_update (fun _ => rfl)))

theorem replaced_key {slackInstallKey : String} : (replaced slackInstallKey r).key = r.key := by
  unfold replaced
  split <;> rfl

theorem Good.replaced {slackInstallKey : String} (h : Good P master r) (hlive : r.live = true) :
    Good P master (replaced slackInstallKey r) := by
  unfold Secrets.replaced
  split
  · exact h.zeroAll
  · refine h.moved ?_
    have herased : r.erased = false := by
      simp only [SecretRow.live, Bool.or_eq_true, decide_eq_true_eq] at hlive
      rcases hlive with hs | hs <;> simp [SecretRow.erased, hs]
    rw [herased]
    rfl

/-- Installations that nobody has locked give way to a new one. -/
theorem Writes.replace {p : SecretRow → Bool} (slackInstallKey : String) (h : Consistent P master w)
    (hlive : ∀ r ∈ w.rows, p r = true → r.live = true) (hfree : w.free p = true) :
    Writes P master w none (updateWhere p (Secrets.replaced slackInstallKey) w.rows) :=
  Writes.update h (fun _ => replaced_key) (fun r hr hp => (h.good r hr).replaced (hlive r hr hp)) (free_update hfree)

theorem Consistent.storeSlackInstallation {p : Process master} {workspaceId id : Uuid} {slackInstallKey : String}
    {token : Plaintext} {rand : Randomness} (h : Consistent P master w)
    (hstep : storeSlackInstallation P w p workspaceId id slackInstallKey token rand = some w') :
    Consistent P master w' := by
  obtain ⟨hguard,hstep⟩ := guard_bind.mp hstep
  obtain ⟨envelope,hsealed,hstep⟩ := bind_some.mp hstep
  obtain rfl := Option.some.inj hstep
  have hupdate := Writes.replace slackInstallKey h (fun r _ hp => (Bool.and_eq_true_iff.mp hp).2) hguard.2
  exact h.write (hupdate.insert h (good_sealed (toOption_some.mp hsealed)) (fresh_key hguard.1)
    (key_of_update (fun _ => replaced_key)))

theorem Consistent.readForDisconnect (h : Consistent P master w) (hstep : readForDisconnect w tx k = some w') :
    Consistent P master w' := by
  obtain ⟨-,hstep⟩ := guard_bind.mp hstep
  obtain ⟨r,-,hstep⟩ := bind_some.mp hstep
  obtain ⟨-,hstep⟩ := guard_bind.mp hstep
  obtain rfl := Option.some.inj hstep
  exact h.enter trivial

theorem Consistent.disconnectSlack (h : Consistent P master w)
    (herased : ∀ k, w.stages tx = some (.disconnecting k) → ∀ r ∈ w.rows, r.key = k → r.erased = false)
    (hstep : disconnectSlack w tx = some w') : Consistent P master w' := by
  unfold Secrets.disconnectSlack at hstep
  split at hstep
  · rename_i k hstage
    split at hstep
    · rename_i hfree
      obtain rfl := Option.some.inj hstep
      refine h.close (Writes.update h (fun _ => rfl) ?_ (free_update hfree))
      intro r hr hkey
      refine (h.good r hr).moved ?_
      rw [herased k hstage r hr (of_decide_eq_true hkey)]
      rfl
    · cases hstep
  · cases hstep

theorem Consistent.lockForUninstall (h : Consistent P master w) (hstep : lockForUninstall w tx k = some w') :
    Consistent P master w' := by
  obtain ⟨hguard,hstep⟩ := guard_bind.mp hstep
  obtain ⟨r,hr,hstep⟩ := bind_some.mp hstep
  obtain ⟨-,hstep⟩ := guard_bind.mp hstep
  obtain rfl := Option.some.inj hstep
  obtain ⟨hmem,hkey⟩ := rowOf_mem hr
  exact h.hold hguard.2.2 hmem hkey rfl

theorem Consistent.uninstalled (h : Consistent P master w) (hstep : uninstalled w tx = some w') :
    Consistent P master w' := by
  unfold Secrets.uninstalled at hstep
  split at hstep
  · rename_i k hstage
    obtain rfl := Option.some.inj hstep
    exact h.close (Writes.update h (fun _ => rfl) (fun r hr _ => (h.good r hr).zeroAll)
      (own_update (h.uninstalling tx k hstage)))
  · cases hstep

theorem Consistent.startCloudConnection {p : Process master} {workspaceId id : Uuid} {attempt : Plaintext}
    {rand : Randomness} (h : Consistent P master w)
    (hstep : startCloudConnection P w p workspaceId id attempt rand = some w') : Consistent P master w' := by
  obtain ⟨hguard,hstep⟩ := guard_bind.mp hstep
  obtain ⟨envelope,hsealed,hstep⟩ := bind_some.mp hstep
  obtain rfl := Option.some.inj hstep
  exact h.write ((Writes.overwrite h hguard.2).insert h (good_sealed (toOption_some.mp hsealed)) (fresh_key hguard.1)
    (key_of_update (fun _ => rfl)))

theorem Consistent.consumeAttempt (h : Consistent P master w) (hstep : consumeAttempt w k = some w') :
    Consistent P master w' := by
  obtain ⟨hguard,hstep⟩ := guard_bind.mp hstep
  obtain ⟨r,-,hstep⟩ := bind_some.mp hstep
  obtain ⟨-,hstep⟩ := guard_bind.mp hstep
  obtain rfl := Option.some.inj hstep
  exact h.write (Writes.update h (fun _ => rfl) (fun r hr _ => (h.good r hr).zero rfl) (free_update hguard.2))

theorem Consistent.saveCloudConnection {p : Process master} {workspaceId id : Uuid} {credential : Plaintext}
    {rand : Randomness} (h : Consistent P master w)
    (hstep : saveCloudConnection P w p workspaceId id credential rand = some w') : Consistent P master w' := by
  obtain ⟨hguard,hstep⟩ := guard_bind.mp hstep
  obtain ⟨envelope,hsealed,hstep⟩ := bind_some.mp hstep
  obtain rfl := Option.some.inj hstep
  have hfilter : Writes P master w none (w.rows.filter fun r => !ofWorkspace .cloudConnections workspaceId r) :=
    Writes.filter h (fun r hr hp => free_locks hguard.2 hr (by simpa using hp))
  exact h.write (hfilter.insert h (good_sealed (toOption_some.mp hsealed)) (fresh_key hguard.1) key_of_filter)

/-- An attempt whose status moves and whose secret does not. -/
theorem Consistent.moveStanding {old new : Standing} (h : Consistent P master w)
    (hmove : ∀ r : SecretRow, r.standing = old → ({ r with standing := new } : SecretRow).erased = r.erased)
    (hfree : w.free (fun r => r.key = k) = true) :
    Consistent P master { w with rows := moveAttempt w.rows k old new } := by
  refine h.write (Writes.update h (fun _ => rfl) ?_ ?_)
  · intro r hr hp
    simp only [Bool.and_eq_true, decide_eq_true_eq] at hp
    exact (h.good r hr).moved (hmove r hp.2)
  · intro r hr hp
    exact free_update hfree r hr (Bool.and_eq_true_iff.mp hp).1

theorem Consistent.settleAttempt (h : Consistent P master w) (hstep : settleAttempt w k = some w') :
    Consistent P master w' := by
  obtain ⟨hguard,hstep⟩ := guard_bind.mp hstep
  obtain rfl := Option.some.inj hstep
  exact h.moveStanding (fun r hr => by simp [SecretRow.erased, hr]) hguard.2

theorem Consistent.expireAttempt (h : Consistent P master w) (hstep : expireAttempt w k = some w') :
    Consistent P master w' := by
  obtain ⟨hguard,hstep⟩ := guard_bind.mp hstep
  obtain rfl := Option.some.inj hstep
  exact h.moveStanding (fun r hr => by simp [SecretRow.erased, hr]) hguard.2

end Steps

/-- The `UPDATE` of `rewrapProviderKey` meets the envelope that was read, or another version, and
`disconnectSlack` meets an installation that has not been overwritten since it was read. -/
def Undisturbed (w : World) : Event master → Prop
  | .updateProviderKey tx => ∀ k read wrap, w.stages tx = some (.selected k read wrap) →
    ∀ r ∈ w.rows, r.key = k → r.envelope.kekVersion = read.kekVersion → r.envelope = read
  | .disconnectSlack tx => ∀ k, w.stages tx = some (.disconnecting k) → ∀ r ∈ w.rows, r.key = k → r.erased = false
  | _ => True

theorem Consistent.step (hzero : ZeroFails P) (h : Consistent P master w) (hundisturbed : Undisturbed w e)
    (hstep : Steps P w e w') : Consistent P master w' := by
  cases e with
  | selectProviderKey tx p k toVersion wrapIv =>
    obtain ⟨read,wrap,hcomputed,rfl⟩ := selectProviderKey_some hstep
    exact h.enter hcomputed
  | updateProviderKey tx => exact h.updateProviderKey hzero hundisturbed hstep
  | lockForRewrap tx p k toVersion wrapIv =>
    obtain ⟨r,wrap,hr,hkey,hfree,hcomputed,rfl⟩ := lockForRewrap_some hstep
    exact h.hold hfree hr hkey ⟨rfl,hcomputed,rfl⟩
  | updateLocked tx => exact h.updateLocked hzero hstep
  | lockForRefresh tx k => exact h.lockForRefresh hstep
  | storeRefreshed tx p next rand => exact h.storeRefreshed hstep
  | addProviderKey p workspaceId id plaintext rand => exact h.addProviderKey hstep
  | readForRemoval tx k => exact h.readForRemoval hstep
  | removeProviderKey tx => exact h.removeProviderKey hstep
  | rotateProviderKey tx p id plaintext rand => exact h.rotateProviderKey hstep
  | addProviderOAuthConnection p workspaceId id plaintext rand replaces => exact h.addProviderOAuthConnection hstep
  | storeSlackInstallation p workspaceId id slackInstallKey token rand => exact h.storeSlackInstallation hstep
  | readForDisconnect tx k => exact h.readForDisconnect hstep
  | disconnectSlack tx => exact h.disconnectSlack hundisturbed hstep
  | lockForUninstall tx k => exact h.lockForUninstall hstep
  | uninstalled tx => exact h.uninstalled hstep
  | startCloudConnection p workspaceId id attempt rand => exact h.startCloudConnection hstep
  | consumeAttempt k => exact h.consumeAttempt hstep
  | saveCloudConnection p workspaceId id credential rand => exact h.saveCloudConnection hstep
  | settleAttempt k => exact h.settleAttempt hstep
  | expireAttempt k => exact h.expireAttempt hstep
  | rollback tx =>
    obtain rfl := Option.some.inj hstep
    exact h.close (Writes.refl h)

/-- After every step of an undisturbed run, each row in use is paired and opens to the last text written
to it, and an overwritten row has no usable data key. -/
theorem rows_kept (P : Platform) (master : ℕ → Bytes) (hzero : ZeroFails P) {es : List (Event master)}
    (hrun : Run (Guarded (Steps P) Undisturbed) World.empty es w) :
    ∀ r ∈ w.rows, (r.live = true → r.Paired P master ∧ r.Opens P master) ∧ (r.erased = true → r.Unusable P) := by
  have h : Consistent P master w :=
    hrun.invariant consistent_empty (fun _ _ _ h hstep => h.step hzero hstep.1 hstep.2)
  intro r hr
  refine ⟨?_,(h.good r hr).unusable hzero⟩
  intro hlive
  have herased : r.erased = false := by
    simp only [SecretRow.live, Bool.or_eq_true, decide_eq_true_eq] at hlive
    rcases hlive with hs | hs <;> simp [SecretRow.erased, hs]
  have hpaired := (h.good r hr).paired herased
  exact ⟨hpaired,hpaired.opens (h.good r hr).unmarked⟩

/-! Runs in which another writer comes between. -/

def otherId : Uuid := ⟨"00000000-0000-4000-8000-000000000003",by decide⟩

def firstText : Plaintext := ⟨"first",by decide⟩

def secondText : Plaintext := ⟨"second",by decide⟩

def otherRandomness : Randomness := ⟨List.replicate 32 5,List.replicate 12 6,List.replicate 12 7,List.length_replicate⟩

theorem zeroFails_sample : ZeroFails samplePlatform := by
  intro key iv aad
  have hbegin : (header key iv aad).isPrefixOf [0] = false := by
    cases key with
    | nil => cases iv <;> rfl
    | cons b key => rfl
  simp only [samplePlatform, Aead.transparent, zeroed, hbegin]
  rfl

/-- A refresh writes under the version that the re-wrap has read. -/
def refreshBetween : List (Event sampleMaster) :=
  [.addProviderKey sampleProcess sampleWorkspace sampleId firstText sampleRandomness,
    .selectProviderKey 1 sampleProcess (providerKey sampleWorkspace sampleId) 2 [1],
    .lockForRefresh 2 (providerKey sampleWorkspace sampleId),
    .storeRefreshed 2 sampleProcess secondText otherRandomness,
    .updateProviderKey 1]

/-- The key is removed between the two statements of the re-wrap. -/
def removalBetween : List (Event sampleMaster) :=
  [.addProviderKey sampleProcess sampleWorkspace sampleId firstText sampleRandomness,
    .selectProviderKey 1 sampleProcess (providerKey sampleWorkspace sampleId) 2 [1],
    .readForRemoval 2 (providerKey sampleWorkspace sampleId),
    .removeProviderKey 2,
    .updateProviderKey 1]

/-- An installation is replaced by one of the same target while an Admin disconnects it. -/
def reconnectionBetween : List (Event sampleMaster) :=
  [.storeSlackInstallation sampleProcess sampleWorkspace sampleId "team:T1" firstText sampleRandomness,
    .readForDisconnect 1 ⟨.slackInstallations,sampleWorkspace,sampleId⟩,
    .storeSlackInstallation sampleProcess sampleWorkspace otherId "team:T1" secondText otherRandomness,
    .disconnectSlack 1]

/-- A row in use that does not open to its text although its master key is there. -/
def unreadable (r : SecretRow) : Bool :=
  r.live && decide (importKek twoKeys r.envelope.kekVersion = .ok (sampleMaster r.envelope.kekVersion)) &&
    decide (openAs samplePlatform twoKeys r.key.owner r.envelope ≠ .ok r.text)

/-- An overwritten row whose data key can be unwrapped. -/
def restored (r : SecretRow) : Bool :=
  r.erased && (samplePlatform.aead.decrypt (sampleMaster r.envelope.kekVersion) r.envelope.wrapIv
    (r.key.owner.wrapAad r.envelope.kekVersion) r.envelope.wrappedDek).isSome

theorem sample_run (es : List (Event sampleMaster)) (bad : SecretRow → Bool)
    (h : ((es.foldlM (apply samplePlatform) World.empty).any fun w => w.rows.any bad) = true) :
    ∃ w, Run (Steps samplePlatform) World.empty es w ∧ ∃ r ∈ w.rows, bad r = true := by
  obtain ⟨w,hw,hbad⟩ := (Option.any_eq_true _ _).mp h
  exact ⟨w,run_of_foldlM hw,List.any_eq_true.mp hbad⟩

theorem not_opens_of_unreadable (h : unreadable r = true) : r.live = true ∧ ¬ r.Opens samplePlatform sampleMaster := by
  simp only [unreadable, Bool.and_eq_true, decide_eq_true_eq] at h
  obtain ⟨⟨hlive,hknown⟩,hopen⟩ := h
  exact ⟨hlive,fun hopens => hopen (hopens sampleProcess ⟨_,hknown⟩)⟩

theorem usable_of_restored (h : restored r = true) : r.erased = true ∧ ¬ r.Unusable samplePlatform := by
  simp only [restored, Bool.and_eq_true] at h
  refine ⟨h.1,fun hunusable => ?_⟩
  rw [hunusable] at h
  exact absurd h.2 (by simp)

/-- An installation is stored and re-wrapped under its lock. -/
def quietRewrap : List (Event sampleMaster) :=
  [.storeSlackInstallation sampleProcess sampleWorkspace sampleId "team:T1" firstText sampleRandomness,
    .lockForRewrap 1 sampleProcess ⟨.slackInstallations,sampleWorkspace,sampleId⟩ 2 [1],
    .updateLocked 1]

theorem run_calm {es : List (Event master)} {w w' : World} (h : Run (Steps P) w es w')
    (hcalm : ∀ e ∈ es, ∀ w, Undisturbed w e) : Run (Guarded (Steps P) Undisturbed) w es w' := by
  induction h with
  | nil w => exact .nil w
  | cons hstep _ ih =>
    exact .cons ⟨hcalm _ List.mem_cons_self _,hstep⟩ (ih fun e he => hcalm e (List.mem_cons_of_mem _ he))

set_option maxRecDepth 8000 in
theorem rows_kept_sample : ∃ w, Run (Steps samplePlatform) World.empty quietRewrap w ∧
    ∀ r ∈ w.rows, (r.live = true → r.Paired samplePlatform sampleMaster ∧ r.Opens samplePlatform sampleMaster) ∧
      (r.erased = true → r.Unusable samplePlatform) := by
  obtain ⟨w,hrun,-⟩ := sample_run quietRewrap (fun r => r.envelope.kekVersion = 2) (by decide)
  refine ⟨w,hrun,rows_kept samplePlatform sampleMaster zeroFails_sample (run_calm hrun ?_)⟩
  intro e he w
  simp only [quietRewrap, List.mem_cons, List.not_mem_nil, or_false] at he
  rcases he with rfl | rfl | rfl <;> trivial

set_option maxRecDepth 8000 in
/-- A refresh or a removal between the two statements of `rewrapProviderKey`, and a disconnection of an
installation that has been replaced, leave rows that the claim excludes. -/
theorem rows_broken :
    (∃ w, Run (Steps samplePlatform) World.empty refreshBetween w ∧
      ∃ r ∈ w.rows, r.live = true ∧ ¬ r.Opens samplePlatform sampleMaster) ∧
    (∃ w, Run (Steps samplePlatform) World.empty removalBetween w ∧
      ∃ r ∈ w.rows, r.erased = true ∧ ¬ r.Unusable samplePlatform) ∧
    ∃ w, Run (Steps samplePlatform) World.empty reconnectionBetween w ∧
      ∃ r ∈ w.rows, r.live = true ∧ ¬ r.Opens samplePlatform sampleMaster := by
  refine ⟨?_,?_,?_⟩
  · obtain ⟨w,hrun,r,hr,hbad⟩ := sample_run refreshBetween unreadable (by decide)
    exact ⟨w,hrun,r,hr,not_opens_of_unreadable hbad⟩
  · obtain ⟨w,hrun,r,hr,hbad⟩ := sample_run removalBetween restored (by decide)
    exact ⟨w,hrun,r,hr,usable_of_restored hbad⟩
  · obtain ⟨w,hrun,r,hr,hbad⟩ := sample_run reconnectionBetween unreadable (by decide)
    exact ⟨w,hrun,r,hr,not_opens_of_unreadable hbad⟩

end HermesEnterprise.Secrets
