import HermesEnterprise.Hubs.Sockets
import Mathlib.Order.Nat

/-! # What a socket hears

A session socket hears its session after the Worker checked, at the upgrade, that the session is its user's. It
hears it while the Worker has, within the time to live, checked the user again: at the upgrade or for a ticket
of the session or of the workspace.
-/
namespace HermesEnterprise.Hubs
open Foundation.Runs

variable {P : Platform} {s s' : State} {e : Event} {k : Socket} {d : Delivery}

def ticketTtlMs : ℕ := ticketTtlSeconds * 1000

/-- The identity of a socket: all of its attachment but the window. -/
def SameSocket (a b : SocketAttachment) : Prop :=
  a.userId = b.userId ∧ a.workspaceId = b.workspaceId ∧ a.sessionId = b.sessionId

/-- The Worker checked the user of a socket at a time: at the upgrade, or for a ticket that matches it. -/
def Checked (s : State) (k : Socket) (m : ℕ) : Prop :=
  m = k.upgradedAt ∨ ∃ t, (t,m) ∈ s.minted ∧ matchesSocket t k.attachment = true

/-- The socket is at the hub that its attachment names, and a check is behind its window. -/
structure Backed (s : State) (k : Socket) : Prop where
  session : ∀ sessionId, k.hub = .session sessionId → k.attachment.sessionId = some sessionId
  workspace : ∀ w, k.hub = .workspace w → k.attachment.sessionId = none ∧ k.attachment.workspaceId = w
  upgraded : k.upgradedAt ≤ s.now
  window : ∃ m, Checked s k m ∧ m ≤ s.now ∧ k.attachment.authorizedUntil ≤ m + ticketTtlMs

/-- A frame that was sent: the hub it came from is the socket's own, the Worker checked the user within the
time to live before it, and a frame of a workspace is for the user. -/
def Heard (s : State) (d : Delivery) : Prop :=
  ∃ k, s.sockets[d.socket]? = some k ∧
    (∃ m, Checked s k m ∧ m ≤ d.time ∧ d.time < m + ticketTtlMs) ∧
    (∀ sessionId, k.hub = .session sessionId →
      k.attachment.sessionId = some sessionId ∧ d.frame.sessionId = some sessionId) ∧
    (∀ w, k.hub = .workspace w → k.attachment.workspaceId = w ∧
      ∃ event, d.frame = .event event ∧ event.workspaceId = w ∧ event.sessionId = none ∧
        ∀ audience ∈ event.audienceUserIds, k.attachment.userId ∈ audience)

theorem matchesSocket_congr {t : HubTicket} {a b : SocketAttachment} (h : SameSocket a b) :
    matchesSocket t a = matchesSocket t b := by
  obtain ⟨hu,hw,hs⟩ := h
  simp only [matchesSocket, hu, hw, hs]

/-- What every event keeps: a socket its place, hub and identity, and the tickets. -/
structure Kept (s s' : State) : Prop where
  now : s.now ≤ s'.now
  minted : ∀ x ∈ s.minted, x ∈ s'.minted
  sockets : ∀ (i : ℕ) (k : Socket), s.sockets[i]? = some k → ∃ k' : Socket, s'.sockets[i]? = some k' ∧ k'.hub = k.hub ∧
    k'.upgradedAt = k.upgradedAt ∧ SameSocket k'.attachment k.attachment

theorem Checked.kept {m : ℕ} {k' : Socket} (h : Checked s k m) (hk : ∀ x ∈ s.minted, x ∈ s'.minted)
    (hu : k'.upgradedAt = k.upgradedAt) (ha : SameSocket k'.attachment k.attachment) : Checked s' k' m := by
  rcases h with h | ⟨t,ht,hm⟩
  · exact .inl (h.trans hu.symm)
  · exact .inr ⟨t,hk _ ht,(matchesSocket_congr ha).trans hm⟩

theorem Heard.kept (h : Heard s d) (hk : Kept s s') : Heard s' d := by
  obtain ⟨k,hs,⟨m,hc,hle,hlt⟩,hsession,hworkspace⟩ := h
  obtain ⟨k',hs',hhub,hup,hsame⟩ := hk.sockets _ k hs
  obtain ⟨hu,hw,hsid⟩ := hsame
  refine ⟨k',hs',⟨m,hc.kept hk.minted hup ⟨hu,hw,hsid⟩,hle,hlt⟩,fun i hi => ?_,fun w hi => ?_⟩
  · obtain ⟨h₁,h₂⟩ := hsession i (hhub ▸ hi)
    exact ⟨hsid.trans h₁,h₂⟩
  · obtain ⟨h₁,ev,h₂,h₃,h₄,h₅⟩ := hworkspace w (hhub ▸ hi)
    exact ⟨hw.trans h₁,ev,h₂,h₃,h₄,fun audience ha => hu ▸ h₅ audience ha⟩

theorem Backed.mono (h : Backed s k) (hnow : s.now ≤ s'.now) (hm : ∀ x ∈ s.minted, x ∈ s'.minted) : Backed s' k := by
  obtain ⟨m,hc,hle,hw⟩ := h.window
  exact ⟨h.session,h.workspace,h.upgraded.trans hnow,m,hc.kept hm rfl ⟨rfl,rfl,rfl⟩,hle.trans hnow,hw⟩

theorem Backed.close (h : Backed s k) : Backed s { k with closed := true } :=
  ⟨h.session,h.workspace,h.upgraded,h.window⟩

/-- Where the sockets, tickets and messages of a reachable state come from. -/
structure Inv (P : Platform) (s : State) : Prop where
  backed : ∀ k ∈ s.sockets, Backed s k
  minted : ∀ x ∈ s.minted, x.2 ≤ s.now ∧ x.1.exp * 1000 ≤ x.2 + ticketTtlMs ∧ P.decode (P.encode x.1) = some x.1
  pending : ∀ p ∈ s.pending, ∃ k, s.sockets[p.socket]? = some k ∧ SameSocket p.attachment k.attachment
  signed : ∀ p ∈ s.pending, ∀ body signature, ticketParts p.ticket = some (body,signature) →
    P.verify body signature = true → ∃ x ∈ s.minted, body = P.encode x.1
  heard : ∀ d ∈ s.sent, Heard s d

theorem inv_initial : Inv P initial := by
  refine ⟨?_,?_,?_,?_,?_⟩ <;> simp [initial]

/-- An event that adds no message and sends nothing keeps the invariant, once its sockets and tickets are
accounted for. -/
theorem Inv.kept (h : Inv P s) (hk : Kept s s') (hb : ∀ k ∈ s'.sockets, Backed s' k)
    (hm : ∀ x ∈ s'.minted, x ∈ s.minted ∨
      (x.2 ≤ s'.now ∧ x.1.exp * 1000 ≤ x.2 + ticketTtlMs ∧ P.decode (P.encode x.1) = some x.1))
    (hp : ∀ p ∈ s'.pending, p ∈ s.pending) (hd : s'.sent = s.sent) : Inv P s' := by
  refine ⟨hb,fun x hx => ?_,fun p hp' => ?_,fun p hp' body signature hparts hv => ?_,fun d hd' => ?_⟩
  · rcases hm x hx with hx | hx
    · obtain ⟨h₁,h₂⟩ := h.minted x hx
      exact ⟨h₁.trans hk.now,h₂⟩
    · exact hx
  · obtain ⟨k,hs,hsame⟩ := h.pending p (hp p hp')
    obtain ⟨k',hs',-,-,hu,hw,hsid⟩ := hk.sockets _ k hs
    exact ⟨k',hs',hsame.1.trans hu.symm,hsame.2.1.trans hw.symm,hsame.2.2.trans hsid.symm⟩
  · obtain ⟨x,hx,hbody⟩ := h.signed p (hp p hp') body signature hparts hv
    exact ⟨x,hk.minted x hx,hbody⟩
  · rw [hd] at hd'
    exact (h.heard d hd').kept hk

theorem Inv.withPending {ps : List Pending} (h : Inv P s) (hp : ∀ p ∈ ps, p ∈ s.pending ∨
    ((∃ k, s.sockets[p.socket]? = some k ∧ SameSocket p.attachment k.attachment) ∧
      ∀ body signature, ticketParts p.ticket = some (body,signature) → P.verify body signature = true →
        ∃ x ∈ s.minted, body = P.encode x.1)) : Inv P { s with pending := ps } := by
  have hk : Kept s { s with pending := ps } := ⟨le_rfl,fun _ h => h,fun _ k h => ⟨k,h,rfl,rfl,rfl,rfl,rfl⟩⟩
  refine ⟨fun k hk' => (h.backed k hk').mono le_rfl hk.minted,h.minted,fun p hp' => ?_,fun p hp' => ?_,
    fun d hd => (h.heard d hd).kept hk⟩
  · rcases hp p hp' with hp' | hp'
    · exact h.pending p hp'
    · exact hp'.1
  · rcases hp p hp' with hp' | hp'
    · exact h.signed p hp'
    · exact hp'.2

section Sockets
variable {i : ℕ}

theorem kept_append {new : Socket} (s' : State) (hs : s'.sockets = s.sockets ++ [new]) (hn : s'.now = s.now)
    (hm : s'.minted = s.minted) : Kept s s' := by
  refine ⟨hn.ge,fun x hx => hm ▸ hx,fun j k hj => ⟨k,?_,rfl,rfl,rfl,rfl,rfl⟩⟩
  rw [hs, List.getElem?_append_left (List.getElem?_eq_some_iff.1 hj).1]
  exact hj

theorem kept_map {f : Socket → Socket} (s' : State) (hs : s'.sockets = s.sockets.map f) (hn : s'.now = s.now)
    (hm : s'.minted = s.minted) (hf : ∀ k, (f k).hub = k.hub ∧ (f k).upgradedAt = k.upgradedAt ∧
      SameSocket (f k).attachment k.attachment) : Kept s s' := by
  refine ⟨hn.ge,fun x hx => hm ▸ hx,fun j k hj => ⟨f k,?_,hf k⟩⟩
  rw [hs, List.getElem?_map, hj]
  rfl

theorem kept_set {old new : Socket} (s' : State) (hold : s.sockets[i]? = some old)
    (hs : s'.sockets = s.sockets.set i new) (hn : s'.now = s.now) (hm : s'.minted = s.minted)
    (hf : new.hub = old.hub ∧ new.upgradedAt = old.upgradedAt ∧ SameSocket new.attachment old.attachment) :
    Kept s s' := by
  refine ⟨hn.ge,fun x hx => hm ▸ hx,fun j k hj => ?_⟩
  have hlt : i < s.sockets.length := (List.getElem?_eq_some_iff.1 hold).1
  by_cases hij : i = j
  · subst hij
    obtain rfl := Option.some.inj (hold.symm.trans hj)
    exact ⟨new,by rw [hs, List.getElem?_set_self hlt],hf⟩
  · exact ⟨k,by rw [hs, List.getElem?_set_ne hij]; exact hj,rfl,rfl,rfl,rfl,rfl⟩

end Sockets

theorem kept_refl (s : State) : Kept s s := ⟨le_rfl,fun _ h => h,fun _ k h => ⟨k,h,rfl,rfl,rfl,rfl,rfl⟩⟩

theorem backed_upgrade {hub : HubName} {u w : ℕ} {sessionId : Option ℕ}
    (hs : ∀ i, hub = .session i → sessionId = some i) (hw : ∀ j, hub = .workspace j → sessionId = none ∧ w = j) :
    Backed (s.upgrade hub u w sessionId)
      { hub, attachment := ⟨u,w,sessionId,s.now + ticketTtlSeconds * 1000⟩, upgradedAt := s.now } :=
  ⟨hs,hw,le_rfl,s.now,.inl rfl,le_rfl,le_rfl⟩

theorem inv_upgrade {hub : HubName} {u w : ℕ} {sessionId : Option ℕ} (h : Inv P s)
    (hs : ∀ i, hub = .session i → sessionId = some i) (hw : ∀ j, hub = .workspace j → sessionId = none ∧ w = j) :
    Inv P (s.upgrade hub u w sessionId) := by
  have hk : Kept s (s.upgrade hub u w sessionId) := kept_append _ rfl rfl rfl
  refine h.kept hk (fun k hk' => ?_) (fun x hx => .inl hx) (fun p hp => hp) rfl
  rcases List.mem_append.1 hk' with hk' | hk'
  · exact (h.backed k hk').mono hk.now hk.minted
  · rw [List.mem_singleton.1 hk']
    exact backed_upgrade hs hw

/-- Closing sockets keeps what is behind them. -/
theorem inv_closeAll {c : Socket → Bool} (h : Inv P s) :
    Inv P { s with sockets := s.sockets.map fun k => if c k then { k with closed := true } else k } := by
  have hk : Kept s { s with sockets := s.sockets.map fun k => if c k then { k with closed := true } else k } := by
    refine kept_map _ rfl rfl rfl fun k => ?_
    by_cases hc : c k = true
    · rw [if_pos hc]
      exact ⟨rfl,rfl,rfl,rfl,rfl⟩
    · rw [if_neg hc]
      exact ⟨rfl,rfl,rfl,rfl,rfl⟩
  refine h.kept hk (fun k hk' => ?_) (fun x hx => .inl hx) (fun p hp => hp) rfl
  obtain ⟨k₀,hk₀,rfl⟩ := List.mem_map.1 hk'
  have hb := (h.backed k₀ hk₀).mono hk.now hk.minted
  by_cases hc : c k₀ = true
  · rw [if_pos hc]
    exact hb.close
  · rw [if_neg hc]
    exact hb

/-- A socket that its hub sends a frame to: its window is open and its hub lets it see the frame. -/
theorem heard_of_live {hub : HubName} {frame : Frame} {i : ℕ} (h : Inv P s) (hk : s.sockets[i]? = some k)
    (hhub : k.hub = hub) (hwin : s.now < k.attachment.authorizedUntil) (hsee : maySee hub k.attachment frame = true)
    (hframe : ∀ w, hub = .workspace w → ∃ ev, frame = .event ev ∧ ev.sessionId = none ∧ ev.workspaceId = w) :
    Heard s ⟨i,s.now,frame⟩ := by
  have hb := h.backed k (List.mem_of_getElem? hk)
  obtain ⟨m,hc,hle,hw⟩ := hb.window
  refine ⟨k,hk,⟨m,hc,hle,hwin.trans_le hw⟩,fun sid hs => ?_,fun w hs => ?_⟩
  · have hsid := hb.session sid hs
    rw [← hhub, hs] at hsee
    simp only [maySee, hsid, Option.isSome_some, Bool.true_and, beq_iff_eq] at hsee
    exact ⟨hsid,hsee.symm⟩
  · obtain ⟨ev,rfl,hnone,hwid⟩ := hframe w (hhub.symm.trans hs)
    rw [← hhub, hs] at hsee
    refine ⟨(hb.workspace w hs).2,ev,rfl,hwid,hnone,fun audience ha => ?_⟩
    simp only [maySee, Frame.audience, Option.all_eq_true, List.contains_eq_mem, decide_eq_true_eq] at hsee
    exact hsee audience ha

theorem inv_fanOut {hub : HubName} {frames : List Frame} (h : Inv P s)
    (hframes : ∀ f ∈ frames, ∀ w, hub = .workspace w →
      ∃ ev, f = .event ev ∧ ev.sessionId = none ∧ ev.workspaceId = w) : Inv P (s.fanOut hub frames) := by
  have hclose := inv_closeAll (c := fun k => (k.hub == hub && !k.closed) &&
    decide (k.attachment.authorizedUntil ≤ s.now)) h
  have hk : Kept s (s.fanOut hub frames) := by
    refine kept_map _ rfl rfl rfl fun k => ?_
    split <;> exact ⟨rfl,rfl,rfl,rfl,rfl⟩
  refine ⟨fun k hk' => (hclose.backed k hk').mono le_rfl fun x hx => hx,hclose.minted,hclose.pending,
    hclose.signed,fun d hd => ?_⟩
  rcases List.mem_append.1 hd with hd | hd
  · exact (h.heard d hd).kept hk
  obtain ⟨⟨k,i⟩,hki,hd⟩ := List.mem_flatMap.1 hd
  have hget : s.sockets[i]? = some k := List.mk_mem_zipIdx_iff_getElem?.1 hki
  simp only at hd
  split at hd
  next hlive =>
    obtain ⟨f,hf,rfl⟩ := List.mem_map.1 hd
    obtain ⟨hf,hsee⟩ := List.mem_filter.1 hf
    simp only [Bool.and_eq_true, beq_iff_eq, Bool.not_eq_true', decide_eq_false_iff_not, not_le] at hlive
    exact (heard_of_live h hget hlive.1.1 hlive.2 hsee (hframes f hf)).kept hk
  next => cases hd

/-- The ticket that a pending message is accepted with is one that was minted. -/
theorem minted_of_accepted {p : Pending} {t : HubTicket} (h : Inv P s) (hp : p ∈ s.pending)
    (ha : p.accepted P s.now = some t) : matchesSocket t p.attachment = true ∧ ∃ m, (t,m) ∈ s.minted := by
  obtain ⟨hv,hmatch⟩ := Option.filter_eq_some_iff.1 ha
  obtain ⟨body,signature,hparts,hsig,hdec⟩ := of_verifyHubTicket hv
  obtain ⟨x,hx,rfl⟩ := h.signed p hp body signature hparts hsig
  rw [(h.minted x hx).2.2] at hdec
  obtain rfl := Option.some.inj hdec
  exact ⟨hmatch,x.2,hx⟩

theorem inv_settle {p : Pending} (h : Inv P s) (hp : p ∈ s.pending) : Inv P (s.settle P p) := by
  obtain ⟨k,hk,hsame⟩ := h.pending p hp
  have hb := h.backed k (List.mem_of_getElem? hk)
  unfold State.settle
  simp only [hk]
  split
  next hnone =>
    have hkept : Kept s { s with sockets := s.sockets.set p.socket { k with closed := true } } :=
      kept_set _ hk rfl rfl rfl ⟨rfl,rfl,rfl,rfl,rfl⟩
    refine h.kept hkept (fun k' hk' => ?_) (fun x hx => .inl hx) (fun q hq => hq) rfl
    rcases List.mem_or_eq_of_mem_set hk' with hk' | rfl
    · exact (h.backed k' hk').mono hkept.now hkept.minted
    · exact (hb.mono hkept.now hkept.minted).close
  next t hsome =>
    obtain ⟨hmatch,m,hm⟩ := minted_of_accepted h hp hsome
    have hmt := h.minted _ hm
    have hkept : Kept s { s with
        sockets := s.sockets.set p.socket { k with attachment := { p.attachment with authorizedUntil := t.exp * 1000 } } } :=
      kept_set _ hk rfl rfl rfl ⟨rfl,rfl,hsame⟩
    refine h.kept hkept (fun k' hk' => ?_) (fun x hx => .inl hx) (fun q hq => hq) rfl
    rcases List.mem_or_eq_of_mem_set hk' with hk' | rfl
    · exact (h.backed k' hk').mono hkept.now hkept.minted
    · refine ⟨fun i hi => hsame.2.2.trans (hb.session i hi),fun w hi => ?_,hb.upgraded,m,.inr ⟨t,hm,hmatch⟩,hmt.1,hmt.2.1⟩
      obtain ⟨h₁,h₂⟩ := hb.workspace w hi
      exact ⟨hsame.2.2.trans h₁,hsame.2.1.trans h₂⟩

/-- What one event preserves. -/
theorem inv_step (h : Inv P s) (hs : Step P s e s') : Inv P s' := by
  obtain ⟨hsound,rfl⟩ := hs
  cases e with
  | tick ms =>
    have hk : Kept s { s with now := s.now + ms } :=
      ⟨Nat.le_add_right _ _,fun _ h => h,fun _ k h => ⟨k,h,rfl,rfl,rfl,rfl,rfl⟩⟩
    exact h.kept hk (fun k hk' => (h.backed k hk').mono hk.now hk.minted) (fun x hx => .inl hx) (fun p hp => hp) rfl
  | upgradeWorkspace u w => exact inv_upgrade h (by simp) (by simp)
  | upgradeSession u w sessionId => exact inv_upgrade h (by simp) (by simp)
  | mint u w sessionId =>
    have hk : Kept s (perform P s (.mint u w sessionId)) :=
      ⟨le_rfl,fun x hx => List.mem_append_left _ hx,fun _ k h => ⟨k,h,rfl,rfl,rfl,rfl,rfl⟩⟩
    refine h.kept hk (fun k hk' => (h.backed k hk').mono hk.now hk.minted) (fun x hx => ?_) (fun p hp => hp) rfl
    rcases List.mem_append.1 hx with hx | hx
    · exact .inl hx
    · rw [List.mem_singleton.1 hx]
      exact .inr ⟨le_rfl,ticketPayload_exp _ _ _ _,hsound⟩
  | present i ticket =>
    simp only [perform]
    cases hk : s.sockets[i]? with
    | none => exact h
    | some k =>
      refine h.withPending fun p hp => ?_
      rcases List.mem_append.1 hp with hp | hp
      · exact .inl hp
      · rw [List.mem_singleton.1 hp]
        exact .inr ⟨⟨k,hk,rfl,rfl,rfl⟩,hsound⟩
  | settle n =>
    simp only [perform]
    cases hp : s.pending[n]? with
    | none => exact h
    | some p =>
      have hi := inv_settle h (List.mem_of_getElem? hp)
      have hpend : (s.settle P p).pending = s.pending := by
        unfold State.settle
        split
        · rfl
        · split <;> rfl
      refine hi.withPending fun q hq => .inl ?_
      rw [hpend]
      exact List.mem_of_mem_eraseIdx hq
  | evict hub u => exact inv_closeAll h
  | publish hub events =>
    refine inv_fanOut h fun f hf w hw => ?_
    obtain ⟨ev,hev,rfl⟩ := List.mem_map.1 hf
    subst hw
    exact ⟨ev,rfl,hsound ev hev⟩
  | preview sessionId => exact inv_fanOut h fun f _ w hw => by cases hw
  | disconnect i =>
    simp only [perform]
    cases hk : s.sockets[i]? with
    | none => exact h
    | some k =>
      have hkept : Kept s { s with sockets := s.sockets.set i { k with closed := true } } :=
        kept_set _ hk rfl rfl rfl ⟨rfl,rfl,rfl,rfl,rfl⟩
      refine h.kept hkept (fun k' hk' => ?_) (fun x hx => .inl hx) (fun q hq => hq) rfl
      rcases List.mem_or_eq_of_mem_set hk' with hk' | rfl
      · exact (h.backed k' hk').mono hkept.now hkept.minted
      · exact ((h.backed k (List.mem_of_getElem? hk)).mono hkept.now hkept.minted).close

/-- A ticket that does not verify or does not match closes its socket and moves no window. -/
theorem settle_rejected {n : ℕ} {p : Pending} (hp : s.pending[n]? = some p) (ha : p.accepted P s.now = none)
    {i : ℕ} (hk : s.sockets[i]? = some k) :
    ∃ k', (perform P s (.settle n)).sockets[i]? = some k' ∧ k'.attachment = k.attachment ∧
      (i = p.socket → k'.closed = true) := by
  simp only [perform, hp, State.settle]
  cases hsock : s.sockets[p.socket]? with
  | none =>
    refine ⟨k,hk,rfl,fun hi => ?_⟩
    subst hi
    rw [hsock] at hk
    cases hk
  | some socket =>
    simp only [ha]
    by_cases hi : p.socket = i
    · subst hi
      obtain rfl := Option.some.inj (hsock.symm.trans hk)
      have hlt : p.socket < s.sockets.length := (List.getElem?_eq_some_iff.1 hsock).1
      exact ⟨_,List.getElem?_set_self hlt,rfl,fun _ => rfl⟩
    · exact ⟨k,by rw [List.getElem?_set_ne hi]; exact hk,rfl,fun h => absurd h.symm hi⟩

/-- What a socket hears: frames of its session, checked at the upgrade to be its user's, or of its workspace
and for its user, each within the time to live after the Worker checked the user at the upgrade or for a
ticket of the session or the workspace. A ticket that is not accepted closes the socket and moves no window. -/
theorem heard_while_checked {es : List Event} (hrun : Run (Step P) initial es s) :
    (∀ d ∈ s.sent, Heard s d) ∧
      ∀ n p, s.pending[n]? = some p → p.accepted P s.now = none → ∀ i k, s.sockets[i]? = some k →
        ∃ k', (perform P s (.settle n)).sockets[i]? = some k' ∧ k'.attachment = k.attachment ∧
          (i = p.socket → k'.closed = true) :=
  ⟨(hrun.invariant inv_initial fun _ _ _ h hs => inv_step h hs).heard,
    fun _ _ hp ha _ _ hk => settle_rejected hp ha hk⟩

/-- A codec and a signature for the tickets of the sample. -/
def samplePlatform : Platform where
  encode t := if t = ⟨1,2,none,1100⟩ then ['b'] else []
  decode b := if b = ['b'] then some ⟨1,2,none,1100⟩ else none
  sign _ := ['s']
  verify b g := b = ['b'] ∧ g = ['s']

def sampleEvent : HubEvent := { id := 9, workspaceId := 2, sessionId := some 3, audienceUserIds := none }

/-- A session socket is upgraded, lives on by a ticket of the workspace, and hears an event. -/
def sampleEvents : List Event :=
  [.upgradeSession 1 2 3,.tick 500000,.mint 1 2 none,.present 0 ['b','.','s'],.settle 0,.tick 200000,
    .publish (.session 3) [sampleEvent]]

def sampleState : State := sampleEvents.foldl (perform samplePlatform) initial

theorem sampleRun : Run (Step samplePlatform) initial sampleEvents sampleState := by
  have hsigned : ∀ body signature, ticketParts ['b','.','s'] = some (body,signature) →
      samplePlatform.verify body signature = true → body = ['b'] := by
    intro body signature _ hv
    simp only [samplePlatform, decide_eq_true_eq] at hv
    exact hv.1
  refine .cons ⟨trivial,rfl⟩ (.cons ⟨trivial,rfl⟩ (.cons ⟨?_,rfl⟩ (.cons ⟨?_,rfl⟩ (.cons ⟨trivial,rfl⟩
    (.cons ⟨trivial,rfl⟩ (.cons ⟨?_,rfl⟩ (.nil _)))))))
  · rfl
  · intro body signature hp hv
    exact ⟨(⟨1,2,none,1100⟩,500000),List.mem_singleton_self _,hsigned body signature hp hv⟩
  · intro e he
    rw [List.mem_singleton.1 he]
    rfl

theorem heard_while_checked_sample :
    (⟨0,700000,.event sampleEvent⟩ ∈ sampleState.sent ∧ ∀ d ∈ sampleState.sent, Heard sampleState d) ∧
      ∀ n p, sampleState.pending[n]? = some p → p.accepted samplePlatform sampleState.now = none → ∀ i k,
        sampleState.sockets[i]? = some k →
        ∃ k', (perform samplePlatform sampleState (.settle n)).sockets[i]? = some k' ∧
          k'.attachment = k.attachment ∧ (i = p.socket → k'.closed = true) :=
  ⟨⟨by decide,(heard_while_checked sampleRun).1⟩,(heard_while_checked sampleRun).2⟩

/-- The socket of the sample hears its session although the Worker authorised the session itself more than
the time to live ago. -/
theorem session_unchecked : Run (Step samplePlatform) initial sampleEvents sampleState ∧
    ∃ d ∈ sampleState.sent, d.frame.sessionId = some 3 ∧ ∃ k, sampleState.sockets[d.socket]? = some k ∧
      k.upgradedAt + ticketTtlMs < d.time ∧ ∀ x ∈ sampleState.minted, x.1.sessionId ≠ some 3 :=
  ⟨sampleRun,⟨0,700000,.event sampleEvent⟩,by decide,rfl,_,rfl,by decide,by decide⟩

end HermesEnterprise.Hubs
