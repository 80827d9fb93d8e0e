import HermesEnterprise.Decisions.System
import Mathlib.Data.List.Perm.Subperm

/-! # A decision has its quorum

A press inverts into three cases: it answers with the decision on file, it records a
confirmation and waits, or it writes the decision. The run theorem rests on what the
last case writes.
-/
namespace HermesEnterprise.Decisions
open Approvals Foundation.CanonicalJson Foundation.Runs Foundation.Tables

section Counting

theorem mem_firstOfEach {p : ApproverPerson} {people : List ApproverPerson}
    (h : p ∈ firstOfEach people) : p ∈ people := by
  induction people with
  | nil => cases h
  | cons q rest ih =>
    rcases List.mem_cons.mp h with rfl | h
    · exact List.mem_cons_self
    · exact List.mem_cons_of_mem _ (ih (List.mem_filter.mp h).1)

theorem firstOfEach_nodup (people : List ApproverPerson) :
    ((firstOfEach people).map (·.userId)).Nodup := by
  induction people with
  | nil => exact List.nodup_nil
  | cons q rest ih =>
    rw [firstOfEach, List.map_cons, List.nodup_cons]
    constructor
    · intro h
      obtain ⟨p,hp,hpq⟩ := List.mem_map.mp h
      exact of_decide_eq_true (List.mem_filter.mp hp).2 hpq
    · exact ih.sublist (List.filter_sublist.map _)

/-- Someone with this user id is kept. -/
theorem firstOfEach_userIds {u : UserId} {people : List ApproverPerson} :
    u ∈ (firstOfEach people).map (·.userId) ↔ u ∈ people.map (·.userId) := by
  induction people with
  | nil => rfl
  | cons q rest ih =>
    rw [firstOfEach, List.map_cons, List.map_cons, List.mem_cons, List.mem_cons, ← ih]
    constructor
    · rintro (h | h)
      · exact Or.inl h
      · exact Or.inr (List.map_subset _ (List.filter_subset_self _) h)
    · rintro (h | h)
      · exact Or.inl h
      · by_cases hu : u = q.userId
        · exact Or.inl hu
        · right
          obtain ⟨p,hp,rfl⟩ := List.mem_map.mp h
          exact List.mem_map.mpr ⟨p,List.mem_filter.mpr ⟨hp,decide_eq_true hu⟩,rfl⟩

theorem mem_firstOfEach_of {p : ApproverPerson} {people : List ApproverPerson} (hp : p ∈ people)
    (hone : ∀ q ∈ people, q.userId = p.userId → q = p) : p ∈ firstOfEach people := by
  have hid : p.userId ∈ (firstOfEach people).map (·.userId) :=
    firstOfEach_userIds.mpr (List.mem_map.mpr ⟨p,hp,rfl⟩)
  obtain ⟨q,hq,hqid⟩ := List.mem_map.mp hid
  exact hone q (mem_firstOfEach hq) hqid ▸ hq

end Counting

section Quorum
variable (w : Workspace) (row : RequestRow)

/-- The rule in force for a request, at its amount. -/
def ruleInForce (key : RouteKey) : ApprovalRouteRule :=
  (decisionRule w.routes key (row.routable none)).rule

/-- A member as the count sees them. -/
def personOf (m : MemberRow) : ApproverPerson := ⟨m.userId,m.role,m.reviewerRoles⟩

/-- People that are members are the list of these members. -/
theorem exists_members {P : MemberRow → Prop} {people : List ApproverPerson}
    (hall : ∀ p ∈ people, ∃ m, P m ∧ p = personOf m) : ∃ members : List MemberRow,
      members.map personOf = people ∧ ∀ m ∈ members, P m := by
  induction people with
  | nil => exact ⟨[],rfl,fun _ h => absurd h List.not_mem_nil⟩
  | cons p rest ih =>
    obtain ⟨m,hm,rfl⟩ := hall p List.mem_cons_self
    obtain ⟨members,hmap,hmem⟩ := ih fun q hq => hall q (List.mem_cons_of_mem _ hq)
    refine ⟨m :: members,by rw [List.map_cons, hmap],fun x hx => ?_⟩
    rcases List.mem_cons.mp hx with rfl | hx
    · exact hm
    · exact hmem x hx

theorem map_userId_personOf (members : List MemberRow) :
    (members.map personOf).map (·.userId) = members.map (·.userId) := by
  rw [List.map_map]
  rfl

/-- People who complete a count are different members, enough and with one from each group where asked. -/
theorem exists_enough {P : MemberRow → Prop} {rule : ApprovalRouteRule} {people : List ApproverPerson}
    (hn : (people.map (·.userId)).Nodup) (hall : ∀ p ∈ people, ∃ m, P m ∧ p = personOf m)
    (henough : rule.approvalsRequired ≤ people.length) (hcov : covers rule people = true) :
    ∃ members : List MemberRow, (members.map (·.userId)).Nodup ∧
      rule.approvalsRequired ≤ members.length ∧ (∀ m ∈ members, P m) ∧
      (rule.oneFromEach = true → ∀ group ∈ groupsOf rule, ∃ m ∈ members,
        inGroup (personOf m) group = true) := by
  obtain ⟨members,hmap,hmem⟩ := exists_members hall
  refine ⟨members,?_,?_,hmem,?_⟩
  · rwa [← map_userId_personOf, hmap]
  · rwa [← hmap, List.length_map] at henough
  · intro hone group hg
    unfold covers at hcov
    rw [hone] at hcov
    simp only [Bool.not_true, Bool.false_or, List.all_eq_true, List.any_eq_true] at hcov
    obtain ⟨p,hp,hin⟩ := hcov group hg
    obtain ⟨m,hm,rfl⟩ := List.mem_map.mp (hmap ▸ hp)
    exact ⟨m,hm,hin⟩

/-- Different members who all count are no more than the count. -/
theorem length_le_counted {members : List MemberRow} {people : List ApproverPerson}
    (hn : (members.map (·.userId)).Nodup) (hall : ∀ m ∈ members, personOf m ∈ people) :
    members.length ≤ people.length := by
  have hsub : members.map (·.userId) ⊆ people.map (·.userId) := by
    intro u hu
    obtain ⟨m,hm,rfl⟩ := List.mem_map.mp hu
    exact List.mem_map.mpr ⟨_,hall m hm,rfl⟩
  have hle := (List.subperm_of_subset hn hsub).length_le
  rwa [List.length_map, List.length_map] at hle

/-- Members from each group cover the groups once they all count. -/
theorem covers_counted {rule : ApprovalRouteRule} {members : List MemberRow} {people : List ApproverPerson}
    (hall : ∀ m ∈ members, personOf m ∈ people) (hcov : rule.oneFromEach = true →
      ∀ group ∈ groupsOf rule, ∃ m ∈ members, inGroup (personOf m) group = true) :
    covers rule people = true := by
  unfold covers
  cases hone : rule.oneFromEach with
  | false => rfl
  | true =>
    simp only [Bool.not_true, Bool.false_or, List.all_eq_true, List.any_eq_true]
    intro group hg
    obtain ⟨m,hm,hin⟩ := hcov hone group hg
    exact ⟨personOf m,hall m hm,hin⟩

/-- The one person with a user id among people that are the members found by it. -/
theorem mem_firstOfEach_personOf {w : Workspace} {m : MemberRow} {people : List ApproverPerson}
    (hfind : w.members.find? (fun x => decide (x.userId = m.userId)) = some m)
    (hall : ∀ q ∈ people, ∃ m', w.members.find? (fun x => decide (x.userId = q.userId)) = some m' ∧
      q = personOf m') (hm : personOf m ∈ people) : personOf m ∈ firstOfEach people := by
  refine mem_firstOfEach_of hm fun q hq hqid => ?_
  obtain ⟨m',hm',rfl⟩ := hall q hq
  have hqid : m'.userId = m.userId := hqid
  have hm' : w.members.find? (fun x => decide (x.userId = m'.userId)) = some m' := hm'
  rw [hqid, hfind, Option.some.injEq] at hm'
  rw [hm']

/-- An active member who may read the request and approve it: named by the rule, or Finance for a
handoff, and not the requester where the rule keeps them out. -/
structure Eligible (rule : ApprovalRouteRule) (m : MemberRow) : Prop where
  mem : m ∈ w.members
  active : m.status = .active
  reads : inAudience w row.id m.userId = true
  other : rule.allowRequester = false → row.requesterId ≠ some m.userId
  named : mayApprove rule (personOf m) = true ∨
    (financeWorkflowRequest (row.routable none) = true ∧ "finance" ∈ m.reviewerRoles)

/-- Enough different eligible members have confirmed, with one from each group where asked. -/
structure Quorum (rule : ApprovalRouteRule) (people : List MemberRow) : Prop where
  distinct : (people.map (·.userId)).Nodup
  enough : rule.approvalsRequired ≤ people.length
  eligible : ∀ m ∈ people, Eligible w row rule m
  confirmed : ∀ m ∈ people, ⟨row.id,m.userId⟩ ∈ w.confirmations
  covered : rule.oneFromEach = true → ∀ group ∈ groupsOf rule, ∃ m ∈ people,
    inGroup (personOf m) group = true

end Quorum

section Progress
variable {w : Workspace} {row : RequestRow} {key : RouteKey} {viewer m : MemberRow}

/-- The members whose confirmations count. -/
def countedPeople (w : Workspace) (row : RequestRow) (key : RouteKey) : List ApproverPerson :=
  (firstOfEach (standing (decisionConfirmers w row.id))).filter
    (eligibleForDecision (ruleInForce w row key) (row.routable none))

theorem decisionProgress_eq : decisionProgress w key row viewer =
    ⟨(ruleInForce w row key).approvalsRequired,(countedPeople w row key).length,
      (countedPeople w row key).any fun p => p.userId = viewer.userId,
      covers (ruleInForce w row key) (countedPeople w row key),
      (countedPeople w row key).map (·.userId)⟩ := rfl

theorem mem_standing {p : ApproverPerson} : p ∈ standing (decisionConfirmers w row.id) ↔
    ∃ m, w.members.find? (fun x => decide (x.userId = p.userId)) = some m ∧ m.status = .active ∧
      inAudience w row.id p.userId = true ∧ ⟨row.id,p.userId⟩ ∈ w.confirmations ∧ p = personOf m := by
  simp only [standing, decisionConfirmers, List.mem_map, List.mem_filter]
  constructor
  · rintro ⟨c,⟨⟨d,⟨hd,hdr⟩,rfl⟩,hc⟩,rfl⟩
    have hdr' : d.requestId = row.id := of_decide_eq_true hdr
    cases hm : w.members.find? fun x => decide (x.userId = d.userId) with
    | none => simp [confirmerOf, hm] at hc
    | some m =>
      have hmu : m.userId = d.userId := by simpa using List.find?_some hm
      simp only [confirmerOf, hm, Option.any_some, Option.map_some, Option.isSome_some, Bool.and_true,
        Bool.and_eq_true, decide_eq_true_eq] at hc
      obtain ⟨r,u⟩ := d
      dsimp only at hdr' hmu hm hc
      subst hdr'
      refine ⟨m,hm,hc.1,hc.2,hd,?_⟩
      simp [confirmerOf, hm, personOf, hmu]
  · rintro ⟨m,hm,ha,hr,hc,rfl⟩
    have hm' : w.members.find? (fun x => decide (x.userId = m.userId)) = some m := hm
    refine ⟨confirmerOf w ⟨row.id,m.userId⟩,⟨⟨_,⟨hc,by simp⟩,rfl⟩,?_⟩,?_⟩
    · simpa [confirmerOf, hm', ha, personOf] using hr
    · simp [confirmerOf, hm', personOf]

theorem eligibleForDecision_iff {rule : ApprovalRouteRule} {p : ApproverPerson} :
    eligibleForDecision rule (row.routable none) p = true ↔
      (rule.allowRequester = false → row.requesterId ≠ some p.userId) ∧
      (mayApprove rule p = true ∨
        (financeWorkflowRequest (row.routable none) = true ∧ "finance" ∈ p.reviewerRoles)) := by
  simp only [eligibleForDecision, RequestRow.routable, Option.getD_none, Bool.and_true, Bool.and_eq_true,
    Bool.not_eq_true', Bool.or_eq_true, decide_eq_true_eq, Bool.and_eq_false_iff, Bool.not_eq_false']
  refine and_congr_left fun _ => ?_
  cases rule.allowRequester
  · simp only [forall_const, Bool.false_eq_true, false_or]
    exact decide_eq_false_iff_not
  · simp

/-- A member who confirmed counts exactly while eligible. -/
theorem mem_countedPeople {p : ApproverPerson} (h : p ∈ countedPeople w row key) :
    ∃ m, Eligible w row (ruleInForce w row key) m ∧ p = personOf m ∧
      ⟨row.id,m.userId⟩ ∈ w.confirmations := by
  obtain ⟨hp,he⟩ := List.mem_filter.mp h
  obtain ⟨m,hm,ha,hr,hc,rfl⟩ := mem_standing.mp (mem_firstOfEach hp)
  obtain ⟨ho,hn⟩ := eligibleForDecision_iff.mp he
  exact ⟨m,⟨List.mem_of_find?_eq_some hm,ha,hr,ho,hn⟩,rfl,hc⟩

/-- A complete count is a quorum. -/
theorem quorum_of_complete (h : progressComplete (decisionProgress w key row viewer) = true) :
    ∃ people, Quorum w row (ruleInForce w row key) people := by
  rw [decisionProgress_eq] at h
  simp only [progressComplete, Bool.and_eq_true, decide_eq_true_eq] at h
  obtain ⟨henough,hcov⟩ := h
  have hall : ∀ p ∈ countedPeople w row key, ∃ m, Eligible w row (ruleInForce w row key) m ∧
      p = personOf m ∧ ⟨row.id,m.userId⟩ ∈ w.confirmations := fun p hp => mem_countedPeople hp
  obtain ⟨members,hdistinct,hmany,hmem,hgroups⟩ := exists_enough
    (P := fun m => Eligible w row (ruleInForce w row key) m ∧ ⟨row.id,m.userId⟩ ∈ w.confirmations)
    ((firstOfEach_nodup _).sublist (List.filter_sublist.map _))
    (fun p hp => by
      obtain ⟨m,he,hpm,hc⟩ := hall p hp
      exact ⟨m,⟨he,hc⟩,hpm⟩) henough hcov
  exact ⟨members,hdistinct,hmany,fun m hm => (hmem m hm).1,fun m hm => (hmem m hm).2,hgroups⟩

theorem member_of_find? (hn : (w.members.map (·.userId)).Nodup) (hm : m ∈ w.members) :
    w.members.find? (fun x => decide (x.userId = m.userId)) = some m :=
  find?_key hn hm

/-- An eligible member who confirmed counts. -/
theorem countedPeople_of_eligible (hn : (w.members.map (·.userId)).Nodup)
    (h : Eligible w row (ruleInForce w row key) m) (hc : ⟨row.id,m.userId⟩ ∈ w.confirmations) :
    personOf m ∈ countedPeople w row key := by
  have hfind := member_of_find? hn h.mem
  have hstanding : personOf m ∈ standing (decisionConfirmers w row.id) :=
    mem_standing.mpr ⟨m,hfind,h.active,h.reads,hc,rfl⟩
  have hfirst := mem_firstOfEach_personOf hfind (fun q hq => by
    obtain ⟨m',hm',-,-,-,hq'⟩ := mem_standing.mp hq
    exact ⟨m',hm',hq'⟩) hstanding
  exact List.mem_filter.mpr ⟨hfirst,eligibleForDecision_iff.mpr ⟨h.other,h.named⟩⟩

/-- A quorum completes the count. -/
theorem complete_of_quorum (hn : (w.members.map (·.userId)).Nodup) {people : List MemberRow}
    (h : Quorum w row (ruleInForce w row key) people) :
    progressComplete (decisionProgress w key row viewer) = true := by
  have hmem : ∀ m ∈ people, personOf m ∈ countedPeople w row key := fun m hm =>
    countedPeople_of_eligible hn (h.eligible m hm) (h.confirmed m hm)
  rw [decisionProgress_eq]
  simp only [progressComplete, Bool.and_eq_true, decide_eq_true_eq]
  exact ⟨h.enough.trans (length_le_counted h.distinct hmem),covers_counted hmem h.covered⟩

end Progress
end HermesEnterprise.Decisions
