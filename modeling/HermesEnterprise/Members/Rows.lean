import HermesEnterprise.Foundation.Tables

/-! # The member rows of a workspace

A row mirrors one membership at the identity provider. `revokeAccess` and `mirrorMembership` write rows,
and the trigger of the table looks at every update.
-/
namespace HermesEnterprise.Members
open Foundation.Tables

inductive MemberRole | admin | member
  deriving DecidableEq

inductive MemberStatus | active | inactive
  deriving DecidableEq

structure Member where
  id : ℕ
  userId : ℕ
  role : MemberRole
  status : MemberStatus
  workosMembershipId : Option ℕ
  deriving DecidableEq

def Member.isAdmin (m : Member) : Bool := m.role == .admin && m.status == .active

inductive RevokeAction | remove | demote
  deriving DecidableEq

/-- The update of the mirror row by `revokeAccess`. -/
def RevokeAction.on (action : RevokeAction) (m : Member) : Member :=
  match action with
  | .remove => { m with status := .inactive }
  | .demote => { m with role := .member }

/-- The stored row that the upsert of `mirrorMembership` meets, and the row that it leaves. -/
def mirrorMembership (members : List Member) (userId : ℕ) (role : MemberRole) (membershipId : Option ℕ)
    (freshId : ℕ) : Option Member × Member :=
  match members.find? (·.userId == userId) with
  | some old =>
    (some old,
      { old with
        role := role
        status := .active
        workosMembershipId := membershipId.or old.workosMembershipId })
  | none => (none,⟨freshId,userId,role,.active,membershipId⟩)

/-- The active Admins whose row is not the given one. -/
def otherAdmins (members : List Member) (id : ℕ) : ℕ := members.countP fun m => m.isAdmin && m.id != id

/-- Whether `members_keep_one_admin` lets an update through. -/
def keepsOneAdmin (members : List Member) (old new : Member) : Bool :=
  !(old.isAdmin && otherAdmins members old.id + (if new.isAdmin then 1 else 0) == 0)

/-- A version of a row takes the place of the one of the same user. -/
def place (members : List Member) (row : Member) : List Member :=
  if members.any (·.userId == row.userId) then updateWhere (·.userId == row.userId) (fun _ => row) members
  else members ++ [row]

/-- The insert of a job ignores one whose key is taken. -/
def enqueueJob {α κ : Type} [DecidableEq κ] (key : α → κ) (jobs : List α) (job : α) : List α :=
  if jobs.any (fun j => key j = key job) then jobs else jobs ++ [job]

variable {members : List Member} {old new a : Member}

@[simp] theorem RevokeAction.on_userId (action : RevokeAction) (m : Member) : (action.on m).userId = m.userId := by
  cases action <;> rfl

/-- One row for each user: rows with the same user are the same. -/
theorem eq_of_user (hn : (members.map Member.userId).Nodup) (ha : a ∈ members) (ho : old ∈ members)
    (h : a.userId = old.userId) : a = old :=
  List.inj_on_of_nodup_map hn ha ho h

theorem of_find?_user {u : ℕ} (h : members.find? (·.userId == u) = some a) : a ∈ members ∧ a.userId = u :=
  ⟨List.mem_of_find?_eq_some h,by simpa using List.find?_some h⟩

theorem of_mirror {u f : ℕ} {role : MemberRole} {i : Option ℕ}
    (h : mirrorMembership members u role i f = (some old,new)) : old ∈ members ∧ old.userId = u ∧ new.userId = u := by
  unfold mirrorMembership at h
  split at h
  next o ho =>
    obtain ⟨hmem,hu⟩ := of_find?_user ho
    simp only [Prod.mk.injEq, Option.some.injEq] at h
    obtain ⟨rfl,rfl⟩ := h
    exact ⟨hmem,hu,hu⟩
  next => simp at h

/-- An insert meets no row of its user. -/
theorem of_mirror_none {u f : ℕ} {role : MemberRole} {i : Option ℕ}
    (h : mirrorMembership members u role i f = (none,new)) : ∀ m ∈ members, m.userId ≠ new.userId := by
  unfold mirrorMembership at h
  split at h
  next => simp at h
  next hn =>
    simp only [Prod.mk.injEq, true_and] at h
    subst h
    intro m hm hu
    exact List.find?_eq_none.1 hn m hm (by simp [hu])

/-- The trigger lets the loss of an Admin through only beside another one. -/
theorem other_of_keeps (h : keepsOneAdmin members old new = true) (ho : old.isAdmin = true)
    (hn : new.isAdmin = false) : ∃ b ∈ members, b.isAdmin = true ∧ b.id ≠ old.id := by
  have hc : otherAdmins members old.id ≠ 0 := by
    simpa [keepsOneAdmin, ho, hn] using h
  obtain ⟨b,hb,hp⟩ := List.countP_pos_iff.1 (Nat.pos_of_ne_zero hc)
  simp only [Bool.and_eq_true, bne_iff_ne] at hp
  exact ⟨b,hb,hp⟩

theorem mem_place {row b : Member} : b ∈ place members row ↔ (b ∈ members ∧ b.userId ≠ row.userId) ∨ b = row := by
  unfold place
  split
  next hany =>
    obtain ⟨o,ho,hou⟩ := List.any_eq_true.1 hany
    rw [mem_updateWhere]
    simp only [beq_eq_false_iff_ne]
    constructor
    · rintro (⟨-,-,-,rfl⟩ | hb)
      · exact .inr rfl
      · exact .inl hb
    · rintro (hb | rfl)
      · exact .inr hb
      · exact .inl ⟨o,ho,hou,rfl⟩
  next hany =>
    rw [List.mem_append, List.mem_singleton]
    have hne : ∀ m ∈ members, m.userId ≠ row.userId := by
      intro m hm hu
      exact hany (List.any_eq_true.2 ⟨m,hm,by simp [hu]⟩)
    exact or_congr_left ⟨fun hb => ⟨hb,hne b hb⟩,And.left⟩

theorem place_users (hn : (members.map Member.userId).Nodup) (row : Member) :
    ((place members row).map Member.userId).Nodup := by
  unfold place
  split
  next hany =>
    rw [map_updateWhere Member.userId fun m _ hm => (beq_iff_eq.1 hm).symm]
    exact hn
  next hany =>
    rw [List.map_append, List.map_singleton]
    refine List.nodup_append.2 ⟨hn,List.nodup_singleton _,fun u hu v hv huv => hany ?_⟩
    obtain ⟨m,hm,rfl⟩ := List.mem_map.1 hu
    rw [List.mem_singleton.1 hv] at huv
    exact List.any_eq_true.2 ⟨m,hm,by simp [huv]⟩

end HermesEnterprise.Members
