import HermesEnterprise.Members.Admins

/-! # The mirror and the identity provider

The provider keeps an ordered stream of events. Polls read the cursor, apply the events after it and write
the cursor when the batch is over. Routes remove, demote and promote members, and outbound jobs tell the
provider. A transaction reads in one step, and writes and commits in another.
-/
namespace HermesEnterprise.Members
open Foundation.Runs

/-- What an event of the provider describes, of a person who has signed in here. -/
inductive ProviderChange
  | membership (userId : ℕ) (inactive : Bool) (role : MemberRole) (membershipId : Option ℕ)
  | userDeleted (userId : ℕ)
  deriving DecidableEq

def ProviderChange.request (eventId : ℕ) : ProviderChange → Request
  | .membership userId inactive role i => .membership eventId userId inactive role i
  | .userDeleted userId => .userDeleted userId

inductive SyncAction | deactivateMembership | updateMembershipRole
  deriving DecidableEq

/-- What an outbound job tells the provider. -/
structure SyncPayload where
  action : SyncAction
  workosMembershipId : Option ℕ
  role : MemberRole
  deriving DecidableEq

/-- The key of an outbound job: that of a promotion ends in a random id, that of a revocation does not. -/
inductive SyncKey
  | revoke (memberId : ℕ) (action : RevokeAction)
  | promote (memberId nonce : ℕ)
  | repromote (memberId eventId : ℕ)
  deriving DecidableEq

structure SyncJob where
  key : SyncKey
  payload : SyncPayload
  done : Bool := false
  deriving DecidableEq

/-- A committed removal or demotion: the row that it read, and the first event of the provider that
describes the membership after it. -/
structure Revocation where
  member : Member
  action : RevokeAction
  since : ℕ
  deriving DecidableEq

def Revocation.payload (v : Revocation) : SyncPayload :=
  { action := match v.action with
      | .remove => .deactivateMembership
      | .demote => .updateMembershipRole
    workosMembershipId := v.member.workosMembershipId
    role := .member }

/-- A poll under way: what it has read of the event that it is at, and the cursor it will write. -/
structure Poll where
  after : ℕ
  cursor : ℕ
  pending : List ℕ
  plan : Option Phase := none
  closed : Bool := false
  deriving DecidableEq

/-- The tables, the stream and what is under way. The last two fields record what was committed. -/
structure Mirror where
  members : List Member
  jobs : List SyncJob
  stream : List ProviderChange
  cursor : ℕ
  polls : List Poll
  routes : List Phase
  revocations : List Revocation
  applied : List ℕ
  deriving DecidableEq

inductive MirrorEvent
  | change (change : ProviderChange)
  | load (memberId : ℕ) (action : RevokeAction)
  | revoke (route : ℕ)
  | promote (memberId nonce : ℕ)
  | poll (limit : ℕ)
  | read (poll : ℕ)
  | write (poll freshId : ℕ)
  | fail (poll : ℕ)
  | finish (poll : ℕ)
  | crash (poll : ℕ)
  | jobDone (key : SyncKey)
  deriving DecidableEq

/-- `revokeAccess`. -/
def revokeAccess (s : Mirror) (v : Revocation) : Except Halt Mirror :=
  let job : SyncJob := ⟨.revoke v.member.id v.action,v.payload,false⟩;
  let next := { s with
    jobs := enqueueJob SyncJob.key s.jobs job
    revocations := s.revocations ++ [v] };
  match s.members.find? (·.id == v.member.id) with
  | none => .ok next
  | some old =>
    if keepsOneAdmin s.members old (v.action.on old) then
      .ok { next with members := place s.members (v.action.on old) }
    else .error .notNext

/-- The writes of a transaction after its reads. -/
def carryOut (s : Mirror) (since freshId : ℕ) : Phase → Except Halt Mirror
  | .revoking m action => revokeAccess s ⟨m,action,since⟩
  | .lastAdmin eventId m i =>
    let payload : SyncPayload := ⟨.updateMembershipRole,i.or m.workosMembershipId,.admin⟩;
    .ok { s with jobs := enqueueJob SyncJob.key s.jobs ⟨.repromote m.id eventId,payload,false⟩ }
  | .mirroring userId role i =>
    match mirrorMembership s.members userId role i freshId with
    | (none,new) =>
      if s.members.any (·.id == freshId) then .error .notNext else .ok { s with members := place s.members new }
    | (some old,new) =>
      if keepsOneAdmin s.members old new then .ok { s with members := place s.members new } else .error .notNext
  | .ready => .ok s
  | _ => .error .notNext

end HermesEnterprise.Members
