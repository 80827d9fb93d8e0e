import HermesEnterprise.Approvals.Propose
import HermesEnterprise.Foundation.Runs

/-! # The approval system

Every operation is one transaction: it commits its writes or changes nothing.
Between operations time passes and anything the approval code only reads may
change, members and their roles included.
-/
namespace HermesEnterprise.Approvals
open Foundation.Runs Email

inductive Event
  | propose (context : ApprovalProposerContext) (input : ProposeApprovalInput)
  | decide (requestId : RequestId) (context : ApprovalHumanContext) (input : DecideApprovalInput)
  | revise (requestId : RequestId) (context : ApprovalHumanContext) (input : ReviseApprovalInput)
  | route (requestId : RequestId) (context : ApprovalHumanContext) (input : RouteApprovalInput)
  | reopen (requestId : RequestId) (userId : UserId)
  | read (requestId : RequestId) (viewerUserId : UserId)
  | directory (next : Directory)
  | mail (next : MailTables)
  | tick (elapsed : ℕ)

/-- The database an event leaves; a refused operation has none. -/
def apply (env : Platform) (db : Db) : Event → Result Db
  | .propose context input => (proposeApproval env db context input).map Prod.fst
  | .decide requestId context input => (decideApproval env db requestId context input).map Prod.fst
  | .revise requestId context input => (reviseApproval env db requestId context input).map Prod.fst
  | .route requestId context input => (routeApproval env db requestId context input).map Prod.fst
  | .reopen requestId userId => reopenApprovalForResend env db requestId userId
  | .read requestId viewerUserId => (getApproval db requestId viewerUserId).map Prod.fst
  | .directory next => .ok { db with directory := next }
  | .mail next => .ok { db with mail := next }
  | .tick elapsed => .ok { db with now := db.now + elapsed }

def Step (env : Platform) : Db → Event → Db → Prop := Applied (apply env)

/-- Nothing was proposed yet. -/
structure Initial (db : Db) : Prop where
  requests : ∀ id, db.requests id = none
  votes : db.votes = []
  routes : db.routes = []
  revisions : db.revisions = []
  commands : db.commands = []
  outbox : db.outbox.rows = []

def ReachableDb (env : Platform) : Db → Prop := Reachable Initial (Step env)

/-- The database after an event, unchanged by a refused one. -/
def after (env : Platform) : Db → Event → Db := Foundation.Runs.after (apply env)

def accepted (env : Platform) : Db → Event → Bool := Foundation.Runs.accepted (apply env)

def acceptedAll (env : Platform) : Db → List Event → Bool := Foundation.Runs.acceptedAll (apply env)

def afterAll (env : Platform) : Db → List Event → Db := Foundation.Runs.afterAll (apply env)

theorem step_after {env : Platform} {db : Db} {e : Event} (h : accepted env db e = true) :
    Step env db e (after env db e) :=
  Foundation.Runs.step_after h

theorem run_afterAll {env : Platform} {db : Db} {events : List Event}
    (h : acceptedAll env db events = true) : Run (Step env) db events (afterAll env db events) :=
  Foundation.Runs.run_afterAll h

end HermesEnterprise.Approvals
