import HermesEnterprise.Approvals.Db

/-! # Resource bindings

At proposal the server records which version and digest of every resource,
attachment and cited record was reviewed. Only what has both is immutable.
-/
namespace HermesEnterprise.Approvals
open Foundation.CanonicalJson

/-- A text column that is neither NULL nor empty. -/
def present (value : Option String) : Bool := value.any fun s => s ≠ ""

/-- The requester the evidence was resolved for. -/
structure EvidenceReader where
  userId : Option UserId
  runId : Option RunId
  agentId : AgentId
  deriving DecidableEq, Repr

def terminalRunStatuses : List String := ["completed","stopped","error"]

def RunRow.terminal (r : RunRow) : Bool :=
  r.endedAt.isSome && r.status ∈ terminalRunStatuses

/-- The run holds a live grant to read the handoff behind a request. -/
def sharedReadGranted (tables : EvidenceTables) (requestId : RequestId) (runId : RunId) : Bool :=
  tables.handoffGrants.any fun g =>
    g.requestId = requestId ∧ g.runId = runId ∧ g.capability = "partner.shared.read" ∧
      g.effect = "allow" ∧ !g.revoked ∧ "read_shared" ∈ g.allowedActions ∧
      g.assignmentState = "active" ∧ g.assignmentRevision = g.grantedRevision ∧
      g.connectionState = "active" ∧ g.capability ∉ g.capabilityDenies

/-- A request without an audience is open; one with an audience needs the user, and a run its grant. -/
def audienceAdmits (tables : EvidenceTables) (requestId : RequestId) (userId : Option UserId)
    (runId : Option RunId) : Bool :=
  tables.requestAudiences.all (fun a => a.1 ≠ requestId) ||
    (userId.any (fun u => (requestId,u) ∈ tables.requestAudiences) &&
      runId.all (fun r => sharedReadGranted tables requestId r))

def readDocument (tables : EvidenceTables) (id : Option Uuid) (userId : Option UserId)
    (runId : Option RunId) : Option DocumentRow :=
  (id.bind tables.documents).filter fun d => audienceAdmits tables d.requestId userId runId

def readRequest (tables : EvidenceTables) (id : Option Uuid) (userId : Option UserId)
    (runId : Option RunId) : Option EvidenceRequestRow :=
  match id with
  | none => none
  | some u => (tables.requests u).filter fun _ => audienceAdmits tables u userId runId

def readyAttachment (tables : EvidenceTables) (id : Option Uuid) : Option AttachmentRow :=
  (id.bind tables.attachments).filter fun a => a.ready

def storedAgentFile (tables : EvidenceTables) (id : Option Uuid) : Option AgentFileRow :=
  (id.bind tables.agentFiles).filter fun f => f.sha256.isSome

section Resolve
variable (env : Platform)

def digest (value : Json) : String := env.sha256 (canonical value)

def senderJson (s : Sender) : Json :=
  .object [("member_id",.string (env.uuidText s.memberId)),("address",.string s.address)]

def recipientJson (r : Recipient) : Json :=
  .object ([("name",.string r.name),("address",r.address.elim .null .string)] ++
    (r.candidateId.toList.map fun c => ("candidate_id",Json.string (env.uuidText c))) ++ r.contact)

def subjectJson (subject : Option String) : Json := subject.elim .undefined .string

/-- The digest of the reviewed copy, as it is taken at proposal. -/
def communicationDigest (d : CommunicationDetails) : String :=
  digest env (.object [("draft_only",.bool d.draftOnly),("sender",senderJson env d.sender),
    ("recipients",.array (d.recipients.map (recipientJson env))),("subject",subjectJson d.subject),
    ("body",.string d.body)])

def resourceBinding (resources : String → Option ResourceRow) (resourceId : String) :
    ApprovalResourceBinding :=
  match resources resourceId with
  | none => ⟨.resource,resourceId,none,none,false,false,
      some "The resource is not registered in this workspace."⟩
  | some row =>
    let bound := present row.version && present row.sha256
    ⟨.resource,resourceId,row.version,row.sha256,bound,row.executorAvailable,
      if bound then none else some "The resource has no immutable version and digest."⟩

def attachmentReason (sha256 : Option String) : Option String :=
  some (if present sha256 then noExecutor
    else "The attachment is not ready with an immutable content digest.")

def attachmentBinding (tables : EvidenceTables) (id : String) : ApprovalResourceBinding :=
  let uuid := env.parseUuid id
  match readyAttachment tables uuid, storedAgentFile tables uuid with
  | some a, _ => ⟨.attachment,id,a.completedAt,a.sha256,present a.completedAt && present a.sha256,
      false,attachmentReason a.sha256⟩
  | none, some f => ⟨.agentFile,id,f.updatedAt,f.sha256,present f.updatedAt && present f.sha256,
      false,attachmentReason f.sha256⟩
  | none, none => ⟨.attachment,id,none,none,false,false,attachmentReason none⟩

def communicationBindings (tables : EvidenceTables) (d : CommunicationDetails) :
    List ApprovalResourceBinding :=
  ⟨.artifact,"communication-body",none,some (communicationDigest env d),true,false,
    some noExecutor⟩ :: d.attachments.map (attachmentBinding env tables)

def deliverableBinding (d : DeliverableDetails) : ApprovalResourceBinding :=
  ⟨.artifact,d.artifactId,some d.version,some (digest env (.string d.content)),true,false,
    some noExecutor⟩

def sourceBinding (tables : EvidenceTables) (evidence : Evidence) : ApprovalResourceBinding :=
  let source := (readyAttachment tables (env.parseUuid evidence.id)).filter fun a => !a.deleted
  let version := source.bind AttachmentRow.completedAt
  let sha256 := source.bind AttachmentRow.sha256
  ⟨.attachment,evidence.id,version,sha256,present version && present sha256,false,
    if present sha256 then none
    else some "The source attachment is not ready with an immutable digest."⟩

/-- The stored artifact a watch brief cites, read through the check of the proposing run. -/
def citedWatchArtifact (tables : EvidenceTables) (reader : EvidenceReader)
    (proposal : ApprovalProposal) (evidence : Evidence) : Option WatchArtifactRow :=
  match proposal.details with
  | .deliverable d =>
    if startsWith d.artifactId "partner-watch:" then
      tables.watchArtifacts.find? fun a =>
        some a.id = env.parseUuid evidence.id ∧ some a.runId = reader.runId ∧ a.agentId = reader.agentId
    else none
  | _ => none

def watchArtifactBindings (tables : EvidenceTables) (reader : EvidenceReader)
    (proposal : ApprovalProposal) (evidence : Evidence) : List ApprovalResourceBinding :=
  (citedWatchArtifact env tables reader proposal evidence).toList.map fun a =>
    ⟨.artifact,env.uuidText a.id,some a.fetchedAt,some a.sha256,true,false,none⟩

/-- A mailbox snapshot granted to the requester's team. -/
def citedSnapshot (tables : EvidenceTables) (reader : EvidenceReader) (evidence : Evidence) :
    Option MailboxSnapshotRow :=
  tables.mailboxSnapshots.find? fun s =>
    some s.id = env.parseUuid evidence.id ∧ s.agentId = reader.agentId ∧
      reader.userId.all (fun u => s.principalUserId = u)

def snapshotBindings (tables : EvidenceTables) (reader : EvidenceReader) (evidence : Evidence) :
    List ApprovalResourceBinding :=
  (citedSnapshot env tables reader evidence).toList.map fun s =>
    ⟨.artifact,evidence.id,some s.versionId,some s.sha256,true,false,none⟩

def documentBinding (tables : EvidenceTables) (reader : EvidenceReader) (evidence : Evidence) :
    ApprovalResourceBinding :=
  let row := readDocument tables (env.parseUuid evidence.id) reader.userId reader.runId
  ⟨.document,evidence.id,row.map (fun d => toString d.version),
    row.map (fun d => digest env d.payload),row.isSome,false,
    if row.isSome then none else some "The evidence document was not found."⟩

def requestBinding (tables : EvidenceTables) (reader : EvidenceReader) (evidence : Evidence) :
    ApprovalResourceBinding :=
  let row := readRequest tables (env.parseUuid evidence.id) reader.userId reader.runId
  ⟨.request,evidence.id,row.map EvidenceRequestRow.updatedAt,
    row.map (fun r => digest env r.payload),row.isSome,false,
    if row.isSome then none else some "The evidence request was not found."⟩

def runDigest (row : RunRow) : String := digest env (row.runtimeRequest.getD (.object []))

def runBinding (runs : RunId → Option RunRow) (evidence : Evidence) : ApprovalResourceBinding :=
  let row := (env.parseUuid evidence.id).bind runs
  let immutable := row.any RunRow.terminal
  ⟨.run,evidence.id,row.bind RunRow.endedAt,
    if immutable then row.map (runDigest env) else none,immutable,false,
    if immutable then none else some "The evidence run is absent or not terminal."⟩

/-- Evidence is bound only when its id is a uuid. -/
def evidenceBindings (dir : Directory) (reader : EvidenceReader) (proposal : ApprovalProposal)
    (evidence : Evidence) : List ApprovalResourceBinding :=
  if (env.parseUuid evidence.id).isNone then []
  else match evidence.kind with
  | .source => [sourceBinding env dir.evidence evidence]
  | .artifact => watchArtifactBindings env dir.evidence reader proposal evidence ++
      snapshotBindings env dir.evidence reader evidence
  | .document => [documentBinding env dir.evidence reader evidence]
  | .request => [requestBinding env dir.evidence reader evidence]
  | .run => [runBinding env dir.runs evidence]

def detailBindings (tables : EvidenceTables) (proposal : ApprovalProposal) :
    List ApprovalResourceBinding :=
  match proposal.details with
  | .communication d => communicationBindings env tables d
  | .deliverable d => [deliverableBinding env d]
  | _ => []

def resolveResourceBindings (dir : Directory) (resources : String → Option ResourceRow)
    (reader : EvidenceReader) (proposal : ApprovalProposal) : List ApprovalResourceBinding :=
  (sortedUnique (proposalResourceIds env.uuidText proposal)).map (resourceBinding resources) ++
    detailBindings env dir.evidence proposal ++
    proposal.evidence.flatMap (evidenceBindings env dir reader proposal)

end Resolve

/-- A binding as the payload schema stores it. The schema trims the version, which changes at most
that of a registered resource: every other one is a timestamp, a number, a uuid or trimmed already. -/
def storedBinding (binding : ApprovalResourceBinding) : ApprovalResourceBinding :=
  if binding.kind = .resource then { binding with version := binding.version.map trim } else binding

end HermesEnterprise.Approvals
