import HermesEnterprise.Approvals.Soundness

/-! # Binding drift

Before an approved run starts, every stored binding is read again and compared
with the version and digest it was approved with. The re-check reads what the
resolver read, except for the reviewed copy of a communication, for evidence
artifacts, and for a version whose white space the stored payload lost.
-/
namespace HermesEnterprise.Approvals
open Foundation.CanonicalJson

section Definitions
variable (env : Platform) (dir : Directory)

def BindingKind.text : BindingKind → String
  | .attachment => "attachment"
  | .agentFile => "agent_file"
  | .document => "document"
  | .artifact => "artifact"
  | .request => "request"
  | .run => "run"
  | .skill => "skill"
  | .resource => "resource"

/-- An active row of `approval_resources`. -/
def activeResource (resourceId : String) : Option ResourceRow :=
  (dir.resources resourceId).filter fun r => r.active

/-- The digest of the reviewed copy, as the re-check takes it. -/
def recheckedCommunicationDigest (d : CommunicationDetails) : String :=
  digest env (.object [("sender",senderJson env d.sender),
    ("recipients",.array (d.recipients.map (recipientJson env))),("subject",subjectJson d.subject),
    ("body",.string d.body)])

def currentArtifact (details : ProposalDetails) (id : String) : Option String × Option String :=
  match details with
  | .communication d =>
    if id = "communication-body" then (none,some (recheckedCommunicationDigest env d)) else (none,none)
  | .deliverable d =>
    if id = d.artifactId then (some d.version,some (digest env (.string d.content))) else (none,none)
  | _ => (none,none)

/-- The version and digest the re-check reads for a binding; a skill is not supported. -/
def currentBinding (payload : ApprovalPayload) (binding : ApprovalResourceBinding) :
    Option (Option String × Option String) :=
  let uuid := env.parseUuid binding.id
  let userId := payload.context.requester.userId
  let runId := payload.context.runId
  match binding.kind with
  | .resource =>
    let row := activeResource dir binding.id
    some (row.bind ResourceRow.version,row.bind ResourceRow.sha256)
  | .attachment =>
    let row := readyAttachment dir.evidence uuid
    some (row.bind AttachmentRow.completedAt,row.bind AttachmentRow.sha256)
  | .agentFile =>
    let row := storedAgentFile dir.evidence uuid
    some (row.bind AgentFileRow.updatedAt,row.bind AgentFileRow.sha256)
  | .document =>
    let row := readDocument dir.evidence uuid userId runId
    some (row.map (fun d => toString d.version),row.map (fun d => digest env d.payload))
  | .request =>
    let row := readRequest dir.evidence uuid userId runId
    some (row.map EvidenceRequestRow.updatedAt,row.map (fun r => digest env r.payload))
  | .run =>
    let row := (uuid.bind dir.runs).filter RunRow.terminal
    some (row.bind RunRow.endedAt,row.map (runDigest env))
  | .artifact => some (currentArtifact env payload.details binding.id)
  | .skill => none

def driftText (what : String) (binding : ApprovalResourceBinding) : String :=
  what ++ ":" ++ binding.kind.text ++ ":" ++ binding.id

def bindingDrift (payload : ApprovalPayload) (binding : ApprovalResourceBinding) : Option String :=
  if !binding.immutable || !present binding.sha256 then
    some (driftText "resource_binding_unverifiable" binding)
  else match currentBinding env dir payload binding with
    | none => some (driftText "resource_binding_unsupported" binding)
    | some current =>
      if current ≠ (binding.version,binding.sha256) then
        some (driftText "resource_binding_changed" binding)
      else none

/-- The first binding that drifted, in stored order. -/
def resourceBindingDrift (payload : ApprovalPayload) : Option String :=
  payload.resourceBindings.findSome? (bindingDrift env dir payload)

/-- The proposal is a deliverable that is itself this artifact. -/
def RestatesDeliverable (proposal : ApprovalProposal) (id version sha256 : String) : Prop :=
  ∃ d, proposal.details = .deliverable d ∧ d.artifactId = id ∧ d.version = version ∧
    digest env (.string d.content) = sha256

/-- The proposals whose bindings the re-check reads as the resolver did. -/
structure Recheckable (reader : EvidenceReader) (proposal : ApprovalProposal) : Prop where
  notCommunication : ∀ d, proposal.details ≠ .communication d
  trimmed : ∀ id ∈ proposalResourceIds env.uuidText proposal, ∀ row, activeResource dir id = some row →
    present row.version = true → present row.sha256 = true → row.version.map trim = row.version
  watchArtifacts : ∀ evidence ∈ proposal.evidence, evidence.kind = .artifact →
    (env.parseUuid evidence.id).isSome = true →
    ∀ a, citedWatchArtifact env dir.evidence reader proposal evidence = some a →
      RestatesDeliverable env proposal (env.uuidText a.id) a.fetchedAt a.sha256
  snapshots : ∀ evidence ∈ proposal.evidence, evidence.kind = .artifact →
    (env.parseUuid evidence.id).isSome = true →
    ∀ s, citedSnapshot env dir.evidence reader evidence = some s →
      RestatesDeliverable env proposal evidence.id s.versionId s.sha256

/-- Every immutable binding passes as it is stored, and whatever passes is what was approved. -/
structure Rechecks (payload : ApprovalPayload) (bindings : List ApprovalResourceBinding) : Prop where
  passes : ∀ b ∈ bindings, b.immutable = true →
    bindingDrift env dir payload (storedBinding b) = none
  approved : ∀ dir' b, bindingDrift env dir' payload b = none →
    currentBinding env dir' payload b = some (b.version,b.sha256)

/-- The payload holds this proposal, for the requester and run its evidence was resolved for. -/
structure Describes (payload : ApprovalPayload) (reader : EvidenceReader)
    (proposal : ApprovalProposal) : Prop where
  proposal : payload.toApprovalProposal = proposal
  user : payload.context.requester.userId = reader.userId
  run : payload.context.runId = reader.runId

end Definitions

variable {env : Platform} {dir : Directory} {payload : ApprovalPayload} {reader : EvidenceReader}
variable {proposal : ApprovalProposal} {resourceIds : List String} {b : ApprovalResourceBinding}
variable {evidence : Evidence}

theorem bindingDrift_eq_none : bindingDrift env dir payload b = none ↔ b.immutable = true ∧
    present b.sha256 = true ∧ currentBinding env dir payload b = some (b.version,b.sha256) := by
  unfold bindingDrift
  cases b.immutable <;> cases present b.sha256 <;> simp
  cases currentBinding env dir payload b with
  | none => simp
  | some current => simp

/-- Nothing drifted exactly when every stored binding passes. -/
theorem resourceBindingDrift_eq_none : resourceBindingDrift env dir payload = none ↔
    ∀ b ∈ payload.resourceBindings, bindingDrift env dir payload b = none := by
  simp [resourceBindingDrift, List.findSome?_eq_none_iff]

theorem storedBinding_of_kind (h : b.kind ≠ .resource) : storedBinding b = b := by
  simp [storedBinding, h]

theorem present_some {text : String} : present (some text) = true ↔ text ≠ "" := by
  simp [present]

section Passing

theorem resource_passes {id : String} (hid : id ∈ resourceIds)
    (htrim : ∀ row, activeResource dir id = some row → present row.version = true →
      present row.sha256 = true → row.version.map trim = row.version)
    (hb : (resourceBinding (resourceRows dir resourceIds) id).immutable = true) :
    bindingDrift env dir payload (storedBinding (resourceBinding (resourceRows dir resourceIds) id)) =
      none := by
  have hrows : resourceRows dir resourceIds id = activeResource dir id := by
    simp [resourceRows, activeResource, hid]
  unfold resourceBinding at hb ⊢
  rw [hrows] at hb ⊢
  cases hrow : activeResource dir id with
  | none => simp [hrow] at hb
  | some row =>
    simp only [hrow, Bool.and_eq_true] at hb
    obtain ⟨hversion,hsha⟩ := hb
    rw [bindingDrift_eq_none]
    simp [storedBinding, hversion, hsha, currentBinding, hrow, htrim row hrow hversion hsha]

theorem attachment_passes {id : String}
    (hb : (attachmentBinding env dir.evidence id).immutable = true) :
    bindingDrift env dir payload (attachmentBinding env dir.evidence id) = none := by
  unfold attachmentBinding at hb ⊢
  dsimp only at hb ⊢
  split at hb
  next _ _ a ha =>
    simp only [Bool.and_eq_true] at hb
    simp [bindingDrift_eq_none, currentBinding, ha, hb.1, hb.2]
  next _ _ f ha hf =>
    simp only [Bool.and_eq_true] at hb
    simp [bindingDrift_eq_none, currentBinding, hf, hb.1, hb.2]
  next => cases hb

theorem source_passes (hb : (sourceBinding env dir.evidence evidence).immutable = true) :
    bindingDrift env dir payload (sourceBinding env dir.evidence evidence) = none := by
  unfold sourceBinding at hb ⊢
  cases ha : readyAttachment dir.evidence (env.parseUuid evidence.id) with
  | none => simp [ha, present] at hb
  | some a =>
    rw [ha] at hb
    by_cases hdel : a.deleted = true
    · simp [Option.filter, hdel, present] at hb
    · have hkept : (some a).filter (fun a : AttachmentRow => !a.deleted) = some a := by
        simp [Option.filter, hdel]
      simp only [hkept, Option.bind_some, Bool.and_eq_true] at hb
      simp [bindingDrift_eq_none, currentBinding, ha, hkept, hb.1, hb.2]

theorem deliverable_passes {d : DeliverableDetails} (hsha : ∀ text, env.sha256 text ≠ "")
    (hp : payload.details = .deliverable d) :
    bindingDrift env dir payload (deliverableBinding env d) = none := by
  rw [bindingDrift_eq_none]
  simp [deliverableBinding, currentBinding, currentArtifact, hp, present, digest, hsha]

theorem document_passes (hsha : ∀ text, env.sha256 text ≠ "") (hd : Describes payload reader proposal)
    (hb : (documentBinding env dir.evidence reader evidence).immutable = true) :
    bindingDrift env dir payload (documentBinding env dir.evidence reader evidence) = none := by
  unfold documentBinding at hb ⊢
  dsimp only at hb
  obtain ⟨row,hrow⟩ := Option.isSome_iff_exists.mp hb
  simp [bindingDrift_eq_none, currentBinding, hd.user, hd.run, hrow, present, digest, hsha]

theorem request_passes (hsha : ∀ text, env.sha256 text ≠ "") (hd : Describes payload reader proposal)
    (hb : (requestBinding env dir.evidence reader evidence).immutable = true) :
    bindingDrift env dir payload (requestBinding env dir.evidence reader evidence) = none := by
  unfold requestBinding at hb ⊢
  dsimp only at hb
  obtain ⟨row,hrow⟩ := Option.isSome_iff_exists.mp hb
  simp [bindingDrift_eq_none, currentBinding, hd.user, hd.run, hrow, present, digest, hsha]

theorem run_passes (hsha : ∀ text, env.sha256 text ≠ "")
    (hb : (runBinding env dir.runs evidence).immutable = true) :
    bindingDrift env dir payload (runBinding env dir.runs evidence) = none := by
  unfold runBinding at hb ⊢
  dsimp only at hb
  obtain ⟨row,hrow,hterminal⟩ := Option.any_eq_true _ _ |>.mp hb
  have hkept : (some row).filter RunRow.terminal = some row := by simp [Option.filter, hterminal]
  rw [bindingDrift_eq_none]
  simp [currentBinding, hrow, hkept, hterminal, present, runDigest, digest, hsha]

/-- An evidence artifact passes exactly when it is the reviewed deliverable itself. -/
theorem artifact_passes_iff {id version sha256 : String} (hsha : ∀ text, env.sha256 text ≠ "")
    (hd : Describes payload reader proposal) (hc : ∀ d, proposal.details ≠ .communication d) :
    bindingDrift env dir payload ⟨.artifact,id,some version,some sha256,true,false,none⟩ = none ↔
      RestatesDeliverable env proposal id version sha256 := by
  have hdetails : payload.details = proposal.details := by rw [← hd.proposal]
  rw [bindingDrift_eq_none]
  simp only [currentBinding, hdetails, present_some, true_and, Option.some.injEq, RestatesDeliverable]
  constructor
  · rintro ⟨-,h⟩
    unfold currentArtifact at h
    split at h
    next d hd' => exact absurd hd' (hc d)
    next d hd' =>
      split at h
      next he =>
        simp only [Prod.mk.injEq, Option.some.injEq] at h
        exact ⟨d,hd',he.symm,h.1,h.2⟩
      next => simp at h
    next => simp at h
  · rintro ⟨d,hd',rfl,rfl,rfl⟩
    exact ⟨hsha _,by simp [currentArtifact, hd']⟩

end Passing

section Exactness

theorem sorted_reviewedFields (draftOnly sender recipients subject body : List Char) :
    ([("draft_only",draftOnly),("sender",sender),("recipients",recipients),("subject",subject),
      ("body",body)] : List (String × List Char)).insertionSort (fun a b => keyLe a b = true) =
    ("body",body) :: ("draft_only",draftOnly) ::
      [("recipients",recipients),("sender",sender),("subject",subject)] := by
  simp [List.insertionSort, List.orderedInsert, keyLe]

theorem sorted_recheckedFields (sender recipients subject body : List Char) :
    ([("sender",sender),("recipients",recipients),("subject",subject),("body",body)] :
      List (String × List Char)).insertionSort (fun a b => keyLe a b = true) =
    ("body",body) :: ("recipients",recipients) :: [("sender",sender),("subject",subject)] := by
  simp [List.insertionSort, List.orderedInsert, keyLe]

/-- The binding of the reviewed copy, as the resolver makes it. -/
def communicationBody (env : Platform) (d : CommunicationDetails) : ApprovalResourceBinding :=
  ⟨.artifact,"communication-body",none,some (communicationDigest env d),true,false,some noExecutor⟩

/-- The reviewed copy never passes: only the resolver hashes `draft_only`. -/
theorem communication_drifts {d : CommunicationDetails} (hinj : Function.Injective env.sha256)
    (hp : payload.details = .communication d) :
    bindingDrift env dir payload (communicationBody env d) ≠ none := by
  intro h
  have hcurrent : currentBinding env dir payload (communicationBody env d) =
      some (none,some (recheckedCommunicationDigest env d)) := by
    simp only [currentBinding, communicationBody, hp, currentArtifact]
    rw [if_pos trivial]
  have hdigest : recheckedCommunicationDigest env d = communicationDigest env d := by
    have hsame := hcurrent.symm.trans (bindingDrift_eq_none.mp h).2.2
    exact Option.some.inj (Prod.mk.inj (Option.some.inj hsame)).2
  have htext := hinj hdigest
  rw [canonical_object, canonical_object] at htext
  simp only [List.map_cons, List.map_nil] at htext
  have hquote : quote "recipients" = '"' :: 'r' :: "ecipients\"".toList := by decide
  have hquote' : quote "draft_only" = '"' :: 'd' :: "raft_only\"".toList := by decide
  exact printObject_ne _ _ (sorted_recheckedFields ..) (sorted_reviewedFields ..) hquote hquote'
    (by decide) htext

theorem mem_sortedUnique {values : List String} {value : String} :
    value ∈ sortedUnique values ↔ value ∈ values := by
  simp [sortedUnique, List.mem_insertionSort]

theorem resource_trimmed {id : String} (hid : id ∈ resourceIds) {row : ResourceRow}
    (hrow : activeResource dir id = some row) (hversion : present row.version = true)
    (hsha : present row.sha256 = true)
    (h : (resourceBinding (resourceRows dir resourceIds) id).immutable = true →
      bindingDrift env dir payload (storedBinding
        (resourceBinding (resourceRows dir resourceIds) id)) = none) :
    row.version.map trim = row.version := by
  have hrows : resourceRows dir resourceIds id = some row := by
    rw [← hrow]
    simp [resourceRows, activeResource, hid]
  simp only [resourceBinding, hrows, hversion, hsha, Bool.and_self, forall_const] at h
  obtain ⟨-,-,h⟩ := bindingDrift_eq_none.mp h
  simp only [storedBinding, currentBinding, if_true, hrow, Option.bind_some, Option.some.injEq,
    Prod.mk.injEq, and_true] at h
  exact h.symm

theorem evidence_passes (hsha : ∀ text, env.sha256 text ≠ "") (hd : Describes payload reader proposal)
    (hc : Recheckable env dir reader proposal) (he : evidence ∈ proposal.evidence)
    (hb : b ∈ evidenceBindings env dir reader proposal evidence) (himm : b.immutable = true) :
    bindingDrift env dir payload (storedBinding b) = none := by
  unfold evidenceBindings at hb
  split at hb
  · cases hb
  next huuid =>
    have huuid : (env.parseUuid evidence.id).isSome = true := by
      simpa [Option.isSome_iff_ne_none] using huuid
    split at hb
    next hkind =>
      obtain rfl := List.mem_singleton.mp hb
      rw [storedBinding_of_kind (by simp [sourceBinding])]
      exact source_passes himm
    next hkind =>
      rcases List.mem_append.mp hb with hb | hb
      · simp only [watchArtifactBindings, List.mem_map, Option.mem_toList] at hb
        obtain ⟨a,ha,rfl⟩ := hb
        rw [storedBinding_of_kind (by simp)]
        exact (artifact_passes_iff hsha hd hc.notCommunication).mpr
          (hc.watchArtifacts evidence he hkind huuid a ha)
      · simp only [snapshotBindings, List.mem_map, Option.mem_toList] at hb
        obtain ⟨a,ha,rfl⟩ := hb
        rw [storedBinding_of_kind (by simp)]
        exact (artifact_passes_iff hsha hd hc.notCommunication).mpr
          (hc.snapshots evidence he hkind huuid a ha)
    next hkind =>
      obtain rfl := List.mem_singleton.mp hb
      rw [storedBinding_of_kind (by simp [documentBinding])]
      exact document_passes hsha hd himm
    next hkind =>
      obtain rfl := List.mem_singleton.mp hb
      rw [storedBinding_of_kind (by simp [requestBinding])]
      exact request_passes hsha hd himm
    next hkind =>
      obtain rfl := List.mem_singleton.mp hb
      rw [storedBinding_of_kind (by simp [runBinding])]
      exact run_passes hsha himm

theorem mem_evidenceBindings (hkind : evidence.kind = .artifact)
    (huuid : (env.parseUuid evidence.id).isSome = true)
    (hb : b ∈ watchArtifactBindings env dir.evidence reader proposal evidence ++
      snapshotBindings env dir.evidence reader evidence) :
    b ∈ evidenceBindings env dir reader proposal evidence := by
  have hsome : ¬ (env.parseUuid evidence.id).isNone = true := by
    simpa [Option.isSome_iff_ne_none] using huuid
  unfold evidenceBindings
  rw [if_neg hsome, hkind]
  exact hb

/-- The bindings of a proposal pass their re-check exactly when the proposal is recheckable. -/
theorem rechecks_iff_recheckable (hinj : Function.Injective env.sha256)
    (hsha : ∀ text, env.sha256 text ≠ "")
    (hids : ∀ id ∈ proposalResourceIds env.uuidText proposal, id ∈ resourceIds)
    (hd : Describes payload reader proposal) :
    Rechecks env dir payload
        (resolveResourceBindings env dir (resourceRows dir resourceIds) reader proposal) ↔
      Recheckable env dir reader proposal := by
  have hdetails : payload.details = proposal.details := by rw [← hd.proposal]
  constructor
  · intro h
    have hartifact : ∀ evidence ∈ proposal.evidence, evidence.kind = .artifact →
        (env.parseUuid evidence.id).isSome = true →
        ∀ b ∈ watchArtifactBindings env dir.evidence reader proposal evidence ++
          snapshotBindings env dir.evidence reader evidence, b.immutable = true →
        bindingDrift env dir payload (storedBinding b) = none := by
      intro evidence he hkind huuid b hb
      refine h.passes b (List.mem_append_right _ (List.mem_flatMap.mpr ⟨evidence,he,?_⟩))
      exact mem_evidenceBindings hkind huuid hb
    have hnot : ∀ d, proposal.details ≠ .communication d := by
      intro d hp
      have hmem : communicationBody env d ∈ detailBindings env dir.evidence proposal := by
        rw [detailBindings, hp]
        exact List.mem_cons_self
      have hpass := h.passes (communicationBody env d)
        (List.mem_append_left _ (List.mem_append_right _ hmem)) rfl
      rw [storedBinding_of_kind (by simp [communicationBody])] at hpass
      exact communication_drifts hinj (hdetails.trans hp) hpass
    refine ⟨hnot,?_,?_,?_⟩
    · intro id hid row hrow hversion hpresent
      refine resource_trimmed (hids id hid) hrow hversion hpresent
        (h.passes _ (List.mem_append_left _ (List.mem_append_left _ ?_)))
      exact List.mem_map_of_mem (mem_sortedUnique.mpr hid)
    · intro evidence he hkind huuid a ha
      have hpass := hartifact evidence he hkind huuid
        ⟨.artifact,env.uuidText a.id,some a.fetchedAt,some a.sha256,true,false,none⟩
        (List.mem_append_left _ (by simp [watchArtifactBindings, ha])) rfl
      exact (artifact_passes_iff hsha hd hnot).mp hpass
    · intro evidence he hkind huuid a ha
      have hpass := hartifact evidence he hkind huuid
        ⟨.artifact,evidence.id,some a.versionId,some a.sha256,true,false,none⟩
        (List.mem_append_right _ (by simp [snapshotBindings, ha])) rfl
      exact (artifact_passes_iff hsha hd hnot).mp hpass
  · intro hc
    refine ⟨?_,fun dir' b hb => (bindingDrift_eq_none.mp hb).2.2⟩
    intro b hb himm
    rcases List.mem_append.mp hb with hb | hb
    · rcases List.mem_append.mp hb with hb | hb
      · obtain ⟨id,hid,rfl⟩ := List.mem_map.mp hb
        have hid := mem_sortedUnique.mp hid
        exact resource_passes (hids id hid) (fun row hrow => hc.trimmed id hid row hrow) himm
      · unfold detailBindings at hb
        split at hb
        next d hp => exact absurd hp (hc.notCommunication d)
        next d hp =>
          obtain rfl := List.mem_singleton.mp hb
          rw [storedBinding_of_kind (by simp [deliverableBinding])]
          exact deliverable_passes hsha (hdetails.trans hp)
        next => cases hb
    · obtain ⟨evidence,he,hb⟩ := List.mem_flatMap.mp hb
      exact evidence_passes hsha hd hc he hb himm

end Exactness

/-- What an accepted proposal stores: its bindings, resolved for its own requester and run. -/
theorem resolveProposal_bindings {db : Db} {proposer : ApprovalProposerContext}
    {input : ProposeApprovalInput} {p : Proposed}
    (h : resolveProposal env db proposer input = .ok p) :
    Describes (proposedPayload env proposer input.proposal p)
      ⟨p.requester.userId,p.requester.runId,proposer.agentId⟩ input.proposal ∧
    (∀ id ∈ proposalResourceIds env.uuidText input.proposal, id ∈ p.targets.targetResourceIds) ∧
    p.bindings = resolveResourceBindings env db.directory
      (resourceRows db.directory p.targets.targetResourceIds)
      ⟨p.requester.userId,p.requester.runId,proposer.agentId⟩ input.proposal := by
  simp only [resolveProposal, Result.bind_eq_ok, Result.pure_eq_ok] at h
  obtain ⟨requester,-,_,-,_,-,targets,htargets,selected,-,_,-,_,-,_,-,rfl⟩ := h
  refine ⟨⟨rfl,rfl,rfl⟩,?_,rfl⟩
  simp only [validatedTargetContext, Result.bind_eq_ok, Result.pure_eq_ok] at htargets
  obtain ⟨_,-,_,-,_,-,_,-,_,-,_,-,_,-,_,-,rfl⟩ := htargets
  intro id hid
  exact mem_sortedUnique.mpr (List.mem_append_right _ (mem_sortedUnique.mpr hid))

section Sample

def emailDetails : CommunicationDetails :=
  ⟨.email,false,⟨1,"a@example.com"⟩,[⟨"B",some "b@example.com",none,[]⟩],none,"Hello",[],none⟩

/-- One Admin, who is the sender, reviews emails. -/
def emailDb : Db :=
  sampleDb (sampleDirectory ⟨[sampleMember 1 "admin" []],sampleAdmin_ids,sampleAdmin_users⟩
    (samplePolicyRow .communication .sequential [] [⟨"s1","Review",0,[.role "admin" 1],1⟩])
    fun _ => none)

def proposedEmailDb : Db := after samplePlatform emailDb (sampleProposal (.communication emailDetails))

set_option maxRecDepth 8000 in
/-- Nothing changed since the email was proposed, yet its reviewed copy is reported as changed. -/
theorem communication_body_reported_changed : ∃ row, proposedEmailDb.requests 0 = some row ∧
    communicationBody samplePlatform emailDetails ∈ row.payload.resourceBindings ∧
    (communicationBody samplePlatform emailDetails).immutable = true ∧
    resourceBindingDrift samplePlatform proposedEmailDb.directory row.payload =
      some "resource_binding_changed:artifact:communication-body" := by
  have h : (proposedEmailDb.requests 0).any (fun row =>
      communicationBody samplePlatform emailDetails ∈ row.payload.resourceBindings ∧
      resourceBindingDrift samplePlatform proposedEmailDb.directory row.payload =
        some "resource_binding_changed:artifact:communication-body") = true := by
    decide
  rw [Option.any_eq_true] at h
  obtain ⟨row,hrow,h⟩ := h
  rw [decide_eq_true_eq] at h
  exact ⟨row,hrow,h.1,rfl,h.2⟩

/-- A system registered with a version and a digest. -/
def versionedDb : Db :=
  sampleDb (sampleDirectory ⟨[sampleMember 1 "admin" []],sampleAdmin_ids,sampleAdmin_users⟩
    (samplePolicyRow .recordChange .sequential [] [⟨"s1","Review",0,[.role "admin" 1],1⟩])
    fun id => if id = "system" then some ⟨1,some "v1",some "digest",false,true⟩ else none)

def versionedInput : ProposeApprovalInput :=
  ⟨"Label","policy",⟨.recordChange "system",[],false,.null⟩,[],[],[],[],none,"proposal-1"⟩

/-- The bindings of the record change on that system pass. -/
theorem rechecks_iff_recheckable_versioned : ∃ p,
    resolveProposal samplePlatform versionedDb ⟨1,none,none,none,none,none⟩ versionedInput = .ok p ∧
    Rechecks samplePlatform versionedDb.directory (proposedPayload samplePlatform
      ⟨1,none,none,none,none,none⟩ versionedInput.proposal p) p.bindings := by
  have hok : (resolveProposal samplePlatform versionedDb ⟨1,none,none,none,none,none⟩
      versionedInput).toOption.isSome = true := by decide
  cases hp : resolveProposal samplePlatform versionedDb ⟨1,none,none,none,none,none⟩
    versionedInput with
  | error e => rw [hp] at hok; cases hok
  | ok p =>
    obtain ⟨hdescribes,hids,hbindings⟩ := resolveProposal_bindings hp
    have hinj : Function.Injective samplePlatform.sha256 := by
      intro a b h
      exact (List.cons.inj (String.ofList_injective h)).2
    have hsha : ∀ text, samplePlatform.sha256 text ≠ "" := by
      intro text h
      have := String.ofList_injective (h.trans String.ofList_nil.symm)
      cases this
    refine ⟨p,rfl,?_⟩
    rw [hbindings]
    refine (rechecks_iff_recheckable hinj hsha hids hdescribes).mpr ⟨?_,?_,?_,?_⟩
    · intro d h
      cases h
    · intro id hid row hrow _ _
      obtain rfl := List.mem_singleton.mp hid
      cases hrow
      decide
    · intro evidence he
      cases he
    · intro evidence he
      cases he

end Sample

end HermesEnterprise.Approvals
