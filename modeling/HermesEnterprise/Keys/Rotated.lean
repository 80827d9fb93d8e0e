import HermesEnterprise.Keys.Rotation

/-! # What a rotation leaves

Row by row, a rotation changes nothing but the wrapped data key and its version, and every row that was
paired stays so. Listed rows reach the new version. The rows of the other tables stay where they are.
-/
namespace HermesEnterprise.Secrets
open Foundation Foundation.Tables Foundation.Utf8 Envelope

variable {P : Platform} {master : ℕ → Bytes} {rows rows' : List SecretRow} {r r' : SecretRow} {k : SecretKey}
  {ρ : Rotation master} {toVersion : ℕ}

/-- What a rotation may do to a row. -/
structure Advanced (P : Platform) (master : ℕ → Bytes) (r r' : SecretRow) : Prop where
  key : r'.key = r.key
  standing : r'.standing = r.standing
  text : r'.text = r.text
  ciphertext : r'.envelope.ciphertext = r.envelope.ciphertext
  iv : r'.envelope.iv = r.envelope.iv
  paired : r.Paired P master → r'.Paired P master
  unlisted : r.listed = false → r' = r

theorem Advanced.refl (r : SecretRow) : Advanced P master r r := ⟨rfl,rfl,rfl,rfl,rfl,id,fun _ => rfl⟩

theorem Advanced.live (h : Advanced P master r r') : r'.live = r.live := by
  simp only [SecretRow.live, h.standing]

theorem Advanced.listed (h : Advanced P master r r') : r'.listed = r.listed := by
  simp only [SecretRow.listed, h.key, h.live]

theorem Advanced.trans {r'' : SecretRow} (h : Advanced P master r r') (h' : Advanced P master r' r'') :
    Advanced P master r r'' where
  key := h'.key.trans h.key
  standing := h'.standing.trans h.standing
  text := h'.text.trans h.text
  ciphertext := h'.ciphertext.trans h.ciphertext
  iv := h'.iv.trans h.iv
  paired := fun hp => h'.paired (h.paired hp)
  unlisted := fun hl => (h'.unlisted (h.listed.trans hl)).trans (h.unlisted hl)

/-- All rows, in their order. -/
def AllAdvanced (P : Platform) (master : ℕ → Bytes) : List SecretRow → List SecretRow → Prop :=
  List.Forall₂ (Advanced P master)

theorem AllAdvanced.refl (rows : List SecretRow) : AllAdvanced P master rows rows :=
  List.forall₂_same.mpr fun r _ => Advanced.refl r

theorem AllAdvanced.trans {rows'' : List SecretRow} (h : AllAdvanced P master rows rows')
    (h' : AllAdvanced P master rows' rows'') : AllAdvanced P master rows rows'' := by
  induction h generalizing rows'' with
  | nil => exact h'
  | cons hr _ ih =>
    cases h' with
    | cons hr' hrest => exact .cons (hr.trans hr') (ih hrest)

theorem AllAdvanced.map {α : Type} {g : SecretRow → α} (h : AllAdvanced P master rows rows')
    (hg : ∀ r r', Advanced P master r r' → g r' = g r) : rows'.map g = rows.map g := by
  induction h with
  | nil => rfl
  | cons hr _ ih => rw [List.map_cons, List.map_cons, hg _ _ hr, ih]

theorem AllAdvanced.source (h : AllAdvanced P master rows rows') (hr : r' ∈ rows') :
    ∃ r ∈ rows, Advanced P master r r' := by
  induction h with
  | nil => cases hr
  | @cons r s rest rest' hrs hrest ih =>
    rcases List.mem_cons.mp hr with rfl | hr
    · exact ⟨r,List.mem_cons_self,hrs⟩
    · obtain ⟨q,hq,hadvanced⟩ := ih hr
      exact ⟨q,List.mem_cons_of_mem _ hq,hadvanced⟩

theorem AllAdvanced.target (h : AllAdvanced P master rows rows') (hr : r ∈ rows) :
    ∃ r' ∈ rows', Advanced P master r r' := by
  induction h with
  | nil => cases hr
  | @cons s r' rest rest' hrs hrest ih =>
    rcases List.mem_cons.mp hr with rfl | hr
    · exact ⟨r',List.mem_cons_self,hrs⟩
    · obtain ⟨q,hq,hadvanced⟩ := ih hr
      exact ⟨q,List.mem_cons_of_mem _ hq,hadvanced⟩

theorem AllAdvanced.nodup (h : AllAdvanced P master rows rows') (hn : (rows.map (·.key)).Nodup) :
    (rows'.map (·.key)).Nodup := by
  rw [h.map (fun _ _ hr => hr.key)]
  exact hn

/-! ## One row -/

theorem matchesRewrap_key {v : ℕ} (h : matchesRewrap k v r = true) : r.key = k ∧ r.envelope.kekVersion = v := by
  simp only [matchesRewrap, Bool.and_eq_true, decide_eq_true_eq] at h
  exact h.1

/-- The one row of a key. -/
theorem eq_of_key (hn : (rows.map (·.key)).Nodup) (hr : r ∈ rows) (hr' : r' ∈ rows) (h : r.key = r'.key) : r = r' :=
  List.inj_on_of_nodup_map hn hr hr' h

/-- A live row of a listed table is found. -/
theorem selectForRewrap_of_listed (hn : (rows.map (·.key)).Nodup) (hr : r ∈ rows) (hlisted : r.listed = true) :
    selectForRewrap rows r.key = some r := by
  have hfind : rowOf rows r.key = some r := find?_key hn hr
  obtain ⟨htable,hlive⟩ := Bool.and_eq_true_iff.mp hlisted
  unfold selectForRewrap
  split
  · exact hfind
  · rw [hfind, Option.filter_some, if_pos hlive]
  · rw [hfind, Option.filter_some, if_pos hlive]
  · rw [hfind, Option.filter_some, if_pos hlive]
  · rename_i hprovider hslack hconnection hattempt
    cases htable' : r.key.table <;> simp_all [credentialKind]

/-- What the re-wrap of one listed row does to the rows, where it does not fail. -/
structure RowDone (P : Platform) (master : ℕ → Bytes) (toVersion : ℕ) (rows rows' : List SecretRow) : Prop where
  advanced : AllAdvanced P master rows rows'
  moved : ∀ r ∈ rows', r ∈ rows ∨ r.envelope.kekVersion = toVersion

theorem RowDone.refl (rows : List SecretRow) : RowDone P master toVersion rows rows :=
  ⟨AllAdvanced.refl rows,fun _ hr => Or.inl hr⟩

theorem RowDone.trans {rows'' : List SecretRow} (h : RowDone P master toVersion rows rows')
    (h' : RowDone P master toVersion rows' rows'') : RowDone P master toVersion rows rows'' := by
  refine ⟨h.advanced.trans h'.advanced,?_⟩
  intro r hr
  rcases h'.moved r hr with hr | hversion
  · exact h.moved r hr
  · exact Or.inr hversion

theorem updateRewrapped_done {v : ℕ} {w : Wrap} (hversion : w.kekVersion = toVersion)
    (hadvanced : ∀ r ∈ rows, matchesRewrap k v r = true → Advanced P master r (r.rewrapped w)) :
    RowDone P master toVersion rows (updateRewrapped rows k v w) := by
  constructor
  · unfold AllAdvanced updateRewrapped updateWhere
    rw [List.forall₂_map_right_iff, List.forall₂_same]
    intro r hr
    by_cases hmatch : matchesRewrap k v r = true
    · rw [if_pos hmatch]
      exact hadvanced r hr hmatch
    · rw [if_neg hmatch]
      exact Advanced.refl r
  · intro r hr
    rcases mem_updateWhere.mp hr with ⟨s,-,-,rfl⟩ | ⟨hr,-⟩
    · exact Or.inr hversion
    · exact Or.inl hr

/-- The re-wrap of a listed row, without a failure, brings the row to the version. -/
theorem rewrapCredential_done {p : Process master} {missing : Except RewrapFailure (List SecretRow × Bool)} {wrapIv : Bytes}
    {changed : Bool} (hn : (rows.map (·.key)).Nodup) (hr : r ∈ rows) (hlisted : r.listed = true)
    (h : rewrapCredential P missing rows p r.key toVersion wrapIv = .ok (rows',changed)) :
    RowDone P master toVersion rows rows' ∧ ∀ s ∈ rows', s.key = r.key → s.envelope.kekVersion = toVersion := by
  simp only [rewrapCredential, selectForRewrap_of_listed hn hr hlisted] at h
  split at h
  · rename_i hversion
    obtain ⟨rfl,-⟩ := Prod.mk.inj (Except.ok.inj h)
    refine ⟨RowDone.refl rows,?_⟩
    intro s hs hkey
    rw [eq_of_key hn hs hr hkey, hversion]
  · split at h
    · cases h
    · rename_i w hw
      obtain ⟨rfl,-⟩ := Prod.mk.inj (Except.ok.inj h)
      have hversion := rewrapAs_version hw
      have hmatched : ∀ s ∈ rows, matchesRewrap r.key r.envelope.kekVersion s = true → s = r :=
        fun s hs hmatch => eq_of_key hn hs hr (matchesRewrap_key hmatch).1
      have hmatch : matchesRewrap r.key r.envelope.kekVersion r = true := by
        have hlive := (Bool.and_eq_true_iff.mp hlisted).2
        unfold matchesRewrap
        split <;> simp [hlive]
      refine ⟨updateRewrapped_done hversion ?_,?_⟩
      · intro s hs hmatch
        obtain rfl := hmatched s hs hmatch
        exact ⟨rfl,rfl,rfl,rfl,rfl,fun hp => hp.rewrapped hw,fun hl => absurd (hlisted.symm.trans hl) (by simp)⟩
      · intro s hs hkey
        rcases mem_updateWhere.mp hs with ⟨t,-,-,rfl⟩ | ⟨hs,hnot⟩
        · exact hversion
        · obtain rfl := eq_of_key hn hs hr hkey
          exact absurd (hmatch.symm.trans hnot) (by simp)

theorem rewrapTarget_done {changed : Bool} (hn : (rows.map (·.key)).Nodup) (hr : r ∈ rows) (hlisted : r.listed = true)
    (h : rewrapTarget P ρ rows r.key = .ok (rows',changed)) :
    RowDone P master ρ.toVersion rows rows' ∧ ∀ s ∈ rows', s.key = r.key → s.envelope.kekVersion = ρ.toVersion := by
  unfold rewrapTarget at h
  split at h
  · cases h
  · split at h
    · exact rewrapCredential_done hn hr hlisted h
    · exact rewrapCredential_done hn hr hlisted h
    · exact rewrapCredential_done hn hr hlisted h
    · exact rewrapCredential_done hn hr hlisted h

/-! ## The targets of one workspace -/

/-- One target: either it failed and the report says so, or its row is on the version. -/
theorem recordTarget_done (report : RotationReport) (hn : (rows.map (·.key)).Nodup) (hr : r ∈ rows)
    (hlisted : r.listed = true) :
    let out := recordTarget r.key rows report (rewrapTarget P ρ rows r.key)
    RowDone P master ρ.toVersion rows out.1 ∧ (out.2.failed = [] →
      report.failed = [] ∧ ∀ s ∈ out.1, s.key = r.key → s.envelope.kekVersion = ρ.toVersion) := by
  intro out
  cases htarget : rewrapTarget P ρ rows r.key with
  | error failure =>
    have hout : out = (rows, { report with failed := report.failed ++ [r.key] }) := by simp only [out, htarget, recordTarget]
    rw [hout]
    exact ⟨RowDone.refl rows,fun hfailed => absurd hfailed (by simp)⟩
  | ok done =>
    obtain ⟨rows',changed⟩ := done
    obtain ⟨hdone,hversion⟩ := rewrapTarget_done hn hr hlisted htarget
    have hrows : out.1 = rows' ∧ out.2.failed = report.failed := by
      cases changed <;> simp only [out, htarget, recordTarget, and_self]
    rw [hrows.1, hrows.2]
    exact ⟨hdone,fun hfailed => ⟨hfailed,hversion⟩⟩

/-- The targets one after the other: where none failed, each target is on the version. -/
theorem rotateTargets_done (ρ : Rotation master) (targets : List SecretKey) (report : RotationReport)
    (hn : (rows.map (·.key)).Nodup) (htargets : ∀ k ∈ targets, ∃ r ∈ rows, r.key = k ∧ r.listed = true) :
    let out := rotateTargets P ρ targets (rows,report)
    RowDone P master ρ.toVersion rows out.1 ∧ (out.2.failed = [] →
      report.failed = [] ∧ ∀ r ∈ out.1, r.key ∈ targets → r.envelope.kekVersion = ρ.toVersion) := by
  induction targets generalizing rows report with
  | nil => exact ⟨RowDone.refl rows,fun hfailed => ⟨hfailed,fun _ _ hr => absurd hr List.not_mem_nil⟩⟩
  | cons k rest ih =>
    obtain ⟨r,hr,rfl,hlisted⟩ := htargets k List.mem_cons_self
    obtain ⟨hdone,hversion⟩ := recordTarget_done (P := P) (ρ := ρ) report hn hr hlisted
    rw [rotateTargets]
    generalize recordTarget r.key rows report (rewrapTarget P ρ rows r.key) = next at hdone hversion
    have hrest : ∀ k ∈ rest, ∃ s ∈ next.1, s.key = k ∧ s.listed = true := by
      intro k hk
      obtain ⟨s,hs,hkey,hlisted⟩ := htargets k (List.mem_cons_of_mem _ hk)
      obtain ⟨s',hs',hadvanced⟩ := hdone.advanced.target hs
      exact ⟨s',hs',hadvanced.key.trans hkey,hadvanced.listed.trans hlisted⟩
    obtain ⟨hdone',hversion'⟩ := ih next.2 (hdone.advanced.nodup hn) hrest
    refine ⟨hdone.trans hdone',?_⟩
    intro hfailed
    obtain ⟨hnext,htargets'⟩ := hversion' hfailed
    obtain ⟨hreport,hfirst⟩ := hversion hnext
    refine ⟨hreport,?_⟩
    intro s hs hkey
    rcases List.mem_cons.mp hkey with hkey | hkey
    · rcases hdone'.moved s hs with hs | hs
      · exact hfirst s hs hkey
      · exact hs
    · exact htargets' s hs hkey

theorem mem_listRotationTargets {workspaceId : Uuid} : k ∈ listRotationTargets rows workspaceId toVersion ↔
    ∃ r ∈ rows, r.key = k ∧ r.key.workspaceId = workspaceId ∧ r.listed = true ∧ r.envelope.kekVersion ≠ toVersion := by
  unfold listRotationTargets
  rw [List.mem_insertionSort, List.mem_map]
  constructor
  · rintro ⟨r,hr,rfl⟩
    obtain ⟨hr,hp⟩ := List.mem_filter.mp hr
    simp only [Bool.and_eq_true, decide_eq_true_eq] at hp
    exact ⟨r,hr,rfl,hp.1.1,hp.1.2,hp.2⟩
  · rintro ⟨r,hr,rfl,hworkspace,hlisted,hversion⟩
    exact ⟨r,List.mem_filter.mpr ⟨hr,by simp [hworkspace, hlisted, hversion]⟩,rfl⟩

/-- A workspace whose rotation reports no failure has its listed rows on the version. -/
theorem runKekRotation_done (ρ : Rotation master) (workspaceId : Uuid) (hn : (rows.map (·.key)).Nodup) :
    let out := runKekRotation P ρ rows (listRotationTargets rows workspaceId ρ.toVersion)
    RowDone P master ρ.toVersion rows out.1 ∧ (out.2.failed = [] →
      ∀ r ∈ out.1, r.listed = true → r.key.workspaceId = workspaceId → r.envelope.kekVersion = ρ.toVersion) := by
  intro out
  have htargets : ∀ k ∈ listRotationTargets rows workspaceId ρ.toVersion, ∃ r ∈ rows, r.key = k ∧ r.listed = true := by
    intro k hk
    obtain ⟨r,hr,hkey,-,hlisted,-⟩ := mem_listRotationTargets.mp hk
    exact ⟨r,hr,hkey,hlisted⟩
  obtain ⟨hdone,hversion⟩ := rotateTargets_done (P := P) ρ _ ⟨ρ.toVersion,_,0,0,fun _ => 0,[]⟩ hn htargets
  refine ⟨hdone,?_⟩
  intro hfailed r hr hlisted hworkspace
  rcases hdone.moved r hr with hold | hmoved
  · by_contra hne
    exact hne ((hversion hfailed).2 r hr (mem_listRotationTargets.mpr ⟨r,hold,rfl,hworkspace,hlisted,hne⟩))
  · exact hmoved

/-! ## Whole rotations -/

theorem rotateWorkspaces_done (ρ : Rotation master) (workspaces : List Uuid) (hn : (rows.map (·.key)).Nodup) :
    let out := rotateWorkspaces P ρ workspaces rows
    RowDone P master ρ.toVersion rows out.1 ∧ ((∀ report ∈ out.2, report.failed = []) →
      ∀ r ∈ out.1, r.listed = true → r.key.workspaceId ∈ workspaces → r.envelope.kekVersion = ρ.toVersion) := by
  induction workspaces generalizing rows with
  | nil => exact ⟨RowDone.refl rows,fun _ _ _ _ hr => absurd hr List.not_mem_nil⟩
  | cons workspaceId rest ih =>
    obtain ⟨hdone,hversion⟩ := runKekRotation_done (P := P) ρ workspaceId hn
    obtain ⟨hdone',hversion'⟩ := ih (hdone.advanced.nodup hn)
    refine ⟨hdone.trans hdone',?_⟩
    intro hfailed r hr hlisted hworkspace
    rcases List.mem_cons.mp hworkspace with hworkspace | hworkspace
    · rcases hdone'.moved r hr with hold | hmoved
      · exact hversion (hfailed _ List.mem_cons_self) r hold hlisted hworkspace
      · exact hmoved
    · exact hversion' (fun report hreport => hfailed report (List.mem_cons_of_mem _ hreport)) r hr hlisted hworkspace

theorem afterRotations_advanced (rotations : List (Rotation master)) (hn : (rows.map (·.key)).Nodup) :
    AllAdvanced P master rows (afterRotations P rotations rows) := by
  induction rotations generalizing rows with
  | nil => exact AllAdvanced.refl rows
  | cons ρ rest ih =>
    have hdone := (rotateWorkspaces_done (P := P) ρ ρ.workspaces hn).1
    exact hdone.advanced.trans (ih (hdone.advanced.nodup hn))

/-- What a rotation must leave of a row: its secret and the columns around it. -/
def SecretRow.data (r : SecretRow) : SecretKey × Standing × String × Bytes × Bytes :=
  (r.key,r.standing,r.text,r.envelope.ciphertext,r.envelope.iv)

/-- Rotations keep every secret, whatever fails. Each live row opens to its text wherever its master key is
configured, unless the text starts with the mark that the decoder drops. Where the last rotation goes
through every workspace and reports no failure, all live rows are on its version if and only if the live
rows of the tables that the list leaves out were on it before. -/
theorem rotation_complete_iff (P : Platform) (master : ℕ → Bytes) (rows : List SecretRow) (earlier : List (Rotation master))
    (ρ : Rotation master) (hn : (rows.map (·.key)).Nodup) (hsealed : ∀ r ∈ rows, r.live = true → r.Paired P master)
    (hworkspaces : ∀ r ∈ rows, r.key.workspaceId ∈ ρ.workspaces) :
    let before := afterRotations P earlier rows
    let out := rotateWorkspaces P ρ ρ.workspaces before
    (∀ r ∈ out.1, r.live = true → ∀ p : Process master, Configured p.env r.envelope.kekVersion →
      (openAs P p.env r.key.owner r.envelope = .ok r.text ↔ r.text.toList.head? ≠ some mark)) ∧
    out.1.map SecretRow.data = rows.map SecretRow.data ∧
    ((∀ report ∈ out.2, report.failed = []) →
      ((∀ r ∈ out.1, r.live = true → r.envelope.kekVersion = ρ.toVersion) ↔
        ∀ r ∈ before, r.live = true → credentialKind r.key.table = none → r.envelope.kekVersion = ρ.toVersion)) := by
  intro before out
  have hbefore : AllAdvanced P master rows before := afterRotations_advanced earlier hn
  obtain ⟨hdone,hversion⟩ := rotateWorkspaces_done (P := P) ρ ρ.workspaces (hbefore.nodup hn)
  have hall : AllAdvanced P master rows out.1 := hbefore.trans hdone.advanced
  refine ⟨?_,hall.map fun r r' h => ?_,?_⟩
  · intro r hr hlive p hconfigured
    obtain ⟨s,hs,hadvanced⟩ := hall.source hr
    obtain ⟨dek,hsealing⟩ := hadvanced.paired (hsealed s hs (hadvanced.live.symm.trans hlive))
    exact opens_plaintext_iff hsealing (Process.configured hconfigured)
  · simp only [SecretRow.data, h.key, h.standing, h.text, h.ciphertext, h.iv]
  · intro hfailed
    constructor
    · intro hnew r hr hlive hkind
      obtain ⟨r',hr',hadvanced⟩ := hdone.advanced.target hr
      have hsame := hadvanced.unlisted (by simp [SecretRow.listed, hkind])
      rw [hsame] at hr'
      exact hnew r hr' hlive
    · intro hold r hr hlive
      cases hkind : credentialKind r.key.table with
      | none =>
        rcases hdone.moved r hr with hr | hmoved
        · exact hold r hr hlive hkind
        · exact hmoved
      | some kind =>
        obtain ⟨s,hs,hadvanced⟩ := hall.source hr
        refine hversion hfailed r hr (by simp [SecretRow.listed, hkind, hlive]) ?_
        rw [hadvanced.key]
        exact hworkspaces s hs

/-! A provider key and a runtime binding under the first version, and a rotation to the second. -/

def sampleSealed (table : SecretTable) : Option SecretRow :=
  let k : SecretKey := ⟨table,sampleWorkspace,sampleId⟩
  ((sealAs samplePlatform twoKeys k.owner "token" sampleRandomness).toOption).map fun envelope =>
    { key := k, standing := .current, slackInstallKey := "", envelope, text := "token" }

def sampleRows : List SecretRow := [.providerKeys,.runtimeBindings].filterMap sampleSealed

def sampleRotation : Rotation sampleMaster :=
  { process := sampleProcess, toVersion := 2, workspaces := [sampleWorkspace], draws := fun _ => some [1,2,3] }

theorem sampleRows_paired : ∀ r ∈ sampleRows, r.Paired samplePlatform sampleMaster := by
  intro r hr
  obtain ⟨table,-,htable⟩ := List.mem_filterMap.mp hr
  obtain ⟨envelope,hsealed,rfl⟩ := Option.map_eq_some_iff.mp htable
  cases hresult : sealAs samplePlatform twoKeys (SecretKey.owner ⟨table,sampleWorkspace,sampleId⟩) "token" sampleRandomness with
  | error failure =>
    rw [hresult] at hsealed
    cases hsealed
  | ok e =>
    rw [hresult] at hsealed
    cases hsealed
    exact paired_of_sealed (p := sampleProcess) hresult

theorem rotation_complete_iff_sample :
    let out := rotateWorkspaces samplePlatform sampleRotation [sampleWorkspace] sampleRows
    (∀ r ∈ out.1, r.live = true → ∀ p : Process sampleMaster, Configured p.env r.envelope.kekVersion →
      (openAs samplePlatform p.env r.key.owner r.envelope = .ok r.text ↔ r.text.toList.head? ≠ some mark)) ∧
    out.1.map SecretRow.data = sampleRows.map SecretRow.data ∧
    ((∀ report ∈ out.2, report.failed = []) →
      ((∀ r ∈ out.1, r.live = true → r.envelope.kekVersion = 2) ↔
        ∀ r ∈ sampleRows, r.live = true → credentialKind r.key.table = none → r.envelope.kekVersion = 2)) :=
  rotation_complete_iff samplePlatform sampleMaster sampleRows [] sampleRotation (by decide)
    (fun r hr _ => sampleRows_paired r hr) (by decide)

set_option maxRecDepth 8000 in
/-- The rotation reports no failure, and the live binding stays on the first version: a process that only
has the new key cannot open it. -/
theorem binding_left_behind :
    let out := rotateWorkspaces samplePlatform sampleRotation [sampleWorkspace] sampleRows
    (∀ report ∈ out.2, report.failed = []) ∧
      ∃ r ∈ out.1, r.live = true ∧ r.envelope.kekVersion ≠ 2 ∧
        openAs samplePlatform (twoKeys.drop 1) r.key.owner r.envelope = fail .kekVersionUnknown := by
  decide

end HermesEnterprise.Secrets
