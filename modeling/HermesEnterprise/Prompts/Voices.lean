import HermesEnterprise.Prompts.ContextFields

/-! # Whose voice a field has

A row keeps the run of its first writer, or the absence of one, whoever writes to it later. So a field is
printed under its last author exactly as long as every writer meets rows of its own kind.
-/
namespace HermesEnterprise.Prompts
open Inbound Foundation Foundation.Runs Foundation.Tables
variable {findings : Text → Bool} {w w' : World} {e : Event} {field row : ContextField} {edit : ContextField → ContextField}
variable {agentId : ℕ} {key : Text}

theorem ofKey_iff : ofKey agentId key field = true ↔ field.agentId = agentId ∧ field.key = key := by
  simp [ofKey]

theorem allOfRuns_iff : allOfRuns w agentId key = true ↔
    ∀ field ∈ w.fields, field.agentId = agentId → field.key = key → field.runId ≠ none := by
  simp only [allOfRuns, List.all_eq_true, Bool.or_eq_true, Bool.not_eq_true']
  refine forall₂_congr fun field _ => ?_
  cases hkey : ofKey agentId key field with
  | true => simp [ofKey_iff.mp hkey, Option.isSome_iff_ne_none]
  | false =>
    have hne : ¬ (field.agentId = agentId ∧ field.key = key) := fun h => by
      rw [ofKey_iff.mpr h] at hkey
      cases hkey
    simp only [true_or, true_iff]
    exact fun ha hk => absurd ⟨ha,hk⟩ hne

theorem noneOfRuns_iff : noneOfRuns w agentId key = true ↔
    ∀ field ∈ w.fields, field.agentId = agentId → field.key = key → field.runId = none := by
  simp only [noneOfRuns, List.all_eq_true, Bool.or_eq_true, Bool.not_eq_true']
  refine forall₂_congr fun field _ => ?_
  cases hkey : ofKey agentId key field with
  | true => simp [ofKey_iff.mp hkey]
  | false =>
    have hne : ¬ (field.agentId = agentId ∧ field.key = key) := fun h => by
      rw [ofKey_iff.mpr h] at hkey
      cases hkey
    simp only [true_or, true_iff]
    exact fun ha hk => absurd ⟨ha,hk⟩ hne

/-- An edit that keeps the key and the run of a row. -/
def Keeps (edit : ContextField → ContextField) : Prop :=
  ∀ field, (edit field).agentId = field.agentId ∧ (edit field).key = field.key ∧ (edit field).runId = field.runId

/-- The rows after an upsert, as far as the prompt reads their author. -/
theorem mem_upsertField (h : Keeps edit) {fields : List ContextField} (hfield : field ∈ upsertField fields row edit) :
    (∃ old ∈ fields, old.agentId = field.agentId ∧ old.key = field.key ∧ old.runId = field.runId) ∨
      field = row ∧ ∀ old ∈ fields, ¬ (old.agentId = row.agentId ∧ old.key = row.key) := by
  unfold upsertField at hfield
  split at hfield
  · left
    obtain ⟨old,hold,-,rfl⟩ | ⟨hold,-⟩ := mem_updateWhere.mp hfield
    · exact ⟨old,hold,(h old).1.symm,(h old).2.1.symm,(h old).2.2.symm⟩
    · exact ⟨field,hold,rfl,rfl,rfl⟩
  · rename_i hany
    obtain hold | hrow := List.mem_append.mp hfield
    · exact .inl ⟨field,hold,rfl,rfl,rfl⟩
    · refine .inr ⟨List.mem_singleton.mp hrow,fun old hold hkey => hany ?_⟩
      exact List.any_eq_true.mpr ⟨old,hold,ofKey_iff.mpr hkey⟩

/-- Every row that was there is still there under its key and run. -/
theorem kept_upsertField (h : Keeps edit) (row : ContextField) {fields : List ContextField} (hfield : field ∈ fields) :
    ∃ new ∈ upsertField fields row edit, new.agentId = field.agentId ∧ new.key = field.key ∧ new.runId = field.runId := by
  unfold upsertField
  split
  · by_cases hkey : ofKey row.agentId row.key field = true
    · exact ⟨edit field,mem_updateWhere.mpr (.inl ⟨field,hfield,hkey,rfl⟩),h field⟩
    · exact ⟨field,mem_updateWhere.mpr (.inr ⟨hfield,by simpa using hkey⟩),rfl,rfl,rfl⟩
  · exact ⟨field,List.mem_append_left _ hfield,rfl,rfl,rfl⟩

/-- After an upsert there is a row of its key: the new one, where there was none. -/
theorem exists_upsertField (h : Keeps edit) (fields : List ContextField) (row : ContextField) :
    ∃ new ∈ upsertField fields row edit, new.agentId = row.agentId ∧ new.key = row.key ∧
      ((∃ old ∈ fields, old.agentId = row.agentId ∧ old.key = row.key ∧ old.runId = new.runId) ∨
        (∀ old ∈ fields, ¬ (old.agentId = row.agentId ∧ old.key = row.key)) ∧ new.runId = row.runId) := by
  by_cases hany : fields.any (ofKey row.agentId row.key) = true
  · obtain ⟨old,hold,hkey⟩ := List.any_eq_true.mp hany
    obtain ⟨hagent,hk⟩ := ofKey_iff.mp hkey
    obtain ⟨new,hnew,ha,hkn,hr⟩ := kept_upsertField h row hold
    exact ⟨new,hnew,ha.trans hagent,hkn.trans hk,.inl ⟨old,hold,hagent,hk,hr.symm⟩⟩
  · refine ⟨row,?_,rfl,rfl,.inr ⟨fun old hold hkey => hany ?_,rfl⟩⟩
    · rw [upsertField, if_neg hany]
      exact List.mem_append_right _ (List.mem_singleton_self row)
    · exact List.any_eq_true.mpr ⟨old,hold,ofKey_iff.mpr hkey⟩

/-- A person wrote last. -/
def PersonLast (log : List Entry) (agentId : ℕ) (key : Text) : Prop :=
  ∃ author, lastAuthor log agentId key = some author ∧ author.isPerson = true

/-- Rows without a run are those that a person wrote last. -/
def Agree (w : World) : Prop := ∀ field ∈ w.fields, field.runId = none ↔ PersonLast w.log field.agentId field.key

/-- What holds along a run whose writers meet rows of their own kind: rows agree with their last author, and
what a person has written stays a row without a run. -/
structure Held (w : World) : Prop where
  agree : Agree w
  written : ∀ agentId key user, ⟨agentId,key,.person user,true⟩ ∈ w.log →
    (∃ field ∈ w.fields, field.agentId = agentId ∧ field.key = key) ∧ noneOfRuns w agentId key = true
  /-- No model's write comes after a person's. -/
  order : ∀ agentId key runId toolCallId user,
    ¬ [⟨agentId,key,.model runId toolCallId,true⟩,⟨agentId,key,.person user,true⟩].Sublist w.log

theorem mem_loadWorkspaceContext : field ∈ loadWorkspaceContext w agentId ↔ field ∈ w.fields ∧ field.agentId = agentId := by
  simp [loadWorkspaceContext]

theorem Voices.agree (h : Voices w) : Agree w := by
  intro field hfield
  have hload : field ∈ loadWorkspaceContext w field.agentId := mem_loadWorkspaceContext.mpr ⟨hfield,rfl⟩
  have hhuman := h.human ⟨[],[],[],none⟩ [] field.agentId field hload
  rw [printedAsHuman_iff] at hhuman
  exact ⟨fun hnone => hhuman.mp ⟨hload,hnone⟩,fun hlast => (hhuman.mpr hlast).2⟩

/-- Every row that an author meets at a key, and the row that is written where there is none, is of the
author's kind. -/
def Suits (w : World) (row : ContextField) (author : Author) : Prop :=
  (∀ old ∈ w.fields, old.agentId = row.agentId → old.key = row.key → (old.runId = none ↔ author.isPerson = true)) ∧
    ((∀ old ∈ w.fields, ¬ (old.agentId = row.agentId ∧ old.key = row.key)) → (row.runId = none ↔ author.isPerson = true))

/-- What an event does to rows and log, and whether it fits. -/
inductive Effect (w w' : World) (fit : Prop) : Prop
  | quiet (hfields : w'.fields = w.fields) (hlog : w'.log = w.log) (hfit : fit)
  | ran (entry : Entry) (hwrote : entry.wrote = false) (hfields : w'.fields = w.fields) (hlog : w'.log = entry :: w.log)
      (hfit : fit)
  | asked (row : ContextField) (hrun : row.runId ≠ none) (hfields : w'.fields = upsertField w.fields row fun field => field)
      (hlog : w'.log = w.log) (hfit : fit)
  | wrote (row : ContextField) (edit : ContextField → ContextField) (author : Author) (hkeeps : Keeps edit)
      (hfields : w'.fields = upsertField w.fields row edit)
      (hlog : w'.log = ⟨row.agentId,row.key,author,true⟩ :: w.log) (hfit : fit ↔ Suits w row author)

theorem findRun_bind {runs : List RunRow} {runId : ℕ} {f : RunRow → Except Failure World}
    (h : (findRun runs runId).bind f = .ok w') :
    ∃ run, runs.find? (fun r => decide (r.id = runId)) = some run ∧ f run = .ok w' := by
  unfold findRun at h
  cases hfind : runs.find? (fun r => decide (r.id = runId)) with
  | none => rw [hfind] at h; cases h
  | some run => rw [hfind] at h; exact ⟨run,rfl,h⟩

theorem findRun_map {runs : List RunRow} {runId : ℕ} {f : RunRow → World} (h : (findRun runs runId).map f = .ok w') :
    ∃ run, runs.find? (fun r => decide (r.id = runId)) = some run ∧ f run = w' := by
  obtain ⟨run,hfind,hrun⟩ := findRun_bind (f := fun run => .ok (f run)) h
  exact ⟨run,hfind,Except.ok.inj hrun⟩

/-- A person's edit. -/
theorem effect_editField {user : ℕ} {value : Option Text} {scope : Scope} :
    Effect w (editField w user agentId key value scope) (noneOfRuns w agentId key = true) := by
  refine .wrote ⟨agentId,key,value,scope,some user,none,none⟩
    (fun field => { field with value := value, scope := scope, setBy := some user }) (.person user)
    (fun _ => ⟨rfl,rfl,rfl⟩) rfl rfl ?_
  rw [noneOfRuns_iff]
  exact ⟨fun h => ⟨fun old hold ha hk => iff_of_true (h old hold ha hk) rfl,fun _ => iff_of_true rfl rfl⟩,
    fun h old hold ha hk => (h.1 old hold ha hk).mpr rfl⟩

theorem effect_setContextField (w : World) (call : ToolWrite) :
    Effect w (setContextField w call) (allOfRuns w call.agentId call.key = true) := by
  refine .wrote ⟨call.agentId,call.key,some call.value,call.scope,none,some call.runId,some call.toolCallId⟩
    (fun field => { field with value := some call.value, scope := call.scope }) (.model call.runId call.toolCallId) (fun _ => ⟨rfl,rfl,rfl⟩) rfl rfl ?_
  rw [allOfRuns_iff]
  constructor
  · intro h
    exact ⟨fun old hold ha hk => iff_of_false (h old hold ha hk) Bool.false_ne_true,
      fun _ => iff_of_false (fun hnone => by cases hnone) Bool.false_ne_true⟩
  · intro h old hold ha hk hnone
    cases (h.1 old hold ha hk).mp hnone

theorem effect_answerContext {user : ℕ} {run : RunRow} {value : Text} (h : answerContext w user run key value = .ok w') :
    Effect w w' ((w.fields.any (ofKey run.agentId ((trim key).take 64)) &&
      noneOfRuns w run.agentId ((trim key).take 64)) = true) := by
  simp only [answerContext] at h
  split at h
  · cases h
  · split at h
    · cases h
    · split at h
      · cases h
      · cases h
        refine .wrote ⟨run.agentId,(trim key).take 64,some (value.take 2000),.reply,some user,some run.id,none⟩
          (fun field => { field with value := some (value.take 2000), setBy := some user }) (.person user) (fun _ => ⟨rfl,rfl,rfl⟩) rfl rfl ?_
        rw [Bool.and_eq_true, noneOfRuns_iff, List.any_eq_true]
        constructor
        · rintro ⟨⟨old,hold,hkey⟩,hnone⟩
          exact ⟨fun old hold ha hk => iff_of_true (hnone old hold ha hk) rfl,
            fun hno => absurd (ofKey_iff.mp hkey) (hno old hold)⟩
        · rintro ⟨hrows,hfresh⟩
          refine ⟨?_,fun old hold ha hk => (hrows old hold ha hk).mpr rfl⟩
          by_contra hno
          have hrow := (hfresh fun old hold hkey => hno ⟨old,hold,ofKey_iff.mpr hkey⟩).mpr rfl
          cases hrow

theorem effect_of_apply (h : apply findings w e = .ok w') : Effect w w' (fits w e = true) := by
  cases e with
  | start runId agentId =>
    simp only [apply] at h
    split at h
    · cases h
    · cases h
      exact .quiet rfl rfl rfl
  | setContextFieldTool runId toolCallId key value scope =>
    obtain ⟨run,-,rfl⟩ := findRun_map h
    exact .ran _ rfl rfl rfl rfl
  | setContextField call =>
    simp only [apply] at h
    split at h
    · cases h
      exact effect_setContextField w call
    · cases h
  | ensureContextField runId toolCallId key =>
    obtain ⟨run,-,rfl⟩ := findRun_map h
    exact .asked _ (fun hnone => by cases hnone) rfl rfl rfl
  | park runId key =>
    cases h
    exact .quiet rfl rfl rfl
  | wake runId =>
    cases h
    exact .quiet rfl rfl rfl
  | answerContext user runId key value =>
    obtain ⟨run,hfind,hanswer⟩ := findRun_bind h
    have heffect := effect_answerContext hanswer
    simp only [fits, hfind]
    exact heffect
  | patchContextField user agentId key value scope =>
    simp only [apply, patchContextField] at h
    split at h
    · cases h
    · cases h
      exact effect_editField
  | savePartnerCriteria user agentId criteria =>
    cases h
    exact effect_editField

/-! ## Rows and their last authors -/

theorem lastAuthor_cons_ran {entry : Entry} (h : entry.wrote = false) (log : List Entry) (agentId : ℕ) (key : Text) :
    lastAuthor (entry :: log) agentId key = lastAuthor log agentId key := by
  simp [lastAuthor, h]

theorem lastAuthor_cons_own (log : List Entry) (agentId : ℕ) (key : Text) (author : Author) :
    lastAuthor (⟨agentId,key,author,true⟩ :: log) agentId key = some author := by
  simp [lastAuthor]

theorem lastAuthor_cons_other {a : ℕ} {k : Text} {author : Author} (log : List Entry) (h : ¬ (a = agentId ∧ k = key)) :
    lastAuthor (⟨a,k,author,true⟩ :: log) agentId key = lastAuthor log agentId key := by
  have hne : (true && decide (a = agentId) && decide (k = key)) = false := by
    rw [Bool.true_and, ← Bool.decide_and]
    exact decide_eq_false h
  simp only [lastAuthor, List.find?_cons, hne]

theorem personLast_mem {log : List Entry} (h : PersonLast log agentId key) :
    ∃ user, ⟨agentId,key,.person user,true⟩ ∈ log := by
  obtain ⟨author,hlast,hperson⟩ := h
  obtain ⟨entry,hfind,rfl⟩ := Option.map_eq_some_iff.mp hlast
  have hmem := List.mem_of_find?_eq_some hfind
  have hentry := List.find?_some hfind
  obtain ⟨a,k,author,wrote⟩ := entry
  simp only [Bool.and_eq_true, decide_eq_true_eq] at hentry
  obtain ⟨⟨rfl,rfl⟩,rfl⟩ := hentry
  cases author with
  | person user => exact ⟨user,hmem⟩
  | model runId toolCallId => cases hperson

section Steps
variable {author : Author}

/-- Rows agree with their last author after a write exactly when it suits. -/
theorem agree_wrote_iff (h : Agree w) (hkeeps : Keeps edit) (hfields : w'.fields = upsertField w.fields row edit)
    (hlog : w'.log = ⟨row.agentId,row.key,author,true⟩ :: w.log) : Agree w' ↔ Suits w row author := by
  have hown : ∀ field : ContextField, field.agentId = row.agentId → field.key = row.key →
      (PersonLast w'.log field.agentId field.key ↔ author.isPerson = true) := by
    intro field ha hk
    rw [hlog, ha, hk, PersonLast, lastAuthor_cons_own]
    simp
  have hother : ∀ field : ContextField, ¬ (field.agentId = row.agentId ∧ field.key = row.key) →
      (PersonLast w'.log field.agentId field.key ↔ PersonLast w.log field.agentId field.key) := by
    intro field hne
    rw [hlog, PersonLast, PersonLast, lastAuthor_cons_other w.log fun heq => hne ⟨heq.1.symm,heq.2.symm⟩]
  constructor
  · intro h'
    refine ⟨fun old hold ha hk => ?_,fun hfresh => ?_⟩
    · obtain ⟨new,hnew,hna,hnk,hnr⟩ := kept_upsertField hkeeps row hold
      rw [← hnr, ← hown new (hna.trans ha) (hnk.trans hk)]
      exact h' new (hfields ▸ hnew)
    · obtain ⟨new,hnew,hna,hnk,hnr⟩ := exists_upsertField hkeeps w.fields row
      obtain ⟨old,hold,ha,hk,-⟩ | ⟨-,hrun⟩ := hnr
      · exact absurd ⟨ha,hk⟩ (hfresh old hold)
      · rw [← hrun, ← hown new hna hnk]
        exact h' new (hfields ▸ hnew)
  · intro hsuits field hfield
    rw [hfields] at hfield
    by_cases hkey : field.agentId = row.agentId ∧ field.key = row.key
    · rw [hown field hkey.1 hkey.2]
      obtain ⟨old,hold,ha,hk,hr⟩ | ⟨rfl,hfresh⟩ := mem_upsertField hkeeps hfield
      · rw [← hr]
        exact hsuits.1 old hold (ha.trans hkey.1) (hk.trans hkey.2)
      · exact hsuits.2 hfresh
    · rw [hother field hkey]
      obtain ⟨old,hold,ha,hk,hr⟩ | ⟨rfl,-⟩ := mem_upsertField hkeeps hfield
      · rw [← hr, ← ha, ← hk]
        exact h old hold
      · exact absurd ⟨rfl,rfl⟩ hkey

theorem keeps_id : Keeps fun field => field := fun _ => ⟨rfl,rfl,rfl⟩

/-- A row that is met or made by an upsert of another key, or before it. -/
theorem Held.written_upsert (h : Held w) (hkeeps : Keeps edit) (hfields : w'.fields = upsertField w.fields row edit)
    {user : ℕ} (hmem : ⟨agentId,key,.person user,true⟩ ∈ w.log) (hne : ¬ (agentId = row.agentId ∧ key = row.key) ∨
      ∃ field ∈ w.fields, field.agentId = row.agentId ∧ field.key = row.key) :
    (∃ field ∈ w'.fields, field.agentId = agentId ∧ field.key = key) ∧ noneOfRuns w' agentId key = true := by
  obtain ⟨⟨old,hold,ha,hk⟩,hnone⟩ := h.written agentId key user hmem
  rw [noneOfRuns_iff] at hnone ⊢
  rw [hfields]
  refine ⟨?_,fun field hfield hfa hfk => ?_⟩
  · obtain ⟨new,hnew,hna,hnk,-⟩ := kept_upsertField hkeeps row hold
    exact ⟨new,hnew,hna.trans ha,hnk.trans hk⟩
  · obtain ⟨before,hbefore,hba,hbk,hbr⟩ | ⟨rfl,hfresh⟩ := mem_upsertField hkeeps hfield
    · rw [← hbr]
      exact hnone before hbefore (hba.trans hfa) (hbk.trans hfk)
    · obtain hother | ⟨met,hmet,hkey⟩ := hne
      · exact absurd ⟨hfa.symm,hfk.symm⟩ hother
      · exact absurd hkey (hfresh met hmet)

/-- The empty row of a question. -/
theorem Held.asked (h : Held w) (hrun : row.runId ≠ none) (hfields : w'.fields = upsertField w.fields row fun field => field)
    (hlog : w'.log = w.log) : Held w' where
  agree field hfield := by
    rw [hfields] at hfield
    rw [hlog]
    obtain ⟨old,hold,ha,hk,hr⟩ | ⟨rfl,hfresh⟩ := mem_upsertField keeps_id hfield
    · rw [← hr, ← ha, ← hk]
      exact h.agree old hold
    · refine iff_of_false hrun fun hlast => ?_
      obtain ⟨user,hmem⟩ := personLast_mem hlast
      obtain ⟨⟨old,hold,hkey⟩,-⟩ := h.written _ _ user hmem
      exact hfresh old hold hkey
  written agentId key user hmem := by
    rw [hlog] at hmem
    refine h.written_upsert keeps_id hfields hmem ?_
    by_cases hkey : agentId = row.agentId ∧ key = row.key
    · obtain ⟨⟨old,hold,ha,hk⟩,-⟩ := h.written agentId key user hmem
      exact .inr ⟨old,hold,ha.trans hkey.1,hk.trans hkey.2⟩
    · exact .inl hkey
  order := by
    rw [hlog]
    exact h.order

theorem Held.wrote (h : Held w) (hkeeps : Keeps edit) (hfields : w'.fields = upsertField w.fields row edit)
    (hlog : w'.log = ⟨row.agentId,row.key,author,true⟩ :: w.log) (hsuits : Suits w row author) : Held w' where
  agree := (agree_wrote_iff h.agree hkeeps hfields hlog).mpr hsuits
  written agentId key user hmem := by
    rw [hlog] at hmem
    obtain heq | hmem := List.mem_cons.mp hmem
    · cases heq
      refine ⟨?_,noneOfRuns_iff.mpr fun field hfield ha hk => ?_⟩
      · obtain ⟨new,hnew,hna,hnk,-⟩ := exists_upsertField hkeeps w.fields row
        exact ⟨new,hfields ▸ hnew,hna,hnk⟩
      · refine ((agree_wrote_iff h.agree hkeeps hfields hlog).mpr hsuits field hfield).mpr ?_
        rw [hlog, ha, hk, PersonLast, lastAuthor_cons_own]
        exact ⟨_,rfl,rfl⟩
    · refine h.written_upsert hkeeps hfields hmem ?_
      by_cases hkey : agentId = row.agentId ∧ key = row.key
      · obtain ⟨⟨old,hold,ha,hk⟩,-⟩ := h.written agentId key user hmem
        exact .inr ⟨old,hold,ha.trans hkey.1,hk.trans hkey.2⟩
      · exact .inl hkey
  order agentId key runId toolCallId user hsub := by
    rw [hlog] at hsub
    cases hsub with
    | cons _ hsub => exact h.order agentId key runId toolCallId user hsub
    | cons_cons _ hsub =>
      have hmem := List.singleton_sublist.mp hsub
      obtain ⟨⟨old,hold,ha,hk⟩,hnone⟩ := h.written _ _ user hmem
      have hrun := noneOfRuns_iff.mp hnone old hold ha hk
      cases (hsuits.1 old hold ha hk).mp hrun

/-- A call of the tool up to its write. -/
theorem Held.ran (h : Held w) {entry : Entry} (hwrote : entry.wrote = false) (hfields : w'.fields = w.fields)
    (hlog : w'.log = entry :: w.log) : Held w' where
  agree field hfield := by
    rw [hfields] at hfield
    rw [hlog, PersonLast, lastAuthor_cons_ran hwrote]
    exact h.agree field hfield
  written agentId key user hmem := by
    rw [hlog] at hmem
    obtain rfl | hmem := List.mem_cons.mp hmem
    · cases hwrote
    · rw [hfields, noneOfRuns, hfields]
      exact h.written agentId key user hmem
  order agentId key runId toolCallId user hsub := by
    rw [hlog] at hsub
    cases hsub with
    | cons _ hsub => exact h.order agentId key runId toolCallId user hsub
    | cons_cons _ hsub => cases hwrote

theorem Held.quiet (h : Held w) (hfields : w'.fields = w.fields) (hlog : w'.log = w.log) : Held w' where
  agree := by
    rw [Agree, hfields, hlog]
    exact h.agree
  written := by
    simp only [noneOfRuns, hfields, hlog]
    exact h.written
  order := by
    rw [hlog]
    exact h.order

/-- An event that fits. -/
theorem Held.step (h : Held w) (hstep : apply findings w e = .ok w') (hfits : fits w e = true) : Held w' := by
  cases effect_of_apply hstep with
  | quiet hfields hlog => exact h.quiet hfields hlog
  | ran entry hwrote hfields hlog => exact h.ran hwrote hfields hlog
  | asked row hrun hfields hlog => exact h.asked hrun hfields hlog
  | wrote row edit author hkeeps hfields hlog hfit => exact h.wrote hkeeps hfields hlog (hfit.mp hfits)

end Steps

section Sample

/-- A person's edit, and a note of the model under another key. -/
def sampleEvents : List Event :=
  [.start 1 7,.patchContextField 3 7 (text "tone") (some (text "formal")) .future,
    .setContextFieldTool 1 (text "a") (text "size") (text "small") .reply,
    .setContextField ⟨1,7,text "a",text "size",text "small",.reply⟩]

end Sample

end HermesEnterprise.Prompts
