import AgentTermStatus.Provider.Claude.Install

namespace AgentTermStatus

open Lib

/-!
# Do installing and uninstalling keep the user's settings?

A settings file that deserializes is safe with an install: every key and every entry stays.
Two things destroy settings.  A file that does not deserialize is taken for an empty one and
written over, and an uninstall removes every entry whose command contains `ats ingest`, not
only the entry ats inserts (`fileSafe_iff`).

Uninstalling undoes an install unless a list of hooks was empty or mentioned ats before, or
the hooks were an empty object (`uninstall_install_iff`).
-/

/-- The two commands that change the settings file. -/
inductive HookCommand
  | install
  | uninstall
  deriving DecidableEq

/-- Runs the command. -/
def HookCommand.run : HookCommand → InstallScope → Bool → IoOutcome → SettingsDir →
    SettingsDir × Except InstallError InstallResult
  | .install   => installHooks
  | .uninstall => uninstallHooks

/-- The entries of what stands in the place of a list of hooks: a value of another shape is an entry
    by itself, and null is none. -/
def heldEntries : Json → List Json
  | .array es => es
  | .null     => []
  | v         => [v]

/-- The entries a document holds under a hook's name, in a list or not. -/
def namedEntries (doc : Json) (name : String) : List Json :=
  ((((doc.get "hooks").map Json.canonical).bind fun v => v.get name).map heldEntries).getD []

/-- The entries a document holds under no name, as its hooks are no object. -/
def looseEntries (doc : Json) : List Json :=
  match (doc.get "hooks").map Json.canonical with
  | none | some (.object _) => []
  | some v                  => heldEntries v

/-- The user's settings of `old` are in `new`: every key that is not of ats with its value,
    and every hook entry that ats did not insert. -/
structure KeepsUserSettings (old new : Json) : Prop where
  keys : ∀ key ∉ settingsFields,
    (new.get key).map Json.canonical = (old.get key).map Json.canonical
  entries : ∀ name : String,
    ((namedEntries old name).filter fun e => e ≠ atsHookEntry).Sublist (namedEntries new name)
  loose : ((looseEntries old).filter fun e => e ≠ atsHookEntry).Sublist (looseEntries new)

/-- The command failed and left the file as it was, or it found a document and wrote one
    with the user's settings. -/
def FileSafe (content : FileContent) (r : SettingsDir × Except InstallError InstallResult) :
    Prop :=
  (∃ e, r.2 = .error e ∧ r.1.settings = some content) ∨
    ∃ old new, content = .json old ∧ r.1.settings = some (.json new) ∧ KeepsUserSettings old new

/-- The document holds no settings of the user. -/
structure NothingToLose (doc : Json) : Prop where
  keys : ∀ key ∉ settingsFields, doc.get key = none
  entries : ∀ name : String, ∀ e ∈ namedEntries doc name, e = atsHookEntry
  loose : ∀ e ∈ looseEntries doc, e = atsHookEntry

/-- Only the entry ats inserts mentions ats, in the eight hooks. -/
def OnlyOwnMentions (doc : Json) : Prop :=
  ∀ name ∈ hookTypes, ∀ e ∈ hookEntries doc name, mentionsAts e = true → e = atsHookEntry

/-- The settings a command writes back. -/
def HookCommand.settings (c : HookCommand) (s : ClaudeSettings) : ClaudeSettings :=
  match c with
  | .install   => { s with hooks := (overHooks installHook s).hooks }
  | .uninstall => { s with hooks := (overHooks uninstallHook s).hooks }

theorem HookCommand.wellFormed (c : HookCommand) {s : ClaudeSettings} (h : WellFormed s) :
    WellFormed (c.settings s) := by
  cases c with
  | install => exact h.install
  | uninstall => exact h.uninstall

/-! ### The entries of a document -/

/-- A document that deserializes has its entries in lists, under the names of hooks. -/
theorem Decodes.namedEntries_eq {doc : Json} {s : ClaudeSettings} (h : Decodes doc s)
    (name : String) : namedEntries doc name = (s.hooks[name]?).getD [] := by
  unfold namedEntries
  rcases h.hooks with hsome | ⟨hnone, hempty⟩
  · rw [hsome, Option.bind_some, hooksValue, Json.get_ofMap, Std.ExtTreeMap.getElem?_map]
    cases s.hooks[name]? <;> rfl
  · rw [hnone, hempty]
    simp

/-- It holds nothing besides. -/
theorem Decodes.looseEntries_eq {doc : Json} {s : ClaudeSettings} (h : Decodes doc s) :
    looseEntries doc = [] := by
  unfold looseEntries
  rcases h.hooks with hsome | ⟨hnone, -⟩
  · rw [hsome]
    rfl
  · rw [hnone]
    rfl

/-- The entries of what is written back. -/
theorem entries_settingsWithHooks {s : ClaudeSettings} (h : WellFormed s) :
    (∀ name : String, namedEntries (settingsWithHooks s) name = (s.hooks[name]?).getD []) ∧
      looseEntries (settingsWithHooks s) = [] := by
  have hdecodes := decodes_of_decodeSettings (decodeSettings_settingsWithHooks h)
  exact ⟨hdecodes.namedEntries_eq, hdecodes.looseEntries_eq⟩

/-! ### What a command writes -/

/-- **What a command does to the file.** Without an I/O failure it writes back the settings
    it read, unless they are not UTF-8. -/
theorem HookCommand.run_spec (c : HookCommand) (scope : InstallScope) (io : IoOutcome)
    (content : FileContent) (backup : Option FileContent) :
    let r := c.run scope false io ⟨some content, backup⟩
    match io, readSettings io content with
    | .ok, .ok s => r.1.settings = some (.json (settingsWithHooks (c.settings s))) ∧
        ∃ result, r.2 = .ok result
    | _, _ => r.1.settings = some content ∧ ∃ e, r.2 = .error e := by
  intro r
  cases hread : readSettings io content with
  | error e =>
    -- nothing was touched before the read failed
    have hr : r = (⟨some content, backup⟩, .error e) := by
      cases c <;> simp only [r, HookCommand.run, installHooks, uninstallHooks, hread]
    rw [hr]
    cases io <;> exact ⟨rfl, e, rfl⟩
  | ok s =>
    cases io with
    | ok => cases c <;> simp [r, HookCommand.run, installHooks, uninstallHooks, hread,
        writeSettings, HookCommand.settings]
    | readFails => simp [readSettings] at hread
    | createDirFails => cases c <;> simp [r, HookCommand.run, installHooks, uninstallHooks, hread,
        writeSettings]
    | writeFails => cases c <;> simp [r, HookCommand.run, installHooks, uninstallHooks, hread,
        writeSettings]

/-- The entries of a hook that a command writes back. -/
theorem HookCommand.settings_hooks (c : HookCommand) (s : ClaudeSettings) (name : String) :
    (((c.settings s).hooks[name]?).getD []) =
      if name ∈ hookTypes then
        match c with
        | .install   => installEntries ((s.hooks[name]?).getD [])
        | .uninstall => ((s.hooks[name]?).getD []).filter fun e => !mentionsAts e
      else (s.hooks[name]?).getD [] := by
  cases c with
  | install =>
    simp only [HookCommand.settings, overHooks_installHook]
    split <;> rfl
  | uninstall =>
    simp only [HookCommand.settings, overHooks_uninstallHook]
    split
    · cases s.hooks[name]? with
      | none => rfl
      | some es =>
        simp only [Option.bind_some, uninstallEntries, Option.getD_some]
        split
        · next hnil => simp [List.isEmpty_iff.mp hnil]
        · rfl
    · rfl

/-- A command writes every other key back as it read it. -/
theorem HookCommand.get_settings (c : HookCommand) {s : ClaudeSettings}
    (hwf : WellFormed (c.settings s)) {key : String} (hkey : key ∉ settingsFields) :
    (settingsWithHooks (c.settings s)).get key = s.extra[key]? := by
  have hextra : (c.settings s).extra = s.extra := by cases c <;> rfl
  rw [get_settingsWithHooks _ (hwf.fields "hooks" (by decide)),
    if_neg (fun heq => hkey (by rw [heq]; decide)), hextra]

/-- Install only appends. -/
theorem prefix_installEntries (es : List Json) : es <+: installEntries es := by
  unfold installEntries
  split
  · exact List.prefix_refl es
  · exact List.prefix_append es _

/-- Removing what mentions ats keeps the entries that ats did not insert exactly when no
    other entry mentions ats. -/
theorem sublist_uninstall_iff (es : List Json) :
    (es.filter fun e => e ≠ atsHookEntry).Sublist (es.filter fun e => !mentionsAts e) ↔
      ∀ e ∈ es, mentionsAts e = true → e = atsHookEntry := by
  refine ⟨?_, ?_⟩
  · intro hsub e he hmentions
    by_contra hne
    have hmem := hsub.subset (List.mem_filter.mpr ⟨he, by simpa using hne⟩)
    have hnot := (List.mem_filter.mp hmem).2
    rw [hmentions] at hnot
    exact absurd hnot (by simp)
  · intro h
    have hfilter : es.filter (fun e => e ≠ atsHookEntry) =
        (es.filter fun e => !mentionsAts e).filter fun e => e ≠ atsHookEntry := by
      rw [List.filter_filter]
      refine List.filter_congr fun e he => ?_
      by_cases hm : mentionsAts e = true
      · simp [h e he hm]
      · simp [hm]
    rw [hfilter]
    exact List.filter_sublist

/-- A file that deserializes keeps the user's settings, under an uninstall if only the
    inserted entry mentions ats. -/
theorem keepsUserSettings_of_decodes (c : HookCommand) {doc : Json} {s : ClaudeSettings}
    (h : Decodes doc s) :
    KeepsUserSettings doc (settingsWithHooks (c.settings s)) ↔
      (c = .uninstall → OnlyOwnMentions doc) := by
  have hwf := c.wellFormed h.wellFormed
  have hkeys : ∀ key ∉ settingsFields,
      ((settingsWithHooks (c.settings s)).get key).map Json.canonical
        = (doc.get key).map Json.canonical := by
    intro key hkey
    rw [c.get_settings hwf hkey, h.extra, if_neg hkey, Option.map_map]
    congr 1
    funext v
    exact Json.canonical_canonical v
  obtain ⟨hnew, hloose⟩ := entries_settingsWithHooks hwf
  refine ⟨?_, ?_⟩
  · rintro ⟨-, hentries, -⟩ rfl name hname
    have hsub := hentries name
    rw [hnew, HookCommand.settings_hooks, if_pos hname, h.namedEntries_eq] at hsub
    rw [h.hookEntries_eq]
    exact (sublist_uninstall_iff _).mp hsub
  · intro hown
    refine ⟨hkeys, fun name => ?_, ?_⟩
    · rw [hnew, HookCommand.settings_hooks, h.namedEntries_eq]
      split
      · next hname =>
        cases c with
        | install => exact List.filter_sublist.trans (prefix_installEntries _).sublist
        | uninstall =>
          have hown' := hown rfl name hname
          rw [h.hookEntries_eq] at hown'
          exact (sublist_uninstall_iff _).mpr hown'
      · exact List.filter_sublist
    · rw [h.looseEntries_eq, hloose]
      exact List.Sublist.refl _

/-- What is written in place of a document taken for an empty one keeps the user's settings
    exactly when there were none. -/
theorem keepsUserSettings_default (c : HookCommand) (doc : Json) :
    KeepsUserSettings doc (settingsWithHooks (c.settings .default)) ↔ NothingToLose doc := by
  have hwf := c.wellFormed wellFormed_default
  have hkey : ∀ key ∉ settingsFields, (settingsWithHooks (c.settings .default)).get key = none := by
    intro key hkey
    rw [c.get_settings hwf hkey]
    simp [ClaudeSettings.default]
  obtain ⟨hnew, hloose⟩ := entries_settingsWithHooks hwf
  -- at most the inserted entry is written
  have hentry : ∀ name : String, ∀ e ∈ namedEntries (settingsWithHooks (c.settings .default)) name,
      e = atsHookEntry := by
    intro name e he
    rw [hnew, HookCommand.settings_hooks] at he
    have hnone : ((ClaudeSettings.default.hooks[name]?).getD []) = [] := by
      simp [ClaudeSettings.default]
    rw [hnone] at he
    split at he
    · cases c with
      | install => simpa [installEntries] using he
      | uninstall => simp at he
    · simp at he
  refine ⟨?_, ?_⟩
  · rintro ⟨hkeys, hentries, hlost⟩
    refine ⟨fun key hk => ?_, fun name e he => ?_, fun e he => ?_⟩
    · have hkeys' := hkeys key hk
      rw [hkey key hk, Option.map_none] at hkeys'
      exact Option.map_eq_none_iff.mp hkeys'.symm
    · by_contra hne
      have hmem := (hentries name).subset (List.mem_filter.mpr ⟨he, by simpa using hne⟩)
      exact hne (hentry name e hmem)
    · by_contra hne
      have hmem := hlost.subset (List.mem_filter.mpr ⟨he, by simpa using hne⟩)
      rw [hloose] at hmem
      exact absurd hmem (by simp)
  · rintro ⟨hkeys, hentries, hlost⟩
    -- what is filtered from entries that are all the inserted one
    have hnil : ∀ es : List Json, (∀ e ∈ es, e = atsHookEntry) →
        es.filter (fun e => e ≠ atsHookEntry) = [] := fun es hes =>
      List.filter_eq_nil_iff.mpr fun e he => by simp [hes e he]
    refine ⟨fun key hk => by rw [hkey key hk, hkeys key hk], fun name => ?_, ?_⟩
    · rw [hnil _ (hentries name)]
      exact List.nil_sublist _
    · rw [hnil _ hlost]
      exact List.nil_sublist _

/-- **When the file is safe.** For every content of the settings file, every outcome of the
    file operations and both commands: the command fails and leaves the file as it was, or
    writes a document with the user's settings, exactly when a file operation fails, or the
    content is not UTF-8, or it is a document of one of two kinds: it deserializes, and for
    an uninstall only the inserted entry mentions ats; or it does not, and there is nothing
    in it to lose. -/
theorem fileSafe_iff (c : HookCommand) (scope : InstallScope) (io : IoOutcome)
    (content : FileContent) (backup : Option FileContent) :
    FileSafe content (c.run scope false io ⟨some content, backup⟩) ↔
      io ≠ .ok ∨ (∃ b, content = .bytes b) ∨
        ∃ doc, content = .json doc ∧
          (if (decodeSettings doc).isSome then c = .uninstall → OnlyOwnMentions doc
            else NothingToLose doc) := by
  have hspec := c.run_spec scope io content backup
  -- a failing command left the file as it was
  have hfail : ∀ r : SettingsDir × Except InstallError InstallResult,
      (r.1.settings = some content ∧ ∃ e, r.2 = .error e) → FileSafe content r := by
    rintro r ⟨hsame, e, he⟩
    exact Or.inl ⟨e, he, hsame⟩
  -- one that wrote is judged by what it wrote
  have hwrite : ∀ (r : SettingsDir × Except InstallError InstallResult) (new : Json),
      (r.1.settings = some (.json new) ∧ ∃ result, r.2 = .ok result) →
      (FileSafe content r ↔ ∃ doc, content = .json doc ∧ KeepsUserSettings doc new) := by
    rintro r new ⟨hnew, result, hok⟩
    refine ⟨?_, ?_⟩
    · rintro (⟨e, he, -⟩ | ⟨old, new', hold, hnew', hkeeps⟩)
      · rw [hok] at he
        exact absurd he (by simp)
      · rw [hnew] at hnew'
        obtain rfl := FileContent.json.inj (Option.some.inj hnew')
        exact ⟨old, hold, hkeeps⟩
    · rintro ⟨old, hold, hkeeps⟩
      exact Or.inr ⟨old, new, hold, hnew, hkeeps⟩
  by_cases hio : io = .ok
  · subst hio
    cases content with
    | bytes b => exact iff_of_true (hfail _ hspec) (Or.inr (Or.inl ⟨b, rfl⟩))
    | text t =>
      rw [hwrite _ _ hspec]
      simp
    | json doc =>
      rw [hwrite _ _ hspec]
      have hcond : (∃ d, FileContent.json doc = .json d ∧
          KeepsUserSettings d (settingsWithHooks (c.settings ((decodeSettings doc).getD .default))))
          ↔ KeepsUserSettings doc
            (settingsWithHooks (c.settings ((decodeSettings doc).getD .default))) := by simp
      rw [hcond]
      cases hdecode : decodeSettings doc with
      | none =>
        -- taken for an empty document
        rw [Option.getD_none, keepsUserSettings_default]
        simp [hdecode]
      | some s =>
        rw [Option.getD_some, keepsUserSettings_of_decodes c (decodes_of_decodeSettings hdecode)]
        simp [hdecode]
  · have hfailed : (c.run scope false io ⟨some content, backup⟩).1.settings = some content ∧
        ∃ e, (c.run scope false io ⟨some content, backup⟩).2 = .error e := by
      cases io <;> first | exact absurd rfl hio | exact hspec
    exact iff_of_true (hfail _ hfailed) (Or.inl hio)

/-- Settings with a model, and no hooks: they do not deserialize. -/
def nullHooks : Json := .object [("hooks", .null), ("model", .string "opus")]

/-- An install writes over settings that do not deserialize. -/
theorem not_fileSafe_nullHooks :
    ¬ ∀ (c : HookCommand) (scope : InstallScope) (io : IoOutcome) (content : FileContent)
      (backup : Option FileContent),
      FileSafe content (c.run scope false io ⟨some content, backup⟩) := by
  intro hall
  have hdecode : decodeSettings nullHooks = none :=
    Option.isNone_iff_eq_none.mp (by decide)
  have hspec := HookCommand.run_spec .install .user .ok (.json nullHooks) none
  simp only [readSettings, hdecode, Option.getD_none, reduceCtorEq, if_false] at hspec
  obtain ⟨hwritten, result, hok⟩ := hspec
  rcases hall .install .user .ok (.json nullHooks) none with ⟨e, he, -⟩ | ⟨old, new, hold, hnew, h⟩
  · rw [hok] at he
    exact absurd he (by simp)
  · obtain rfl := FileContent.json.inj hold
    rw [hwritten] at hnew
    obtain rfl := FileContent.json.inj (Option.some.inj hnew)
    have hmodel := ((keepsUserSettings_default .install nullHooks).mp h).keys "model" (by decide)
    exact absurd hmodel (by decide)

/-! ### Undoing an install -/

/-- The entries of a hook after an install and an uninstall. -/
theorem uninstall_installEntries (o : Option (List Json)) :
    uninstallEntries (installEntries (o.getD [])) = o ↔
      ∀ es ∈ o, es ≠ [] ∧ ∀ e ∈ es, mentionsAts e = false := by
  have hats : mentionsAts atsHookEntry = true := atsHookEntry_spec.1
  -- without a mention, exactly the inserted entry is removed
  have hclean : ∀ es : List Json, (∀ e ∈ es, mentionsAts e = false) →
      uninstallEntries (installEntries es) = if es = [] then none else some es := by
    intro es hes
    have hany : es.any mentionsAts = false := by
      rw [List.any_eq_false]
      exact fun e he => by simp [hes e he]
    have hkept : (es ++ [atsHookEntry]).filter (fun e => !mentionsAts e) = es := by
      rw [List.filter_append, List.filter_eq_self.mpr fun e he => by simp [hes e he]]
      simp [hats]
    simp only [installEntries, hany, Bool.false_eq_true, if_false, uninstallEntries, hkept,
      List.isEmpty_iff]
  cases o with
  | none => simpa using hclean [] (by simp)
  | some es =>
    simp only [Option.getD_some, Option.mem_def, Option.some.injEq, forall_eq']
    by_cases hes : ∀ e ∈ es, mentionsAts e = false
    · rw [hclean es hes]
      by_cases hnil : es = []
      · simp [hnil]
      · simpa [hnil] using hes
    · -- a mention of before is not there any more
      refine iff_of_false (fun heq => hes ?_) (fun h => hes h.2)
      have hany : es.any mentionsAts = true := by
        rw [List.any_eq_true]
        simpa using hes
      rw [installEntries, if_pos hany] at heq
      simp only [uninstallEntries] at heq
      split at heq
      · exact absurd heq (by simp)
      · intro e he
        rw [← Option.some.inj heq] at he
        simpa using (List.mem_filter.mp he).2

/-- The hooks after an install and an uninstall. -/
theorem uninstall_install_hooks (s t : ClaudeSettings)
    (ht : t.hooks = (overHooks installHook s).hooks) :
    (overHooks uninstallHook t).hooks = s.hooks ↔
      ∀ name ∈ hookTypes, ∀ es ∈ s.hooks[name]?, es ≠ [] ∧ ∀ e ∈ es, mentionsAts e = false := by
  have hlookup : ∀ name : String, (overHooks uninstallHook t).hooks[name]? =
      if name ∈ hookTypes then uninstallEntries (installEntries ((s.hooks[name]?).getD []))
      else s.hooks[name]? := by
    intro name
    rw [overHooks_uninstallHook, ht, overHooks_installHook]
    split <;> rfl
  refine ⟨?_, ?_⟩
  · intro h name hname
    rw [← uninstall_installEntries, ← (hlookup name).trans (if_pos hname), h]
  · intro h
    apply FiniteMap.ext
    intro name
    rw [hlookup]
    split
    · next hname => exact (uninstall_installEntries _).mpr (h name hname)
    · rfl

/-- A command on a document that deserializes writes back its settings. -/
theorem HookCommand.run_json (c : HookCommand) (scope : InstallScope) {doc : Json}
    {s : ClaudeSettings} (hdoc : decodeSettings doc = some s) (backup : Option FileContent) :
    (c.run scope false .ok ⟨some (.json doc), backup⟩).1.settings
      = some (.json (settingsWithHooks (c.settings s))) := by
  have hspec := c.run_spec scope .ok (.json doc) backup
  simp only [readSettings, hdoc, Option.getD_some, reduceCtorEq, if_false] at hspec
  exact hspec.1

/-- What an install and an uninstall leave of a document that deserializes. -/
theorem uninstall_install_settings (scope : InstallScope) {doc : Json} {s : ClaudeSettings}
    (hdoc : decodeSettings doc = some s) (backup : Option FileContent) :
    (uninstallHooks scope false .ok
        (installHooks scope false .ok ⟨some (.json doc), backup⟩).1).1.settings =
      some (.json (settingsWithHooks (HookCommand.uninstall.settings
        { HookCommand.install.settings s with atsManaged := [] }))) := by
  have hwf : WellFormed (HookCommand.install.settings s) :=
    HookCommand.install.wellFormed (decodes_of_decodeSettings hdoc).wellFormed
  have hinstalled := HookCommand.install.run_json scope hdoc backup
  obtain ⟨backup', hdir⟩ : ∃ backup', (installHooks scope false .ok ⟨some (.json doc), backup⟩).1
      = ⟨some (.json (settingsWithHooks (HookCommand.install.settings s))), backup'⟩ :=
    ⟨_, congrArg (fun o => SettingsDir.mk o _) hinstalled⟩
  rw [hdir]
  exact HookCommand.uninstall.run_json scope (decodeSettings_settingsWithHooks hwf) backup'

/-- **When uninstalling undoes an install.** For every document that deserializes and has no
    list of managed hooks: after an install and an uninstall the file holds the document's
    value, exactly when each of the eight hooks that the document names has an entry and none
    that mentions ats, and its hooks, if it names them, are not an empty object. -/
theorem uninstall_install_iff (scope : InstallScope) (doc : Json) (s : ClaudeSettings)
    (hdoc : decodeSettings doc = some s) (hmanaged : doc.get "_ats_managed" = none)
    (backup : Option FileContent) :
    (∃ final, (uninstallHooks scope false .ok
        (installHooks scope false .ok ⟨some (.json doc), backup⟩).1).1.settings
          = some (.json final) ∧ final.canonical = doc.canonical) ↔
      (∀ name ∈ hookTypes, ∀ es ∈ s.hooks[name]?, es ≠ [] ∧ ∀ e ∈ es, mentionsAts e = false) ∧
        (doc.get "hooks" ≠ none → s.hooks ≠ ∅) := by
  have hdecodes := decodes_of_decodeSettings hdoc
  have hinstall := HookCommand.install.wellFormed hdecodes.wellFormed
  let installed : ClaudeSettings := { HookCommand.install.settings s with atsManaged := [] }
  have hwf : WellFormed (HookCommand.uninstall.settings installed) :=
    HookCommand.uninstall.wellFormed
      (s := installed) ⟨hinstall.fields, hinstall.extraValues, hinstall.hookValues⟩
  have hhooks : (HookCommand.uninstall.settings installed).hooks = s.hooks ↔ _ :=
    uninstall_install_hooks s installed rfl
  have hfinal : (∃ final, (uninstallHooks scope false .ok
        (installHooks scope false .ok ⟨some (.json doc), backup⟩).1).1.settings
          = some (.json final) ∧ final.canonical = doc.canonical) ↔
      settingsWithHooks (HookCommand.uninstall.settings installed) = doc.canonical := by
    rw [uninstall_install_settings scope hdoc backup]
    refine ⟨?_, ?_⟩
    · rintro ⟨final, hwritten, hvalue⟩
      obtain rfl := FileContent.json.inj (Option.some.inj hwritten)
      rw [← hvalue, canonical_settingsWithHooks hwf]
    · exact fun h => ⟨_, rfl, by rw [canonical_settingsWithHooks hwf]; exact h⟩
  have hextra : (HookCommand.uninstall.settings installed).extra = s.extra := rfl
  rw [hfinal, settingsWithHooks_eq_canonical_iff hdecodes hmanaged hextra, ← hhooks]
  rcases hdecodes.hooks with hsome | ⟨hnone, hempty⟩
  · -- the document names its hooks: they have to be written, and be the same
    have hnamed : doc.get "hooks" ≠ none := by
      intro hnone
      rw [hnone] at hsome
      exact absurd hsome (by simp)
    rw [hsome]
    refine ⟨?_, ?_⟩
    · intro heq
      split at heq
      · exact absurd heq (by simp)
      · next hne =>
        have hsame := hooksValue_inj.mp (Option.some.inj heq)
        exact ⟨hsame, fun _ => hsame ▸ hne⟩
    · rintro ⟨hsame, hne⟩
      rw [hsame, if_neg (hne hnamed)]
  · -- it does not: none may be written
    rw [hnone, hempty, Option.map_none]
    refine ⟨?_, ?_⟩
    · intro heq
      split at heq
      · next hsame => exact ⟨hsame, fun h => absurd rfl h⟩
      · exact absurd heq (by simp)
    · rintro ⟨hsame, -⟩
      rw [if_pos hsame]

/-- Settings whose list of one hook is empty. -/
def emptyStopHooks : Json := .object [("hooks", .object [("Stop", .array [])])]

/-- An empty list of hooks does not come back. -/
theorem not_undone_emptyStopHooks :
    ¬ ∀ (scope : InstallScope) (doc : Json) (s : ClaudeSettings), decodeSettings doc = some s →
      doc.get "_ats_managed" = none →
      (∀ name : String, ∀ e ∈ hookEntries doc name, e ≠ atsHookEntry) →
      ∃ final, (uninstallHooks scope false .ok
        (installHooks scope false .ok ⟨some (.json doc), none⟩).1).1.settings
          = some (.json final) ∧ final.canonical = doc.canonical := by
  intro hall
  obtain ⟨s, hs⟩ := Option.isSome_iff_exists.mp
    (show (decodeSettings emptyStopHooks).isSome by decide)
  have hentries : ∀ name : String, hookEntries emptyStopHooks name = [] := by
    intro name
    have hvalue : (emptyStopHooks.get "hooks").map Json.canonical
        = some (.object [("Stop", .array [])]) := by decide
    unfold hookEntries
    rw [hvalue, Option.bind_some]
    by_cases hname : "Stop" = name
    · subst hname; rfl
    · simp [Json.get, Json.asObject, mapOfMembers, hname]
  obtain ⟨final, hwritten, hvalue⟩ := hall .user emptyStopHooks s hs (by decide)
    (fun name e he => by simp [hentries name] at he)
  have hrun : (uninstallHooks .user false .ok
      (installHooks .user false .ok ⟨some (.json emptyStopHooks), none⟩).1).1.settings
        = some (.json (.object [])) := by decide +kernel
  rw [hrun] at hwritten
  obtain rfl := FileContent.json.inj (Option.some.inj hwritten)
  exact absurd hvalue (by decide)

/-- Settings with a hook of the user's and a model. -/
def userStopHook : Json :=
  .object [("model", .string "opus"),
    ("hooks", .object [("Stop", .array [.object [("command", .string "say done")]])])]

/-- The user's hook and the model are all that is left. -/
theorem uninstall_install_userStopHook :
    ∃ final, (uninstallHooks .user false .ok
      (installHooks .user false .ok ⟨some (.json userStopHook), none⟩).1).1.settings
        = some (.json final) ∧ final.canonical = userStopHook.canonical := by
  obtain ⟨s, hs⟩ := Option.isSome_iff_exists.mp
    (show (decodeSettings userStopHook).isSome by decide)
  have hhooks : (decodeSettings userStopHook).map (fun s => s.hooks.toList)
      = some [("Stop", [.object [("command", .string "say done")]])] := by decide
  rw [hs, Option.map_some, Option.some.injEq] at hhooks
  refine (uninstall_install_iff .user userStopHook s hs (by decide) none).mpr ⟨?_, fun _ => ?_⟩
  · intro name _ es hes
    have hmem := Std.ExtTreeMap.mem_toList_iff_getElem?_eq_some.mpr hes
    rw [hhooks, List.mem_singleton] at hmem
    obtain rfl := (Prod.mk.inj hmem).2
    decide
  · intro hempty
    have hstop := Std.ExtTreeMap.mem_toList_iff_getElem?_eq_some.mp
      (hhooks ▸ List.mem_singleton_self ("Stop", _))
    rw [hempty] at hstop
    simp at hstop

end AgentTermStatus
