import AgentTermStatus.Provider.Claude.InstallSafety

namespace AgentTermStatus

open Lib

/-!
# Installing twice

An install of a settings file that deserializes appends at most one entry to each list of the
eight hooks and changes nothing else but the list of managed hooks, which it drops; a second
install finds an entry in each of the eight lists and adds nothing (`install_idempotent`).
-/

/-- What an install keeps of a document, and what it appends. -/
structure OnlyAppends (old new : Json) : Prop where
  /-- Every list of hooks is the beginning of the new list, which has one more entry at most. -/
  lists : ∀ name es, hookList old name = some es →
    ∃ es', hookList new name = some es' ∧ es <+: es' ∧ es'.length ≤ es.length + 1
  /-- The lists of other hooks are the same. -/
  others : ∀ name ∉ hookTypes, hookList new name = hookList old name
  /-- Every other key has its value. -/
  keys : ∀ key ∉ settingsFields,
    (new.get key).map Json.canonical = (old.get key).map Json.canonical

/-! ### Lists of hooks -/

/-- The lists of what is written back are those of the settings. -/
theorem hookList_settingsWithHooks {s : ClaudeSettings} (h : WellFormed s) (name : String) :
    hookList (settingsWithHooks s) name = s.hooks[name]? := by
  rw [(decodes_of_decodeSettings (decodeSettings_settingsWithHooks h)).hookList_eq]

/-- An install appends one entry at most. -/
theorem length_installEntries_le (es : List Json) :
    (installEntries es).length ≤ es.length + 1 := by
  unfold installEntries
  split <;> simp

/-- After an install there is an entry that mentions ats. -/
theorem any_installEntries (es : List Json) : (installEntries es).any mentionsAts = true := by
  unfold installEntries
  split
  · next hany => exact hany
  · rw [List.any_append]
    simp [atsHookEntry_spec.1]

/-- An install on a document that deserializes only appends. -/
theorem onlyAppends_install {doc : Json} {s : ClaudeSettings} (h : Decodes doc s) :
    OnlyAppends doc (settingsWithHooks (HookCommand.install.settings s)) := by
  have hwf := HookCommand.install.wellFormed h.wellFormed
  have hnew : ∀ name, hookList (settingsWithHooks (HookCommand.install.settings s)) name =
      if name ∈ hookTypes then some (installEntries ((s.hooks[name]?).getD []))
      else s.hooks[name]? := by
    intro name
    rw [hookList_settingsWithHooks hwf]
    exact overHooks_installHook s name
  refine ⟨fun name es hes => ?_, fun name hname => ?_, ?_⟩
  · rw [h.hookList_eq] at hes
    rw [hnew, hes, Option.getD_some]
    split
    · exact ⟨_, rfl, prefix_installEntries es, length_installEntries_le es⟩
    · exact ⟨es, rfl, List.prefix_refl es, Nat.le_succ _⟩
  · rw [hnew, if_neg hname, h.hookList_eq]
  · exact ((keepsUserSettings_of_decodes .install h).mpr fun heq => absurd heq (by simp)).keys

/-! ### The second install -/

/-- One round changes nothing where an entry mentions ats. -/
theorem installHook_of_any {l : HookLoop} {name : String} {es : List Json}
    (hes : l.hooks[name]? = some es) (hany : es.any mentionsAts = true) :
    installHook l name = { l with unchanged := l.unchanged ++ [name] } := by
  have hsame : l.hooks.insert name es = l.hooks := by
    apply FiniteMap.ext
    intro k
    rw [FiniteMap.getElem?_insert_if]
    split
    · next heq => rw [← heq, hes]
    · rfl
  unfold installHook
  rw [hes, Option.getD_some]
  simp only [hany, if_true, hsame]

/-- The loop changes nothing if each list has an entry that mentions ats. -/
theorem foldl_installHook_of_any {names : List String} (l : HookLoop)
    (h : ∀ name ∈ names, ∃ es, l.hooks[name]? = some es ∧ es.any mentionsAts = true) :
    names.foldl installHook l = { l with unchanged := l.unchanged ++ names } := by
  induction names generalizing l with
  | nil => simp
  | cons name names ih =>
    obtain ⟨es, hes, hany⟩ := h name List.mem_cons_self
    have hrest := ih { l with unchanged := l.unchanged ++ [name] }
      fun other hother => h other (List.mem_cons_of_mem _ hother)
    rw [List.foldl_cons, installHook_of_any hes hany, hrest, List.append_assoc,
      List.singleton_append]

/-- The loop changes nothing in hooks it has gone over before. -/
theorem overHooks_installed {s t : ClaudeSettings} (h : t.hooks = (overHooks installHook s).hooks) :
    overHooks installHook t = ⟨t.hooks, [], hookTypes⟩ := by
  refine foldl_installHook_of_any _ fun name hname => ?_
  refine ⟨installEntries ((s.hooks[name]?).getD []), ?_, any_installEntries _⟩
  rw [h, overHooks_installHook, if_pos hname]

/-- What an install does to a file that deserializes. -/
theorem installHooks_json (scope : InstallScope) {doc : Json} {s : ClaudeSettings}
    (hdoc : decodeSettings doc = some s) (backup : Option FileContent) :
    installHooks scope false .ok ⟨some (.json doc), backup⟩ =
      (⟨some (.json (settingsWithHooks (HookCommand.install.settings s))), none⟩,
        .ok { scope, added := (overHooks installHook s).changed, removed := []
              unchanged := (overHooks installHook s).unchanged, dryRun := false }) := by
  simp [installHooks, readSettings, hdoc, writeSettings, HookCommand.settings]

/-- **Install is idempotent and only appends.** For every document that deserializes: an install
    writes a document that has every list of hooks with one more entry at most at its end, none
    for hooks outside the eight, and every other key but the list of managed hooks; a second one
    writes the same document and adds nothing. -/
theorem install_idempotent (scope : InstallScope) (doc : Json) (backup : Option FileContent)
    (hdoc : (decodeSettings doc).isSome) :
    ∃ new added, installHooks scope false .ok ⟨some (.json doc), backup⟩ =
        (⟨some (.json new), none⟩, .ok added) ∧
      OnlyAppends doc new ∧
      installHooks scope false .ok ⟨some (.json new), none⟩ =
        (⟨some (.json new), none⟩, .ok { scope, added := [], removed := []
                                         unchanged := hookTypes, dryRun := false }) := by
  obtain ⟨s, hs⟩ := Option.isSome_iff_exists.mp hdoc
  have hdecodes := decodes_of_decodeSettings hs
  have hwf := HookCommand.install.wellFormed hdecodes.wellFormed
  refine ⟨_, _, installHooks_json scope hs backup, onlyAppends_install hdecodes, ?_⟩
  -- the written document deserializes to the settings, which have an entry in each list
  have hread := decodeSettings_settingsWithHooks hwf
  have hloop := overHooks_installed (s := s)
    (t := { HookCommand.install.settings s with atsManaged := [] }) rfl
  rw [installHooks_json scope hread none, HookCommand.settings, hloop]
  rfl

/-- Settings with a hook of the user's, and one that mentions ats. -/
def partlyInstalled : Json :=
  .object [("model", .string "opus"),
    ("hooks", .object [("Stop", .array [.object [("command", .string "ats ingest")]]),
      ("PreCompact", .array [.object [("command", .string "say done")]])])]

/-- Seven hooks are added to, once. -/
theorem install_idempotent_partlyInstalled :
    ∃ new added, installHooks .user false .ok ⟨some (.json partlyInstalled), none⟩ =
        (⟨some (.json new), none⟩, .ok added) ∧
      OnlyAppends partlyInstalled new ∧
      installHooks .user false .ok ⟨some (.json new), none⟩ =
        (⟨some (.json new), none⟩, .ok { scope := .user, added := [], removed := []
                                         unchanged := hookTypes, dryRun := false }) :=
  install_idempotent .user partlyInstalled none (by decide)

end AgentTermStatus
