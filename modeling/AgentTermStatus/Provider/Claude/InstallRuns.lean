import AgentTermStatus.Lib.Run
import AgentTermStatus.Provider.Claude.InstallIdempotent

namespace AgentTermStatus

open Lib

/-!
# Runs of installs and uninstalls

The two commands may be given in any order and any number of times, some of them as a dry run and
some of them failing.  An uninstall makes everything before it undone, and a command given twice in
a row does nothing the second time; so a run amounts to an uninstall and an install at most
(`settle`), and what it leaves of the user's settings can be read off.

* `hookStep` — one command on the settings file;
* `foldl_settings_settle` — a run of commands amounts to its settled form;
* `hookRun_settings` — the settings file after a run.
-/

/-- A command that is given: whether it is a dry run, and how its file operations end. -/
structure HookOp where
  command : HookCommand
  scope : InstallScope
  dryRun : Bool
  io : IoOutcome

/-- The command changes the file. -/
def HookOp.Effective (op : HookOp) : Prop := op.dryRun = false ∧ op.io = .ok

instance (op : HookOp) : Decidable op.Effective := inferInstanceAs (Decidable (_ ∧ _))

/-- One command on the settings file of one scope; emitted is the command, if it changes the
    file. -/
def hookStep (dir : SettingsDir) (op : HookOp) : SettingsDir × List HookCommand :=
  ((op.command.run op.scope op.dryRun op.io dir).1, if op.Effective then [op.command] else [])

/-! ### Commands in a row -/

/-- What a run of commands amounts to. -/
def settle (cmds : List HookCommand) : List HookCommand :=
  match cmds.getLast? with
  | none => []
  | some .uninstall => [.uninstall]
  | some .install => if .uninstall ∈ cmds then [.uninstall, .install] else [.install]

/-- An install leaves nothing for another one. -/
theorem installEntries_installEntries (es : List Json) :
    installEntries (installEntries es) = installEntries es := if_pos (any_installEntries es)

/-- An uninstall leaves nothing for another one. -/
theorem uninstallEntries_uninstallEntries (o : Option (List Json)) :
    (o.bind uninstallEntries).bind uninstallEntries = o.bind uninstallEntries := by
  cases o with
  | none => rfl
  | some es =>
    rw [Option.bind_some]
    unfold uninstallEntries
    by_cases hnil : (es.filter fun e => !mentionsAts e).isEmpty = true
    · simp [hnil]
    · simp only [if_neg hnil, Option.bind_some, List.filter_filter, Bool.and_self]

/-- An uninstall undoes an install before it, as far as it undoes anything. -/
theorem uninstallEntries_installEntries (o : Option (List Json)) :
    uninstallEntries (installEntries (o.getD [])) = o.bind uninstallEntries := by
  have hfilter : (installEntries (o.getD [])).filter (fun e => !mentionsAts e) =
      (o.getD []).filter fun e => !mentionsAts e := by
    unfold installEntries
    split
    · rfl
    · rw [List.filter_append]
      simp [atsHookEntry_spec.1]
  unfold uninstallEntries
  rw [hfilter]
  cases o with
  | none => rfl
  | some es => rfl

/-- Settings with the same hooks and the same other keys. -/
theorem ClaudeSettings.ext_hooks {s t : ClaudeSettings}
    (hhooks : ∀ name : String, s.hooks[name]? = t.hooks[name]?)
    (hmanaged : s.atsManaged = t.atsManaged) (hextra : s.extra = t.extra) : s = t := by
  obtain ⟨h, m, x⟩ := s
  obtain ⟨h', m', x'⟩ := t
  obtain rfl : h = h' := FiniteMap.ext hhooks
  cases hmanaged
  cases hextra
  rfl

/-- What a command makes of the entries of a hook. -/
def HookCommand.entries : HookCommand → Option (List Json) → Option (List Json)
  | .install, o   => some (installEntries (o.getD []))
  | .uninstall, o => o.bind uninstallEntries

/-- What a command makes of the hooks. -/
theorem HookCommand.getElem?_settings (c : HookCommand) (s : ClaudeSettings) (name : String) :
    (c.settings s).hooks[name]? =
      if name ∈ hookTypes then c.entries s.hooks[name]? else s.hooks[name]? := by
  cases c with
  | install => exact overHooks_installHook s name
  | uninstall => exact overHooks_uninstallHook s name

/-- Commands agree in a row if they agree about the entries of every hook. -/
theorem HookCommand.settings_congr {c c' c'' : HookCommand}
    (h : ∀ o, c.entries (c'.entries o) = c''.entries o) (s : ClaudeSettings) :
    c.settings (c'.settings s) = c''.settings s := by
  refine ClaudeSettings.ext_hooks (fun name => ?_) (by cases c <;> cases c' <;> cases c'' <;> rfl)
    (by cases c <;> cases c' <;> cases c'' <;> rfl)
  rw [getElem?_settings, getElem?_settings, getElem?_settings]
  split
  · rw [h]
  · rfl

/-- A command given twice in a row. -/
theorem HookCommand.settings_settings (c : HookCommand) (s : ClaudeSettings) :
    c.settings (c.settings s) = c.settings s := by
  refine HookCommand.settings_congr (fun o => ?_) s
  cases c with
  | install => exact congrArg some (installEntries_installEntries _)
  | uninstall => exact uninstallEntries_uninstallEntries o

/-- An uninstall after an install. -/
theorem uninstall_settings_install (s : ClaudeSettings) :
    HookCommand.uninstall.settings (HookCommand.install.settings s) =
      HookCommand.uninstall.settings s := by
  refine HookCommand.settings_congr (fun o => ?_) s
  exact uninstallEntries_installEntries o

/-- One more command settles what is settled so far. -/
theorem settle_concat (cmds : List HookCommand) (c : HookCommand) :
    settle (cmds ++ [c]) =
      match c with
      | .uninstall => [.uninstall]
      | .install => if .uninstall ∈ cmds then [.uninstall, .install] else [.install] := by
  have hlast : (cmds ++ [c]).getLast? = some c := by simp
  cases c <;> simp [settle, hlast]

/-- **What a run amounts to.** Any commands in a row do what their settled form does. -/
theorem foldl_settings_settle (cmds : List HookCommand) (s : ClaudeSettings) :
    cmds.foldl (fun s c => c.settings s) s = (settle cmds).foldl (fun s c => c.settings s) s := by
  induction cmds using List.reverseRecOn with
  | nil => rfl
  | append_singleton cmds c ih =>
    rw [List.foldl_append, List.foldl_cons, List.foldl_nil, ih, settle_concat]
    have hself := HookCommand.settings_settings
    -- what is settled so far ends with the last command, if there is one
    rcases List.eq_nil_or_concat' cmds with rfl | ⟨cmds, c', rfl⟩
    · cases c <;> rfl
    · rw [settle_concat]
      cases c' with
      | uninstall =>
        cases c with
        | uninstall => exact hself .uninstall s
        | install => simp
      | install =>
        by_cases hun : HookCommand.uninstall ∈ cmds
        · cases c with
          | uninstall =>
            simp only [if_pos hun, List.foldl_cons, List.foldl_nil]
            exact (uninstall_settings_install _).trans (hself .uninstall s)
          | install =>
            simp only [List.foldl_cons, List.foldl_nil, List.mem_append, hun, true_or, if_true]
            exact hself .install _
        · cases c with
          | uninstall =>
            simp only [if_neg hun, List.foldl_cons, List.foldl_nil]
            exact uninstall_settings_install s
          | install =>
            have hnot : HookCommand.uninstall ∉ cmds ++ [HookCommand.install] := by simp [hun]
            simp only [if_neg hun, if_neg hnot, List.foldl_cons, List.foldl_nil]
            exact hself .install s

/-! ### The settings file -/

/-- A command that changes nothing leaves the file as it was. -/
theorem hookStep_of_not_effective {dir : SettingsDir} {content : FileContent}
    (hdir : dir.settings = some content) {op : HookOp} (h : ¬ op.Effective) :
    (hookStep dir op).1.settings = some content ∧ (hookStep dir op).2 = [] := by
  refine ⟨?_, if_neg h⟩
  obtain ⟨settings, backup⟩ := dir
  obtain rfl : settings = some content := hdir
  obtain ⟨c, scope, dryRun, io⟩ := op
  show (c.run scope dryRun io ⟨some content, backup⟩).1.settings = some content
  cases dryRun with
  | true =>
    cases hread : readSettings io content with
    | error e => cases c <;> simp [HookCommand.run, installHooks, uninstallHooks, hread]
    | ok s => cases c <;> simp [HookCommand.run, installHooks, uninstallHooks, hread]
  | false =>
    have hio : io ≠ .ok := fun hio => h ⟨rfl, hio⟩
    have hspec := c.run_spec scope io content backup
    cases io with
    | ok => exact absurd rfl hio
    | readFails => exact hspec.1
    | createDirFails => exact hspec.1
    | writeFails => exact hspec.1

/-- The file holds what the commands so far have made of the settings in a document. -/
def HoldsAfter (doc : Json) (s : ClaudeSettings) (cmds : List HookCommand) (dir : SettingsDir) :
    Prop :=
  dir.settings = some (.json (if cmds = [] then doc
    else settingsWithHooks (cmds.foldl (fun s c => c.settings s) s)))

/-- Commands keep settings well-formed. -/
theorem wellFormed_foldl {s : ClaudeSettings} (h : WellFormed s) (cmds : List HookCommand) :
    WellFormed (cmds.foldl (fun s c => c.settings s) s) := by
  induction cmds generalizing s with
  | nil => exact h
  | cons c cmds ih => exact ih (c.wellFormed h)

/-- Commands leave the other keys and the other hooks alone. -/
theorem others_foldl (s : ClaudeSettings) (cmds : List HookCommand) :
    (cmds.foldl (fun s c => c.settings s) s).extra = s.extra ∧
      ∀ name ∉ hookTypes,
        (cmds.foldl (fun s c => c.settings s) s).hooks[name]? = s.hooks[name]? := by
  induction cmds generalizing s with
  | nil => exact ⟨rfl, fun _ _ => rfl⟩
  | cons c cmds ih =>
    obtain ⟨hextra, hhooks⟩ := ih (c.settings s)
    refine ⟨hextra.trans (by cases c <;> rfl), fun name hname => (hhooks name hname).trans ?_⟩
    rw [c.getElem?_settings, if_neg hname]

/-- **Step lemma.** One more command. -/
theorem HoldsAfter.step {doc : Json} {s : ClaudeSettings} (hdoc : decodeSettings doc = some s)
    {cmds : List HookCommand} {dir : SettingsDir} (h : HoldsAfter doc s cmds dir) (op : HookOp) :
    HoldsAfter doc s (cmds ++ (hookStep dir op).2) (hookStep dir op).1 := by
  by_cases heff : op.Effective
  · obtain ⟨c, scope, dryRun, io⟩ := op
    obtain ⟨rfl, rfl⟩ : dryRun = false ∧ io = .ok := heff
    have heff : (⟨c, scope, false, .ok⟩ : HookOp).Effective := ⟨rfl, rfl⟩
    have hout : (hookStep dir ⟨c, scope, false, .ok⟩).2 = [c] := by
      rw [hookStep, if_pos heff]
    obtain ⟨settings, backup⟩ := dir
    have hne : cmds ++ [c] ≠ [] := by simp
    unfold HoldsAfter
    rw [hout, if_neg hne, List.foldl_append, List.foldl_cons, List.foldl_nil]
    show (c.run scope false .ok ⟨settings, backup⟩).1.settings = _
    obtain rfl : settings = _ := h
    by_cases hnil : cmds = []
    · subst hnil
      exact c.run_json scope hdoc backup
    · -- what was written last is read again, but for the list of managed hooks
      rw [if_neg hnil]
      have hwf := wellFormed_foldl (decodes_of_decodeSettings hdoc).wellFormed cmds
      rw [c.run_json scope (decodeSettings_settingsWithHooks hwf) backup]
      cases c <;> rfl
  · obtain ⟨hsame, hout⟩ := hookStep_of_not_effective h heff
    rw [hout, List.append_nil]
    exact hsame

/-- The commands of a run that change the file. -/
theorem trace_hookStep (dir : SettingsDir) (ops : List HookOp) :
    trace hookStep dir ops = (ops.filter fun op => op.Effective).map HookOp.command := by
  induction ops generalizing dir with
  | nil => rfl
  | cons op ops ih =>
    rw [trace_cons, ih, hookStep, List.filter_cons]
    by_cases heff : op.Effective
    · simp [heff]
    · simp [heff]

/-! ### The entries of a hook -/

/-- The entries of a hook that are not of ats. -/
def foreignEntries (es : List Json) : List Json := es.filter fun e => !mentionsAts e

theorem foreignEntries_installEntries (es : List Json) :
    foreignEntries (installEntries es) = foreignEntries es := by
  unfold installEntries foreignEntries
  split
  · rfl
  · rw [List.filter_append]
    simp [atsHookEntry_spec.1]

/-- What a run leaves of the entries of a hook. -/
structure EntriesAfter (cmds : List HookCommand) (old new : List Json) : Prop where
  /-- Every other entry is still there, in order. -/
  foreign : foreignEntries new = foreignEntries old
  /-- After an install the hook is there. -/
  installed : cmds.getLast? = some .install → new.any mentionsAts = true
  /-- It is there once, behind the other entries, if there was an uninstall before. -/
  once : cmds.getLast? = some .install → .uninstall ∈ cmds →
    new = foreignEntries old ++ [atsHookEntry]
  /-- After an uninstall there are only the other entries. -/
  uninstalled : cmds.getLast? = some .uninstall → new = foreignEntries old

/-- **Run lemma.** What the settled form of a run leaves of the entries of one of the eight
    hooks. -/
theorem entriesAfter_settle (cmds : List HookCommand) (s : ClaudeSettings) {name : String}
    (hname : name ∈ hookTypes) :
    EntriesAfter cmds ((s.hooks[name]?).getD [])
      ((((settle cmds).foldl (fun s c => c.settings s) s).hooks[name]?).getD []) := by
  have hinstall : ∀ t : ClaudeSettings, ((HookCommand.install.settings t).hooks[name]?).getD [] =
      installEntries ((t.hooks[name]?).getD []) := by
    intro t
    rw [HookCommand.settings_hooks, if_pos hname]
  have huninstall : ∀ t : ClaudeSettings,
      ((HookCommand.uninstall.settings t).hooks[name]?).getD [] =
        foreignEntries ((t.hooks[name]?).getD []) := by
    intro t
    rw [HookCommand.settings_hooks, if_pos hname]
    rfl
  have hforeign : ∀ es, foreignEntries (foreignEntries es) = foreignEntries es := by
    intro es
    simp [foreignEntries]
  unfold settle
  split
  · next hlast =>
    refine ⟨rfl, fun h => ?_, fun h => ?_, fun h => ?_⟩
    · rw [hlast] at h
      exact absurd h (by simp)
    · rw [hlast] at h
      exact absurd h (by simp)
    · rw [hlast] at h
      exact absurd h (by simp)
  · next hlast =>
    rw [List.foldl_cons, List.foldl_nil, huninstall]
    refine ⟨hforeign _, fun h => ?_, fun h => ?_, fun _ => rfl⟩
    · rw [hlast] at h
      exact absurd h (by simp)
    · rw [hlast] at h
      exact absurd h (by simp)
  · next hlast =>
    split
    · -- what an uninstall leaves does not mention ats, and the entry is added
      rw [List.foldl_cons, List.foldl_cons, List.foldl_nil, hinstall, huninstall]
      have hadd : installEntries (foreignEntries ((s.hooks[name]?).getD [])) =
          foreignEntries ((s.hooks[name]?).getD []) ++ [atsHookEntry] := by
        refine if_neg ?_
        simp [foreignEntries]
      refine ⟨?_, fun _ => any_installEntries _, fun _ _ => hadd, fun h => ?_⟩
      · rw [foreignEntries_installEntries, hforeign]
      · rw [hlast] at h
        exact absurd h (by simp)
    · next hnot =>
      rw [List.foldl_cons, List.foldl_nil, hinstall]
      refine ⟨foreignEntries_installEntries _, fun _ => any_installEntries _,
        fun _ hun => absurd hun hnot, fun h => ?_⟩
      rw [hlast] at h
      exact absurd h (by simp)

/-- **Runs of the installer.** Take any settings file that deserializes, and any run of installs and
    uninstalls on it, some of them dry runs and some of them failing.  If none changes the file, it
    is as it was.  Otherwise it holds what an uninstall and an install at most would have made of
    it: the list of managed hooks is gone, every key other than that and the hooks has its value,
    the lists of other hooks are the same, and in each of the eight hooks the entries that do not
    mention ats are still there, in order; after a last uninstall there are only these, and after a
    last install there is one that mentions ats, and only the inserted one if there was an uninstall
    before. -/
theorem hookRun_settings (doc : Json) (s : ClaudeSettings) (hdoc : decodeSettings doc = some s)
    (backup : Option FileContent) (ops : List HookOp) :
    let after := exec hookStep ⟨some (.json doc), backup⟩ ops
    let cmds := (ops.filter fun op => op.Effective).map HookOp.command
    (cmds = [] → after.settings = some (.json doc)) ∧
    (cmds ≠ [] → ∃ new, after.settings = some (.json new) ∧
      new = settingsWithHooks ((settle cmds).foldl (fun s c => c.settings s) s) ∧
      new.get "_ats_managed" = none ∧
      (∀ key ∉ settingsFields, new.get key = (doc.get key).map Json.canonical) ∧
      (∀ name ∉ hookTypes, hookEntries new name = hookEntries doc name) ∧
      ∀ name ∈ hookTypes, EntriesAfter cmds (hookEntries doc name) (hookEntries new name)) := by
  intro after cmds
  have hdecodes := decodes_of_decodeSettings hdoc
  have hstart : HoldsAfter doc s [] ⟨some (.json doc), backup⟩ := by simp [HoldsAfter]
  have hrun := Along.trace_inv (HoldsAfter doc s) (fun cmds dir op _ h => h.step hdoc op)
    (along_of_forall (C := fun _ _ => True) (fun _ _ => trivial) _ ops) hstart
  rw [List.nil_append, trace_hookStep] at hrun
  have hsettings : after.settings = some (.json (if cmds = [] then doc
      else settingsWithHooks (cmds.foldl (fun s c => c.settings s) s))) := hrun
  refine ⟨fun hnil => by rw [hsettings, if_pos hnil], fun hne => ?_⟩
  rw [if_neg hne, foldl_settings_settle] at hsettings
  have hwf := wellFormed_foldl hdecodes.wellFormed (settle cmds)
  refine ⟨_, hsettings, rfl, ?_, fun key hkey => ?_, fun name hname => ?_, fun name hname => ?_⟩
  · rw [get_settingsWithHooks _ (hwf.fields "hooks" (by decide)), if_neg (by decide),
      hwf.fields "_ats_managed" (by decide)]
  · rw [get_settingsWithHooks _ (hwf.fields "hooks" (by decide)),
      if_neg (fun heq => hkey (by rw [heq]; decide)), (others_foldl s _).1, hdecodes.extra,
      if_neg hkey]
  · rw [hookEntries_settingsWithHooks hwf, hdecodes.hookEntries_eq, (others_foldl s _).2 name hname]
  · rw [hookEntries_settingsWithHooks hwf, hdecodes.hookEntries_eq]
    exact entriesAfter_settle cmds s hname

/-- Settings with a hook of the user's, and no others. -/
def userNotification : Json :=
  .object [("hooks", .object [("Notification", .array [.object [("command", .string "say hi")]])])]

/-- Two installs and an uninstall that fails, on settings with a hook of the user's. -/
theorem hookRun_settings_userNotification :
    ∃ s, decodeSettings userNotification = some s ∧
      ∃ new, (exec hookStep ⟨some (.json userNotification), none⟩
        [⟨.install, .user, false, .ok⟩, ⟨.install, .user, false, .ok⟩,
          ⟨.uninstall, .user, false, .writeFails⟩]).settings = some (.json new) ∧
        new = settingsWithHooks (HookCommand.install.settings s) := by
  obtain ⟨s, hs⟩ := Option.isSome_iff_exists.mp
    (show (decodeSettings userNotification).isSome by decide)
  obtain ⟨new, hafter, hnew, -⟩ := (hookRun_settings userNotification s hs none
    [⟨.install, .user, false, .ok⟩, ⟨.install, .user, false, .ok⟩,
      ⟨.uninstall, .user, false, .writeFails⟩]).2 (by decide)
  exact ⟨s, hs, new, hafter, hnew⟩

end AgentTermStatus
