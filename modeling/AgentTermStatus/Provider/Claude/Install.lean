import AgentTermStatus.Provider.Claude.Settings
import AgentTermStatus.Lib.Text

namespace AgentTermStatus

open Lib

/-!
# Installing and uninstalling the hooks

`installHooks` and `uninstallHooks` read the settings file, change the lists of the eight
hooks and write the file back.  The file is written to a temporary file and renamed, so a
failing write leaves it as it was.  What is written stands for the document that is read in it
(`Settings`).

A hook entry counts as inserted by ats when its command contains `ats ingest`
(`mentionsAts`); what is inserted is `atsHookEntry`.
-/

/-- Whose settings are changed. -/
inductive InstallScope
  | user
  | project
  | local
  deriving DecidableEq

/-- What was done. -/
structure InstallResult where
  scope : InstallScope
  added : List String
  removed : List String
  unchanged : List String
  dryRun : Bool
  deriving DecidableEq

/-- What a file holds. -/
inductive FileContent
  /-- Bytes that are not UTF-8. -/
  | bytes (b : List UInt8)
  /-- A text that is not a JSON document. -/
  | text (s : String)
  /-- A JSON document. -/
  | json (doc : Json)
  deriving DecidableEq

/-- The settings file, and the backup next to it. -/
structure SettingsDir where
  settings : Option FileContent
  backup : Option FileContent

/-- Which file operations fail, if any. -/
inductive IoOutcome
  | ok
  /-- The settings cannot be read. -/
  | readFails
  /-- The directory of the settings cannot be created. -/
  | createDirFails
  /-- The new settings cannot be written or renamed. -/
  | writeFails
  deriving DecidableEq

/-- Why nothing was changed. -/
inductive InstallError
  | read
  | notUtf8
  | createDir
  | write
  deriving DecidableEq

/-- The entry ats inserts. -/
def atsHookEntry : Json :=
  .object [("command", .string "ats ingest --provider claude"),
    ("env", .object [("TMUX_PANE", .string "$\x7bTMUX_PANE\x7d")]),
    ("matcher", .string "")]

/-- The hooks ats inserts its entry in. -/
def hookTypes : List String :=
  ["SessionStart", "UserPromptSubmit", "PreToolUse", "PostToolUse", "PostToolUseFailure",
    "Notification", "Stop", "SessionEnd"]

/-- Does the command of the entry contain `ats ingest`? -/
def mentionsAts (e : Json) : Bool :=
  match (e.get "command").bind Json.asStr with
  | some c => contains c "ats ingest"
  | none   => false

/-- The hooks so far, and the names of the hooks changed and unchanged. -/
structure HookLoop where
  hooks : FiniteMap String (List Json)
  changed : List String
  unchanged : List String

/-- One round of the loop of `installHooks`. -/
def installHook (l : HookLoop) (name : String) : HookLoop :=
  let entries := (l.hooks[name]?).getD []
  if entries.any mentionsAts then
    { l with hooks := l.hooks.insert name entries, unchanged := l.unchanged ++ [name] }
  else
    { l with hooks := l.hooks.insert name (entries ++ [atsHookEntry])
             changed := l.changed ++ [name] }

/-- One round of the loop of `uninstallHooks`. -/
def uninstallHook (l : HookLoop) (name : String) : HookLoop :=
  match l.hooks[name]? with
  | none         => l
  | some entries =>
    let kept := entries.filter fun e => !mentionsAts e
    let hooks := if kept.isEmpty then l.hooks.erase name else l.hooks.insert name kept
    if kept.length < entries.length then
      { hooks, changed := l.changed ++ [name], unchanged := l.unchanged }
    else { hooks, changed := l.changed, unchanged := l.unchanged ++ [name] }

/-- The loop over the eight hooks. -/
def overHooks (round : HookLoop → String → HookLoop) (s : ClaudeSettings) : HookLoop :=
  hookTypes.foldl round ⟨s.hooks, [], []⟩

/-- The settings in a file: the default ones when it does not deserialize. -/
def readSettings (io : IoOutcome) (content : FileContent) : Except InstallError ClaudeSettings :=
  if io = .readFails then .error .read
  else
    match content with
    | .bytes _  => .error .notUtf8
    | .text _   => .ok .default
    | .json doc => .ok ((decodeSettings doc).getD .default)

/-- Writes the settings back: the old file is copied to the backup, the new one renamed to
    its place, and the backup removed. -/
def writeSettings (io : IoOutcome) (dir : SettingsDir) (s : ClaudeSettings) :
    SettingsDir × Except InstallError Unit :=
  if io = .createDirFails then (dir, .error .createDir)
  else if io = .writeFails then
    ({ dir with backup := if dir.settings.isSome then dir.settings else dir.backup },
      .error .write)
  else ({ settings := some (.json (settingsWithHooks s)), backup := none }, .ok ())

/-- Inserts the entry in each of the eight hooks that does not mention ats yet. -/
def installHooks (scope : InstallScope) (dryRun : Bool) (io : IoOutcome) (dir : SettingsDir) :
    SettingsDir × Except InstallError InstallResult :=
  let settings :=
    match dir.settings with
    | some content => readSettings io content
    | none         => .ok .default
  match settings with
  | .error e => (dir, .error e)
  | .ok s    =>
    let l := overHooks installHook s
    let result : InstallResult :=
      { scope, added := l.changed, removed := [], unchanged := l.unchanged, dryRun }
    if dryRun then (dir, .ok result)
    else
      match writeSettings io dir { s with hooks := l.hooks } with
      | (dir, .error e) => (dir, .error e)
      | (dir, .ok ())   => (dir, .ok result)

/-- Removes every entry that mentions ats from the eight hooks. -/
def uninstallHooks (scope : InstallScope) (dryRun : Bool) (io : IoOutcome) (dir : SettingsDir) :
    SettingsDir × Except InstallError InstallResult :=
  match dir.settings with
  | none         => (dir, .ok { scope, added := [], removed := [], unchanged := [], dryRun })
  | some content =>
    match readSettings io content with
    | .error e => (dir, .error e)
    | .ok s    =>
      let l := overHooks uninstallHook s
      let result : InstallResult :=
        { scope, added := [], removed := l.changed, unchanged := l.unchanged, dryRun }
      if dryRun then (dir, .ok result)
      else
        match writeSettings io dir { s with hooks := l.hooks } with
        | (dir, .error e) => (dir, .error e)
        | (dir, .ok ())   => (dir, .ok result)

/-! ### What the loops do -/

/-- The entries of a hook after an install. -/
def installEntries (entries : List Json) : List Json :=
  if entries.any mentionsAts then entries else entries ++ [atsHookEntry]

/-- The entries of a hook after an uninstall; the hook goes when none is left. -/
def uninstallEntries (entries : List Json) : Option (List Json) :=
  let kept := entries.filter fun e => !mentionsAts e
  if kept.isEmpty then none else some kept

/-- Install visits each of the eight hooks once. -/
theorem overHooks_installHook (s : ClaudeSettings) (name : String) :
    (overHooks installHook s).hooks[name]? =
      if name ∈ hookTypes then some (installEntries ((s.hooks[name]?).getD []))
      else s.hooks[name]? := by
  refine lookup_foldl installHook (fun l a => l.hooks[a]?)
    (fun o => some (installEntries (o.getD []))) (fun l k a => ?_) (by decide) _ name
  unfold installHook installEntries
  by_cases hk : k = a
  · subst hk
    by_cases hany : ((l.hooks[k]?).getD []).any mentionsAts = true <;> simp [hany]
  · by_cases hany : ((l.hooks[k]?).getD []).any mentionsAts = true <;>
      simp [hany, hk, FiniteMap.getElem?_insert_if]

/-- Uninstall visits each of the eight hooks once. -/
theorem overHooks_uninstallHook (s : ClaudeSettings) (name : String) :
    (overHooks uninstallHook s).hooks[name]? =
      if name ∈ hookTypes then (s.hooks[name]?).bind uninstallEntries
      else s.hooks[name]? := by
  refine lookup_foldl uninstallHook (fun l a => l.hooks[a]?)
    (fun o => o.bind uninstallEntries) (fun l k a => ?_) (by decide) _ name
  -- one round, without the names it notes down
  have hround : (uninstallHook l k).hooks =
      match l.hooks[k]? with
      | none => l.hooks
      | some entries =>
          match uninstallEntries entries with
          | none => l.hooks.erase k
          | some kept => l.hooks.insert k kept := by
    unfold uninstallHook uninstallEntries
    cases l.hooks[k]? with
    | none => rfl
    | some entries =>
      simp only
      by_cases hempty : (entries.filter fun e => !mentionsAts e).isEmpty = true
      · simp only [if_pos hempty]
        split <;> rfl
      · simp only [if_neg hempty]
        split <;> rfl
  rw [hround]
  cases hk : l.hooks[k]? with
  | none =>
    by_cases ha : k = a
    · subst ha; simp [hk]
    · simp [ha]
  | some entries =>
    cases hkept : uninstallEntries entries with
    | none =>
      simp only [hkept, FiniteMap.getElem?_erase_if]
      by_cases ha : k = a
      · subst ha; simp [hk, hkept]
      · simp [ha]
    | some kept =>
      simp only [hkept, FiniteMap.getElem?_insert_if]
      by_cases ha : k = a
      · subst ha; simp [hk, hkept]
      · simp [ha]

/-- The inserted entry mentions ats, is a value, and is hardly nested. -/
theorem atsHookEntry_spec :
    mentionsAts atsHookEntry = true ∧ atsHookEntry.canonical = atsHookEntry ∧
      atsHookEntry.depth + 3 < recursionLimit := by decide

/-- An install keeps the settings well-formed. -/
theorem WellFormed.install {s : ClaudeSettings} (h : WellFormed s) :
    WellFormed { s with hooks := (overHooks installHook s).hooks } := by
  refine ⟨h.fields, h.extraValues, fun name es hes e he => ?_⟩
  have hold : ∀ e ∈ (s.hooks[name]?).getD [], e.canonical = e ∧ e.depth + 3 < recursionLimit := by
    intro e he
    cases hes : s.hooks[name]? with
    | none => simp [hes] at he
    | some es => exact h.hookValues name es hes e (by simpa [hes] using he)
  simp only [overHooks_installHook] at hes
  split at hes
  · obtain rfl := Option.some.inj hes
    unfold installEntries at he
    split at he
    · exact hold e he
    · rcases List.mem_append.mp he with hmem | hmem
      · exact hold e hmem
      · obtain rfl := List.mem_singleton.mp hmem
        exact atsHookEntry_spec.2
  · exact h.hookValues name es hes e he

/-- An uninstall keeps the settings well-formed. -/
theorem WellFormed.uninstall {s : ClaudeSettings} (h : WellFormed s) :
    WellFormed { s with hooks := (overHooks uninstallHook s).hooks } := by
  refine ⟨h.fields, h.extraValues, fun name es hes e he => ?_⟩
  simp only [overHooks_uninstallHook] at hes
  split at hes
  · obtain ⟨old, hold, hkept⟩ := Option.bind_eq_some_iff.mp hes
    unfold uninstallEntries at hkept
    simp only at hkept
    split at hkept
    · exact absurd hkept (by simp)
    · obtain rfl := Option.some.inj hkept
      exact h.hookValues name old hold e (List.mem_of_mem_filter he)
  · exact h.hookValues name es hes e he

end AgentTermStatus
