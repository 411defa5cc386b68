import AgentTermStatus.Provider.Claude.Adapter
import AgentTermStatus.Provider.Claude.InstallIdempotent

namespace AgentTermStatus

open Lib ClaudeAdapter

/-!
# Validation against parsing

The hooks are written down three times: in the arms of `parse`, in the list of `validate` and in
the list of the installer.  `validate` and `parse` check the shape of a payload each in its own
way.  They agree all the same.

* `parse_eq_err_iff` — parsing fails exactly on a payload that names no hook;
* `hookEventType_eq_schemaError_iff` — the arms of `parse` and the list of `validate`;
* `installHooks_written` — the hooks an install registers in the settings it writes;
* `validation_agrees` — the three put together.
-/

namespace ClaudeAdapter

/-! ### What parsing answers -/

/-- Parsing fails exactly on a payload that names no hook. -/
theorem parse_eq_err_iff (env : ParseEnv) (input : Json) :
    (∃ e, parse env input = .err e) ↔ hookName input = none := by
  unfold parse
  cases hobj : input.asObject with
  | none => simp [hookName, Json.get, hobj]
  | some obj =>
    rw [hookName, get_of_asObject hobj]
    simp only
    cases hhook : strField obj "hook_event_name" with
    | none => simp
    | some hook =>
      simp only
      split
      -- a notification answers by its label, any other hook with its event
      case h_6 => cases notificationLabel ((strField obj "message").getD "") <;> simp
      all_goals simp

/-- Only a hook that `validate` does not know gives a schema error. -/
theorem hookEventType_eq_schemaError_iff (hook message : String) :
    hookEventType hook message = .providerSchemaError ↔ hook ∉ validHooks := by
  have hclassify : classifyNotification message ≠ .providerSchemaError := by
    unfold classifyNotification
    simp only
    split <;> simp
  unfold hookEventType validHooks
  split
  case h_6 => simpa using hclassify
  all_goals simp_all

/-- A payload that names a hook and is parsed without a panic gives one event, of the type of the
    hook. -/
theorem parse_of_hookName {env : ParseEnv} {input : Json} {hook : String}
    (hname : hookName input = some hook) (hret : parse env input ≠ .panicked) :
    ∃ ev, parse env input = .ok [ev] ∧
      ev.eventType = hookEventType hook (notificationMessage input) := by
  cases hparse : parse env input with
  | ok events =>
    obtain ⟨hook', ev, hname', rfl, htype, -⟩ := parse_eq_ok hparse
    obtain rfl : hook' = hook := Option.some.inj (hname'.symm.trans hname)
    exact ⟨ev, rfl, htype⟩
  | err e =>
    have hnone := (parse_eq_err_iff env input).mp ⟨e, hparse⟩
    exact absurd (hname.symm.trans hnone) (by simp)
  | panicked => exact absurd hparse hret

/-- A payload that gives an event names a hook. -/
theorem hookName_of_parse {env : ParseEnv} {input : Json} {ev : NormalizedEvent}
    (h : parse env input = .ok [ev]) :
    ∃ hook, hookName input = some hook ∧
      ev.eventType = hookEventType hook (notificationMessage input) := by
  obtain ⟨hook, ev', hname, hev, htype, -⟩ := parse_eq_ok h
  obtain rfl : ev = ev' := (List.cons.inj hev).1
  exact ⟨hook, hname, htype⟩

/-! ### Validation of what is parsed -/

/-- A payload that is not valid has a reason. -/
theorem validate_ne_valid_iff (input : Json) :
    validate input ≠ .valid ↔ ∃ reason, validate input = .invalid reason := by
  cases validate input <;> simp

/-- The event of a payload is a schema error exactly if the payload is not valid. -/
theorem schemaError_iff_not_valid {env : ParseEnv} {input : Json} {ev : NormalizedEvent}
    (h : parse env input = .ok [ev]) :
    ev.eventType = .providerSchemaError ↔ validate input ≠ .valid := by
  obtain ⟨hook, hname, hev⟩ := hookName_of_parse h
  rw [hev, hookEventType_eq_schemaError_iff, ne_eq, validate_eq_valid_iff, hname]
  simp

section
variable {env : ParseEnv} {input : Json}

/-- A valid payload gives an event that is no schema error, and no other payload does. -/
theorem valid_iff_event (hret : parse env input ≠ .panicked) :
    validate input = .valid ↔
      ∃ ev, parse env input = .ok [ev] ∧ ev.eventType ≠ .providerSchemaError := by
  refine ⟨fun h => ?_, ?_⟩
  · obtain ⟨hook, -, hname⟩ := (validate_eq_valid_iff input).mp h
    obtain ⟨ev, hparse, -⟩ := parse_of_hookName hname hret
    exact ⟨ev, hparse, fun htype => (schemaError_iff_not_valid hparse).mp htype h⟩
  · rintro ⟨ev, hparse, htype⟩
    by_contra hnot
    exact htype ((schemaError_iff_not_valid hparse).mpr hnot)

/-- A payload that is invalid in spite of its hook gives a schema error, and no other payload
    does. -/
theorem invalid_iff_schemaError (hret : parse env input ≠ .panicked) :
    (∃ hook reason, hookName input = some hook ∧ validate input = .invalid reason) ↔
      ∃ ev, parse env input = .ok [ev] ∧ ev.eventType = .providerSchemaError := by
  refine ⟨?_, ?_⟩
  · rintro ⟨hook, reason, hname, hreason⟩
    obtain ⟨ev, hparse, -⟩ := parse_of_hookName hname hret
    have hnot : validate input ≠ .valid := (validate_ne_valid_iff input).mpr ⟨reason, hreason⟩
    exact ⟨ev, hparse, (schemaError_iff_not_valid hparse).mpr hnot⟩
  · rintro ⟨ev, hparse, htype⟩
    obtain ⟨hook, hname, -⟩ := hookName_of_parse hparse
    have hnot := (schemaError_iff_not_valid hparse).mp htype
    obtain ⟨reason, hreason⟩ := (validate_ne_valid_iff input).mp hnot
    exact ⟨hook, reason, hname, hreason⟩

/-- A payload that is neither fails to parse. -/
theorem neither_iff_err :
    (validate input ≠ .valid ∧
        ¬ ∃ hook reason, hookName input = some hook ∧ validate input = .invalid reason) ↔
      ∃ e, parse env input = .err e := by
  rw [parse_eq_err_iff]
  refine ⟨?_, fun hname => ⟨fun h => ?_, ?_⟩⟩
  · rintro ⟨hnot, hnone⟩
    obtain ⟨reason, hreason⟩ := (validate_ne_valid_iff input).mp hnot
    exact Option.eq_none_iff_forall_ne_some.mpr fun hook hname =>
      hnone ⟨hook, reason, hname, hreason⟩
  · obtain ⟨hook, -, hhook⟩ := (validate_eq_valid_iff input).mp h
    exact absurd (hhook.symm.trans hname) (by simp)
  · rintro ⟨hook, -, hhook, -⟩
    exact absurd (hhook.symm.trans hname) (by simp)

end

end ClaudeAdapter

/-! ### What an install registers -/

/-- The names a loop notes down are those it visits. -/
theorem foldl_installHook_names (names : List String) (l : HookLoop) (name : String) :
    name ∈ (names.foldl installHook l).changed ∨ name ∈ (names.foldl installHook l).unchanged ↔
      (name ∈ l.changed ∨ name ∈ l.unchanged) ∨ name ∈ names := by
  induction names generalizing l with
  | nil => simp
  | cons a names ih =>
    have hround : name ∈ (installHook l a).changed ∨ name ∈ (installHook l a).unchanged ↔
        (name ∈ l.changed ∨ name ∈ l.unchanged) ∨ name = a := by
      unfold installHook
      simp only
      split
      · simp [or_assoc]
      · simp only [List.mem_append, List.mem_singleton]
        exact or_right_comm
    rw [List.foldl_cons, ih, hround, List.mem_cons, or_assoc]

/-- An install reports the eight hooks, each as added or as found. -/
theorem installHooks_names {scope : InstallScope} {dryRun : Bool} {io : IoOutcome}
    {dir : SettingsDir} {result : InstallResult}
    (h : (installHooks scope dryRun io dir).2 = .ok result) (name : String) :
    name ∈ result.added ∨ name ∈ result.unchanged ↔ name ∈ hookTypes := by
  have hloop : ∀ s : ClaudeSettings,
      name ∈ (overHooks installHook s).changed ∨ name ∈ (overHooks installHook s).unchanged ↔
        name ∈ hookTypes := fun s => by
    unfold overHooks
    rw [foldl_installHook_names]
    simp
  unfold installHooks at h
  simp only at h
  split at h
  · exact absurd h (by simp)
  · next s _ =>
    split at h
    · obtain rfl := Except.ok.inj h
      exact hloop s
    · split at h
      · exact absurd h (by simp)
      · obtain rfl := Except.ok.inj h
        exact hloop s

/-- The entries of a hook in the settings an install finds; those of a file that does not
    deserialize it does not see. -/
def entriesFound (dir : SettingsDir) (name : String) : List Json :=
  match dir.settings with
  | some (.json doc) => if (decodeSettings doc).isSome then hookEntries doc name else []
  | _                => []

/-- An install that succeeds writes the settings it finds with the hooks it has gone over. -/
theorem exists_settingsFound {scope : InstallScope} {io : IoOutcome} {dir : SettingsDir}
    {result : InstallResult} (h : (installHooks scope false io dir).2 = .ok result) :
    ∃ s, WellFormed s ∧ (∀ name, entriesFound dir name = (s.hooks[name]?).getD []) ∧
      (installHooks scope false io dir).1.settings =
        some (.json (settingsWithHooks (HookCommand.install.settings s))) := by
  have hdefault : ∀ name : String, [] = (ClaudeSettings.default.hooks[name]?).getD [] := by
    simp [ClaudeSettings.default]
  obtain ⟨settings, backup⟩ := dir
  cases settings with
  | none =>
    refine ⟨.default, wellFormed_default, hdefault, ?_⟩
    cases io <;> first | rfl | simp [installHooks, writeSettings] at h
  | some content =>
    have hspec := HookCommand.install.run_spec scope io content backup
    cases io with
    | ok =>
      cases content with
      | bytes b => simp [installHooks, readSettings] at h
      | text t => exact ⟨.default, wellFormed_default, hdefault, hspec.1⟩
      | json doc =>
        cases hdoc : decodeSettings doc with
        | none =>
          -- taken for an empty document
          simp only [readSettings, hdoc, Option.getD_none, reduceCtorEq, if_false] at hspec
          refine ⟨.default, wellFormed_default, fun name => ?_, hspec.1⟩
          simp [entriesFound, hdoc, ← hdefault]
        | some s =>
          simp only [readSettings, hdoc, Option.getD_some, reduceCtorEq, if_false] at hspec
          have hdecodes := decodes_of_decodeSettings hdoc
          refine ⟨s, hdecodes.wellFormed, fun name => ?_, hspec.1⟩
          simp [entriesFound, hdoc, hdecodes.hookEntries_eq]
    | readFails => simp [installHooks, readSettings] at h
    | createDirFails =>
      obtain ⟨-, e, he⟩ := hspec
      exact absurd (he.symm.trans h) (by simp)
    | writeFails =>
      obtain ⟨-, e, he⟩ := hspec
      exact absurd (he.symm.trans h) (by simp)

/-- **What an install registers.** In the settings it writes each of the eight hooks has the entries
    that were found, with one that mentions ats, and any other hook has those that were found. -/
theorem installHooks_written {scope : InstallScope} {io : IoOutcome} {dir : SettingsDir}
    {result : InstallResult} (h : (installHooks scope false io dir).2 = .ok result) :
    ∃ new, (installHooks scope false io dir).1.settings = some (.json new) ∧
      ∀ name, hookEntries new name =
        if name ∈ hookTypes then installEntries (entriesFound dir name)
        else entriesFound dir name := by
  obtain ⟨s, hwf, hfound, hwritten⟩ := exists_settingsFound h
  refine ⟨_, hwritten, fun name => ?_⟩
  rw [hookEntries_settingsWithHooks (HookCommand.install.wellFormed hwf),
    HookCommand.settings_hooks, hfound]

/-- Every install registers the hook: in the settings it writes, an entry of the hook mentions
    ats. -/
def RegisteredHook (name : String) : Prop :=
  ∀ scope io dir result, (installHooks scope false io dir).2 = .ok result →
    ∃ new, (installHooks scope false io dir).1.settings = some (.json new) ∧
      ∃ e ∈ hookEntries new name, mentionsAts e = true

/-- The hooks that are registered are the eight. -/
theorem registeredHook_iff (name : String) : RegisteredHook name ↔ name ∈ hookTypes := by
  refine ⟨fun h => ?_, fun hmem scope io dir result hok => ?_⟩
  · -- without a settings file, an install writes no entry but those of the eight
    have hok : (installHooks .user false .ok ⟨none, none⟩).2 = .ok _ := rfl
    obtain ⟨new, hwritten, hentries⟩ := installHooks_written hok
    obtain ⟨new', hwritten', e, he, -⟩ := h .user .ok ⟨none, none⟩ _ hok
    obtain rfl := FileContent.json.inj (Option.some.inj (hwritten.symm.trans hwritten'))
    by_contra hnot
    rw [hentries, if_neg hnot] at he
    exact absurd he (by simp [entriesFound])
  · obtain ⟨new, hwritten, hentries⟩ := installHooks_written hok
    refine ⟨new, hwritten, ?_⟩
    rw [hentries, if_pos hmem]
    exact List.any_eq_true.mp (any_installEntries _)

/-! ### The three lists -/

/-- A hook is accepted: a payload that names it is valid. -/
def AcceptedHook (name : String) : Prop :=
  ∃ input, hookName input = some name ∧ validate input = .valid

/-- The payload that names a hook and nothing else. -/
def barePayload (name : String) : Json := .object [("hook_event_name", .string name)]

/-- The accepted hooks are those in the list of `validate`. -/
theorem acceptedHook_iff (name : String) : AcceptedHook name ↔ name ∈ validHooks := by
  refine ⟨?_, fun hmem => ?_⟩
  · rintro ⟨input, hname, hvalid⟩
    obtain ⟨hook, hmem, hhook⟩ := (validate_eq_valid_iff input).mp hvalid
    obtain rfl : hook = name := Option.some.inj (hhook.symm.trans hname)
    exact hmem
  · have hname : hookName (barePayload name) = some name := by
      simp [hookName, barePayload, Json.get, Json.asObject, Json.asStr, mapOfMembers]
    exact ⟨barePayload name, hname, (validate_eq_valid_iff _).mpr ⟨name, hmem, hname⟩⟩

/-- **Validation agrees with parsing.** A payload that parsing returns on is valid exactly if it
    gives one event that is no schema error, invalid in spite of its hook exactly if it gives a
    schema error, and fails to parse otherwise.  The accepted hooks are those that every install
    registers: in the settings it writes, each of them has the entries that were found and, if none
    of these mentions ats, the inserted one behind them, and any other hook has the entries that
    were found.  They are also the hooks it reports. -/
theorem validation_agrees (env : ParseEnv) (input : Json) (hret : parse env input ≠ .panicked) :
    (validate input = .valid ↔
      ∃ ev, parse env input = .ok [ev] ∧ ev.eventType ≠ .providerSchemaError) ∧
    ((∃ hook reason, hookName input = some hook ∧ validate input = .invalid reason) ↔
      ∃ ev, parse env input = .ok [ev] ∧ ev.eventType = .providerSchemaError) ∧
    ((validate input ≠ .valid ∧
        ¬ ∃ hook reason, hookName input = some hook ∧ validate input = .invalid reason) ↔
      ∃ e, parse env input = .err e) ∧
    (∀ name, AcceptedHook name ↔ RegisteredHook name) ∧
    (∀ scope io dir result, (installHooks scope false io dir).2 = .ok result →
      ∃ new, (installHooks scope false io dir).1.settings = some (.json new) ∧
        ∀ name,
          (AcceptedHook name → hookEntries new name = installEntries (entriesFound dir name)) ∧
          (¬ AcceptedHook name → hookEntries new name = entriesFound dir name)) ∧
    ∀ scope dryRun io dir result, (installHooks scope dryRun io dir).2 = .ok result →
      ∀ name, AcceptedHook name ↔ name ∈ result.added ∨ name ∈ result.unchanged := by
  -- the list of `validate` and that of the installer
  have hlists : ∀ name, AcceptedHook name ↔ name ∈ hookTypes := acceptedHook_iff
  refine ⟨valid_iff_event hret, invalid_iff_schemaError hret, neither_iff_err, fun name => ?_,
    ?_, ?_⟩
  · rw [hlists, registeredHook_iff]
  · intro scope io dir result hok
    obtain ⟨new, hwritten, hentries⟩ := installHooks_written hok
    refine ⟨new, hwritten, fun name => ⟨fun hname => ?_, fun hname => ?_⟩⟩
    · rw [hentries, if_pos ((hlists name).mp hname)]
    · rw [hentries, if_neg fun hmem => hname ((hlists name).mpr hmem)]
  · intro scope dryRun io dir result hok name
    rw [hlists, installHooks_names hok]

/-- A `Stop` payload is valid, and gives an event. -/
theorem validation_agrees_stop :
    ∃ ev, parse ⟨1, 2, 0, none, none, none, none⟩ (barePayload "Stop") = .ok [ev] ∧
      ev.eventType ≠ .providerSchemaError := by
  have hret : parse ⟨1, 2, 0, none, none, none, none⟩ (barePayload "Stop") ≠ .panicked := by
    rw [ne_eq, parse_eq_panicked_iff]
    decide
  exact (validation_agrees _ (barePayload "Stop") hret).1.mp (by decide)

end AgentTermStatus
