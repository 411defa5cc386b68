import AgentTermStatus.Provider.Claude.Adapter
import AgentTermStatus.Lib.Record

namespace AgentTermStatus

open Lib ClaudeAdapter

/-!
# What an event shows of its payload

Two payloads are parsed alike if the adapter reads the same in them.  What it draws afresh for
every call, the event id, the time and the id of a session without a name, is left out of the
comparison (`SameUpToFresh`).

* `unread_fields_ignored` — parsing and validation read seven places of a payload: six fields
  and the command among the input of the tool;
* `command_unseen_iff` — the command itself is seen in the event of a tool hook, as its label:
  two commands of the same risk give the same event exactly if they look the same in it
  (`SameBeginning`).
-/

/-- Two environments with the same variables. -/
structure SameVariables (env env' : ParseEnv) : Prop where
  tmuxPane : env.tmuxPane = env'.tmuxPane
  tty : env.tty = env'.tty
  sshTty : env.sshTty = env'.sshTty
  termProgram : env.termProgram = env'.termProgram

/-- The id of a session the payload does not name. -/
def ParseEnv.fallbackSessionId (env : ParseEnv) : String := "unknown-" ++ env.fallbackId.toString

/-- Two sessions that are the same, but for ids drawn for want of a name. -/
structure SameSession (env env' : ParseEnv) (s s' : SessionIdentity) : Prop where
  id : s.id = s'.id ∨ s.id = env.fallbackSessionId ∧ s'.id = env'.fallbackSessionId
  parentId : s.parentId = s'.parentId
  workspace : s.workspace = s'.workspace
  terminal : s.terminal = s'.terminal

/-- Two events that are the same, but for their ids, their times and fallback session ids. -/
structure SameEvent (env env' : ParseEnv) (ev ev' : NormalizedEvent) : Prop where
  schemaVersion : ev.schemaVersion = ev'.schemaVersion
  provider : ev.provider = ev'.provider
  providerVersion : ev.providerVersion = ev'.providerVersion
  eventType : ev.eventType = ev'.eventType
  session : SameSession env env' ev.session ev'.session
  activity : ev.activity = ev'.activity
  metadata : ev.metadata = ev'.metadata

/-- Two results of parsing that are the same, but for what is drawn afresh. -/
inductive SameUpToFresh (env env' : ParseEnv) : ParseOutcome → ParseOutcome → Prop
  | ok {events events' : List NormalizedEvent}
      (same : List.Forall₂ (SameEvent env env') events events') :
      SameUpToFresh env env' (.ok events) (.ok events')
  | err (e : ProviderError) : SameUpToFresh env env' (.err e) (.err e)
  | panicked : SameUpToFresh env env' .panicked .panicked

/-! ### What parsing reads -/

/-- The fields of a payload that are read as texts. -/
def readFields : List String :=
  ["hook_event_name", "session_id", "cwd", "claude_code_version", "tool_name", "message"]

/-- A member of the tool's input. -/
def toolInputField (input : Json) (key : String) : Option Json :=
  (input.get "tool_input").bind fun v => v.get key

/-- Two payloads that agree wherever parsing reads. -/
structure ReadAlike (input input' : Json) : Prop where
  fields : ∀ key ∈ readFields, input.get key = input'.get key
  command : toolInputField input "command" = toolInputField input' "command"

/-- Sessions derived from payloads with the same fields are the same, but for fallback ids. -/
theorem deriveSession_congr {env env' : ParseEnv} (henv : SameVariables env env')
    {input input' : Json} {obj obj' : FiniteMap String Json} (hobj : input.asObject = some obj)
    (hobj' : input'.asObject = some obj')
    (hfields : ∀ key ∈ readFields, strField obj key = strField obj' key) :
    SameSession env env' (deriveSession env input) (deriveSession env' input') := by
  have hid := hfields "session_id" (by simp [readFields])
  have hcwd := hfields "cwd" (by simp [readFields])
  unfold deriveSession
  simp only [hobj, hobj', ← hid, ← hcwd, ← henv.tty, ← henv.sshTty, ← henv.termProgram,
    ← henv.tmuxPane]
  refine ⟨?_, rfl, rfl, rfl⟩
  cases strField obj "session_id" with
  | none => exact Or.inr ⟨rfl, rfl⟩
  | some id => simp only [Option.getD_some, true_or]

/-- The same fields and the same activity of a tool give the same result. -/
theorem parse_congr {env env' : ParseEnv} (henv : SameVariables env env') {input input' : Json}
    {obj obj' : FiniteMap String Json} (hobj : input.asObject = some obj)
    (hobj' : input'.asObject = some obj')
    (hfields : ∀ key ∈ readFields, strField obj key = strField obj' key)
    (htool : ∀ withRisk, toolActivity obj withRisk = toolActivity obj' withRisk) :
    SameUpToFresh env env' (parse env input) (parse env' input') := by
  have hversion : detectVersion obj = detectVersion obj' :=
    hfields "claude_code_version" (by simp [readFields])
  have hsession := deriveSession_congr henv hobj hobj' hfields
  unfold parse
  simp only [hobj, hobj']
  rw [← hfields "hook_event_name" (by simp [readFields]),
    ← hfields "message" (by simp [readFields])]
  cases strField obj "hook_event_name" with
  | none => exact .err _
  | some hook =>
    simp only [← htool]
    split
    case h_6 =>
      -- a notification gives an event unless it has no label
      split
      · exact .panicked
      · exact .ok (.cons ⟨rfl, rfl, hversion, rfl, hsession, rfl, rfl⟩ .nil)
    all_goals exact .ok (.cons ⟨rfl, rfl, hversion, rfl, hsession, rfl, rfl⟩ .nil)

/-- The command of a tool, as a member of the payload. -/
theorem toolInputCommand_eq {input : Json} {obj : FiniteMap String Json}
    (hobj : input.asObject = some obj) :
    toolInputCommand obj = (toolInputField input "command").bind Json.asStr := by
  rw [toolInputCommand, toolInputField, Json.get, hobj]
  rfl

/-- Payloads that agree in the fields have the same texts there. -/
theorem strField_congr {input input' : Json} {obj obj' : FiniteMap String Json}
    (hobj : input.asObject = some obj) (hobj' : input'.asObject = some obj') {key : String}
    (h : input.get key = input'.get key) : strField obj key = strField obj' key := by
  rw [← get_of_asObject hobj, ← get_of_asObject hobj', h]

/-- **Prompt bodies and unknown fields are ignored.** Two objects that agree in the six fields and
    in the command of the tool, parsed with the same environment variables, give the same result
    up to what is drawn afresh, and the same verdict of the validation. -/
theorem unread_fields_ignored {env env' : ParseEnv} (henv : SameVariables env env')
    {input input' : Json} (hobj : input.asObject.isSome) (hobj' : input'.asObject.isSome)
    (h : ReadAlike input input') :
    SameUpToFresh env env' (parse env input) (parse env' input') ∧
      validate input = validate input' := by
  obtain ⟨obj, hobj⟩ := Option.isSome_iff_exists.mp hobj
  obtain ⟨obj', hobj'⟩ := Option.isSome_iff_exists.mp hobj'
  have hfields : ∀ key ∈ readFields, strField obj key = strField obj' key :=
    fun key hkey => strField_congr hobj hobj' (h.fields key hkey)
  have hcommand : toolInputCommand obj = toolInputCommand obj' := by
    rw [toolInputCommand_eq hobj, toolInputCommand_eq hobj', h.command]
  refine ⟨parse_congr henv hobj hobj' hfields fun withRisk => ?_, ?_⟩
  · rw [toolActivity, toolActivity, hfields "tool_name" (by simp [readFields]), hcommand]
  · have hname := h.fields "hook_event_name" (by simp [readFields])
    simp only [Json.get, hobj, hobj', Option.bind_some] at hname
    have hmem : "hook_event_name" ∈ obj ↔ "hook_event_name" ∈ obj' := by
      rw [← Std.ExtTreeMap.isSome_getElem?_iff_mem, hname, Std.ExtTreeMap.isSome_getElem?_iff_mem]
    unfold validate
    simp only [hobj, hobj', hmem, hfields "hook_event_name" (by simp [readFields])]

/-- The variables of a pane of tmux, with the ids and the time of a call. -/
def paneEnv (id : Uuid) (timestamp : DateTime) : ParseEnv where
  eventId := id
  fallbackId := id
  timestamp := timestamp
  tmuxPane := some "%1"
  tty := none
  sshTty := none
  termProgram := some "tmux"

/-- The calls of one pane have the same variables. -/
theorem paneEnv_same (id id' : Uuid) (t t' : DateTime) :
    SameVariables (paneEnv id t) (paneEnv id' t') := ⟨rfl, rfl, rfl, rfl⟩

/-- A prompt with its body, and what is left of it in another version of the provider. -/
theorem unread_fields_ignored_prompt :
    let input := Json.object [("hook_event_name", .string "UserPromptSubmit"),
      ("prompt", .string "my secret"), ("transcript_path", .string "/home/u/t.jsonl")]
    let input' := Json.object [("future", .array [.null]),
      ("hook_event_name", .string "UserPromptSubmit")]
    SameUpToFresh (paneEnv 1 10) (paneEnv 2 20) (parse (paneEnv 1 10) input)
        (parse (paneEnv 2 20) input') ∧
      validate input = validate input' := by
  intro input input'
  have halike : ReadAlike input input' := ⟨by decide +kernel, by decide +kernel⟩
  exact unread_fields_ignored (paneEnv_same 1 2 10 20) rfl rfl halike

/-! ### The command in the event -/

/-- The hooks around a call of a tool. -/
def toolHooks : List String := ["PreToolUse", "PostToolUse", "PostToolUseFailure"]

/-- Two payloads of a tool hook that are equal except for their commands. -/
structure DifferInCommand (input input' : Json) (command command' : String) : Prop where
  hook : ∃ hook ∈ toolHooks, hookName input = some hook
  fields : ∀ key, key ≠ "tool_input" → input.get key = input'.get key
  members : ∀ key, key ≠ "command" → toolInputField input key = toolInputField input' key
  command : toolInputField input "command" = some (.string command)
  command' : toolInputField input' "command" = some (.string command')

/-- Two commands with the same first 40 characters, control characters aside. -/
def SameBeginning (command command' : String) : Prop :=
  (command.toList.filter fun c => !isControl c).take ActivityLabel.maxChars =
    (command'.toList.filter fun c => !isControl c).take ActivityLabel.maxChars

/-- Only an object names a hook. -/
theorem asObject_of_hookName {input : Json} {hooks : List String}
    (h : ∃ hook ∈ hooks, hookName input = some hook) : ∃ obj, input.asObject = some obj := by
  obtain ⟨hook, -, hname⟩ := h
  cases hobj : input.asObject with
  | none => simp [hookName, Json.get, hobj] at hname
  | some obj => exact ⟨obj, rfl⟩

/-- A tool hook gives one event, labelled with its command. -/
theorem parse_toolHook (env : ParseEnv) {input : Json} {command : String}
    (hhook : ∃ hook ∈ toolHooks, hookName input = some hook)
    (hcommand : toolInputField input "command" = some (.string command)) :
    ∃ ev, parse env input = .ok [ev] ∧
      ev.activity.bind Activity.label = some (ActivityLabel.new command) := by
  obtain ⟨obj, hobj⟩ := asObject_of_hookName hhook
  obtain ⟨hook, hhook, hname⟩ := hhook
  have hlabel : ∀ withRisk, (toolActivity obj withRisk).label =
      some (ActivityLabel.new command) := by
    intro withRisk
    rw [toolActivity, toolInputCommand_eq hobj, hcommand]
    rfl
  rw [hookName, get_of_asObject hobj] at hname
  unfold parse
  simp only [hobj, hname]
  simp only [toolHooks, List.mem_cons, List.not_mem_nil, or_false] at hhook
  obtain rfl | rfl | rfl := hhook
  all_goals exact ⟨_, rfl, hlabel _⟩

/-- **What is seen of a command.** Two payloads of a tool hook that differ in nothing but commands
    with the same risk give the same event, up to what is drawn afresh, exactly if the commands
    have the same first 40 characters, control characters aside. -/
theorem command_unseen_iff {env env' : ParseEnv} (henv : SameVariables env env')
    {input input' : Json} {command command' : String}
    (h : DifferInCommand input input' command command')
    (hrisk : riskClassifier.classify command = riskClassifier.classify command') :
    SameUpToFresh env env' (parse env input) (parse env' input') ↔
      SameBeginning command command' := by
  have hname : hookName input = hookName input' := by
    rw [hookName, hookName, h.fields "hook_event_name" (by simp)]
  rw [SameBeginning, ← ActivityLabel.new_eq_new_iff]
  refine ⟨fun hsame => ?_, fun hlabel => ?_⟩
  · -- the events are labelled with the commands
    obtain ⟨ev, hev, hlabel⟩ := parse_toolHook env h.hook h.command
    obtain ⟨ev', hev', hlabel'⟩ := parse_toolHook env' (hname ▸ h.hook) h.command'
    rw [hev, hev'] at hsame
    obtain ⟨hsame⟩ := hsame
    obtain ⟨hsame, -⟩ := List.forall₂_cons.mp hsame
    rw [hsame.activity, hlabel'] at hlabel
    exact (Option.some.inj hlabel).symm
  · -- nothing else of a command is in the event but its risk
    obtain ⟨obj, hobj⟩ := asObject_of_hookName h.hook
    obtain ⟨obj', hobj'⟩ := asObject_of_hookName (hname ▸ h.hook)
    refine parse_congr henv hobj hobj' (fun key hkey => ?_) (fun withRisk => ?_)
    · have hother : key ≠ "tool_input" := ne_of_mem_of_not_mem hkey (by simp [readFields])
      exact strField_congr hobj hobj' (h.fields key hother)
    · have htool := strField_congr hobj hobj' (h.fields "tool_name" (by simp))
      unfold toolActivity evaluateRisk
      simp only [toolInputCommand_eq hobj, toolInputCommand_eq hobj', h.command, h.command',
        Option.bind_some, Json.asStr, Option.map_some, htool, hlabel, hrisk]

/-- The members of the announcement of a command of `Bash`. -/
def bashMembers (command : String) : List (String × Json) :=
  [("session_id", .string "s"), ("hook_event_name", .string "PreToolUse"),
    ("tool_name", .string "Bash"), ("tool_input", .object [("command", .string command)])]

/-- The announcement of a command of `Bash`. -/
def bashPayload (command : String) : Json := .object (bashMembers command)

/-- The fields of an announcement. -/
theorem get_bashPayload (command key : String) :
    (bashPayload command).get key = (bashMembers command).lookup key :=
  Json.get_object (List.Sublist.refl _) (by simp [bashMembers]) key

/-- The input of the tool in an announcement has no member but the command. -/
theorem toolInputField_bashPayload (command key : String) :
    toolInputField (bashPayload command) key = [("command", Json.string command)].lookup key := by
  rw [toolInputField, get_bashPayload, ← Json.get_object (List.Sublist.refl _) (by simp) key]
  simp [bashMembers, List.lookup_cons]

/-- Two announcements differ in nothing but their commands. -/
theorem bashPayload_differ (command command' : String) :
    DifferInCommand (bashPayload command) (bashPayload command') command command' where
  hook := ⟨"PreToolUse", by simp [toolHooks],
    by simp [hookName, get_bashPayload, bashMembers, List.lookup_cons, Json.asStr]⟩
  fields := fun key hkey => by
    have hne : (key == "tool_input") = false := beq_eq_false_iff_ne.mpr hkey
    simp [get_bashPayload, bashMembers, List.lookup_cons, hne]
  members := fun key hkey => by
    have hne : (key == "command") = false := beq_eq_false_iff_ne.mpr hkey
    simp [toolInputField_bashPayload, List.lookup_cons, hne]
  command := by simp [toolInputField_bashPayload]
  command' := by simp [toolInputField_bashPayload]

/-- Two harmless commands with different secrets give different events. -/
theorem secret_seen_in_label :
    ¬ ∀ (env env' : ParseEnv) (input input' : Json) (command command' : String),
      SameVariables env env' → DifferInCommand input input' command command' →
      riskClassifier.classify command = riskClassifier.classify command' →
      SameUpToFresh env env' (parse env input) (parse env' input') := by
  intro hall
  have hdiffer := bashPayload_differ "export KEY=abc" "export KEY=xyz"
  have hsame := hall _ _ _ _ _ _ (paneEnv_same 1 2 10 20) hdiffer (by decide +kernel)
  -- the label shows the command
  obtain ⟨ev, hev, hlabel⟩ := parse_toolHook (paneEnv 1 10) hdiffer.hook hdiffer.command
  obtain ⟨ev', hev', hlabel'⟩ := parse_toolHook (paneEnv 2 20)
    (bashPayload_differ "export KEY=xyz" "").hook hdiffer.command'
  rw [hev, hev'] at hsame
  obtain ⟨hsame⟩ := hsame
  rw [(List.forall₂_cons.mp hsame).1.activity, hlabel', Option.some.injEq,
    ActivityLabel.new_eq_new_iff] at hlabel
  revert hlabel
  decide +kernel

/-- Commands that differ after 40 characters give the same event. -/
theorem command_unseen_iff_long :
    SameUpToFresh (paneEnv 1 10) (paneEnv 2 20)
      (parse (paneEnv 1 10) (bashPayload "echo 0123456789 0123456789 0123456789 01 abc"))
      (parse (paneEnv 2 20) (bashPayload "echo 0123456789 0123456789 0123456789 01 xyz")) := by
  have hrisk : riskClassifier.classify "echo 0123456789 0123456789 0123456789 01 abc" =
      riskClassifier.classify "echo 0123456789 0123456789 0123456789 01 xyz" := by
    decide +kernel
  refine (command_unseen_iff (paneEnv_same 1 2 10 20) (bashPayload_differ _ _) hrisk).mpr ?_
  unfold SameBeginning
  decide +kernel

end AgentTermStatus
