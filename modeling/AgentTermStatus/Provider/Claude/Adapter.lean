import AgentTermStatus.Provider.Claude.Risk

namespace AgentTermStatus

open Lib

/-!
# The Claude adapter

`ClaudeAdapter.parse` turns the payload of one hook call into normalized events.  What it
reads besides the payload, environment variables, the clock and generated ids, is its
`ParseEnv`.

An accepted payload gives one event, whose type is that of the hook
(`parse_eq_ok`, `hookEventType`); the only payload it panics on is a notification with a
long message cut inside a character (`parse_eq_panicked_iff`).
-/

/-- Parse failure reported by a provider adapter. -/
inductive ProviderError
  /-- Input shape does not match any known provider schema version. -/
  | schemaMismatch (detail : String)
  /-- A required field is missing from the input. -/
  | missingRequiredField (field : String)
  /-- Input is not decodable. -/
  | malformed (detail : String)
  deriving DecidableEq

/-- Result of structural validation of a provider payload. -/
inductive ValidationResult
  | valid
  | invalid (reason : String)
  deriving DecidableEq

/-- What parsing one payload ends with. -/
inductive ParseOutcome
  | ok (events : List NormalizedEvent)
  | err (e : ProviderError)
  /-- The thread panics. -/
  | panicked

/-- What parsing one payload reads besides the payload. -/
structure ParseEnv where
  /-- The id generated for the event. -/
  eventId : Uuid
  /-- The id generated when the payload names no session. -/
  fallbackId : Uuid
  /-- The clock reading. -/
  timestamp : DateTime
  /-- The variable `TMUX_PANE`. -/
  tmuxPane : Option String
  /-- The variable `TTY`. -/
  tty : Option String
  /-- The variable `SSH_TTY`. -/
  sshTty : Option String
  /-- The variable `TERM_PROGRAM`. -/
  termProgram : Option String

/-- The text under a key of an object. -/
def strField (obj : FiniteMap String Json) (key : String) : Option String :=
  (obj[key]?).bind Json.asStr

namespace ClaudeAdapter

/-- The name of the provider. -/
def providerName : String := "claude"

/-- The classifier of the adapter. -/
def riskClassifier : RiskClassifier := RiskClassifier.new

/-- The command a tool is called with. -/
def toolInputCommand (obj : FiniteMap String Json) : Option String :=
  ((obj["tool_input"]?).bind fun v => v.get "command").bind Json.asStr

/-- The category of a tool. -/
def categorizeTool (toolName : Option String) : ActivityCategory :=
  match toolName with
  | some "Bash" | some "Shell" => .shell
  | some "Read" | some "Glob" | some "Grep" => .reading
  | some "Write" | some "Edit" => .editing
  | some "WebFetch" | some "WebSearch" => .network
  | some "Task" | some "TodoWrite" => .thinking
  | some "BashOutput" | some "KillShell" => .shell
  | some "NotebookEdit" => .editing
  | _ => .unknown

/-- What a notification asks for, by its message. -/
def classifyNotification (message : String) : EventType :=
  let lower := toLowercase message
  if contains lower "permission" || contains lower "approval" || contains lower "allow" then
    .userApprovalRequired
  else .userInputRequired

/-- The version of the provider. -/
def detectVersion (obj : FiniteMap String Json) : Option String :=
  strField obj "claude_code_version"

/-- The risk of a tool call: only commands of `Bash` are classified. -/
def evaluateRisk (toolName command : Option String) : Option RiskLevel :=
  if toolName ≠ some "Bash" then none
  else command.bind riskClassifier.classify

/-- The session of a payload. -/
def deriveSession (env : ParseEnv) (input : Json) : SessionIdentity :=
  match input.asObject with
  | none => SessionIdentity.default
  | some obj =>
      { id := (strField obj "session_id").getD ("unknown-" ++ env.fallbackId.toString)
        parentId := none
        workspace := strField obj "cwd"
        terminal := some
          { tty := env.tty.or env.sshTty
            termProgram := env.termProgram
            tmuxPane := env.tmuxPane } }

/-- The activity of a tool hook; only the hook before the call evaluates the risk. -/
def toolActivity (obj : FiniteMap String Json) (withRisk : Bool) : Activity :=
  let toolName := strField obj "tool_name"
  let command := toolInputCommand obj
  { category := categorizeTool toolName
    label := command.map ActivityLabel.new
    toolName := toolName
    risk := if withRisk then evaluateRisk toolName command else none }

/-- The label of a notification: its message, cut after 40 bytes if it is longer.  There is
    none when the cut is inside a character. -/
def notificationLabel (message : String) : Option ActivityLabel :=
  if message.utf8ByteSize ≤ 40 then some (ActivityLabel.new message)
  else (takeBytes 40 message).map ActivityLabel.new

/-- Converts one payload into normalized events. -/
def parse (env : ParseEnv) (input : Json) : ParseOutcome :=
  match input.asObject with
  | none => .err (.malformed "input is not a JSON object")
  | some obj =>
      match strField obj "hook_event_name" with
      | none => .err (.missingRequiredField "hook_event_name")
      | some hookType =>
          let event := fun (eventType : EventType) (activity : Option Activity)
              (metadata : FiniteMap String Json.Value) =>
            ({ schemaVersion := schemaVersion
               eventId := env.eventId
               timestamp := env.timestamp
               provider := providerName
               providerVersion := detectVersion obj
               eventType := eventType
               session := deriveSession env input
               activity := activity
               metadata := metadata } : NormalizedEvent)
          match hookType with
          | "SessionStart" => .ok [event .sessionStarted none ∅]
          | "UserPromptSubmit" => .ok [event .agentStarted none ∅]
          | "PreToolUse" => .ok [event .toolStarted (some (toolActivity obj true)) ∅]
          | "PostToolUse" => .ok [event .toolCompleted (some (toolActivity obj false)) ∅]
          | "PostToolUseFailure" => .ok [event .toolFailed (some (toolActivity obj false)) ∅]
          | "Notification" =>
              let message := (strField obj "message").getD ""
              match notificationLabel message with
              | none => .panicked
              | some label =>
                  .ok [event (classifyNotification message)
                    (some { category := .unknown, label := some label
                            toolName := none, risk := none }) ∅]
          | "Stop" => .ok [event .agentCompleted none ∅]
          | "SessionEnd" => .ok [event .sessionStopped none ∅]
          | hookType =>
              let reason := "unknown hook_event_name: " ++ hookType
              .ok [event .providerSchemaError none
                ((∅ : FiniteMap String Json.Value).insert "reason" (Json.string reason).value)]

/-- The hooks `validate` knows. -/
def validHooks : List String :=
  ["SessionStart", "UserPromptSubmit", "PreToolUse", "PostToolUse", "PostToolUseFailure",
    "Notification", "Stop", "SessionEnd"]

/-- Cheap structural validation. -/
def validate (input : Json) : ValidationResult :=
  match input.asObject with
  | none => .invalid "input is not a JSON object"
  | some obj =>
      if "hook_event_name" ∉ obj then .invalid "missing hook_event_name"
      else
        match strField obj "hook_event_name" with
        | none => .invalid "hook_event_name is not a string"
        | some hookType =>
            if hookType ∈ validHooks then .valid
            else .invalid ("unknown hook_event_name: " ++ hookType)

/-! ### What a payload gives -/

/-- The hook of a payload. -/
def hookName (input : Json) : Option String := (input.get "hook_event_name").bind Json.asStr

/-- The message of a payload. -/
def notificationMessage (input : Json) : String :=
  ((input.get "message").bind Json.asStr).getD ""

/-- The event type of a hook. -/
def hookEventType (hook message : String) : EventType :=
  match hook with
  | "SessionStart" => .sessionStarted
  | "UserPromptSubmit" => .agentStarted
  | "PreToolUse" => .toolStarted
  | "PostToolUse" => .toolCompleted
  | "PostToolUseFailure" => .toolFailed
  | "Notification" => classifyNotification message
  | "Stop" => .agentCompleted
  | "SessionEnd" => .sessionStopped
  | _ => .providerSchemaError

/-- The fields of an object, as fields of the payload. -/
theorem get_of_asObject {input : Json} {obj : FiniteMap String Json}
    (h : input.asObject = some obj) (key : String) :
    (input.get key).bind Json.asStr = strField obj key := by
  rw [Json.get, h]
  rfl

/-- **What parsing gives.** An accepted payload names its hook and gives one event, of the
    type of the hook, with the id and the time of the call and the session of the payload. -/
theorem parse_eq_ok {env : ParseEnv} {input : Json} {events : List NormalizedEvent}
    (h : parse env input = .ok events) :
    ∃ hook ev, hookName input = some hook ∧ events = [ev] ∧
      ev.eventType = hookEventType hook (notificationMessage input) ∧
      ev.eventId = env.eventId ∧ ev.timestamp = env.timestamp ∧
      ev.session = deriveSession env input := by
  unfold parse at h
  cases hobj : input.asObject with
  | none => simp [hobj] at h
  | some obj =>
    simp only [hobj] at h
    cases hhook : strField obj "hook_event_name" with
    | none => simp [hhook] at h
    | some hook =>
      have hname : hookName input = some hook := by
        rw [hookName, get_of_asObject hobj, hhook]
      simp only [hhook] at h
      refine ⟨hook, ?_⟩
      unfold hookEventType
      split at h
      case h_6 =>
        -- a notification is classified by its message, and panics without a label
        split at h
        · exact absurd h (by simp)
        · obtain rfl := ParseOutcome.ok.inj h
          exact ⟨_, hname, rfl, by rw [notificationMessage, get_of_asObject hobj], rfl, rfl, rfl⟩
      all_goals
        obtain rfl := ParseOutcome.ok.inj h
        exact ⟨_, hname, rfl, rfl, rfl, rfl, rfl⟩

/-- **Where parsing panics.** On a notification whose message is cut inside a character, and
    on no other payload. -/
theorem parse_eq_panicked_iff (env : ParseEnv) (input : Json) :
    parse env input = .panicked ↔
      hookName input = some "Notification" ∧
        notificationLabel (notificationMessage input) = none := by
  unfold parse
  cases hobj : input.asObject with
  | none => simp [hookName, Json.get, hobj]
  | some obj =>
    rw [hookName, notificationMessage, get_of_asObject hobj, get_of_asObject hobj]
    simp only
    cases hhook : strField obj "hook_event_name" with
    | none => simp
    | some hook =>
      simp only
      split
      -- only a notification can panic
      case h_6 => cases notificationLabel ((strField obj "message").getD "") <;> simp
      all_goals simp_all

/-- Validation accepts exactly the payloads with a hook it knows. -/
theorem validate_eq_valid_iff (input : Json) :
    validate input = .valid ↔ ∃ hook ∈ validHooks, hookName input = some hook := by
  unfold validate
  cases hobj : input.asObject with
  | none => simp [hookName, Json.get, hobj]
  | some obj =>
    rw [hookName, get_of_asObject hobj]
    simp only
    -- a missing key reads as no text, and so does one that is not a string
    by_cases hmem : "hook_event_name" ∈ obj
    · rw [if_neg (not_not.mpr hmem)]
      cases strField obj "hook_event_name" with
      | none => simp
      | some hook =>
        simp only [Option.some.injEq, exists_eq_right']
        split <;> simp_all
    · have hnone : strField obj "hook_event_name" = none := by
        rw [strField, Std.ExtTreeMap.getElem?_eq_none hmem]
        rfl
      rw [if_pos hmem, hnone]
      simp

end ClaudeAdapter

end AgentTermStatus
