import AgentTermStatus.Core
import AgentTermStatus.Lib.Record

namespace AgentTermStatus

open Lib

/-!
# The JSON form of events

What the derived encoders and decoders of the event types make of their values and of JSON
documents.  Unknown fields are rejected at all four levels; optional fields may be missing;
`terminal` is left out when there is none; a label is sanitized again when it is decoded, which
does nothing to a label that was encoded.

How JSON documents, ids and instants are written as text is an argument (`TextForms`).
-/

/-- The text forms: of JSON documents, and, inside them, of ids and instants. -/
structure TextForms where
  /-- Writes a document. -/
  toVec : Json → List UInt8
  /-- Reads a text as a document. -/
  fromSlice : List UInt8 → Option Json
  /-- Reads an id. -/
  parseUuid : String → Option Uuid
  /-- Writes an instant. -/
  timeText : DateTime → String
  /-- Reads an instant. -/
  parseTime : String → Option DateTime

/-- The bytes of a text. -/
def textBytes (text : String) : List UInt8 := text.toUTF8.data.toList

/-! ### Encoding -/

/-- The name of an event type. -/
def eventTypeName : EventType → String
  | .sessionStarted       => "session.started"
  | .sessionStopped       => "session.stopped"
  | .sessionFailed        => "session.failed"
  | .sessionHeartbeat     => "session.heartbeat"
  | .agentStarted         => "agent.started"
  | .agentWorking         => "agent.working"
  | .agentWaiting         => "agent.waiting"
  | .agentCompleted       => "agent.completed"
  | .agentFailed          => "agent.failed"
  | .toolStarted          => "tool.started"
  | .toolCompleted        => "tool.completed"
  | .toolFailed           => "tool.failed"
  | .userInputRequired    => "user.input_required"
  | .userApprovalRequired => "user.approval_required"
  | .userInputReceived    => "user.input_received"
  | .providerDisconnected => "provider.disconnected"
  | .providerSchemaError  => "provider.schema_error"
  | .rendererFailed       => "renderer.failed"
  | .sessionTimeout       => "session.timeout"

/-- The name of a category. -/
def activityCategoryName : ActivityCategory → String
  | .thinking       => "thinking"
  | .reading        => "reading"
  | .searching      => "searching"
  | .editing        => "editing"
  | .shell          => "shell"
  | .testing        => "testing"
  | .network        => "network"
  | .versionControl => "version_control"
  | .deployment     => "deployment"
  | .unknown        => "unknown"

/-- The name of a risk level. -/
def riskLevelName : RiskLevel → String
  | .low      => "low"
  | .medium   => "medium"
  | .high     => "high"
  | .critical => "critical"
  | .unknown  => "unknown"

/-- An optional text, written. -/
def encodeText : Option String → Json := Json.encodeOption .string

/-- A terminal context, written. -/
def encodeTerminal (t : TerminalContext) : Json :=
  .object [("tty", encodeText t.tty), ("term_program", encodeText t.termProgram),
    ("tmux_pane", encodeText t.tmuxPane)]

/-- A session identity, written; `terminal` is skipped if there is none. -/
def encodeSession (s : SessionIdentity) : Json :=
  .object ([("id", .string s.id), ("parent_id", encodeText s.parentId),
    ("workspace", encodeText s.workspace)] ++
    match s.terminal with
    | some t => [("terminal", encodeTerminal t)]
    | none   => [])

/-- An activity, written. -/
def encodeActivity (a : Activity) : Json :=
  .object [("category", .string (activityCategoryName a.category)),
    ("label", Json.encodeOption (fun l => .string l.asStr) a.label),
    ("tool_name", encodeText a.toolName),
    ("risk", Json.encodeOption (fun r => .string (riskLevelName r)) a.risk)]

/-- The members of an event, written. -/
def eventMembers (F : TextForms) (e : NormalizedEvent) : List (String × Json) :=
  [("schema_version", .string e.schemaVersion),
    ("event_id", .string e.eventId.toString),
    ("timestamp", .string (F.timeText e.timestamp)),
    ("provider", .string e.provider),
    ("provider_version", encodeText e.providerVersion),
    ("event_type", .string (eventTypeName e.eventType)),
    ("session", encodeSession e.session),
    ("activity", Json.encodeOption encodeActivity e.activity),
    ("metadata", Json.encodeMap e.metadata)]

/-- An event, written. -/
def encodeEvent (F : TextForms) (e : NormalizedEvent) : Json := .object (eventMembers F e)

/-- Of the text forms, only that of instants shows in the document of an event. -/
theorem encodeEvent_congr {F G : TextForms} (h : F.timeText = G.timeText) (e : NormalizedEvent) :
    encodeEvent F e = encodeEvent G e := by
  rw [encodeEvent, encodeEvent, eventMembers, eventMembers, h]

/-! ### Decoding -/

/-- All event types. -/
def eventTypes : List EventType :=
  [.sessionStarted, .sessionStopped, .sessionFailed, .sessionHeartbeat, .agentStarted,
    .agentWorking, .agentWaiting, .agentCompleted, .agentFailed, .toolStarted, .toolCompleted,
    .toolFailed, .userInputRequired, .userApprovalRequired, .userInputReceived,
    .providerDisconnected, .providerSchemaError, .rendererFailed, .sessionTimeout]

/-- All categories. -/
def activityCategories : List ActivityCategory :=
  [.thinking, .reading, .searching, .editing, .shell, .testing, .network, .versionControl,
    .deployment, .unknown]

/-- All risk levels. -/
def riskLevels : List RiskLevel := [.low, .medium, .high, .critical, .unknown]

/-- A label: sanitized again. -/
def decodeLabel (v : Json) : Option ActivityLabel := v.asStr.map ActivityLabel.new

/-- The fields of a terminal context. -/
def terminalFields : List String := ["tty", "term_program", "tmux_pane"]

/-- Reads a terminal context. -/
def decodeTerminal (v : Json) : Option TerminalContext := do
  let ms ← v.members terminalFields
  let tty ← Json.withDefault ms "tty" none (Json.decodeOption Json.asStr)
  let termProgram ← Json.withDefault ms "term_program" none (Json.decodeOption Json.asStr)
  let tmuxPane ← Json.withDefault ms "tmux_pane" none (Json.decodeOption Json.asStr)
  return { tty, termProgram, tmuxPane }

/-- The fields of a session identity. -/
def sessionFields : List String := ["id", "parent_id", "workspace", "terminal"]

/-- Reads a session identity. -/
def decodeSession (v : Json) : Option SessionIdentity := do
  let ms ← v.members sessionFields
  let id ← Json.required ms "id" Json.asStr
  let parentId ← Json.withDefault ms "parent_id" none (Json.decodeOption Json.asStr)
  let workspace ← Json.withDefault ms "workspace" none (Json.decodeOption Json.asStr)
  let terminal ← Json.withDefault ms "terminal" none (Json.decodeOption decodeTerminal)
  return { id, parentId, workspace, terminal }

/-- The fields of an activity. -/
def activityFields : List String := ["category", "label", "tool_name", "risk"]

/-- Reads an activity. -/
def decodeActivity (v : Json) : Option Activity := do
  let ms ← v.members activityFields
  let category ← Json.withDefault ms "category" .unknown
    (Json.decodeVariant activityCategories activityCategoryName)
  let label ← Json.withDefault ms "label" none (Json.decodeOption decodeLabel)
  let toolName ← Json.withDefault ms "tool_name" none (Json.decodeOption Json.asStr)
  let risk ← Json.withDefault ms "risk" none
    (Json.decodeOption (Json.decodeVariant riskLevels riskLevelName))
  return { category, label, toolName, risk }

/-- The fields of an event. -/
def eventFields : List String :=
  ["schema_version", "event_id", "timestamp", "provider", "provider_version", "event_type",
    "session", "activity", "metadata"]

/-- Reads an event from a document. -/
def decodeEvent (F : TextForms) (v : Json) : Option NormalizedEvent := do
  let ms ← v.members eventFields
  let schemaVersion ← Json.required ms "schema_version" Json.asStr
  let eventId ← Json.required ms "event_id" fun v => v.asStr.bind F.parseUuid
  let timestamp ← Json.required ms "timestamp" fun v => v.asStr.bind F.parseTime
  let provider ← Json.required ms "provider" Json.asStr
  let providerVersion ← Json.withDefault ms "provider_version" none
    (Json.decodeOption Json.asStr)
  let eventType ← Json.required ms "event_type" (Json.decodeVariant eventTypes eventTypeName)
  let session ← Json.required ms "session" decodeSession
  let activity ← Json.withDefault ms "activity" none (Json.decodeOption decodeActivity)
  let metadata ← Json.withDefault ms "metadata" ∅ Json.decodeMap
  return { schemaVersion, eventId, timestamp, provider, providerVersion, eventType, session
           activity, metadata }

/-- Reads a document from a text, unless it is nested too deeply. -/
def TextForms.readDocument (F : TextForms) (raw : List UInt8) : Option Json :=
  (F.fromSlice raw).bind fun doc => if doc.depth < recursionLimit then some doc else none

/-- Reads an event from a text. -/
def decodePayload (F : TextForms) (raw : List UInt8) : Option NormalizedEvent :=
  (F.readDocument raw).bind (decodeEvent F)

/-- The text of an event. -/
def encodePayload (F : TextForms) (e : NormalizedEvent) : List UInt8 := F.toVec (encodeEvent F e)

/-! ### What was read of a document that was decoded -/

section
variable {v : Json}

theorem decodeTerminal_eq_some {t : TerminalContext} (h : decodeTerminal v = some t) :
    ∃ ms, v.members terminalFields = some ms ∧
      Json.withDefault ms "tty" none (Json.decodeOption Json.asStr) = some t.tty ∧
      Json.withDefault ms "term_program" none (Json.decodeOption Json.asStr)
        = some t.termProgram ∧
      Json.withDefault ms "tmux_pane" none (Json.decodeOption Json.asStr) = some t.tmuxPane := by
  simp only [decodeTerminal, Option.bind_eq_bind, Option.bind_eq_some_iff, Option.pure_def,
    Option.some.injEq] at h
  obtain ⟨ms, hms, tty, htty, program, hprogram, pane, hpane, rfl⟩ := h
  exact ⟨ms, hms, htty, hprogram, hpane⟩

theorem decodeSession_eq_some {s : SessionIdentity} (h : decodeSession v = some s) :
    ∃ ms, v.members sessionFields = some ms ∧
      Json.required ms "id" Json.asStr = some s.id ∧
      Json.withDefault ms "parent_id" none (Json.decodeOption Json.asStr) = some s.parentId ∧
      Json.withDefault ms "workspace" none (Json.decodeOption Json.asStr) = some s.workspace ∧
      Json.withDefault ms "terminal" none (Json.decodeOption decodeTerminal)
        = some s.terminal := by
  simp only [decodeSession, Option.bind_eq_bind, Option.bind_eq_some_iff, Option.pure_def,
    Option.some.injEq] at h
  obtain ⟨ms, hms, id, hid, parent, hparent, workspace, hworkspace, terminal, hterminal, rfl⟩ := h
  exact ⟨ms, hms, hid, hparent, hworkspace, hterminal⟩

theorem decodeActivity_eq_some {a : Activity} (h : decodeActivity v = some a) :
    ∃ ms, v.members activityFields = some ms ∧
      Json.withDefault ms "category" .unknown
        (Json.decodeVariant activityCategories activityCategoryName) = some a.category ∧
      Json.withDefault ms "label" none (Json.decodeOption decodeLabel) = some a.label ∧
      Json.withDefault ms "tool_name" none (Json.decodeOption Json.asStr) = some a.toolName ∧
      Json.withDefault ms "risk" none
        (Json.decodeOption (Json.decodeVariant riskLevels riskLevelName)) = some a.risk := by
  simp only [decodeActivity, Option.bind_eq_bind, Option.bind_eq_some_iff, Option.pure_def,
    Option.some.injEq] at h
  obtain ⟨ms, hms, category, hcategory, label, hlabel, tool, htool, risk, hrisk, rfl⟩ := h
  exact ⟨ms, hms, hcategory, hlabel, htool, hrisk⟩

theorem decodeEvent_eq_some {F : TextForms} {ev : NormalizedEvent}
    (h : decodeEvent F v = some ev) :
    ∃ ms, v.members eventFields = some ms ∧
      Json.required ms "schema_version" Json.asStr = some ev.schemaVersion ∧
      Json.required ms "event_id" (fun v => v.asStr.bind F.parseUuid) = some ev.eventId ∧
      Json.required ms "timestamp" (fun v => v.asStr.bind F.parseTime) = some ev.timestamp ∧
      Json.required ms "provider" Json.asStr = some ev.provider ∧
      Json.withDefault ms "provider_version" none (Json.decodeOption Json.asStr)
        = some ev.providerVersion ∧
      Json.required ms "event_type" (Json.decodeVariant eventTypes eventTypeName)
        = some ev.eventType ∧
      Json.required ms "session" decodeSession = some ev.session ∧
      Json.withDefault ms "activity" none (Json.decodeOption decodeActivity) = some ev.activity ∧
      Json.withDefault ms "metadata" ∅ Json.decodeMap = some ev.metadata := by
  simp only [decodeEvent, Option.bind_eq_bind, Option.bind_eq_some_iff, Option.pure_def,
    Option.some.injEq] at h
  obtain ⟨ms, hms, version, hversion, eventId, heventId, timestamp, htimestamp, provider,
    hprovider, providerVersion, hproviderVersion, eventType, heventType, session, hsession,
    activity, hactivity, metadata, hmetadata, rfl⟩ := h
  exact ⟨ms, hms, hversion, heventId, htimestamp, hprovider, hproviderVersion, heventType,
    hsession, hactivity, hmetadata⟩

end

/-! ### Each decoder reads back what its encoder writes -/

@[simp] theorem decode_encodeText (o : Option String) :
    Json.decodeOption Json.asStr (encodeText o) = some o := by
  have htext : ∀ s : String, Json.asStr (.string s) = some s := fun _ => rfl
  exact Json.decodeOption_encodeOption htext (fun _ => by simp) o

theorem decode_eventTypeName (t : EventType) :
    Json.decodeVariant eventTypes eventTypeName (.string (eventTypeName t)) = some t :=
  Json.decodeVariant_string (by cases t <;> decide) (by cases t <;> decide)

theorem decode_activityCategoryName (c : ActivityCategory) :
    Json.decodeVariant activityCategories activityCategoryName
      (.string (activityCategoryName c)) = some c :=
  Json.decodeVariant_string (by cases c <;> decide) (by cases c <;> decide)

theorem decode_riskLevelName (r : RiskLevel) :
    Json.decodeVariant riskLevels riskLevelName (.string (riskLevelName r)) = some r :=
  Json.decodeVariant_string (by cases r <;> decide) (by cases r <;> decide)

/-- Decoding never alters a label. -/
theorem decode_encodeLabel (l : ActivityLabel) : decodeLabel (.string l.asStr) = some l := by
  show some (ActivityLabel.new l.asStr) = some l
  rw [ActivityLabel.new_asStr]

theorem decode_encodeTerminal (t : TerminalContext) :
    decodeTerminal (encodeTerminal t) = some t := by
  unfold decodeTerminal encodeTerminal
  rw [Json.members_object (by exact List.Sublist.refl terminalFields) (by decide)]
  simp [Json.withDefault, List.lookup_cons]

theorem decode_encodeSession (s : SessionIdentity) : decodeSession (encodeSession s) = some s := by
  unfold decodeSession encodeSession
  obtain ⟨id, parentId, workspace, terminal⟩ := s
  have hterminal : ∀ t, Json.decodeOption decodeTerminal (encodeTerminal t) = some (some t) :=
    fun t => Json.decodeOption_encodeOption decode_encodeTerminal
      (fun _ => by simp [encodeTerminal]) (some t)
  cases terminal with
  | none =>
    rw [Json.members_object (by exact List.sublist_append_left _ ["terminal"]) (by decide)]
    simp [Json.withDefault, Json.required, List.lookup_cons, Json.asStr]
  | some t =>
    rw [Json.members_object (by exact List.Sublist.refl sessionFields) (by decide)]
    simp [Json.withDefault, Json.required, List.lookup_cons, Json.asStr, hterminal]

theorem decode_encodeActivity (a : Activity) :
    decodeActivity (encodeActivity a) = some a := by
  have hlabel := Json.decodeOption_encodeOption decode_encodeLabel (fun _ => by simp) a.label
  have hrisk := Json.decodeOption_encodeOption decode_riskLevelName (fun _ => by simp) a.risk
  unfold decodeActivity encodeActivity
  rw [Json.members_object (by exact List.Sublist.refl activityFields) (by decide)]
  simp [Json.withDefault, List.lookup_cons, decode_activityCategoryName, hlabel, hrisk]

/-- The id and the instant of an event can be read back. -/
structure TextForms.ReadsFields (F : TextForms) (e : NormalizedEvent) : Prop where
  uuid : F.parseUuid e.eventId.toString = some e.eventId
  time : F.parseTime (F.timeText e.timestamp) = some e.timestamp

/-- **Round trip of the document form.** -/
theorem decode_encodeEvent {F : TextForms} {e : NormalizedEvent} (hF : F.ReadsFields e) :
    decodeEvent F (encodeEvent F e) = some e := by
  -- one fact for each field, in the order of the fields
  have hschema : Json.required (eventMembers F e) "schema_version" Json.asStr
      = some e.schemaVersion := rfl
  have hid : Json.required (eventMembers F e) "event_id" (fun v => v.asStr.bind F.parseUuid)
      = some e.eventId := hF.uuid
  have htime : Json.required (eventMembers F e) "timestamp" (fun v => v.asStr.bind F.parseTime)
      = some e.timestamp := hF.time
  have hprovider : Json.required (eventMembers F e) "provider" Json.asStr
      = some e.provider := rfl
  have hversion : Json.withDefault (eventMembers F e) "provider_version" none
      (Json.decodeOption Json.asStr) = some e.providerVersion := decode_encodeText _
  have htype : Json.required (eventMembers F e) "event_type"
      (Json.decodeVariant eventTypes eventTypeName) = some e.eventType :=
    decode_eventTypeName e.eventType
  have hsession : Json.required (eventMembers F e) "session" decodeSession
      = some e.session := decode_encodeSession e.session
  have hactivity : Json.withDefault (eventMembers F e) "activity" none
      (Json.decodeOption decodeActivity) = some e.activity :=
    Json.decodeOption_encodeOption decode_encodeActivity (fun _ => by simp [encodeActivity]) _
  have hmetadata : Json.withDefault (eventMembers F e) "metadata" ∅ Json.decodeMap
      = some e.metadata := Json.decodeMap_encodeMap e.metadata
  unfold decodeEvent encodeEvent
  rw [Json.members_object (by exact List.Sublist.refl eventFields) (by decide)]
  simp only [Option.bind_eq_bind, Option.bind_some, Option.pure_def, hschema, hid, htime,
    hprovider, hversion, htype, hsession, hactivity, hmetadata]

end AgentTermStatus
