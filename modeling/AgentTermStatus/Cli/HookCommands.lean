import AgentTermStatus.Wire.EventCodec
import AgentTermStatus.Daemon.Framing
import AgentTermStatus.Provider.Claude.Adapter

namespace AgentTermStatus

open Lib

/-!
# The ingest command

`ats ingest --provider NAME` is the command that is installed as a hook.  It reads a JSON value
from standard input, decodes it **as a normalized event**, completes the event and sends it to
the daemon as one frame.  It fails open: whatever goes wrong, it sends nothing.

A run leaves the daemon alone or sends it one complete event (`runIngest_cases`).  The payloads of
hooks are not normalized events, and all that the adapter accepts are dropped
(`ingest_drops_hooks`).
-/

/-! ### Running the command -/

/-- As many bytes of standard input are read. -/
def stdinLimit : Nat := 65536

/-- The text on standard input, if it is one. -/
def readToString (stdin : List UInt8) : Option String :=
  String.fromUTF8? ⟨(stdin.take stdinLimit).toArray⟩

/-- The value on standard input. -/
def readValue (F : TextForms) (stdin : List UInt8) : Option Json.Value :=
  ((readToString stdin).bind fun input => F.readDocument (textBytes input)).map Json.value

/-- Completes an event: the provider is that of the command, a nil id is replaced, and so is an
    empty schema version. -/
def completeEvent (newEventId : Uuid) (provider : String) (event : NormalizedEvent) :
    NormalizedEvent :=
  { event with
    provider := provider
    eventId := if event.eventId = 0 then newEventId else event.eventId
    schemaVersion := if event.schemaVersion.isEmpty then "1.0" else event.schemaVersion }

/-- The event a value is. -/
def buildEvent (F : TextForms) (newEventId : Uuid) (provider : String) (value : Json.Value) :
    Option NormalizedEvent :=
  (decodeEvent F value.val).map (completeEvent newEventId provider)

/-- Sends a payload to the daemon, if it can be reached, as one frame. -/
def sendFrameToDaemon {ω : Type} (W : Writer ω) (daemon : Option ω) (payload : List UInt8) :
    Option ω := daemon.map fun w => (writeFrameSync W w payload).1

/-- Runs the command. -/
def runIngest {ω : Type} (F : TextForms) (W : Writer ω) (newEventId : Uuid) (provider : String)
    (daemon : Option ω) (stdin : List UInt8) : Option ω :=
  match readValue F stdin with
  -- every failure is silent: the hook must not block the agent
  | none       => daemon
  | some value =>
    match buildEvent F newEventId provider value with
    | none       => daemon
    | some event => sendFrameToDaemon W daemon (encodePayload F event)

/-- An event is fit to be sent for a provider. -/
structure Complete (provider : String) (event : NormalizedEvent) : Prop where
  provider : event.provider = provider
  hasId : event.eventId ≠ 0
  hasVersion : event.schemaVersion ≠ ""

theorem complete_completeEvent {newEventId : Uuid} (hid : newEventId ≠ 0) (provider : String)
    (event : NormalizedEvent) : Complete provider (completeEvent newEventId provider event) where
  provider := rfl
  hasId := by
    show (if event.eventId = 0 then newEventId else event.eventId) ≠ 0
    split
    · exact hid
    · next h => exact h
  hasVersion := by
    show (if event.schemaVersion.isEmpty then "1.0" else event.schemaVersion) ≠ ""
    split
    · decide
    · next h => exact fun hempty => h (by rw [hempty]; rfl)

/-- **A run of the command.**  The daemon is left alone or sent one frame, the text of a complete
    event. -/
theorem runIngest_cases {ω : Type} (F : TextForms) (W : Writer ω) {newEventId : Uuid}
    (hid : newEventId ≠ 0) (provider : String) (daemon : Option ω) (stdin : List UInt8) :
    runIngest F W newEventId provider daemon stdin = daemon ∨
    ∃ event, Complete provider event ∧ runIngest F W newEventId provider daemon stdin =
      sendFrameToDaemon W daemon (encodePayload F event) := by
  unfold runIngest
  split
  · exact .inl rfl
  · next value _ =>
    split
    · exact .inl rfl
    · next event hbuild =>
      obtain ⟨decoded, -, rfl⟩ := Option.map_eq_some_iff.mp hbuild
      exact .inr ⟨_, complete_completeEvent hid provider decoded, rfl⟩

/-! ### The command as a hook -/

/-- Two events for the same payload, but for the generated id, the clock reading and the session id
    that is generated when the payload names none. -/
def SameButFresh (payload : Json) (e e' : NormalizedEvent) : Prop :=
  ∃ (eventId : Uuid) (timestamp : DateTime) (sessionId : String),
    ((payload.get "session_id").bind Json.asStr ≠ none → sessionId = e.session.id) ∧
    e' = { e with
      eventId := eventId
      timestamp := timestamp
      session := { e.session with id := sessionId } }

/-- The command agrees with the adapter on a payload: it builds the events the adapter gives, and
    when it finds the payload on standard input it sends them. -/
def IngestAgrees (F : TextForms) (newEventId : Uuid) (payload : Json.Value)
    (events : List NormalizedEvent) : Prop :=
  ∃ built : List NormalizedEvent,
    List.Forall₂ (SameButFresh payload.val) events built ∧
    (buildEvent F newEventId ClaudeAdapter.providerName payload).toList = built ∧
    ∀ stdin : List UInt8, readValue F stdin = some payload →
      runIngest F bufferWriter newEventId ClaudeAdapter.providerName (some []) stdin =
        some (built.flatMap fun e => frameOf (encodePayload F e))

/-- A payload with a hook name is no event. -/
theorem buildEvent_of_hookName (F : TextForms) (newEventId : Uuid) (provider : String)
    {payload : Json.Value} {hook : String} (h : ClaudeAdapter.hookName payload.val = some hook) :
    buildEvent F newEventId provider payload = none := by
  obtain ⟨v, hget, -⟩ := Option.bind_eq_some_iff.mp h
  -- an event names no such field, and unknown fields are refused
  have hmembers : payload.val.members eventFields = none :=
    Json.members_eq_none hget (by decide)
  rw [buildEvent, decodeEvent, hmembers]
  rfl

/-- The command sends nothing for a value that is no event. -/
theorem runIngest_of_buildEvent {ω : Type} {F : TextForms} (W : Writer ω) {newEventId : Uuid}
    {provider : String} {value : Json.Value} {stdin : List UInt8}
    (hvalue : readValue F stdin = some value)
    (hbuild : buildEvent F newEventId provider value = none) (daemon : Option ω) :
    runIngest F W newEventId provider daemon stdin = daemon := by
  simp only [runIngest, hvalue, hbuild]

/-- If the command builds nothing, it agrees with no adapter that gives an event. -/
theorem not_ingestAgrees {F : TextForms} {newEventId : Uuid} {payload : Json.Value}
    {events : List NormalizedEvent}
    (hbuild : buildEvent F newEventId ClaudeAdapter.providerName payload = none)
    (hevents : events ≠ []) : ¬ IngestAgrees F newEventId payload events := by
  rintro ⟨built, hsame, hbuilt, -⟩
  obtain rfl : built = [] := by rw [← hbuilt, hbuild]; rfl
  exact hevents (List.forall₂_nil_right_iff.mp hsame)

/-- **The hooks are dropped.**  On no payload that the adapter accepts does the command agree with
    it: the adapter gives one event, the command builds none, and a run with the payload on
    standard input leaves the daemon alone. -/
theorem ingest_drops_hooks {env : ParseEnv} {payload : Json.Value} {events : List NormalizedEvent}
    (h : ClaudeAdapter.parse env payload.val = .ok events) (F : TextForms) (newEventId : Uuid) :
    ¬ IngestAgrees F newEventId payload events ∧
    events.length = 1 ∧
    buildEvent F newEventId ClaudeAdapter.providerName payload = none ∧
    ∀ (ω : Type) (W : Writer ω) (daemon : Option ω) (stdin : List UInt8),
      readValue F stdin = some payload →
      runIngest F W newEventId ClaudeAdapter.providerName daemon stdin = daemon := by
  obtain ⟨hook, ev, hhook, rfl, -⟩ := ClaudeAdapter.parse_eq_ok h
  have hbuild := buildEvent_of_hookName F newEventId ClaudeAdapter.providerName hhook
  refine ⟨not_ingestAgrees hbuild (List.cons_ne_nil _ _), rfl, hbuild, ?_⟩
  intro ω W daemon stdin hvalue
  exact runIngest_of_buildEvent W hvalue hbuild daemon

/-! ### One payload -/

/-- A text that is short enough is read. -/
theorem readToString_textBytes {text : String} (h : (textBytes text).length ≤ stdinLimit) :
    readToString (textBytes text) = some text := by
  rw [readToString, List.take_of_length_le h, textBytes, Array.toArray_toList]
  exact dif_pos text.isValidUTF8

/-- The payload of the first hook, with nothing but the name of the hook. -/
def startPayload : Json.Value := (Json.object [("hook_event_name", .string "SessionStart")]).value

/-- How it is written. -/
def startText : String := "\x7b\"hook_event_name\":\"SessionStart\"\x7d"

/-- Text forms that know this payload only. -/
def startForms : TextForms where
  toVec _ := textBytes startText
  fromSlice raw := if raw = textBytes startText then some startPayload.val else none
  parseUuid _ := none
  timeText _ := ""
  parseTime _ := none

/-- A call of the hook. -/
def startEnv : ParseEnv where
  eventId := 1
  fallbackId := 2
  timestamp := 0
  tmuxPane := none
  tty := none
  sshTty := none
  termProgram := none

/-- The event the adapter gives. -/
def startEvent : NormalizedEvent where
  schemaVersion := schemaVersion
  eventId := 1
  timestamp := 0
  provider := "claude"
  providerVersion := none
  eventType := .sessionStarted
  session := { id := "unknown-" ++ Uuid.toString 2, parentId := none, workspace := none
               terminal := some .default }
  activity := none
  metadata := ∅

theorem get_startPayload (key : String) :
    startPayload.val.get key =
      if "hook_event_name" = key then some (.string "SessionStart") else none := by
  show (Json.canonical _).get key = _
  rw [Json.get_canonical]
  show ((mapOfMembers ([] ++ [("hook_event_name", Json.string "SessionStart")]))[key]?).map _ = _
  rw [mapOfMembers_concat, FiniteMap.getElem?_insert_if]
  split <;> rfl

theorem parse_startPayload : ClaudeAdapter.parse startEnv startPayload.val = .ok [startEvent] := by
  obtain ⟨obj, hobj⟩ : ∃ obj, startPayload.val.asObject = some obj := ⟨_, rfl⟩
  have hfield : ∀ key, strField obj key =
      if "hook_event_name" = key then some "SessionStart" else none := by
    intro key
    rw [← ClaudeAdapter.get_of_asObject hobj, get_startPayload]
    split <;> rfl
  simp [ClaudeAdapter.parse, ClaudeAdapter.deriveSession, ClaudeAdapter.detectVersion, hobj, hfield,
    startEvent, startEnv, ClaudeAdapter.providerName, TerminalContext.default]

theorem readValue_startText : readValue startForms (textBytes startText) = some startPayload := by
  have hdepth : startPayload.val.depth < recursionLimit := by decide +kernel
  have hdoc : startForms.readDocument (textBytes startText) = some startPayload.val := by
    show (if textBytes startText = textBytes startText then some startPayload.val else none).bind _
      = _
    rw [if_pos rfl, Option.bind_some, if_pos hdepth]
  rw [readValue, readToString_textBytes (by decide +kernel), Option.bind_some, hdoc,
    Option.map_some, Json.value_val]

/-- The hook that starts a session is not heard of. -/
theorem ingest_drops_hooks_start :
    runIngest startForms bufferWriter 3 ClaudeAdapter.providerName (some []) (textBytes startText) =
      some [] :=
  (ingest_drops_hooks parse_startPayload startForms 3).2.2.2 _ bufferWriter (some []) _
    readValue_startText

/-- **The adapter accepts what the command drops.**  The payload that starts a session is on
    standard input; the adapter gives an event for it, but the command does not agree with the
    adapter, and sends nothing. -/
theorem not_ingestAgrees_start :
    ClaudeAdapter.parse startEnv startPayload.val = .ok [startEvent] ∧
    readValue startForms (textBytes startText) = some startPayload ∧
    ¬ IngestAgrees startForms 3 startPayload [startEvent] ∧
    runIngest startForms bufferWriter 3 ClaudeAdapter.providerName (some [])
      (textBytes startText) = some [] := by
  have hhook : ClaudeAdapter.hookName startPayload.val = some "SessionStart" := by
    rw [ClaudeAdapter.hookName, get_startPayload, if_pos rfl]
    rfl
  have hbuild := buildEvent_of_hookName startForms 3 ClaudeAdapter.providerName hhook
  refine ⟨parse_startPayload, readValue_startText, not_ingestAgrees hbuild (by simp), ?_⟩
  exact runIngest_of_buildEvent bufferWriter readValue_startText hbuild (some [])

end AgentTermStatus
