import AgentTermStatus.Wire.EventCodec
import AgentTermStatus.Daemon.Framing
import AgentTermStatus.Daemon.Broker

namespace AgentTermStatus

open Lib

/-!
# Events over the wire

A client writes the text of an event as one frame; the daemon reads the frame and hands the
payload to `Broker.bufferEvent`.  The event arrives as it was sent (`event_over_wire`), unless
its metadata is nested so deeply that the decoder gives up (`decodePayload_deep`).
-/

/-! ### Nesting -/

/-- Metadata values lie two levels below the document of the event. -/
def metadataLimit : Nat := 126

/-- The metadata is nested less deeply than the decoder's limit allows. -/
def Shallow (e : NormalizedEvent) : Prop :=
  ∀ (k : String) (v : Json.Value), e.metadata[k]? = some v → v.val.depth < metadataLimit

theorem depth_encodeOption_le {α : Type} {encode : α → Json} {n : Nat}
    (h : ∀ a, (encode a).depth ≤ n) (o : Option α) : (Json.encodeOption encode o).depth ≤ n := by
  cases o with
  | none => exact Nat.zero_le n
  | some a => exact h a

theorem depth_encodeText_le (o : Option String) (n : Nat) : (encodeText o).depth ≤ n :=
  depth_encodeOption_le (fun _ => Nat.zero_le n) o

theorem depth_encodeTerminal_le (t : TerminalContext) : (encodeTerminal t).depth ≤ 0 + 1 := by
  rw [encodeTerminal, Json.depth_object_le_iff]
  simp only [List.forall_mem_cons, depth_encodeText_le, true_and]
  simp

theorem depth_encodeSession_le (s : SessionIdentity) : (encodeSession s).depth ≤ 1 + 1 := by
  rw [encodeSession, Json.depth_object_le_iff]
  intro p hp
  rcases List.mem_append.mp hp with hp | hp
  · simp only [List.mem_cons, List.not_mem_nil, or_false] at hp
    rcases hp with rfl | rfl | rfl
    · exact Nat.zero_le 1
    · exact depth_encodeText_le _ 1
    · exact depth_encodeText_le _ 1
  · cases hterm : s.terminal with
    | none => rw [hterm] at hp; exact absurd hp (by simp)
    | some t =>
      rw [hterm] at hp
      obtain rfl := List.mem_singleton.mp hp
      exact depth_encodeTerminal_le t

theorem depth_encodeActivity_le (a : Activity) : (encodeActivity a).depth ≤ 0 + 1 := by
  rw [encodeActivity, Json.depth_object_le_iff]
  intro p hp
  simp only [List.mem_cons, List.not_mem_nil, or_false] at hp
  rcases hp with rfl | rfl | rfl | rfl
  · exact Nat.zero_le 0
  · exact depth_encodeOption_le (fun _ => Nat.zero_le 0) _
  · exact depth_encodeText_le _ 0
  · exact depth_encodeOption_le (fun _ => Nat.zero_le 0) _

theorem depth_encodeMap_le_iff (m : FiniteMap String Json.Value) (n : Nat) :
    (Json.encodeMap m).depth ≤ n + 1 ↔
      ∀ (k : String) (v : Json.Value), m[k]? = some v → v.val.depth ≤ n := by
  rw [Json.encodeMap, Json.depth_ofMap_le_iff]
  refine ⟨fun h k v hk => h k v.val ?_, fun h k w hw => ?_⟩
  · rw [Std.ExtTreeMap.getElem?_map, hk, Option.map_some]
  · rw [Std.ExtTreeMap.getElem?_map, Option.map_eq_some_iff] at hw
    obtain ⟨v, hv, rfl⟩ := hw
    exact h k v hv

/-- The document of an event is read exactly if its metadata is nested little enough. -/
theorem depth_encodeEvent_lt_iff (F : TextForms) (e : NormalizedEvent) :
    (encodeEvent F e).depth < recursionLimit ↔ Shallow e := by
  have hmetadata := depth_encodeMap_le_iff e.metadata 125
  have hdoc : (encodeEvent F e).depth ≤ 126 + 1 ↔ (Json.encodeMap e.metadata).depth ≤ 125 + 1 := by
    rw [encodeEvent, Json.depth_object_le_iff]
    refine ⟨fun h => h ("metadata", Json.encodeMap e.metadata) (by simp [eventMembers]), ?_⟩
    intro h p hp
    simp only [eventMembers, List.mem_cons, List.not_mem_nil, or_false] at hp
    rcases hp with rfl | rfl | rfl | rfl | rfl | rfl | rfl | rfl | rfl
    · exact Nat.zero_le 126
    · exact Nat.zero_le 126
    · exact Nat.zero_le 126
    · exact Nat.zero_le 126
    · exact depth_encodeText_le _ 126
    · exact Nat.zero_le 126
    · exact le_trans (depth_encodeSession_le _) (by decide)
    · exact depth_encodeOption_le (fun a => le_trans (depth_encodeActivity_le a) (by decide)) _
    · exact h
  rw [show recursionLimit = 126 + 1 + 1 from rfl, Nat.lt_succ_iff, hdoc, hmetadata]
  exact forall_congr' fun k => forall_congr' fun v => imp_congr_right fun _ => Nat.lt_succ_iff.symm

/-- An event that was read of a document is read again: its metadata is nested little enough. -/
theorem shallow_of_decodeEvent {F : TextForms} {doc : Json} {e : NormalizedEvent}
    (hdepth : doc.depth < recursionLimit) (h : decodeEvent F doc = some e) : Shallow e := by
  obtain ⟨ms, hms, -, -, -, -, -, -, -, -, hmetadata⟩ := decodeEvent_eq_some h
  have hfields := Json.depth_members_le hms (show doc.depth ≤ 126 + 1 from Nat.le_of_lt_succ hdepth)
  intro k v hk
  rw [Json.withDefault] at hmetadata
  split at hmetadata
  · -- without metadata there is nothing nested
    obtain hnone := Option.some.inj hmetadata
    rw [← hnone] at hk
    exact absurd hk (by simp)
  · next w hw =>
    obtain ⟨before, after, hsplit, -⟩ := List.lookup_eq_some_iff.mp hw
    have hmem : ("metadata", w) ∈ ms := by simp [hsplit]
    exact Nat.lt_succ_of_le (Json.depth_decodeMap_le hmetadata (hfields _ hmem) hk)

/-! ### The way of an event -/

/-- The text forms read back what they wrote for this event. -/
structure TextForms.ReadsBack (F : TextForms) (e : NormalizedEvent) : Prop extends
    F.ReadsFields e where
  text : F.fromSlice (F.toVec (encodeEvent F e)) = some (encodeEvent F e)

/-- The document of an event is read from its payload. -/
theorem readDocument_encodePayload {F : TextForms} {e : NormalizedEvent} (hF : F.ReadsBack e)
    (hshallow : Shallow e) : F.readDocument (encodePayload F e) = some (encodeEvent F e) := by
  rw [TextForms.readDocument, encodePayload, hF.text, Option.bind_some,
    if_pos ((depth_encodeEvent_lt_iff F e).mpr hshallow)]

/-- The payload of an event decodes to the event. -/
theorem decodePayload_encodePayload {F : TextForms} {e : NormalizedEvent} (hF : F.ReadsBack e)
    (hshallow : Shallow e) : decodePayload F (encodePayload F e) = some e := by
  rw [decodePayload, readDocument_encodePayload hF hshallow, Option.bind_some,
    decode_encodeEvent hF.toReadsFields]

/-- The payload of an event with deeply nested metadata decodes to nothing. -/
theorem decodePayload_deep {F : TextForms} {e : NormalizedEvent} (hF : F.ReadsBack e)
    (hdeep : ¬ Shallow e) : decodePayload F (encodePayload F e) = none := by
  rw [decodePayload, TextForms.readDocument, encodePayload, hF.text, Option.bind_some,
    if_neg (mt (depth_encodeEvent_lt_iff F e).mp hdeep), Option.bind_none]

/-- What buffering an event does to the buffers. -/
theorem push_pending (b : Broker) (e : NormalizedEvent) (id : String) :
    (b.push e).pending[id]? =
      if e.session.id = id then
        some ((b.pending[e.session.id]?).getD [] ++ [(e.timestamp, e)])
      else b.pending[id]? := FiniteMap.getElem?_insert_if ..

/-- **Events over the wire.**  Let the text forms read back what they wrote for an event, whose
    text fits into a frame and whose metadata is nested less than `metadataLimit` deep.  The
    client writes its text as one frame, the daemon reads it off the stream whatever follows, and
    buffering the payload gives the event and appends it, and nothing else, to the buffer of its
    session.  A label is never altered by being decoded. -/
theorem event_over_wire {F : TextForms} {e : NormalizedEvent} (hF : F.ReadsBack e)
    (hsize : (encodePayload F e).length ≤ maxFrameBytes.toNat) (hshallow : Shallow e)
    (b : Broker) (more : List UInt8) (atEnd : TransportErrorKind) :
    (∃ wire, writeFrameSync bufferWriter [] (encodePayload F e) = (wire, .ok ()) ∧
      readFrame ⟨wire ++ more, atEnd⟩ = (⟨more, atEnd⟩, .ok (some (encodePayload F e)))) ∧
    (b.bufferEvent (decodePayload F) (encodePayload F e)).2 = .ok e ∧
    (∀ id : String,
      (b.bufferEvent (decodePayload F) (encodePayload F e)).1.pending[id]? =
        if e.session.id = id then
          some ((b.pending[e.session.id]?).getD [] ++ [(e.timestamp, e)])
        else b.pending[id]?) ∧
    (b.bufferEvent (decodePayload F) (encodePayload F e)).1.stateEngine = b.stateEngine ∧
    (∀ l : ActivityLabel, ActivityLabel.new l.asStr = l) := by
  -- the payload decodes to the event, so buffering pushes it
  have hbuffer : b.bufferEvent (decodePayload F) (encodePayload F e) = (b.push e, .ok e) := by
    rw [Broker.bufferEvent, decodePayload_encodePayload hF hshallow]
  refine ⟨⟨frameOf (encodePayload F e), ?_, ?_⟩, ?_, ?_, ?_, ActivityLabel.new_asStr⟩
  · exact writeFrameTo_buffer [] hsize
  · exact readFrame_frameOf ⟨encodePayload F e, hsize⟩ more atEnd
  · rw [hbuffer]
  · intro id
    rw [hbuffer, push_pending]
  · rw [hbuffer]
    rfl

/-! ### Two events -/

/-- Text forms that write every instant as `time`. -/
def timeForms (time : String) : TextForms where
  toVec _ := []
  fromSlice _ := none
  parseUuid _ := none
  timeText _ := time
  parseTime _ := none

/-- Text forms that know one event: its instant is written as `time`, its document as `text`. -/
def oneEventForms (e : NormalizedEvent) (time : String) (text : List UInt8) : TextForms where
  toVec _ := text
  fromSlice raw := if raw = text then some (encodeEvent (timeForms time) e) else none
  parseUuid s := if s = e.eventId.toString then some e.eventId else none
  timeText _ := time
  parseTime s := if s = time then some e.timestamp else none

theorem oneEventForms_readsBack (e : NormalizedEvent) (time : String) (text : List UInt8) :
    (oneEventForms e time text).ReadsBack e where
  uuid := by simp [oneEventForms]
  time := by simp [oneEventForms]
  text := by
    rw [encodeEvent_congr (show (oneEventForms e time text).timeText = (timeForms time).timeText
      from rfl)]
    simp only [oneEventForms, if_pos]

theorem encodePayload_oneEventForms (e : NormalizedEvent) (time : String) (text : List UInt8) :
    encodePayload (oneEventForms e time text) e = text := rfl

/-- The text of an event at the epoch, with an id of 1, up to its metadata. -/
def epochEventText : String :=
  "\x7b\"schema_version\":\"1.0\",\"event_id\":\"00000000-0000-0000-0000-000000000001\"," ++
    "\"timestamp\":\"1970-01-01T00:00:00Z\",\"provider\":\"test\",\"provider_version\":null," ++
    "\"event_type\":\"agent.started\",\"session\":\x7b\"id\":\"s\",\"parent_id\":null," ++
    "\"workspace\":null\x7d,\"activity\":null,\"metadata\":"

theorem maxFrameBytes_toNat : maxFrameBytes.toNat = 65536 := rfl

theorem length_epochEventText : (textBytes epochEventText).length = 262 := by
  decide +kernel

/-- A short text of an event fits into a frame. -/
theorem oneEventForms_fits (e : NormalizedEvent) (time : String) {text : List UInt8}
    (h : text.length ≤ 65536) :
    (encodePayload (oneEventForms e time text) e).length ≤ maxFrameBytes.toNat := by
  rw [encodePayload_oneEventForms, maxFrameBytes_toNat]
  exact h

/-- The event, without metadata. -/
def epochEvent : NormalizedEvent := .bare 1 .agentStarted "s" 0

/-- How it is written. -/
def epochForms : TextForms := oneEventForms epochEvent "1970-01-01T00:00:00Z"
  (textBytes epochEventText ++ textBytes "\x7b\x7d\x7d")

/-- The event of a command in a terminal, with nested metadata. -/
def commandEvent : NormalizedEvent :=
  { epochEvent with
    eventType := .toolStarted
    session :=
      { id := "s", parentId := some "p", workspace := some "/w"
        terminal := some ⟨some "/dev/ttys001", some "iTerm.app", some "%1"⟩ }
    activity := some
      { category := .shell, label := some (ActivityLabel.new "make test"), toolName := some "Bash"
        risk := some .low }
    metadata := (∅ : FiniteMap String Json.Value).insert "x"
      (Json.object [("y", .array [.null, .array [.bool true]])]).value }

/-- Its text. -/
def commandEventText : String :=
  "\x7b\"schema_version\":\"1.0\",\"event_id\":\"00000000-0000-0000-0000-000000000001\"," ++
    "\"timestamp\":\"1970-01-01T00:00:00Z\",\"provider\":\"test\",\"provider_version\":null," ++
    "\"event_type\":\"tool.started\",\"session\":\x7b\"id\":\"s\",\"parent_id\":\"p\"," ++
    "\"workspace\":\"/w\",\"terminal\":\x7b\"tty\":\"/dev/ttys001\"," ++
    "\"term_program\":\"iTerm.app\",\"tmux_pane\":\"%1\"\x7d\x7d," ++
    "\"activity\":\x7b\"category\":\"shell\",\"label\":\"make test\"," ++
    "\"tool_name\":\"Bash\",\"risk\":\"low\"\x7d," ++
    "\"metadata\":\x7b\"x\":\x7b\"y\":[null,[true]]\x7d\x7d\x7d"

/-- How it is written. -/
def commandForms : TextForms :=
  oneEventForms commandEvent "1970-01-01T00:00:00Z" (textBytes commandEventText)

/-- The event of the command arrives, with its label, its terminal and its metadata. -/
theorem event_over_wire_epoch :
    ((Broker.new StateEngine.new).bufferEvent (decodePayload commandForms)
      (encodePayload commandForms commandEvent)).2 = .ok commandEvent := by
  have hsize : (encodePayload commandForms commandEvent).length ≤ maxFrameBytes.toNat :=
    oneEventForms_fits _ _ (by decide +kernel)
  have hshallow : Shallow commandEvent := by
    intro k v hv
    rw [commandEvent, FiniteMap.getElem?_insert_if] at hv
    split at hv
    · obtain rfl := Option.some.inj hv
      decide
    · exact absurd hv (by simp)
  exact (event_over_wire (oneEventForms_readsBack _ _ _) hsize hshallow
    (Broker.new StateEngine.new) [] .unexpectedEof).2.1

/-- Arrays nested in one another. -/
def nestedArrays : Nat → Json
  | 0 => .array []
  | n + 1 => .array [nestedArrays n]

theorem canonical_nestedArrays (n : Nat) : (nestedArrays n).canonical = nestedArrays n := by
  induction n with
  | zero => rfl
  | succ n ih => rw [nestedArrays, Json.canonical_array, List.map_singleton, ih]

theorem depth_nestedArrays (n : Nat) : (nestedArrays n).depth = n + 1 := by
  induction n with
  | zero => rfl
  | succ n ih =>
    show max (nestedArrays n).depth 0 + 1 = _
    rw [ih, Nat.max_zero]

/-- The event, with 126 arrays nested in one another as metadata. -/
def deepEvent : NormalizedEvent :=
  { epochEvent with
    metadata := (∅ : FiniteMap String Json.Value).insert "x" (nestedArrays 125).value }

/-- How it is written; 91 and 93 are the brackets. -/
def deepForms : TextForms := oneEventForms deepEvent "1970-01-01T00:00:00Z"
  (textBytes epochEventText ++ textBytes "\x7b\"x\":" ++ List.replicate 126 91 ++
    List.replicate 126 93 ++ textBytes "\x7d\x7d")

/-- **Deep metadata is lost.** The text of this event fits into a frame many times over, and the
    text forms read it back, but the decoder gives up on its nesting. -/
theorem not_event_over_wire_deep :
    deepForms.ReadsBack deepEvent ∧
    (encodePayload deepForms deepEvent).length ≤ maxFrameBytes.toNat ∧
    ((Broker.new StateEngine.new).bufferEvent (decodePayload deepForms)
      (encodePayload deepForms deepEvent)).2 =
        .error (.deserialize (encodePayload deepForms deepEvent).length) := by
  have hF : deepForms.ReadsBack deepEvent := oneEventForms_readsBack _ _ _
  have hdeep : ¬ Shallow deepEvent := by
    intro h
    have hdepth := h "x" (nestedArrays 125).value
      (by rw [deepEvent, FiniteMap.getElem?_insert_if, if_pos rfl])
    rw [show (nestedArrays 125).value.val = _ from canonical_nestedArrays 125,
      depth_nestedArrays] at hdepth
    exact absurd hdepth (by decide)
  refine ⟨hF, ?_, ?_⟩
  · refine oneEventForms_fits _ _ ?_
    simp only [List.length_append, length_epochEventText, List.length_replicate]
    decide +kernel
  · rw [Broker.bufferEvent, decodePayload_deep hF hdeep]

end AgentTermStatus
