import AgentTermStatus.Lib.Schema
import AgentTermStatus.Wire.RoundTrip

namespace AgentTermStatus

open Lib Schema

/-!
# The published schema of events

The schema `event-v1` describes the documents of events; the daemon never consults it and takes
whatever the derived decoders take.  Between the two grammars the decoders are the laxer one.

* `decodeTerminal_schema`, `decodeSession_schema`, `decodeActivity_schema`, `decodeEvent_schema` —
  level by level, what is left to check of a document that was decoded;
* `accepted_conforms_iff` — when the document of an accepted payload conforms;
* `accepts_next_version` — an accepted payload whose document does not;
* `uuidPattern_toString`, `Uuid.toString_injective` — ids are written as the schema has them, and
  different ids differently.

What a `date-time` is, is an argument: nothing depends on it.
-/

/-! ### The schema -/

/-- The pattern `^1\.[0-9]+$`. -/
def schemaVersionPattern (s : String) : Bool :=
  match s.toList with
  | '1' :: '.' :: digits => !digits.isEmpty && digits.all fun c => '0' ≤ c && c ≤ '9'
  | _                    => false

/-- A character of `[0-9a-fA-F]`. -/
def isHex (c : Char) : Bool :=
  '0' ≤ c && c ≤ '9' || 'a' ≤ c && c ≤ 'f' || 'A' ≤ c && c ≤ 'F'

/-- The pattern of ids: groups of 8, 4, 4, 4 and 12 hexadecimal digits with hyphens between.
    The format `uuid` is the same. -/
def uuidPattern (s : String) : Bool :=
  let groups := s.toList.splitOn '-'
  groups.map List.length = [8, 4, 4, 4, 12] && groups.all fun group => group.all isHex

/-- A text or `null`. -/
def optionalText : Schema := typed [.string, .null]

/-- The schema of a terminal context. -/
def terminalSchema : Schema :=
  strictObject [.object] []
    [("tty", optionalText), ("term_program", optionalText), ("tmux_pane", optionalText)]

/-- The schema of a session identity. -/
def sessionSchema : Schema :=
  strictObject [.object] ["id"]
    [("id", allOf [typed [.string], minLength 1]),
      ("parent_id", optionalText),
      ("workspace", optionalText),
      ("terminal", terminalSchema)]

/-- The schema of an activity; `label` is the keyword about the length of the label. -/
def activitySchema (label : Schema) : Schema :=
  strictObject [.object, .null] []
    [("category", enum ["thinking", "reading", "searching", "editing", "shell", "testing",
        "network", "version_control", "deployment", "unknown"]),
      ("label", allOf [optionalText, label]),
      ("tool_name", optionalText),
      ("risk", anyOf [enum ["low", "medium", "high", "critical", "unknown"], typed [.null]])]

/-- The schema of an event, for a reading of the format `date-time`. -/
def eventSchema (dateTime : String → Bool) (label : Schema) : Schema :=
  strictObject [.object]
    ["schema_version", "event_id", "timestamp", "provider", "event_type", "session"]
    [("schema_version", allOf [typed [.string], text schemaVersionPattern]),
      ("event_id", allOf [typed [.string], text uuidPattern]),
      ("timestamp", allOf [typed [.string], text dateTime]),
      ("provider", allOf [typed [.string], minLength 1]),
      ("provider_version", optionalText),
      ("event_type", enum ["session.started", "session.stopped", "session.failed",
        "session.heartbeat", "agent.started", "agent.working", "agent.waiting",
        "agent.completed", "agent.failed", "tool.started", "tool.completed", "tool.failed",
        "user.input_required", "user.approval_required", "user.input_received",
        "provider.disconnected", "provider.schema_error", "renderer.failed",
        "session.timeout"]),
      ("session", sessionSchema),
      ("activity", activitySchema label),
      ("metadata", typed [.object])]

/-- The schema as it is published: a label has at most 40 characters. -/
def publishedSchema (dateTime : String → Bool) : Schema := eventSchema dateTime (maxLength 40)

/-- The schema that tolerates labels of any length. -/
def tolerantSchema (dateTime : String → Bool) : Schema := eventSchema dateTime fun _ => true

/-! ### What the decoders do not check -/

/-- The session is written as the schema has it, where its decoder is laxer: as an object, with an
    id that is not empty, and with an object for the terminal. -/
structure PlainSession (v : Json) : Prop where
  object : v.typeOf = .object
  id : v.get "id" ≠ some (.string "")
  terminal : ∀ t, v.get "terminal" = some t → t.typeOf = .object

/-- The activity is no array, and its variants are written as names. -/
structure PlainActivity (v : Json) : Prop where
  object : v.typeOf ≠ .array
  category : ∀ c, v.get "category" = some c → c.typeOf = .string
  risk : ∀ r, v.get "risk" = some r → r.typeOf ≠ .object

/-- The event is written as the schema has it, where its decoder is laxer. -/
structure PlainEvent (dateTime : String → Bool) (doc : Json) : Prop where
  object : doc.typeOf = .object
  schemaVersion : ∀ s, doc.get "schema_version" = some (.string s) → schemaVersionPattern s
  eventId : ∀ s, doc.get "event_id" = some (.string s) → uuidPattern s
  timestamp : ∀ s, doc.get "timestamp" = some (.string s) → dateTime s
  provider : doc.get "provider" ≠ some (.string "")
  eventType : ∀ v, doc.get "event_type" = some v → v.typeOf = .string
  session : ∀ v, doc.get "session" = some v → PlainSession v
  activity : ∀ v, doc.get "activity" = some v → PlainActivity v

/-- The label of the document is taken over sanitized. -/
def SanitizesLabel (doc : Json) (ev : NormalizedEvent) : Prop :=
  ∀ a text, doc.get "activity" = some a → a.get "label" = some (.string text) →
    ev.activity.bind Activity.label = some (ActivityLabel.new text)

/-! ### Level by level -/

section
variable {v : Json}

theorem decodeTerminal_schema {t : TerminalContext} (h : decodeTerminal v = some t) :
    terminalSchema v ↔ v.typeOf = .object := by
  obtain ⟨ms, hms, htty, hprogram, hpane⟩ := decodeTerminal_eq_some h
  rw [terminalSchema, strictObject_iff hms rfl (by decide) (by decide) (by simp)]
  refine and_iff_left_of_imp fun hobject => ?_
  simp only [List.forall_mem_cons, List.not_mem_nil, false_imp_iff, implies_true, and_true]
  refine ⟨fun w hw => ?_, fun w hw => ?_, fun w hw => ?_⟩
  · exact typed_text Json.typeOf_of_asStr (decode_of_withDefault hms hobject htty hw)
  · exact typed_text Json.typeOf_of_asStr (decode_of_withDefault hms hobject hprogram hw)
  · exact typed_text Json.typeOf_of_asStr (decode_of_withDefault hms hobject hpane hw)

theorem decodeSession_schema {s : SessionIdentity} (h : decodeSession v = some s) :
    sessionSchema v ↔ PlainSession v := by
  obtain ⟨ms, hms, hid, hparent, hworkspace, hterminal⟩ := decodeSession_eq_some h
  rw [sessionSchema, strictObject_iff hms rfl (by decide) (by decide)
    (by simpa using isSome_of_required hid)]
  simp only [List.forall_mem_cons, List.not_mem_nil, false_imp_iff, implies_true, and_true]
  have hidIff (hobject : v.typeOf = .object) :
      (∀ w, v.get "id" = some w → allOf [typed [.string], minLength 1] w) ↔
        v.get "id" ≠ some (.string "") :=
    (text_of_required Json.typeOf_of_asStr hms hobject hid _).trans (minLength_one_iff "id")
  have hterminalIff (hobject : v.typeOf = .object) {t : Json} (ht : v.get "terminal" = some t) :
      terminalSchema t ↔ t.typeOf = .object := by
    obtain ⟨rfl, -⟩ | ⟨c, -, hc⟩ :=
      decodeOption_cases (decode_of_withDefault hms hobject hterminal ht)
    · decide
    · exact decodeTerminal_schema hc
  refine ⟨?_, fun h => ?_⟩
  · rintro ⟨hobject, hids, -, -, ht⟩
    exact ⟨hobject, (hidIff hobject).mp hids,
      fun t hget => (hterminalIff hobject hget).mp (ht t hget)⟩
  · refine ⟨h.object, (hidIff h.object).mpr h.id, fun w hw => ?_, fun w hw => ?_, fun t ht => ?_⟩
    · exact typed_text Json.typeOf_of_asStr (decode_of_withDefault hms h.object hparent hw)
    · exact typed_text Json.typeOf_of_asStr (decode_of_withDefault hms h.object hworkspace hw)
    · exact (hterminalIff h.object ht).mpr (h.terminal t ht)

theorem plainActivity_null : PlainActivity .null := by
  have hget (key : String) : Json.get .null key = none := rfl
  exact ⟨by decide, by simp [hget], by simp [hget]⟩

/-- An activity that was decoded, or `null`. -/
theorem decodeActivity_schema {o : Option Activity}
    (h : Json.decodeOption decodeActivity v = some o) :
    activitySchema (fun _ => true) v ↔ PlainActivity v := by
  obtain ⟨rfl, -⟩ | ⟨a, -, h⟩ := decodeOption_cases h
  · have hnull : activitySchema (fun _ => true) .null := by decide
    exact iff_of_true hnull plainActivity_null
  obtain ⟨ms, hms, hcategory, hlabel, htool, hrisk⟩ := decodeActivity_eq_some h
  rw [activitySchema, strictObject_iff hms rfl (by decide) (by decide) (by simp)]
  simp only [List.forall_mem_cons, List.not_mem_nil, false_imp_iff, implies_true, and_true]
  have hcategoryIff (hobject : v.typeOf = .object) {c : Json} (hc : v.get "category" = some c) :
      enum (activityCategories.map activityCategoryName) c ↔ c.typeOf = .string :=
    enum_iff (decode_of_withDefault hms hobject hcategory hc)
  have hlabelHolds (hobject : v.typeOf = .object) {l : Json} (hl : v.get "label" = some l) :
      allOf [optionalText, fun _ => true] l := by
    have htext := typed_text (fun w _ => Json.typeOf_of_asStr_map ActivityLabel.new w _)
      (decode_of_withDefault hms hobject hlabel hl)
    simpa [allOf, optionalText] using htext
  have hriskIff (hobject : v.typeOf = .object) {r : Json} (hr : v.get "risk" = some r) :
      anyOf [enum (riskLevels.map riskLevelName), typed [.null]] r ↔ r.typeOf ≠ .object :=
    anyOf_enum_iff (decode_of_withDefault hms hobject hrisk hr)
  have hobjectIff : v.typeOf = .object ↔ v.typeOf ≠ .array := by
    cases v with
    | object | array => simp [Json.typeOf]
    | _ => exact absurd hms (by simp [Json.members])
  refine ⟨?_, fun h => ?_⟩
  · rintro ⟨hobject, hc, -, -, hr⟩
    exact ⟨hobjectIff.mp hobject, fun c hget => (hcategoryIff hobject hget).mp (hc c hget),
      fun r hget => (hriskIff hobject hget).mp (hr r hget)⟩
  · have hobject := hobjectIff.mpr h.object
    refine ⟨hobject, fun c hc => ?_, fun l hl => ?_, fun t ht => ?_, fun r hr => ?_⟩
    · exact (hcategoryIff hobject hc).mpr (h.category c hc)
    · exact hlabelHolds hobject hl
    · exact typed_text Json.typeOf_of_asStr (decode_of_withDefault hms hobject htool ht)
    · exact (hriskIff hobject hr).mpr (h.risk r hr)

theorem decodeEvent_schema {F : TextForms} {ev : NormalizedEvent} (dateTime : String → Bool)
    (h : decodeEvent F v = some ev) : tolerantSchema dateTime v ↔ PlainEvent dateTime v := by
  obtain ⟨ms, hms, hversion, heventId, htimestamp, hprovider, hproviderVersion, heventType,
    hsession, hactivity, hmetadata⟩ := decodeEvent_eq_some h
  have hkeys : ∀ k ∈ ["schema_version", "event_id", "timestamp", "provider", "event_type",
      "session"], (ms.lookup k).isSome := by
    simp only [List.forall_mem_cons, List.not_mem_nil, false_imp_iff, implies_true, and_true]
    exact ⟨isSome_of_required hversion, isSome_of_required heventId,
      isSome_of_required htimestamp, isSome_of_required hprovider,
      isSome_of_required heventType, isSome_of_required hsession⟩
  rw [tolerantSchema, eventSchema, strictObject_iff hms rfl (by decide) (by decide) hkeys]
  simp only [List.forall_mem_cons, List.not_mem_nil, false_imp_iff, implies_true, and_true]
  -- what is left to check of each field, in the order of the fields
  have hversionIff (hobject : v.typeOf = .object) :=
    text_of_required Json.typeOf_of_asStr hms hobject hversion schemaVersionPattern
  have heventIdIff (hobject : v.typeOf = .object) :=
    text_of_required (Json.typeOf_of_asStr_bind F.parseUuid) hms hobject heventId uuidPattern
  have htimestampIff (hobject : v.typeOf = .object) :=
    text_of_required (Json.typeOf_of_asStr_bind F.parseTime) hms hobject htimestamp dateTime
  have hproviderIff (hobject : v.typeOf = .object) :
      (∀ w, v.get "provider" = some w → allOf [typed [.string], minLength 1] w) ↔
        v.get "provider" ≠ some (.string "") :=
    (text_of_required Json.typeOf_of_asStr hms hobject hprovider _).trans
      (minLength_one_iff "provider")
  have heventTypeIff (hobject : v.typeOf = .object) {t : Json} (ht : v.get "event_type" = some t) :
      enum (eventTypes.map eventTypeName) t ↔ t.typeOf = .string := by
    obtain ⟨w, hw, hvariant⟩ := exists_of_required hms hobject heventType
    obtain rfl := Option.some.inj (hw.symm.trans ht)
    exact enum_iff hvariant
  have hsessionIff (hobject : v.typeOf = .object) {s : Json} (hs : v.get "session" = some s) :
      sessionSchema s ↔ PlainSession s := by
    obtain ⟨w, hw, hdecode⟩ := exists_of_required hms hobject hsession
    obtain rfl := Option.some.inj (hw.symm.trans hs)
    exact decodeSession_schema hdecode
  have hactivityIff (hobject : v.typeOf = .object) {a : Json} (ha : v.get "activity" = some a) :
      activitySchema (fun _ => true) a ↔ PlainActivity a :=
    decodeActivity_schema (decode_of_withDefault hms hobject hactivity ha)
  refine ⟨?_, fun h => ?_⟩
  · rintro ⟨hobject, hv, hid, hts, hp, -, ht, hs, ha, -⟩
    exact
      { object := hobject
        schemaVersion := (hversionIff hobject).mp hv
        eventId := (heventIdIff hobject).mp hid
        timestamp := (htimestampIff hobject).mp hts
        provider := (hproviderIff hobject).mp hp
        eventType := fun t hget => (heventTypeIff hobject hget).mp (ht t hget)
        session := fun s hget => (hsessionIff hobject hget).mp (hs s hget)
        activity := fun a hget => (hactivityIff hobject hget).mp (ha a hget) }
  · have hobject := h.object
    refine ⟨hobject, (hversionIff hobject).mpr h.schemaVersion,
      (heventIdIff hobject).mpr h.eventId, (htimestampIff hobject).mpr h.timestamp,
      (hproviderIff hobject).mpr h.provider, fun w hw => ?_, fun t ht => ?_, fun s hs => ?_,
      fun a ha => ?_, fun m hm => ?_⟩
    · exact typed_text Json.typeOf_of_asStr (decode_of_withDefault hms hobject hproviderVersion hw)
    · exact (heventTypeIff hobject ht).mpr (h.eventType t ht)
    · exact (hsessionIff hobject hs).mpr (h.session s hs)
    · exact (hactivityIff hobject ha).mpr (h.activity a ha)
    · exact typed_object (decode_of_withDefault hms hobject hmetadata hm)

/-- A label is sanitized when it is decoded. -/
theorem decodeEvent_sanitizesLabel {F : TextForms} {ev : NormalizedEvent}
    (h : decodeEvent F v = some ev) : SanitizesLabel v ev := by
  intro a text ha hl
  obtain ⟨ms, hms, -, -, -, -, -, -, -, hactivity, -⟩ := decodeEvent_eq_some h
  obtain ⟨rfl, -⟩ | ⟨activity, hsome, hdecode⟩ :=
    decodeOption_cases (decode_of_withDefault hms (Json.typeOf_of_get ha) hactivity ha)
  · cases hl
  · obtain ⟨ns, hns, -, hlabel, -, -⟩ := decodeActivity_eq_some hdecode
    have hread := decode_of_withDefault hns (Json.typeOf_of_get hl) hlabel hl
    rw [hsome, Option.bind_some]
    exact (Option.some.inj hread).symm

end

/-! ### Labels -/

theorem activitySchema_iff (label : Schema) (v : Json) :
    activitySchema label v ↔
      activitySchema (fun _ => true) v ∧ ∀ l, v.get "label" = some l → label l := by
  have hlabel (s : Schema) (l : Json) : allOf [optionalText, s] l ↔ optionalText l ∧ s l := by
    simp [allOf]
  simp only [activitySchema, strictObject_parts, List.forall_mem_cons, List.map_cons, List.map_nil,
    hlabel, imp_and, forall_and]
  tauto

/-- A document conforms to the schema as it is published if its label is also short. -/
theorem publishedSchema_iff (dateTime : String → Bool) (doc : Json) :
    publishedSchema dateTime doc ↔ tolerantSchema dateTime doc ∧
      ∀ a l, doc.get "activity" = some a → a.get "label" = some l → maxLength 40 l := by
  simp only [publishedSchema, tolerantSchema, eventSchema, strictObject_parts,
    List.forall_mem_cons, List.map_cons, List.map_nil, activitySchema_iff (maxLength 40), imp_and,
    forall_and]
  tauto

/-! ### Accepted payloads -/

/-- **When the document of an accepted payload conforms.** Whatever payload the broker accepts,
    its document satisfies the schema but for the length of a label, and the label is taken over
    sanitized, if and only if the event is written plainly: with objects for its records and names
    for its variants, a version `1.x`, a hyphenated id, a date-time, and a provider and a session
    id that are not empty. -/
theorem accepted_conforms_iff (F : TextForms) (dateTime : String → Bool) (b : Broker)
    (raw : List UInt8) (doc : Json) (hdoc : F.readDocument raw = some doc) (ev : NormalizedEvent)
    (haccepted : (b.bufferEvent (decodePayload F) raw).2 = .ok ev) :
    (tolerantSchema dateTime doc ∧ SanitizesLabel doc ev) ↔ PlainEvent dateTime doc := by
  have hdecode : decodeEvent F doc = some ev := by
    have hpayload : decodePayload F raw = decodeEvent F doc := by
      rw [decodePayload, hdoc, Option.bind_some]
    rw [← hpayload]
    unfold Broker.bufferEvent at haccepted
    cases hraw : decodePayload F raw with
    | none => rw [hraw] at haccepted; exact absurd haccepted (by simp)
    | some e => rw [hraw] at haccepted; rw [Except.ok.inj haccepted]
  rw [← decodeEvent_schema dateTime hdecode]
  exact and_iff_left (decodeEvent_sanitizesLabel hdecode)

/-! ### Ids as they are written -/

theorem isHex_digitChar : ∀ d < 16, isHex (Nat.digitChar d) := by decide

theorem isHex_toDigits (n : Nat) : ∀ c ∈ Nat.toDigits 16 n, isHex c := by
  induction n using Nat.strongRecOn with
  | ind n ih =>
    rw [Nat.toDigits_eq_if (by decide)]
    split
    · next h => simpa using isHex_digitChar n h
    · next h =>
      intro c hc
      rcases List.mem_append.mp hc with hc | hc
      · exact ih (n / 16) (by omega) c hc
      · rw [List.mem_singleton.mp hc]
        exact isHex_digitChar _ (Nat.mod_lt n (by decide))

/-- The digits of an id, without the hyphens. -/
def Uuid.digits (id : Uuid) : List Char := (Nat.toDigits 16 id.toNat).leftpad 32 '0'

/-- The digits from `start` to before `stop`. -/
def Uuid.part (id : Uuid) (start stop : Nat) : List Char := (id.digits.take stop).drop start

theorem Uuid.length_digits (id : Uuid) : id.digits.length = 32 := by
  have hle : (Nat.toDigits 16 id.toNat).length ≤ 32 :=
    (Nat.length_toDigits_le_iff (by decide) (by decide)).mpr id.isLt
  show (List.replicate _ '0' ++ Nat.toDigits 16 id.toNat).length = 32
  rw [List.length_append, List.length_replicate]
  omega

theorem Uuid.isHex_part (id : Uuid) (start stop : Nat) : ∀ c ∈ id.part start stop, isHex c := by
  intro c hc
  have hc : c ∈ id.digits := List.mem_of_mem_take (List.mem_of_mem_drop hc)
  rcases List.mem_append.mp hc with hc | hc
  · rw [List.eq_of_mem_replicate hc]
    decide
  · exact isHex_toDigits _ c hc

/-- The hyphens of the text of an id are between its groups of digits. -/
theorem Uuid.groups_toString (id : Uuid) : id.toString.toList.splitOn '-' =
    [id.part 0 8, id.part 8 12, id.part 12 16, id.part 16 20, id.part 20 32] := by
  have hhyphen (start stop : Nat) : '-' ∉ id.part start stop := fun hc =>
    absurd (id.isHex_part start stop '-' hc) (by decide)
  have hlist : id.toString.toList = ['-'].intercalate
      [id.part 0 8, id.part 8 12, id.part 12 16, id.part 16 20, id.part 20 32] := by
    simp [Uuid.toString, Uuid.part, Uuid.digits, List.intercalate]
  rw [hlist]
  exact List.splitOn_intercalate '-' (by simp [hhyphen]) (by simp)

/-- The text of an id matches the pattern of ids. -/
theorem uuidPattern_toString (id : Uuid) : uuidPattern id.toString := by
  rw [uuidPattern, id.groups_toString, Bool.and_eq_true, decide_eq_true_eq]
  refine ⟨by simp [Uuid.part, id.length_digits], ?_⟩
  simpa [List.all_eq_true] using ⟨id.isHex_part 0 8, id.isHex_part 8 12, id.isHex_part 12 16,
    id.isHex_part 16 20, id.isHex_part 20 32⟩

/-- What a digit of `[0-9a-f]` stands for. -/
def hexDigit (c : Char) : Nat := if c ≤ '9' then c.toNat - 48 else c.toNat - 87

/-- What digits stand for, the most significant one first. -/
def hexValue (cs : List Char) : Nat := cs.foldl (fun n c => 16 * n + hexDigit c) 0

theorem hexDigit_digitChar : ∀ d < 16, hexDigit (Nat.digitChar d) = d := by decide

theorem hexValue_toDigits (n : Nat) : hexValue (Nat.toDigits 16 n) = n := by
  induction n using Nat.strongRecOn with
  | ind n ih =>
    rw [Nat.toDigits_eq_if (by decide)]
    split
    · next h => simp [hexValue, hexDigit_digitChar n h]
    · next h =>
      have hdigit := hexDigit_digitChar (n % 16) (Nat.mod_lt n (by decide))
      have hvalue := ih (n / 16) (by omega)
      rw [hexValue] at hvalue ⊢
      rw [List.foldl_append, hvalue, List.foldl_cons, List.foldl_nil, hdigit]
      omega

theorem Uuid.hexValue_digits (id : Uuid) : hexValue id.digits = id.toNat := by
  have hzeros (k : Nat) : hexValue (List.replicate k '0') = 0 := by
    induction k with
    | zero => rfl
    | succ k ih => simpa [hexValue, List.replicate_succ, hexDigit] using ih
  have hpad : hexValue id.digits = hexValue (Nat.toDigits 16 id.toNat) := by
    show List.foldl _ 0 (List.replicate _ '0' ++ Nat.toDigits 16 id.toNat) = _
    rw [List.foldl_append, ← hexValue, hzeros, hexValue]
  rw [hpad, hexValue_toDigits]

theorem Uuid.part_append_drop (id : Uuid) {start stop : Nat} (h : start ≤ stop) :
    id.part start stop ++ id.digits.drop stop = id.digits.drop start := by
  have hrest : id.digits.drop stop = (id.digits.drop start).drop (stop - start) := by
    rw [List.drop_drop, Nat.add_sub_cancel' h]
  rw [Uuid.part, List.drop_take, hrest, List.take_append_drop]

/-- The groups of a text are the digits of its id. -/
theorem Uuid.flatten_groups (id : Uuid) : (id.toString.toList.splitOn '-').flatten = id.digits := by
  have hend : id.digits.drop 32 = [] := by simp [id.length_digits]
  have hlast := id.part_append_drop (show 20 ≤ 32 by decide)
  rw [hend, List.append_nil] at hlast
  rw [id.groups_toString]
  simp only [List.flatten_cons, List.flatten_nil, List.append_nil]
  rw [hlast, id.part_append_drop (by decide), id.part_append_drop (by decide),
    id.part_append_drop (by decide), id.part_append_drop (by decide), List.drop_zero]

/-- Different ids are written differently. -/
theorem Uuid.toString_injective : Function.Injective Uuid.toString := by
  intro id id' h
  have hdigits : id.digits = id'.digits := by rw [← id.flatten_groups, h, id'.flatten_groups]
  apply BitVec.eq_of_toNat_eq
  rw [← id.hexValue_digits, hdigits, id'.hexValue_digits]

/-! ### What the encoders write -/

theorem plainSession_encodeSession {s : SessionIdentity} (hid : s.id ≠ "") :
    PlainSession (encodeSession s) := by
  obtain ⟨id, parentId, workspace, terminal⟩ := s
  have hnd : sessionFields.Nodup := by decide
  cases terminal with
  | none =>
    have hget : ∀ key, (encodeSession ⟨id, parentId, workspace, none⟩).get key =
        List.lookup key _ :=
      Json.get_object (by exact List.sublist_append_left _ ["terminal"]) hnd
    refine ⟨rfl, fun hempty => ?_, fun t ht => ?_⟩
    · simp [hget] at hempty
      exact hid hempty
    · simp [hget, List.lookup_cons] at ht
  | some c =>
    have hget : ∀ key, (encodeSession ⟨id, parentId, workspace, some c⟩).get key =
        List.lookup key _ :=
      Json.get_object (by exact List.Sublist.refl sessionFields) hnd
    refine ⟨rfl, fun hempty => ?_, fun t ht => ?_⟩
    · simp [hget] at hempty
      exact hid hempty
    · simp [hget, List.lookup_cons] at ht
      rw [← ht]
      rfl

theorem plainActivity_encodeActivity (a : Activity) : PlainActivity (encodeActivity a) := by
  have hget : ∀ key, (encodeActivity a).get key = List.lookup key _ :=
    Json.get_object (by exact List.Sublist.refl activityFields) (by decide)
  refine ⟨by simp [encodeActivity, Json.typeOf], fun c hc => ?_, fun r hr => ?_⟩
  · rw [hget] at hc
    simp at hc
    rw [← hc]
    rfl
  · rw [hget] at hr
    simp [List.lookup_cons] at hr
    rw [← hr]
    cases a.risk <;> simp [Json.encodeOption, Json.typeOf]

/-- The document of an event is written plainly, if its texts are in form. -/
theorem plainEvent_encodeEvent {F : TextForms} {e : NormalizedEvent} {dateTime : String → Bool}
    (hversion : schemaVersionPattern e.schemaVersion) (htime : dateTime (F.timeText e.timestamp))
    (hprovider : e.provider ≠ "") (hsession : e.session.id ≠ "") :
    PlainEvent dateTime (encodeEvent F e) := by
  have hget : ∀ key, (encodeEvent F e).get key = (eventMembers F e).lookup key :=
    Json.get_object (by exact List.Sublist.refl eventFields) (by decide)
  refine
    { object := rfl
      schemaVersion := fun s hs => ?_
      eventId := fun s hs => ?_
      timestamp := fun s hs => ?_
      provider := fun hp => ?_
      eventType := fun t ht => ?_
      session := fun s hs => ?_
      activity := fun a ha => ?_ }
  · simp [hget, eventMembers] at hs
    exact hs ▸ hversion
  · simp [hget, eventMembers, List.lookup_cons] at hs
    exact hs ▸ uuidPattern_toString e.eventId
  · simp [hget, eventMembers, List.lookup_cons] at hs
    exact hs ▸ htime
  · simp [hget, eventMembers, List.lookup_cons] at hp
    exact hprovider hp
  · simp [hget, eventMembers, List.lookup_cons] at ht
    exact ht ▸ rfl
  · simp [hget, eventMembers, List.lookup_cons] at hs
    exact hs ▸ plainSession_encodeSession hsession
  · simp [hget, eventMembers, List.lookup_cons] at ha
    subst ha
    cases e.activity with
    | none   => exact plainActivity_null
    | some a => exact plainActivity_encodeActivity a

/-- An event of the next version of the schema. -/
def nextVersionEvent : NormalizedEvent := { epochEvent with schemaVersion := "2.0" }

/-- How it is written. -/
def nextVersionText : String :=
  "\x7b\"schema_version\":\"2.0\",\"event_id\":\"00000000-0000-0000-0000-000000000001\"," ++
    "\"timestamp\":\"1970-01-01T00:00:00Z\",\"provider\":\"test\",\"provider_version\":null," ++
    "\"event_type\":\"agent.started\",\"session\":\x7b\"id\":\"s\",\"parent_id\":null," ++
    "\"workspace\":null\x7d,\"activity\":null,\"metadata\":\x7b\x7d\x7d"

/-- Text forms that know this event. -/
def nextVersionForms : TextForms :=
  oneEventForms nextVersionEvent "1970-01-01T00:00:00Z" (textBytes nextVersionText)

/-- Without metadata, the payload of an event that the text forms know is accepted. -/
theorem oneEventForms_accepts {e : NormalizedEvent} (hmetadata : e.metadata = ∅) (time : String)
    (text : List UInt8) (b : Broker) :
    (oneEventForms e time text).readDocument text
        = some (encodeEvent (oneEventForms e time text) e) ∧
      (b.bufferEvent (decodePayload (oneEventForms e time text)) text).2 = .ok e := by
  have hF := oneEventForms_readsBack e time text
  have hshallow : Shallow e := fun k v h => by simp [hmetadata] at h
  have hdecode : decodePayload (oneEventForms e time text) text = some e :=
    decodePayload_encodePayload hF hshallow
  refine ⟨readDocument_encodePayload hF hshallow, ?_⟩
  rw [Broker.bufferEvent, hdecode]

/-- **An event of another version is accepted.** Its document does not conform, whatever a
    date-time is. -/
theorem accepts_next_version :
    ¬ ∀ (F : TextForms) (dateTime : String → Bool) (b : Broker) (raw : List UInt8) (doc : Json)
        (ev : NormalizedEvent), F.readDocument raw = some doc →
      (b.bufferEvent (decodePayload F) raw).2 = .ok ev →
      tolerantSchema dateTime doc ∧ SanitizesLabel doc ev := by
  intro hall
  obtain ⟨hdoc, haccepted⟩ := oneEventForms_accepts (e := nextVersionEvent) rfl
    "1970-01-01T00:00:00Z" (textBytes nextVersionText) (.new .new)
  have hconforms := (hall nextVersionForms (fun _ => true) _ _ _ _ hdoc haccepted).1
  exact absurd hconforms (by decide +kernel)

/-- The document of the event at the epoch conforms, also to the schema as it is published: it has
    no label. -/
theorem accepted_conforms_iff_epoch :
    publishedSchema (fun s => s == "1970-01-01T00:00:00Z") (encodeEvent epochForms epochEvent) ∧
      SanitizesLabel (encodeEvent epochForms epochEvent) epochEvent := by
  obtain ⟨hdoc, haccepted⟩ := oneEventForms_accepts (e := epochEvent) rfl
    "1970-01-01T00:00:00Z" (textBytes epochEventText ++ textBytes "\x7b\x7d\x7d") (.new .new)
  obtain ⟨htolerant, hlabel⟩ := (accepted_conforms_iff epochForms
    (fun s => s == "1970-01-01T00:00:00Z") _ _ _ hdoc _ haccepted).mpr
    (plainEvent_encodeEvent (by decide +kernel) (by decide +kernel) (by decide) (by decide))
  refine ⟨(publishedSchema_iff _ _).mpr ⟨htolerant, fun a l ha hl => ?_⟩, hlabel⟩
  obtain rfl : Json.null = a := Option.some.inj ha
  exact absurd hl (by simp [Json.get, Json.asObject])

end AgentTermStatus
