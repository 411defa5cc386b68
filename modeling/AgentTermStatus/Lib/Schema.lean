import AgentTermStatus.Lib.Record

namespace AgentTermStatus.Lib

/-!
# JSON Schema

The keywords of JSON Schema, as predicates on documents.  A keyword speaks of one type of value
only and holds of every value of another type: `minLength` holds of numbers, `required` of texts.
A schema is the conjunction of its keywords (`allOf`).

A document that the decoder of a record has read satisfies much of a schema of the same record
already: it names no other fields and has those that are required.  `strictObject_iff` says what
is left to check, and `enum_iff` and `typed_text` say it of variants and of optional texts.
-/

/-- The types of values. -/
inductive JsonType
  | null
  | boolean
  | number
  | string
  | array
  | object
  deriving DecidableEq

/-- The type of a value. -/
def Json.typeOf : Json → JsonType
  | null     => .null
  | bool _   => .boolean
  | number _ => .number
  | string _ => .string
  | array _  => .array
  | object _ => .object

theorem Json.isSome_asObject (v : Json) : v.asObject.isSome ↔ v.typeOf = .object := by
  cases v <;> simp [asObject, typeOf]

/-- Only objects have values under keys. -/
theorem Json.typeOf_of_get {v w : Json} {key : String} (h : v.get key = some w) :
    v.typeOf = .object := by
  obtain ⟨m, hm, -⟩ := Option.bind_eq_some_iff.mp h
  exact (isSome_asObject v).mp (by rw [hm, Option.isSome_some])

theorem Json.isSome_asStr (v : Json) : v.asStr.isSome ↔ v.typeOf = .string := by
  cases v <;> simp [asStr, typeOf]

/-- The decoder of a text reads texts only. -/
theorem Json.typeOf_of_asStr (w : Json) (s : String) (h : w.asStr = some s) : w.typeOf = .string :=
  (isSome_asStr w).mp (by rw [h, Option.isSome_some])

theorem Json.typeOf_of_asStr_map {α : Type} (f : String → α) (w : Json) (a : α)
    (h : w.asStr.map f = some a) : w.typeOf = .string := by
  obtain ⟨s, hs, -⟩ := Option.map_eq_some_iff.mp h
  exact typeOf_of_asStr w s hs

theorem Json.typeOf_of_asStr_bind {α : Type} (parse : String → Option α) (w : Json) (a : α)
    (h : w.asStr.bind parse = some a) : w.typeOf = .string := by
  obtain ⟨s, hs, -⟩ := Option.bind_eq_some_iff.mp h
  exact typeOf_of_asStr w s hs

/-- A schema, by the documents it holds of. -/
abbrev Schema := Json → Bool

namespace Schema

/-! ### Keywords -/

/-- `type`: the types a value may have. -/
def typed (types : List JsonType) : Schema := fun v => v.typeOf ∈ types

/-- `enum`, of texts. -/
def enum (names : List String) : Schema
  | .string s => s ∈ names
  | _         => false

/-- A keyword about texts: `pattern` and `format`. -/
def text (holds : String → Bool) : Schema
  | .string s => holds s
  | _         => true

/-- `minLength`, in characters. -/
def minLength (n : Nat) : Schema := text fun s => n ≤ s.length

/-- `maxLength`, in characters. -/
def maxLength (n : Nat) : Schema := text fun s => s.length ≤ n

/-- `required`: the keys an object must have. -/
def required (keys : List String) : Schema
  | .object ms => keys.all fun k => (Json.get (.object ms) k).isSome
  | _          => true

/-- `properties`: what holds of the values under some keys of an object. -/
def properties (ps : List (String × Schema)) : Schema := fun v =>
  ps.all fun p => (v.get p.1).all p.2

/-- `additionalProperties: false`: no key of an object but the given ones. -/
def noAdditionalProperties (keys : List String) : Schema
  | .object ms => ms.all fun p => p.1 ∈ keys
  | _          => true

/-- All of the schemas hold. -/
def allOf (schemas : List Schema) : Schema := fun v => schemas.all fun s => s v

/-- `anyOf`: one of the schemas holds. -/
def anyOf (schemas : List Schema) : Schema := fun v => schemas.any fun s => s v

/-- A schema of records: its types, the keys that are required, and the properties, beside which
    there are none. -/
def strictObject (types : List JsonType) (keys : List String) (ps : List (String × Schema)) :
    Schema :=
  allOf [typed types, noAdditionalProperties (ps.map Prod.fst), required keys, properties ps]

/-! ### What the keywords say -/

theorem typed_iff {types : List JsonType} {v : Json} : typed types v ↔ v.typeOf ∈ types := by
  simp [typed]

theorem properties_iff {ps : List (String × Schema)} {v : Json} :
    properties ps v ↔ ∀ p ∈ ps, ∀ w, v.get p.1 = some w → p.2 w := by
  simp only [properties, List.all_eq_true, Option.all_eq_true]

/-- A text has a character unless it is empty. -/
theorem minLength_one_iff {v : Json} (key : String) :
    (∀ s, v.get key = some (.string s) → decide (1 ≤ s.length)) ↔
      v.get key ≠ some (.string "") := by
  refine ⟨fun h hempty => ?_, fun h s hs => ?_⟩
  · exact absurd (h "" hempty) (by decide)
  · rw [decide_eq_true_eq, Nat.one_le_iff_ne_zero]
    intro hzero
    rw [String.length_eq_zero_iff.mp hzero] at hs
    exact h hs

/-! ### Schemas of what a decoder has read -/

section
variable {α : Type} {v : Json}

/-- A field that was required is among the members. -/
theorem isSome_of_required {ms : List (String × Json)} {key : String} {decode : Json → Option α}
    {a : α} (h : Json.required ms key decode = some a) : (ms.lookup key).isSome := by
  obtain ⟨w, hw, -⟩ := Option.bind_eq_some_iff.mp h
  rw [hw, Option.isSome_some]

/-- A field that was required is there, and its value was read. -/
theorem exists_of_required {fields : List String} {ms : List (String × Json)} {key : String}
    {decode : Json → Option α} {a : α} (hmembers : v.members fields = some ms)
    (hobject : v.typeOf = .object) (h : Json.required ms key decode = some a) :
    ∃ w, v.get key = some w ∧ decode w = some a := by
  obtain ⟨w, hw, ha⟩ := Option.bind_eq_some_iff.mp h
  rw [Json.lookup_eq_get hmembers ((Json.isSome_asObject v).mpr hobject)] at hw
  exact ⟨w, hw, ha⟩

/-- A field that was required and read from a text conforms if the keyword about its text holds. -/
theorem text_of_required {fields : List String} {ms : List (String × Json)} {key : String}
    {decode : Json → Option α} {a : α} (htext : ∀ w b, decode w = some b → w.typeOf = .string)
    (hmembers : v.members fields = some ms) (hobject : v.typeOf = .object)
    (h : Json.required ms key decode = some a) (holds : String → Bool) :
    (∀ w, v.get key = some w → allOf [typed [.string], text holds] w) ↔
      ∀ s, v.get key = some (.string s) → holds s := by
  obtain ⟨w, hw, ha⟩ := exists_of_required hmembers hobject h
  have htype := htext w a ha
  cases w with
  | string s => simp [hw, allOf, typed, text, Json.typeOf]
  | _ => exact absurd htype (by simp [Json.typeOf])

/-- The value of a field that has a default was read, if it is there. -/
theorem decode_of_withDefault {fields : List String} {ms : List (String × Json)} {key : String}
    {default a : α} {decode : Json → Option α} (hmembers : v.members fields = some ms)
    (hobject : v.typeOf = .object) (h : Json.withDefault ms key default decode = some a) {w : Json}
    (hw : v.get key = some w) : decode w = some a := by
  rw [← Json.lookup_eq_get hmembers ((Json.isSome_asObject v).mpr hobject)] at hw
  rwa [Json.withDefault, hw] at h

/-- The parts of a schema of records. -/
theorem strictObject_parts {types : List JsonType} {keys : List String}
    {ps : List (String × Schema)} : strictObject types keys ps v ↔ typed types v ∧
      noAdditionalProperties (ps.map Prod.fst) v ∧ required keys v ∧
      ∀ p ∈ ps, ∀ w, v.get p.1 = some w → p.2 w := by
  rw [← properties_iff]
  simp [strictObject, allOf]

/-- A record that was read from an object conforms to a schema with its fields as soon as the
    values of the fields do; read from an array it conforms to none. -/
theorem strictObject_iff {fields keys : List String} {types : List JsonType}
    {ps : List (String × Schema)} {ms : List (String × Json)}
    (hmembers : v.members fields = some ms) (hfields : ps.map Prod.fst = fields)
    (hobject : .object ∈ types) (harray : .array ∉ types)
    (hkeys : ∀ k ∈ keys, (ms.lookup k).isSome) :
    strictObject types keys ps v ↔
      v.typeOf = .object ∧ ∀ p ∈ ps, ∀ w, v.get p.1 = some w → p.2 w := by
  subst hfields
  rw [strictObject_parts, typed_iff]
  cases v with
  | object ns =>
    have hclosed : noAdditionalProperties (ps.map Prod.fst) (.object ns) := by
      obtain ⟨⟨hfields, -⟩, -⟩ := Option.ite_none_right_eq_some.mp hmembers
      simpa [noAdditionalProperties] using hfields
    have hrequired : required keys (.object ns) := by
      rw [required, List.all_eq_true]
      intro k hk
      rw [← Json.lookup_eq_get hmembers rfl]
      exact hkeys k hk
    simp only [hclosed, hrequired, Json.typeOf, hobject, true_and]
  | array xs => simp [Json.typeOf, harray]
  | _ => exact absurd hmembers (by simp [Json.members])

/-- A variant that was read conforms to the list of names if it was written as its name. -/
theorem enum_iff {variants : List α} {name : α → String} {a : α}
    (h : Json.decodeVariant variants name v = some a) :
    enum (variants.map name) v ↔ v.typeOf = .string := by
  cases v with
  | string s =>
    have hname : name a = s := by simpa using List.find?_some h
    have hmem : s ∈ variants.map name :=
      List.mem_map.mpr ⟨a, List.mem_of_find?_eq_some h, hname⟩
    simpa [enum, Json.typeOf] using hmem
  | _ => simp [enum, Json.typeOf]

/-- An optional value that was read is `null` or was read as a value. -/
theorem decodeOption_cases {decode : Json → Option α} {o : Option α}
    (h : Json.decodeOption decode v = some o) :
    (v = .null ∧ o = none) ∨ ∃ a, o = some a ∧ decode v = some a := by
  unfold Json.decodeOption at h
  split at h
  · exact .inl ⟨rfl, (Option.some.inj h).symm⟩
  · obtain ⟨a, ha, rfl⟩ := Option.map_eq_some_iff.mp h
    exact .inr ⟨a, rfl, ha⟩

/-- An optional value whose decoder reads texts only conforms to the type of optional texts. -/
theorem typed_text {decode : Json → Option α} {o : Option α}
    (htext : ∀ w b, decode w = some b → w.typeOf = .string)
    (h : Json.decodeOption decode v = some o) : typed [.string, .null] v := by
  rw [typed_iff]
  obtain ⟨rfl, -⟩ | ⟨a, -, ha⟩ := decodeOption_cases h
  · decide
  · rw [htext v a ha]
    decide

/-- An optional variant that was read conforms unless it was written as an object. -/
theorem anyOf_enum_iff {variants : List α} {name : α → String} {o : Option α}
    (h : Json.decodeOption (Json.decodeVariant variants name) v = some o) :
    anyOf [enum (variants.map name), typed [.null]] v ↔ v.typeOf ≠ .object := by
  have hany : anyOf [enum (variants.map name), typed [.null]] v ↔
      enum (variants.map name) v ∨ v.typeOf = .null := by
    simp [anyOf, typed]
  rw [hany]
  obtain ⟨rfl, -⟩ | ⟨a, -, ha⟩ := decodeOption_cases h
  · simp [Json.typeOf]
  · rw [enum_iff ha]
    cases v with
    | string | object => simp [Json.typeOf]
    | _ => exact absurd ha (by simp [Json.decodeVariant])

/-- A map that was read conforms. -/
theorem typed_object {m : FiniteMap String Json.Value} (h : Json.decodeMap v = some m) :
    typed [.object] v := by
  cases v with
  | object => rfl
  | _ => exact absurd h (by simp [Json.decodeMap])

end

end Schema

end AgentTermStatus.Lib
