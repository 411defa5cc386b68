import AgentTermStatus.Lib.Json

namespace AgentTermStatus.Lib

/-!
# Records and variants in JSON

How a derived decoder reads a record from a document: from an object that names only fields of
the record, each at most once, or from an array that lists the fields in order.  A field is
`required` or has a default (`withDefault`); an optional value is `null` when it is missing.  A
variant without data is its name, or an object with that name and `null`.

Each decoder has the law that it reads back what is written: `members_object`,
`decodeOption_encodeOption`, `decodeVariant_string`.
-/

namespace Json
variable {α : Type}

/-- The members of a record with the given fields. -/
def members (fields : List String) : Json → Option (List (String × Json))
  | object ms =>
      if (∀ p ∈ ms, p.1 ∈ fields) ∧ (ms.map Prod.fst).Nodup then some ms else none
  | array xs => if xs.length ≤ fields.length then some (fields.zip xs) else none
  | _ => none

/-- A field that must be there. -/
def required (ms : List (String × Json)) (field : String) (decode : Json → Option α) :
    Option α := (ms.lookup field).bind decode

/-- A field that takes a default value when it is missing. -/
def withDefault (ms : List (String × Json)) (field : String) (default : α)
    (decode : Json → Option α) : Option α :=
  match ms.lookup field with
  | none   => some default
  | some v => decode v

/-- An optional value. -/
def decodeOption (decode : Json → Option α) : Json → Option (Option α)
  | null => some none
  | v    => (decode v).map some

/-- An optional value, written. -/
def encodeOption (encode : α → Json) : Option α → Json
  | none   => null
  | some a => encode a

/-- A variant, by the names of the variants. -/
def decodeVariant (variants : List α) (name : α → String) : Json → Option α
  | string s => variants.find? fun a => name a = s
  | object [(s, null)] => variants.find? fun a => name a = s
  | _ => none

/-- A map of values. -/
def decodeMap : Json → Option (FiniteMap String Value)
  | object ms => some ((mapOfMembers ms).map fun _ v => v.value)
  | _ => none

/-- A map of values, written. -/
def encodeMap (m : FiniteMap String Value) : Json := ofMap (m.map fun _ v => v.val)

/-! ### Reading back -/

/-- An object with some of the fields of the record, in order, is read. -/
theorem members_object {fields : List String} {ms : List (String × Json)}
    (hfields : (ms.map Prod.fst).Sublist fields) (hnd : fields.Nodup) :
    members fields (object ms) = some ms :=
  if_pos ⟨fun _ hp => hfields.subset (List.mem_map_of_mem hp), hnd.sublist hfields⟩

/-- An object with another key is rejected. -/
theorem members_eq_none {fields : List String} {doc : Json} {key : String} {v : Json}
    (hget : doc.get key = some v) (hkey : key ∉ fields) : members fields doc = none := by
  cases doc with
  | object ms =>
    refine if_neg fun h => hkey (h.1 (key, v) ?_)
    exact mem_of_getElem?_mapOfMembers hget
  | _ => exact absurd hget (by simp [get, asObject])

/-- The fields of a record are its members, whichever way they are looked up. -/
theorem lookup_eq_get {fields : List String} {doc : Json} {ms : List (String × Json)}
    (h : members fields doc = some ms) (hobject : doc.asObject.isSome) (key : String) :
    ms.lookup key = doc.get key := by
  cases doc with
  | object ns =>
    obtain ⟨⟨-, hnd⟩, hms⟩ := Option.ite_none_right_eq_some.mp h
    obtain rfl := Option.some.inj hms
    exact lookup_eq_getElem? hnd key
  | _ => exact absurd hobject (by simp [asObject])

/-- The fields of an object that writes some of the fields of a record, in order. -/
theorem get_object {fields : List String} {ms : List (String × Json)}
    (hfields : (ms.map Prod.fst).Sublist fields) (hnd : fields.Nodup) (key : String) :
    (object ms).get key = ms.lookup key :=
  (lookup_eq_get (members_object hfields hnd) rfl key).symm

/-- An optional value is read back if no value is written as `null`. -/
theorem decodeOption_encodeOption {decode : Json → Option α} {encode : α → Json}
    (hdecode : ∀ a, decode (encode a) = some a) (hnull : ∀ a, encode a ≠ null) (o : Option α) :
    decodeOption decode (encodeOption encode o) = some o := by
  cases o with
  | none => rfl
  | some a =>
    show decodeOption decode (encode a) = _
    unfold decodeOption
    split
    · next h => exact absurd h (hnull a)
    · rw [hdecode, Option.map_some]

/-- A variant is read back by its name. -/
theorem decodeVariant_string {variants : List α} {name : α → String} {a : α}
    (hmem : a ∈ variants) (hinj : ∀ b ∈ variants, name b = name a → b = a) :
    decodeVariant variants name (string (name a)) = some a := by
  show variants.find? _ = some a
  have hsome : (variants.find? fun b => name b = name a).isSome := by
    rw [List.find?_isSome]
    exact ⟨a, hmem, by simp⟩
  obtain ⟨b, hb⟩ := Option.isSome_iff_exists.mp hsome
  have hname : name b = name a := by simpa using List.find?_some hb
  rw [hb, hinj b (List.mem_of_find?_eq_some hb) hname]

/-- A map is read back. -/
theorem decodeMap_encodeMap (m : FiniteMap String Value) : decodeMap (encodeMap m) = some m := by
  show some ((mapOfMembers (m.map fun _ v => v.val).toList).map fun _ v => v.value) = some m
  rw [mapOfMembers_toList, Option.some.injEq]
  apply FiniteMap.ext
  intro k
  simp only [Std.ExtTreeMap.getElem?_map, Option.map_map]
  cases m[k]? with
  | none => rfl
  | some v => simp

/-! ### Nesting -/

/-- The fields of a record are nested less deeply than its document. -/
theorem depth_members_le {fields : List String} {doc : Json} {ms : List (String × Json)} {n : Nat}
    (h : members fields doc = some ms) (hdepth : doc.depth ≤ n + 1) :
    ∀ p ∈ ms, p.2.depth ≤ n := by
  cases doc with
  | object ns =>
    obtain ⟨-, hms⟩ := Option.ite_none_right_eq_some.mp h
    obtain rfl := Option.some.inj hms
    exact (depth_object_le_iff ns n).mp hdepth
  | array xs =>
    obtain ⟨-, hms⟩ := Option.ite_none_right_eq_some.mp h
    obtain rfl := Option.some.inj hms
    exact fun p hp => (depth_array_le_iff xs n).mp hdepth p.2 (List.of_mem_zip hp).2
  | null | bool | number | string => exact absurd h (by simp [members])

/-- So are the values of a map. -/
theorem depth_decodeMap_le {doc : Json} {m : FiniteMap String Value} {n : Nat}
    (h : decodeMap doc = some m) (hdepth : doc.depth ≤ n + 1) {key : String} {v : Value}
    (hkey : m[key]? = some v) : v.val.depth ≤ n := by
  cases doc with
  | object ms =>
    obtain rfl := Option.some.inj h
    rw [Std.ExtTreeMap.getElem?_map, Option.map_eq_some_iff] at hkey
    obtain ⟨w, hw, rfl⟩ := hkey
    have hmem := mem_of_getElem?_mapOfMembers hw
    exact (depth_canonical_le w).trans ((depth_object_le_iff ms n).mp hdepth _ hmem)
  | null | bool | number | string | array => exact absurd h (by simp [decodeMap])

end Json

end AgentTermStatus.Lib
