import AgentTermStatus.Lib.FiniteMap
import Mathlib.Data.List.Induction
import Mathlib.Data.List.Nodup

namespace AgentTermStatus.Lib

/-!
# JSON documents and the values they denote

A `Json` is a document as it is written: an object lists its members in document order
and may name a key twice.  The value it denotes (`Json.canonical`) keeps the last member
of each key and lists the members by key, so two documents denote the same value exactly
when their canonical forms are equal.

* `asObject`, `asArray`, `asStr`, `get` — the accessors of a decoded value;
* `ofMap` — the object with the members of a finite map, and its round trip `asObject_ofMap`;
* `canonical` — the denoted value; `canonical_canonical` says it is in canonical form;
* `Value` — the documents in canonical form, the values a decoder holds;
* `depth` — nesting depth, which decoders bound; `depth_canonical_le`.
-/

/-! ### Maps built from member lists -/

section
variable {υ φ : Type}

/-- The map of a member list: the last member of a key wins. -/
def mapOfMembers (ms : List (String × υ)) : FiniteMap String υ :=
  ms.foldl (fun m p => m.insert p.1 p.2) ∅

@[simp] theorem mapOfMembers_nil : mapOfMembers ([] : List (String × υ)) = ∅ := rfl

@[simp] theorem mapOfMembers_concat (ms : List (String × υ)) (p : String × υ) :
    mapOfMembers (ms ++ [p]) = (mapOfMembers ms).insert p.1 p.2 := by
  simp only [mapOfMembers, List.foldl_append, List.foldl_cons, List.foldl_nil]

/-- A lookup finds one of the members. -/
theorem mem_of_getElem?_mapOfMembers {ms : List (String × υ)} {k : String} {v : υ}
    (h : (mapOfMembers ms)[k]? = some v) : (k, v) ∈ ms := by
  induction ms using List.reverseRecOn with
  | nil => simp at h
  | append_singleton ms p ih =>
    rw [mapOfMembers_concat, FiniteMap.getElem?_insert_if] at h
    split at h
    · next hk =>
      obtain rfl : p.2 = v := Option.some.inj h
      simp [← hk]
    · exact List.mem_append_left _ (ih h)

/-- A key is bound exactly when some member names it. -/
theorem isSome_getElem?_mapOfMembers (ms : List (String × υ)) (k : String) :
    (mapOfMembers ms)[k]?.isSome ↔ k ∈ ms.map Prod.fst := by
  induction ms using List.reverseRecOn with
  | nil => simp
  | append_singleton ms p ih =>
    rw [mapOfMembers_concat, FiniteMap.getElem?_insert_if]
    by_cases hk : p.1 = k
    · simp [hk]
    · rw [if_neg hk, ih]
      simp [Ne.symm hk]

/-- Mapping the values of the members maps the values of the map. -/
theorem mapOfMembers_map (f : υ → φ) (ms : List (String × υ)) :
    mapOfMembers (ms.map fun p => (p.1, f p.2)) = (mapOfMembers ms).map fun _ v => f v := by
  induction ms using List.reverseRecOn with
  | nil => apply FiniteMap.ext; intro k; simp
  | append_singleton ms p ih =>
    rw [List.map_append, List.map_cons, List.map_nil, mapOfMembers_concat, ih,
      mapOfMembers_concat]
    apply FiniteMap.ext
    intro k
    simp only [FiniteMap.getElem?_insert_if, Std.ExtTreeMap.getElem?_map]
    split <;> rfl

/-- Distinct keys: the lookups of the map are the members. -/
theorem getElem?_mapOfMembers_iff {ms : List (String × υ)} (hnd : (ms.map Prod.fst).Nodup)
    (k : String) (v : υ) : (mapOfMembers ms)[k]? = some v ↔ (k, v) ∈ ms := by
  refine ⟨mem_of_getElem?_mapOfMembers, fun hmem => ?_⟩
  have hbound := (isSome_getElem?_mapOfMembers ms k).mpr (List.mem_map_of_mem hmem)
  obtain ⟨w, hw⟩ := Option.isSome_iff_exists.mp hbound
  have hkey : (k, w) = (k, v) :=
    List.inj_on_of_nodup_map hnd (mem_of_getElem?_mapOfMembers hw) hmem rfl
  rw [hw, (Prod.mk.inj hkey).2]

/-- Distinct keys: looking a key up in the list finds what the map has. -/
theorem lookup_eq_getElem? {ms : List (String × υ)} (hnd : (ms.map Prod.fst).Nodup)
    (k : String) : ms.lookup k = (mapOfMembers ms)[k]? := by
  rw [Option.ext_iff]
  intro v
  rw [getElem?_mapOfMembers_iff hnd]
  induction ms with
  | nil => simp
  | cons p ms ih =>
    obtain ⟨l, w⟩ := p
    obtain ⟨hl, hrest⟩ := List.nodup_cons.mp hnd
    rw [List.lookup_cons, List.mem_cons]
    by_cases hk : k = l
    · subst hk
      have hlater : (k, v) ∉ ms := fun hmem => hl (List.mem_map.mpr ⟨(k, v), hmem, rfl⟩)
      simp [hlater, eq_comm]
    · rw [beq_eq_false_iff_ne.mpr hk]
      simp [hk, ih hrest]

/-- Listing a map and reading the list back gives the map. -/
@[simp] theorem mapOfMembers_toList (m : FiniteMap String υ) : mapOfMembers m.toList = m := by
  have hnd : (m.toList.map Prod.fst).Nodup := by
    rw [Std.ExtTreeMap.map_fst_toList_eq_keys]
    exact (Enumerates.keys m).nodup
  apply FiniteMap.ext
  intro k
  rw [Option.ext_iff]
  intro v
  rw [getElem?_mapOfMembers_iff hnd, Std.ExtTreeMap.mem_toList_iff_getElem?_eq_some]

end

/-! ### Documents -/

/-- A number as a decoder stores it: an unsigned or negative 64-bit integer, or the bits
    of a double. -/
inductive JsonNumber
  | posInt (n : UInt64)
  | negInt (n : Int64)
  | float (bits : UInt64)
  deriving DecidableEq

/-- A JSON document. -/
inductive Json
  | null
  | bool (b : Bool)
  | number (n : JsonNumber)
  | string (s : String)
  | array (items : List Json)
  | object (members : List (String × Json))

namespace Json

mutual
/-- Equality of documents is decidable. -/
def decEq : (a b : Json) → Decidable (a = b)
  | null, null => isTrue rfl
  | bool a, bool b => decidable_of_iff (a = b) (by simp)
  | number a, number b => decidable_of_iff (a = b) (by simp)
  | string a, string b => decidable_of_iff (a = b) (by simp)
  | array xs, array ys =>
      haveI := decEqItems xs ys
      decidable_of_iff (xs = ys) (by simp)
  | object xs, object ys =>
      haveI := decEqMembers xs ys
      decidable_of_iff (xs = ys) (by simp)
  | null, bool _ | null, number _ | null, string _ | null, array _ | null, object _
  | bool _, null | bool _, number _ | bool _, string _ | bool _, array _ | bool _, object _
  | number _, null | number _, bool _ | number _, string _ | number _, array _
  | number _, object _ | string _, null | string _, bool _ | string _, number _
  | string _, array _ | string _, object _ | array _, null | array _, bool _
  | array _, number _ | array _, string _ | array _, object _ | object _, null
  | object _, bool _ | object _, number _ | object _, string _ | object _, array _ =>
      isFalse (by simp)

/-- Equality of item lists is decidable. -/
def decEqItems : (xs ys : List Json) → Decidable (xs = ys)
  | [], [] => isTrue rfl
  | x :: xs, y :: ys =>
      haveI := decEq x y
      haveI := decEqItems xs ys
      decidable_of_iff (x = y ∧ xs = ys) (by simp)
  | [], _ :: _ | _ :: _, [] => isFalse (by simp)

/-- Equality of member lists is decidable. -/
def decEqMembers : (xs ys : List (String × Json)) → Decidable (xs = ys)
  | [], [] => isTrue rfl
  | (k, v) :: xs, (l, w) :: ys =>
      haveI := decEq v w
      haveI := decEqMembers xs ys
      decidable_of_iff ((k = l ∧ v = w) ∧ xs = ys) (by simp)
  | [], _ :: _ | _ :: _, [] => isFalse (by simp)
end

instance : DecidableEq Json := decEq

/-! ### Accessors -/

/-- The members of an object, the last of each key. -/
def asObject : Json → Option (FiniteMap String Json)
  | object ms => some (mapOfMembers ms)
  | _ => none

/-- The items of an array. -/
def asArray : Json → Option (List Json)
  | array xs => some xs
  | _ => none

/-- The text of a string. -/
def asStr : Json → Option String
  | string s => some s
  | _ => none

/-- The value under a key; nothing when the value is not an object. -/
def get (v : Json) (key : String) : Option Json := v.asObject.bind fun m => m[key]?

/-- The object with the members of a map, listed by key. -/
def ofMap (m : FiniteMap String Json) : Json := object m.toList

@[simp] theorem asObject_ofMap (m : FiniteMap String Json) : (ofMap m).asObject = some m := by
  simp [ofMap, asObject]

@[simp] theorem get_ofMap (m : FiniteMap String Json) (key : String) :
    (ofMap m).get key = m[key]? := by
  simp [get]

/-- An object is determined by its members. -/
@[simp] theorem ofMap_inj {m n : FiniteMap String Json} : ofMap m = ofMap n ↔ m = n := by
  refine ⟨?_, ?_⟩
  · intro h
    have hobj := congrArg asObject h
    simpa using hobj
  · rintro rfl; rfl

/-- Two objects given by maps are equal when they agree on every key. -/
theorem ofMap_eq_iff (m n : FiniteMap String Json) :
    ofMap m = ofMap n ↔ ∀ key : String, (ofMap m).get key = (ofMap n).get key := by
  refine ⟨?_, ?_⟩
  · intro h key
    rw [h]
  · intro h
    rw [ofMap_inj]
    apply FiniteMap.ext
    simpa using h

/-! ### The denoted value -/

mutual
/-- The value a document denotes: of members with the same key the last one counts, and
    members are listed by key. -/
def canonical : Json → Json
  | array xs => array (canonicalItems xs)
  | object ms => ofMap (mapOfMembers (canonicalMembers ms))
  | null => null
  | bool b => bool b
  | number n => number n
  | string s => string s

/-- `canonical` on every item. -/
def canonicalItems : List Json → List Json
  | [] => []
  | x :: xs => x.canonical :: canonicalItems xs

/-- `canonical` on every member's value. -/
def canonicalMembers : List (String × Json) → List (String × Json)
  | [] => []
  | (k, v) :: ms => (k, v.canonical) :: canonicalMembers ms
end

theorem canonicalItems_eq_map (xs : List Json) : canonicalItems xs = xs.map canonical := by
  induction xs with
  | nil => rfl
  | cons x xs ih => simp [canonicalItems, ih]

theorem canonicalMembers_eq_map (ms : List (String × Json)) :
    canonicalMembers ms = ms.map fun p => (p.1, p.2.canonical) := by
  induction ms with
  | nil => rfl
  | cons p ms ih => simp [canonicalMembers, ih]

@[simp] theorem canonical_array (xs : List Json) :
    (array xs).canonical = array (xs.map canonical) := by
  simp only [canonical, canonicalItems_eq_map]

/-- The value of an object: its members with the values they denote. -/
@[simp] theorem canonical_object (ms : List (String × Json)) :
    (object ms).canonical = ofMap ((mapOfMembers ms).map fun _ v => v.canonical) := by
  simp only [canonical, canonicalMembers_eq_map, mapOfMembers_map]

@[simp] theorem canonical_ofMap (m : FiniteMap String Json) :
    (ofMap m).canonical = ofMap (m.map fun _ v => v.canonical) := by
  rw [ofMap, canonical_object, mapOfMembers_toList]

/-- The members of the denoted value. -/
theorem get_canonical (v : Json) (key : String) :
    v.canonical.get key = (v.get key).map canonical := by
  cases v with
  | object ms =>
    rw [canonical_object, get_ofMap, Std.ExtTreeMap.getElem?_map]
    rfl
  | array xs => rw [canonical_array]; rfl
  | _ => rfl

/-- Induction over documents: a property of scalars that passes from the items to an
    array and from the member values to an object holds of every document. -/
@[elab_as_elim]
theorem ind {P : Json → Prop} (hnull : P null) (hbool : ∀ b, P (bool b))
    (hnumber : ∀ n, P (number n)) (hstring : ∀ s, P (string s))
    (harray : ∀ xs, (∀ x ∈ xs, P x) → P (array xs))
    (hobject : ∀ ms, (∀ p ∈ ms, P p.2) → P (object ms)) (v : Json) : P v := by
  refine @Json.rec P (fun xs => ∀ x ∈ xs, P x) (fun ms => ∀ p ∈ ms, P p.2) (fun p => P p.2)
    hnull hbool hnumber hstring harray hobject ?_ ?_ ?_ ?_ ?_ v
  · simp
  · intro x xs hx hxs
    simpa using ⟨hx, hxs⟩
  · simp
  · intro p ms hp hms
    rw [List.forall_mem_cons]
    exact ⟨hp, hms⟩
  · intro k v hv
    exact hv

/-- A denoted value is in canonical form. -/
@[simp] theorem canonical_canonical (v : Json) : v.canonical.canonical = v.canonical := by
  induction v using Json.ind with
  | hnull | hbool | hnumber | hstring => rfl
  | harray xs ih => simpa using ih
  | hobject ms ih =>
    rw [canonical_object, canonical_ofMap, ofMap_inj]
    apply FiniteMap.ext
    intro k
    simp only [Std.ExtTreeMap.getElem?_map, Option.map_map]
    cases hk : (mapOfMembers ms)[k]? with
    | none => rfl
    | some w => simpa using ih (k, w) (mem_of_getElem?_mapOfMembers hk)

/-- A value as a decoder holds it: in canonical form. -/
abbrev Value := { v : Json // v.canonical = v }

/-- The value a document denotes. -/
def value (doc : Json) : Value := ⟨doc.canonical, canonical_canonical doc⟩

/-- A value denotes itself. -/
@[simp] theorem value_val (v : Value) : v.val.value = v := Subtype.ext v.property

/-! ### Nesting depth -/

mutual
/-- How deeply arrays and objects are nested; scalars have depth 0. -/
def depth : Json → Nat
  | array xs => depthItems xs + 1
  | object ms => depthMembers ms + 1
  | null => 0
  | bool _ => 0
  | number _ => 0
  | string _ => 0

/-- The depth of the deepest item. -/
def depthItems : List Json → Nat
  | [] => 0
  | x :: xs => max x.depth (depthItems xs)

/-- The depth of the deepest member value. -/
def depthMembers : List (String × Json) → Nat
  | [] => 0
  | (_, v) :: ms => max v.depth (depthMembers ms)
end

theorem depthItems_le_iff (xs : List Json) (n : Nat) :
    depthItems xs ≤ n ↔ ∀ x ∈ xs, x.depth ≤ n := by
  induction xs with
  | nil => simp [depthItems]
  | cons x xs ih => simp [depthItems, ih]

theorem depthMembers_le_iff (ms : List (String × Json)) (n : Nat) :
    depthMembers ms ≤ n ↔ ∀ p ∈ ms, p.2.depth ≤ n := by
  induction ms with
  | nil => simp [depthMembers]
  | cons p ms ih => simp [depthMembers, ih]

theorem depth_array_le_iff (xs : List Json) (n : Nat) :
    (array xs).depth ≤ n + 1 ↔ ∀ x ∈ xs, x.depth ≤ n := by
  rw [depth, Nat.add_le_add_iff_right, depthItems_le_iff]

theorem depth_object_le_iff (ms : List (String × Json)) (n : Nat) :
    (object ms).depth ≤ n + 1 ↔ ∀ p ∈ ms, p.2.depth ≤ n := by
  rw [depth, Nat.add_le_add_iff_right, depthMembers_le_iff]

/-- The depth of an object given by a map is bounded by the depths of its values. -/
theorem depth_ofMap_le_iff (m : FiniteMap String Json) (n : Nat) :
    (ofMap m).depth ≤ n + 1 ↔ ∀ (k : String) (v : Json), m[k]? = some v → v.depth ≤ n := by
  rw [ofMap, depth_object_le_iff]
  refine ⟨?_, ?_⟩
  · intro h k v hk
    exact h (k, v) (Std.ExtTreeMap.mem_toList_iff_getElem?_eq_some.mpr hk)
  · rintro h ⟨k, v⟩ hmem
    exact h k v (Std.ExtTreeMap.mem_toList_iff_getElem?_eq_some.mp hmem)

/-- The denoted value is nested no deeper than the document. -/
theorem depth_canonical_le (v : Json) : v.canonical.depth ≤ v.depth := by
  induction v using Json.ind with
  | hnull | hbool | hnumber | hstring => exact le_refl _
  | harray xs ih =>
    rw [canonical_array, show (array xs).depth = depthItems xs + 1 by rw [depth],
      depth_array_le_iff]
    intro x hx
    obtain ⟨y, hy, rfl⟩ := List.mem_map.mp hx
    exact le_trans (ih y hy) ((depthItems_le_iff xs _).mp le_rfl y hy)
  | hobject ms ih =>
    rw [canonical_object, show (object ms).depth = depthMembers ms + 1 by rw [depth],
      depth_ofMap_le_iff]
    intro k v hk
    rw [Std.ExtTreeMap.getElem?_map, Option.map_eq_some_iff] at hk
    obtain ⟨w, hw, rfl⟩ := hk
    have hmem := mem_of_getElem?_mapOfMembers hw
    exact le_trans (ih (k, w) hmem) ((depthMembers_le_iff ms _).mp le_rfl (k, w) hmem)

end Json

end AgentTermStatus.Lib
