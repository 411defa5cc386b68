import AgentTermStatus.Lib.Json
import AgentTermStatus.Lib.Text

namespace AgentTermStatus.Lib

/-!
# Records in YAML

A YAML document is a scalar, a sequence or a mapping with texts as keys.  What a scalar says is
up to who reads it: `24` is a number or a text, `null` a text or no value.  So a reader of scalars
is a parameter (`ScalarReader`), as is a writer (`ScalarWriter`).

Like a derived decoder, `members` reads a record from a mapping that names only its fields, each
at most once, and `field` gives a missing field its default.

A `Leaf` is a place in a record of records, with the path to it in a document.  It is read as it
should be (`Leaf.Ok`) if it has the given value when the document mentions it, and the value of
the default record otherwise.  That depends on the defaults the decoder uses: on that of a section
where the section is missing (`ok_under_iff`), on that of the leaf where the leaf is missing
(`ok_here_iff`).
-/

/-- A YAML document. -/
inductive Yaml (σ : Type)
  | scalar (s : σ)
  | sequence (items : List (Yaml σ))
  | mapping (members : List (String × Yaml σ))

/-- How scalars are read. -/
structure ScalarReader (σ : Type) where
  /-- A truth value. -/
  bool : σ → Option Bool
  /-- A number of 32 bits. -/
  u32 : σ → Option UInt32
  /-- A text. -/
  string : σ → Option String
  /-- A text, of a scalar that was kept for later when its type was not known. -/
  keptString : σ → Option String
  /-- The name of a variant. -/
  variant : σ → Option String
  /-- Does the scalar stand for no value? -/
  isNull : σ → Bool
  /-- Is the scalar read as an empty collection where a collection is expected? -/
  isEmpty : σ → Bool

/-- How scalars are written. -/
structure ScalarWriter (σ : Type) where
  bool : Bool → σ
  u32 : UInt32 → σ
  string : String → σ
  null : σ

/-- Every scalar that is written is read back. -/
structure ScalarReader.Inverts {σ : Type} (r : ScalarReader σ) (w : ScalarWriter σ) : Prop where
  bool : ∀ b, r.bool (w.bool b) = some b
  u32 : ∀ n, r.u32 (w.u32 n) = some n
  string : ∀ s, r.string (w.string s) = some s
  keptString : ∀ s, r.keptString (w.string s) = some s
  variant : ∀ s, r.variant (w.string s) = some s
  isNull_string : ∀ s, r.isNull (w.string s) = false
  isNull_null : r.isNull w.null = true

namespace Yaml
variable {σ : Type}

/-- The value under a key. -/
def get (doc : Yaml σ) (key : String) : Option (Yaml σ) :=
  match doc with
  | mapping ms => ms.lookup key
  | _          => none

/-- The value at the end of a path of keys. -/
def find (doc : Yaml σ) : List String → Option (Yaml σ)
  | []          => some doc
  | key :: path => (doc.get key).bind fun v => v.find path

/-- Is there a value at the end of the path? -/
def mentions (doc : Yaml σ) (path : List String) : Bool := (doc.find path).isSome

/-- Where the document mentions the path, it mentions what the path continues to. -/
def Completes (doc : Yaml σ) (path : List String) (rest : List (List String)) : Prop :=
  doc.mentions path = true → ∀ p ∈ rest, doc.mentions (path ++ p) = true

theorem mentions_cons (doc : Yaml σ) (key : String) (path : List String) :
    doc.mentions (key :: path) = (doc.get key).any fun v => v.mentions path := by
  rw [mentions, find]
  cases doc.get key <;> rfl

theorem completes_nil (doc : Yaml σ) (rest : List (List String)) :
    doc.Completes [] rest ↔ ∀ p ∈ rest, doc.mentions p = true :=
  ⟨fun h => h rfl, fun h _ => h⟩

/-- A document completes a path exactly if what it has under the first key does. -/
theorem completes_cons (doc : Yaml σ) (key : String) (path : List String)
    (rest : List (List String)) :
    doc.Completes (key :: path) rest ↔ ∀ v, doc.get key = some v → v.Completes path rest := by
  simp only [Completes, List.cons_append, mentions_cons]
  cases doc.get key <;> simp

/-- A field that takes a default value when it is missing. -/
def field {α : Type} (ms : List (String × Yaml σ)) (key : String) (default : α)
    (read : Yaml σ → Option α) : Option α :=
  match ms.lookup key with
  | none   => some default
  | some v => read v

end Yaml

/-! ### Reading -/

namespace ScalarReader
variable {σ α : Type} (r : ScalarReader σ)

/-- The members of a record with the given fields. -/
def members (fields : List String) : Yaml σ → Option (List (String × Yaml σ))
  | .mapping ms =>
      if (∀ p ∈ ms, p.1 ∈ fields) ∧ (ms.map Prod.fst).Nodup then some ms else none
  | .scalar s   => if r.isEmpty s then some [] else none
  | .sequence _ => none

/-- A scalar. -/
def readScalar (read : σ → Option α) : Yaml σ → Option α
  | .scalar s => read s
  | _         => none

/-- An optional value. -/
def readOption (read : Yaml σ → Option α) : Yaml σ → Option (Option α)
  | .scalar s => if r.isNull s then some none else (read (.scalar s)).map some
  | v         => (read v).map some

/-- A list of values. -/
def readList (read : Yaml σ → Option α) : Yaml σ → Option (List α)
  | .sequence items => items.mapM read
  | .scalar s       => if r.isEmpty s then some [] else none
  | .mapping _      => none

/-- A variant without data, by the names of the variants. -/
def readVariant (variants : List α) (name : α → String) : Yaml σ → Option α :=
  readScalar fun s => (r.variant s).bind fun n => variants.find? fun a => name a = n

/-- A record that was read is a mapping with its members, or an empty one. -/
theorem lookup_members {fields : List String} {doc : Yaml σ} {ms : List (String × Yaml σ)}
    (h : r.members fields doc = some ms) (key : String) : ms.lookup key = doc.get key := by
  cases doc with
  | mapping ns =>
    obtain ⟨-, hms⟩ := Option.ite_none_right_eq_some.mp h
    rw [← Option.some.inj hms]
    rfl
  | scalar s =>
    obtain ⟨-, hms⟩ := Option.ite_none_right_eq_some.mp h
    rw [← Option.some.inj hms]
    rfl
  | sequence items => exact absurd h (by simp [members])

/-- A mapping with some of the fields of the record, in order, is read. -/
theorem members_mapping {fields : List String} {ms : List (String × Yaml σ)}
    (hfields : (ms.map Prod.fst).Sublist fields) (hnd : fields.Nodup) :
    r.members fields (.mapping ms) = some ms :=
  if_pos ⟨fun _ hp => hfields.subset (List.mem_map_of_mem hp), hnd.sublist hfields⟩

/-- The value of a field can be read. -/
def Readable (read : Yaml σ → Option α) (doc : Yaml σ) : Prop := (read doc).isSome

/-- A mapping that sets some of the fields of a record, each at most once, to valid values. -/
def ValidRecord (fields : List (String × (Yaml σ → Prop))) (doc : Yaml σ) : Prop :=
  (r.members (fields.map Prod.fst) doc).isSome ∧
    ∀ p ∈ fields, ∀ v, doc.get p.1 = some v → p.2 v

/-- What goes on after a valid record was opened. -/
theorem ValidRecord.isSome_open {β : Type} {fields : List (String × (Yaml σ → Prop))}
    {doc : Yaml σ} (h : r.ValidRecord fields doc) {f : List (String × Yaml σ) → Option β}
    (hf : ∀ ms, r.members (fields.map Prod.fst) doc = some ms → (f ms).isSome) :
    (r.members (fields.map Prod.fst) doc >>= f).isSome := by
  obtain ⟨ms, hms⟩ := Option.isSome_iff_exists.mp h.1
  rw [hms]
  exact hf ms hms

/-- What goes on after a section of a valid record: every valid section is read. -/
theorem ValidRecord.isSome_section {β : Type} {fields : List (String × (Yaml σ → Prop))}
    {doc : Yaml σ} {ms : List (String × Yaml σ)} (h : r.ValidRecord fields doc)
    (hms : r.members (fields.map Prod.fst) doc = some ms) {valid : Yaml σ → Prop}
    {read : Yaml σ → Option α} (hread : ∀ v, valid v → (read v).isSome) {key : String}
    (hkey : (key, valid) ∈ fields) {default : α} {f : α → Option β} (hf : ∀ a, (f a).isSome) :
    (Yaml.field ms key default read >>= f).isSome := by
  have hlookup := r.lookup_members hms key
  unfold Yaml.field
  cases hv : ms.lookup key with
  | none => exact hf default
  | some v =>
    obtain ⟨a, ha⟩ := Option.isSome_iff_exists.mp (hread v (h.2 _ hkey v (hlookup ▸ hv)))
    simp only [ha]
    exact hf a

/-- What goes on after a leaf of a valid record. -/
theorem ValidRecord.isSome_leaf {β : Type} {fields : List (String × (Yaml σ → Prop))}
    {doc : Yaml σ} {ms : List (String × Yaml σ)} (h : r.ValidRecord fields doc)
    (hms : r.members (fields.map Prod.fst) doc = some ms) {read : Yaml σ → Option α} {key : String}
    (hkey : (key, Readable read) ∈ fields) {default : α} {f : α → Option β}
    (hf : ∀ a, (f a).isSome) : (Yaml.field ms key default read >>= f).isSome :=
  h.isSome_section r hms (fun _ hv => hv) hkey hf

end ScalarReader

/-! ### Writing -/

namespace ScalarWriter
variable {σ α : Type} (w : ScalarWriter σ)

/-- An optional value, written. -/
def writeOption (write : α → Yaml σ) : Option α → Yaml σ
  | none   => .scalar w.null
  | some a => write a

variable {w} {r : ScalarReader σ}

/-- An optional text is read back, whichever way its text is read. -/
theorem readOption_writeOption (h : r.Inverts w) {read : σ → Option String}
    (hread : ∀ s, read (w.string s) = some s) (o : Option String) :
    r.readOption (ScalarReader.readScalar read)
      (w.writeOption (fun s => .scalar (w.string s)) o) = some o := by
  cases o with
  | none => exact if_pos h.isNull_null
  | some s =>
    have hnull : ¬ r.isNull (w.string s) = true := by simp [h.isNull_string]
    refine (if_neg hnull).trans ?_
    rw [ScalarReader.readScalar, hread, Option.map_some]

/-- A list of values is read back if its values are. -/
theorem readList_map {read : Yaml σ → Option α} {write : α → Yaml σ}
    (h : ∀ a, read (write a) = some a) (as : List α) :
    r.readList read (.sequence (as.map write)) = some as := by
  show (as.map write).mapM read = some as
  induction as with
  | nil => rfl
  | cons a as ih => simp [h, ih]

/-- The name of a variant is read back. -/
theorem readVariant_writeName (h : r.Inverts w) {variants : List α} {name : α → String}
    {a : α} (hfind : variants.find? (fun b => name b = name a) = some a) :
    r.readVariant variants name (.scalar (w.string (name a))) = some a := by
  rw [ScalarReader.readVariant, ScalarReader.readScalar, h.variant, Option.bind_some, hfind]

end ScalarWriter

/-! ### Leaves of records -/

/-- A place in a record, with its path in a document and how it is read there. -/
structure Leaf (σ C : Type) where
  path : List String
  type : Type
  read : Yaml σ → Option type
  get : C → type

namespace Leaf
variable {σ C S : Type}

/-- A field of the record. -/
def here {α : Type} (key : String) (read : Yaml σ → Option α) (get : C → α) : Leaf σ C where
  path := [key]
  type := α
  read := read
  get := get

/-- A leaf of a section, as a leaf of the record. -/
def under (key : String) (part : C → S) (l : Leaf σ S) : Leaf σ C where
  path := key :: l.path
  type := l.type
  read := l.read
  get := fun c => l.get (part c)

/-- What a document mentions has the given value, and what it does not mention has the value of
    the default record. -/
structure Ok (l : Leaf σ C) (doc : Yaml σ) (default c : C) : Prop where
  given : ∀ v, doc.find l.path = some v → l.read v = some (l.get c)
  missing : doc.find l.path = none → l.get c = l.get default

/-- **A leaf of a section** is read as it should be exactly if it is so in the section, where the
    section is mentioned, and it has the same value in the default section of the decoder and in
    that of the default record, where it is not. -/
theorem ok_under_iff {ms : List (String × Yaml σ)} {doc : Yaml σ} {key : String} {own : S}
    {read : Yaml σ → Option S} {part : C → S} {default c : C}
    (hms : ms.lookup key = doc.get key) (h : Yaml.field ms key own read = some (part c))
    (l : Leaf σ S) :
    (l.under key part).Ok doc default c ↔
      (∀ v, doc.get key = some v → l.Ok v (part default) (part c)) ∧
        (doc.get key = none → l.get own = l.get (part default)) := by
  unfold Yaml.field at h
  rw [hms] at h
  cases hv : doc.get key with
  | none =>
    -- the section is the one the decoder puts in its place
    rw [hv] at h
    have hfind : doc.find (l.under key part).path = none := by
      rw [under, Yaml.find, hv, Option.bind_none]
    have hget : l.get own = l.get (part c) := congrArg l.get (Option.some.inj h)
    refine ⟨fun hok => ⟨by simp, fun _ => hget.trans (hok.missing hfind)⟩, ?_⟩
    rintro ⟨-, hown⟩
    refine ⟨fun v hfound => ?_, fun _ => hget.symm.trans (hown rfl)⟩
    rw [hfind] at hfound
    exact absurd hfound (by simp)
  | some v =>
    have hfind : doc.find (l.under key part).path = v.find l.path := by
      rw [under, Yaml.find, hv, Option.bind_some]
    refine ⟨fun hok => ⟨?_, by simp⟩, ?_⟩
    · intro w hw
      obtain rfl := Option.some.inj hw
      exact ⟨fun u hu => hok.given u (hfind.trans hu), fun hu => hok.missing (hfind.trans hu)⟩
    · rintro ⟨hok, -⟩
      exact ⟨fun u hu => (hok v rfl).given u (hfind.symm.trans hu),
        fun hu => (hok v rfl).missing (hfind.symm.trans hu)⟩

/-- **A field with a default of its own** is read as it should be exactly if that is the value of
    the default record, or the field is mentioned. -/
theorem ok_here_iff {α : Type} {ms : List (String × Yaml σ)} {doc : Yaml σ} {key : String}
    {own : α} {read : Yaml σ → Option α} {get : C → α} {default c : C}
    (hms : ms.lookup key = doc.get key) (h : Yaml.field ms key own read = some (get c)) :
    (here key read get).Ok doc default c ↔ (doc.get key = none → own = get default) := by
  have hfind : doc.find (here key read get).path = doc.get key := by
    rw [here, Yaml.find]
    cases doc.get key <;> rfl
  unfold Yaml.field at h
  rw [hms] at h
  cases hv : doc.get key with
  | none =>
    rw [hv] at h
    have hown : own = get c := Option.some.inj h
    refine ⟨fun hok _ => hown.trans (hok.missing (hfind.trans hv)), fun heq => ?_⟩
    refine ⟨fun v hfound => ?_, fun _ => hown.symm.trans (heq rfl)⟩
    rw [hfind, hv] at hfound
    exact absurd hfound (by simp)
  | some v =>
    rw [hv] at h
    refine iff_of_true ⟨fun w hw => ?_, fun hnone => ?_⟩ (by simp)
    · rw [hfind, hv, Option.some.injEq] at hw
      rw [← hw]
      exact h
    · rw [hfind, hv] at hnone
      exact absurd hnone (by simp)

/-- A field with the default of the default record is read as it should be. -/
theorem ok_here {α : Type} {ms : List (String × Yaml σ)} {doc : Yaml σ} {key : String}
    {read : Yaml σ → Option α} {get : C → α} {default c : C}
    (hms : ms.lookup key = doc.get key)
    (h : Yaml.field ms key (get default) read = some (get c)) :
    (here key read get).Ok doc default c :=
  (ok_here_iff hms h).mpr fun _ => rfl

/-- A field with another default is read as it should be exactly if it is mentioned. -/
theorem ok_here_iff_mentions {α : Type} {ms : List (String × Yaml σ)} {doc : Yaml σ} {key : String}
    {own : α} {read : Yaml σ → Option α} {get : C → α} {default c : C}
    (hms : ms.lookup key = doc.get key) (h : Yaml.field ms key own read = some (get c))
    (hne : own ≠ get default) :
    (here key read get).Ok doc default c ↔ doc.mentions [key] = true := by
  rw [ok_here_iff hms h, Yaml.mentions_cons]
  cases doc.get key with
  | none => simp [hne]
  | some v => simp [Yaml.mentions, Yaml.find]

/-- What it takes to read the leaves of a section, with the default of the default record, as they
    should be, it takes where the section is mentioned. -/
theorem forall_under_iff {ms : List (String × Yaml σ)} {doc : Yaml σ} {key : String}
    {read : Yaml σ → Option S} {part : C → S} {default c : C} {ls : List (Leaf σ S)}
    {P : Yaml σ → Prop} (hms : ms.lookup key = doc.get key)
    (h : Yaml.field ms key (part default) read = some (part c))
    (hread : ∀ v s, read v = some s → ((∀ l ∈ ls, l.Ok v (part default) s) ↔ P v)) :
    (∀ l ∈ ls.map (under key part), l.Ok doc default c) ↔ ∀ v, doc.get key = some v → P v := by
  have hgiven : ∀ v, doc.get key = some v → read v = some (part c) := by
    intro v hv
    unfold Yaml.field at h
    rw [hms, hv] at h
    exact h
  simp only [List.forall_mem_map, ok_under_iff hms h]
  refine ⟨fun hall v hv => ?_, fun hall l hl => ⟨fun v hv => ?_, fun _ => trivial⟩⟩
  · exact (hread v _ (hgiven v hv)).mp fun l hl => (hall l hl).1 v hv
  · exact (hread v _ (hgiven v hv)).mpr (hall v hv) l hl

/-- Leaves that are always read as they should be are so in a section. -/
theorem forall_under {ms : List (String × Yaml σ)} {doc : Yaml σ} {key : String}
    {read : Yaml σ → Option S} {part : C → S} {default c : C} {ls : List (Leaf σ S)}
    (hms : ms.lookup key = doc.get key)
    (h : Yaml.field ms key (part default) read = some (part c))
    (hread : ∀ v s, read v = some s → ∀ l ∈ ls, l.Ok v (part default) s) :
    ∀ l ∈ ls.map (under key part), l.Ok doc default c :=
  (forall_under_iff (P := fun _ => True) hms h fun v s hv => iff_of_true (hread v s hv) trivial).mpr
    fun _ _ => trivial

end Leaf

/-! ### Scalars as texts -/

/-- A scalar as it is written. -/
inductive ScalarText
  | plain (s : String)
  | quoted (s : String)
  deriving DecidableEq

namespace ScalarText

/-- The text of a scalar. -/
def text : ScalarText → String
  | plain s  => s
  | quoted s => s

/-- A truth value, in the core schema. -/
def asBool : ScalarText → Option Bool
  | plain s =>
      if s = "true" || s = "True" || s = "TRUE" then some true
      else if s = "false" || s = "False" || s = "FALSE" then some false
      else none
  | quoted _ => none

/-- No value, in the core schema. -/
def isNull : ScalarText → Bool
  | plain s  => s = "null" || s = "Null" || s = "NULL" || s = "~" || s = ""
  | quoted _ => false

/-- A decimal number. -/
def asU32 : ScalarText → Option UInt32
  | plain s  => (parseU32 s.toList).map UInt32.ofNat
  | quoted _ => none

/-- Scalars, read by their texts. -/
def reader : ScalarReader ScalarText where
  bool := asBool
  u32 := asU32
  string := fun s => some s.text
  keptString := fun s => if s.isNull || s.asBool.isSome || s.asU32.isSome then none else some s.text
  variant := fun s => some s.text
  isNull := isNull
  isEmpty := fun s => s = plain ""

/-- Scalars, written so that they read back: texts are quoted. -/
def writer : ScalarWriter ScalarText where
  bool := fun b => plain (if b then "true" else "false")
  u32 := fun n => plain (toString n.toNat)
  string := quoted
  null := plain "null"

/-- What is written is read back. -/
theorem reader_inverts : reader.Inverts writer where
  bool := fun b => by cases b <;> decide
  u32 := fun n => by
    have hdigits : (toString n.toNat).toList = Nat.toDigits 10 n.toNat := by
      rw [Nat.toString_eq_ofList_toDigits, String.toList_ofList]
    show (parseU32 (toString n.toNat).toList).map UInt32.ofNat = some n
    rw [hdigits, parseU32_toDigits n.toNat_lt, Option.map_some, UInt32.ofNat_toNat]
  string := fun _ => rfl
  keptString := fun _ => rfl
  variant := fun _ => rfl
  isNull_string := fun _ => rfl
  isNull_null := rfl

end ScalarText

end AgentTermStatus.Lib
