import AgentTermStatus.Core

namespace AgentTermStatus

open Lib

/-!
# The settings file of Claude, decoded and encoded

`decodeSettings` says which documents deserialize as `ClaudeSettings` and to what: the hooks,
by hook name, the list of managed hooks, and every other top-level key as it is.
`settingsWithHooks` is the value written back.  It forgets the list of managed hooks and an
empty hook map, and nothing else (`decodeSettings_settingsWithHooks`).

A settings file is taken for the document that `serde_json` reads in it, and the text of a value
that is written for one in which that value is read.  The second holds but for numbers beyond 64
bits and some floating-point numbers.
-/

/-- The decoded settings. -/
structure ClaudeSettings where
  hooks : FiniteMap String (List Json)
  atsManaged : List String
  extra : FiniteMap String Json

/-- What is used in place of a document that does not deserialize. -/
def ClaudeSettings.default : ClaudeSettings := ⟨∅, [], ∅⟩

/-- The keys with a field of their own. -/
def settingsFields : List String := ["hooks", "_ats_managed"]

/-- A field: `default` when it is missing; naming it twice is an error. -/
def decodeField {α : Type} (ms : List (String × Json)) (key : String) (default : α)
    (decode : Json → Option α) : Option α :=
  if (ms.map Prod.fst).count key > 1 then none
  else
    match (mapOfMembers ms)[key]? with
    | none   => some default
    | some v => decode v

/-- The hooks: an object of arrays. -/
def decodeHooks : Json → Option (FiniteMap String (List Json))
  | .object ms =>
      if ms.all fun p => p.2.asArray.isSome then
        some ((mapOfMembers ms).map fun _ v => (v.asArray.getD []).map Json.canonical)
      else none
  | _ => none

/-- The managed hooks: an array of strings. -/
def decodeManaged (v : Json) : Option (List String) := v.asArray.bind fun xs => xs.mapM Json.asStr

/-- The settings a document deserializes to. -/
def decodeSettings (doc : Json) : Option ClaudeSettings :=
  if doc.depth < recursionLimit then
    match doc with
    | .object ms =>
      match decodeField ms "hooks" ∅ decodeHooks,
          decodeField ms "_ats_managed" [] decodeManaged with
      | some hooks, some atsManaged =>
          some { hooks, atsManaged
                 extra := ((mapOfMembers ms).filter fun k _ => k ∉ settingsFields).map
                   fun _ v => v.canonical }
      | _, _ => none
    | _ => none
  else none

/-- The value of the hooks. -/
def hooksValue (hooks : FiniteMap String (List Json)) : Json :=
  .ofMap (hooks.map fun _ entries => .array entries)

/-- The value written back. -/
def settingsWithHooks (s : ClaudeSettings) : Json :=
  .ofMap (if s.hooks.isEmpty then s.extra else s.extra.insert "hooks" (hooksValue s.hooks))

/-! ### What decoding gives -/

/-- The list of a hook in a document, if it has one. -/
def hookList (doc : Json) (name : String) : Option (List Json) :=
  (((doc.get "hooks").map Json.canonical).bind fun v => v.get name).bind Json.asArray

/-- The entries of a hook in a document, as values. -/
def hookEntries (doc : Json) (name : String) : List Json :=
  ((((doc.get "hooks").map Json.canonical).bind fun v => v.get name).bind Json.asArray).getD []

/-- How decoded settings stand to their document. -/
structure Decodes (doc : Json) (s : ClaudeSettings) : Prop where
  /-- The document is an object. -/
  object : doc.canonical = .ofMap ((doc.asObject.getD ∅).map fun _ v => v.canonical)
  /-- Every other key is kept. -/
  extra : ∀ key : String, s.extra[key]? =
    if key ∈ settingsFields then none else (doc.get key).map Json.canonical
  /-- The hooks are those of the document, which may not name them. -/
  hooks : (doc.get "hooks").map Json.canonical = some (hooksValue s.hooks) ∨
    doc.get "hooks" = none ∧ s.hooks = ∅
  /-- The document is not nested too deeply. -/
  depth : doc.depth < recursionLimit

/-- A field that was decoded was missing, or decoded from its value. -/
theorem decodeField_eq_some {α : Type} {ms : List (String × Json)} {key : String} {default : α}
    {decode : Json → Option α} {a : α} (h : decodeField ms key default decode = some a) :
    ((mapOfMembers ms)[key]? = none ∧ a = default) ∨
      ∃ v, (mapOfMembers ms)[key]? = some v ∧ decode v = some a := by
  unfold decodeField at h
  split at h
  · exact absurd h (by simp)
  · split at h
    · next hnone => exact Or.inl ⟨hnone, (Option.some.inj h).symm⟩
    · next v hsome => exact Or.inr ⟨v, hsome, h⟩

/-- Decoded hooks have the value of their document. -/
theorem canonical_of_decodeHooks {v : Json} {hooks : FiniteMap String (List Json)}
    (h : decodeHooks v = some hooks) : v.canonical = hooksValue hooks := by
  cases v with
  | object ms =>
    simp only [decodeHooks] at h
    split at h
    · next hall =>
      obtain rfl := Option.some.inj h
      rw [Json.canonical_object, hooksValue, Json.ofMap_inj]
      apply FiniteMap.ext
      intro name
      simp only [Std.ExtTreeMap.getElem?_map, Option.map_map]
      cases hget : (mapOfMembers ms)[name]? with
      | none => rfl
      | some v =>
        -- every member is an array
        have harr := List.all_eq_true.mp hall (name, v) (mem_of_getElem?_mapOfMembers hget)
        cases v with
        | array xs => simp [Json.asArray]
        | _ => simp [Json.asArray] at harr
    · exact absurd h (by simp)
  | _ => exact absurd h (by simp [decodeHooks])

/-- **What decoding gives.** -/
theorem decodes_of_decodeSettings {doc : Json} {s : ClaudeSettings}
    (h : decodeSettings doc = some s) : Decodes doc s := by
  unfold decodeSettings at h
  split at h
  · next hdepth =>
    cases doc with
    | object ms =>
      simp only at h
      split at h
      · next hooks managed hhooks hmanaged =>
        obtain rfl := Option.some.inj h
        refine ⟨by simp [Json.asObject], fun key => ?_, ?_, hdepth⟩
        · -- any other key is kept as it is
          simp only [Std.ExtTreeMap.getElem?_map, Std.ExtTreeMap.getElem?_filter']
          show Option.map _ (Option.filter _ ((mapOfMembers ms)[key]?))
            = if _ then none else Option.map _ ((mapOfMembers ms)[key]?)
          by_cases hkey : key ∈ settingsFields <;>
            cases (mapOfMembers ms)[key]? <;> simp [hkey]
        · show ((mapOfMembers ms)["hooks"]?).map _ = _ ∨ (mapOfMembers ms)["hooks"]? = none ∧ _
          rcases decodeField_eq_some hhooks with ⟨hnone, heq⟩ | ⟨v, hsome, hdecode⟩
          · exact Or.inr ⟨hnone, heq⟩
          · rw [hsome, Option.map_some, canonical_of_decodeHooks hdecode]
            exact Or.inl rfl
      · exact absurd h (by simp)
    | _ => exact absurd h (by simp)
  · exact absurd h (by simp)

/-- The lists of decoded settings are those of their document. -/
theorem Decodes.hookList_eq {doc : Json} {s : ClaudeSettings} (h : Decodes doc s) (name : String) :
    hookList doc name = s.hooks[name]? := by
  unfold hookList
  rcases h.hooks with hsome | ⟨hnone, hempty⟩
  · rw [hsome, Option.bind_some, hooksValue, Json.get_ofMap, Std.ExtTreeMap.getElem?_map]
    cases s.hooks[name]? <;> rfl
  · rw [hnone, hempty]
    simp

/-- The hook entries of decoded settings are those of the document. -/
theorem Decodes.hookEntries_eq {doc : Json} {s : ClaudeSettings} (h : Decodes doc s)
    (name : String) : hookEntries doc name = (s.hooks[name]?).getD [] := by
  rw [← h.hookList_eq name]
  rfl

/-! ### What encoding gives -/

/-- The value written back, key by key. -/
theorem get_settingsWithHooks (s : ClaudeSettings) (hhooks : s.extra["hooks"]? = none)
    (key : String) :
    (settingsWithHooks s).get key =
      if key = "hooks" then (if s.hooks = ∅ then none else some (hooksValue s.hooks))
      else s.extra[key]? := by
  unfold settingsWithHooks
  rw [Json.get_ofMap]
  by_cases hempty : s.hooks = ∅
  · rw [if_pos (Std.ExtTreeMap.isEmpty_iff.mpr hempty)]
    by_cases hkey : key = "hooks"
    · rw [if_pos hkey, if_pos hempty, hkey, hhooks]
    · rw [if_neg hkey]
  · rw [if_neg (by simpa [Std.ExtTreeMap.isEmpty_iff] using hempty),
      FiniteMap.getElem?_insert_if]
    by_cases hkey : key = "hooks"
    · rw [if_pos hkey.symm, if_pos hkey, if_neg hempty]
    · rw [if_neg (Ne.symm hkey), if_neg hkey]

/-! ### Encoding, then decoding -/

/-- Settings that hold values, in their fields, and nested little enough. -/
structure WellFormed (s : ClaudeSettings) : Prop where
  fields : ∀ key ∈ settingsFields, s.extra[key]? = none
  extraValues : ∀ (key : String) (v : Json), s.extra[key]? = some v →
    v.canonical = v ∧ v.depth + 1 < recursionLimit
  hookValues : ∀ (name : String) (es : List Json), s.hooks[name]? = some es →
    ∀ e ∈ es, e.canonical = e ∧ e.depth + 3 < recursionLimit

/-- The depth of the hooks is bounded by that of their entries. -/
theorem depth_hooksValue_le_iff (hooks : FiniteMap String (List Json)) (n : Nat) :
    (hooksValue hooks).depth ≤ n + 2 ↔
      ∀ (name : String) (es : List Json), hooks[name]? = some es → ∀ e ∈ es, e.depth ≤ n := by
  rw [hooksValue, Json.depth_ofMap_le_iff]
  simp only [Std.ExtTreeMap.getElem?_map, Option.map_eq_some_iff]
  refine ⟨?_, ?_⟩
  · intro h name es hes
    exact (Json.depth_array_le_iff es n).mp (h name _ ⟨es, hes, rfl⟩)
  · rintro h name v ⟨es, hes, rfl⟩
    exact (Json.depth_array_le_iff es n).mpr (h name es hes)

/-- The hooks are a value exactly when their entries are. -/
theorem canonical_hooksValue_iff (hooks : FiniteMap String (List Json)) :
    (hooksValue hooks).canonical = hooksValue hooks ↔
      ∀ (name : String) (es : List Json), hooks[name]? = some es → ∀ e ∈ es, e.canonical = e := by
  rw [hooksValue, Json.canonical_ofMap, Json.ofMap_inj]
  refine ⟨?_, ?_⟩
  · intro h name es hes e he
    have hname := congrArg (fun m : FiniteMap String Json => m[name]?) h
    simp only [Std.ExtTreeMap.getElem?_map, hes, Option.map_some, Json.canonical_array,
      Option.some.injEq, Json.array.injEq] at hname
    rw [← List.map_id es, List.map_map] at hname
    exact List.map_inj_left.mp hname e he
  · intro h
    apply FiniteMap.ext
    intro name
    simp only [Std.ExtTreeMap.getElem?_map]
    cases hes : hooks[name]? with
    | none => rfl
    | some es =>
      simp only [Option.map_some, Json.canonical_array]
      rw [List.map_congr_left (h name es hes), List.map_id']

/-- Decoded settings are well-formed. -/
theorem Decodes.wellFormed {doc : Json} {s : ClaudeSettings} (h : Decodes doc s) :
    WellFormed s := by
  -- the members of the document are nested one level less than it is
  have hmember : ∀ (key : String) (v : Json), doc.get key = some v →
      v.canonical.depth + 1 < recursionLimit := by
    intro key v hv
    have hle := Json.depth_canonical_le doc
    have hdepth : doc.canonical.depth ≤ (recursionLimit - 2) + 1 := by
      have := h.depth
      unfold recursionLimit at *
      omega
    rw [h.object, Json.depth_ofMap_le_iff] at hdepth
    have hmem : (((doc.asObject.getD ∅).map fun _ v => v.canonical) : FiniteMap String Json)[key]?
        = some v.canonical := by
      unfold Json.get at hv
      cases hobj : doc.asObject with
      | none => simp [hobj] at hv
      | some m =>
        rw [hobj, Option.bind_some] at hv
        rw [Option.getD_some, Std.ExtTreeMap.getElem?_map, hv, Option.map_some]
    have hv' := hdepth key v.canonical hmem
    unfold recursionLimit at *
    omega
  refine ⟨fun key hkey => by rw [h.extra, if_pos hkey], fun key v hv => ?_,
    fun name es hes e he => ?_⟩
  · rw [h.extra] at hv
    split at hv
    · exact absurd hv (by simp)
    · obtain ⟨w, hw, rfl⟩ := Option.map_eq_some_iff.mp hv
      exact ⟨Json.canonical_canonical w, hmember key w hw⟩
  · rcases h.hooks with hsome | ⟨-, hempty⟩
    · obtain ⟨w, hw, heq⟩ := Option.map_eq_some_iff.mp hsome
      refine ⟨?_, ?_⟩
      · have hcanon : (hooksValue s.hooks).canonical = hooksValue s.hooks := by
          rw [← heq, Json.canonical_canonical]
        exact (canonical_hooksValue_iff s.hooks).mp hcanon name es hes e he
      · have hdepth := hmember "hooks" w hw
        rw [heq] at hdepth
        have hle : (hooksValue s.hooks).depth ≤ (recursionLimit - 4) + 2 := by
          unfold recursionLimit at *
          omega
        have he' := (depth_hooksValue_le_iff s.hooks _).mp hle name es hes e he
        unfold recursionLimit at *
        omega
    · simp [hempty] at hes

/-- Decoding a field of a value. -/
theorem decodeField_toList {α : Type} (m : FiniteMap String Json) (key : String) (default : α)
    (decode : Json → Option α) :
    decodeField m.toList key default decode =
      match m[key]? with
      | none   => some default
      | some v => decode v := by
  have hnd : (m.toList.map Prod.fst).Nodup := by
    rw [Std.ExtTreeMap.map_fst_toList_eq_keys]
    exact Enumerates.nodup (List.Perm.refl m.keys)
  unfold decodeField
  rw [if_neg (not_lt.mpr (List.nodup_iff_count_le_one.mp hnd key)), mapOfMembers_toList]

/-- Decoding the value of some hooks. -/
theorem decodeHooks_hooksValue {hooks : FiniteMap String (List Json)}
    (h : ∀ (name : String) (es : List Json), hooks[name]? = some es →
      ∀ e ∈ es, e.canonical = e) : decodeHooks (hooksValue hooks) = some hooks := by
  have harr : ((hooks.map fun _ es => Json.array es) : FiniteMap String Json).toList.all
      (fun p => p.2.asArray.isSome) = true := by
    refine List.all_eq_true.mpr fun p hp => ?_
    have hp' := Std.ExtTreeMap.mem_toList_iff_getElem?_eq_some.mp hp
    rw [Std.ExtTreeMap.getElem?_map] at hp'
    obtain ⟨es, -, heq⟩ := Option.map_eq_some_iff.mp hp'
    rw [← heq]
    rfl
  simp only [hooksValue, Json.ofMap, decodeHooks]
  rw [if_pos harr, mapOfMembers_toList]
  congr 1
  apply FiniteMap.ext
  intro name
  simp only [Std.ExtTreeMap.getElem?_map, Option.map_map]
  cases hes : hooks[name]? with
  | none => rfl
  | some es =>
    simp only [Option.map_some, Function.comp, Json.asArray, Option.getD_some]
    rw [List.map_congr_left (h name es hes), List.map_id']

/-- **Round trip.** What is written back deserializes to the same settings, but for the list
    of managed hooks. -/
theorem decodeSettings_settingsWithHooks {s : ClaudeSettings} (h : WellFormed s) :
    decodeSettings (settingsWithHooks s) = some { s with atsManaged := [] } := by
  have hget := get_settingsWithHooks s (h.fields "hooks" (by decide))
  obtain ⟨m, hm⟩ : ∃ m, settingsWithHooks s = .ofMap m := ⟨_, rfl⟩
  simp only [hm, Json.get_ofMap] at hget
  have hhooks : ∀ (name : String) (es : List Json), s.hooks[name]? = some es →
      ∀ e ∈ es, e.canonical = e := fun name es hes e he => (h.hookValues name es hes e he).1
  -- the decoder's limit is not reached: entries lie three levels below the document
  have hdepth : (Json.ofMap m).depth < recursionLimit := by
    have hle : (Json.ofMap m).depth ≤ (recursionLimit - 2) + 1 := by
      rw [Json.depth_ofMap_le_iff]
      intro key v hv
      rw [hget] at hv
      split at hv
      · split at hv
        · exact absurd hv (by simp)
        · obtain rfl := Option.some.inj hv
          have hentries : (hooksValue s.hooks).depth ≤ (recursionLimit - 4) + 2 := by
            rw [depth_hooksValue_le_iff]
            intro name es hes e he
            have := (h.hookValues name es hes e he).2
            omega
          unfold recursionLimit at *
          omega
      · have := (h.extraValues key v hv).2
        omega
    unfold recursionLimit at *
    omega
  have hfield : decodeField m.toList "hooks" ∅ decodeHooks = some s.hooks := by
    rw [decodeField_toList, hget, if_pos rfl]
    by_cases hempty : s.hooks = ∅
    · rw [if_pos hempty, hempty]
    · rw [if_neg hempty]
      exact decodeHooks_hooksValue hhooks
  -- the list of managed hooks is never written
  have hmanaged : decodeField m.toList "_ats_managed" [] decodeManaged = some [] := by
    rw [decodeField_toList, hget, if_neg (by decide), h.fields "_ats_managed" (by decide)]
  rw [hm]
  unfold decodeSettings
  rw [if_pos hdepth]
  simp only [Json.ofMap, hfield, hmanaged, mapOfMembers_toList]
  congr 2
  apply FiniteMap.ext
  intro key
  simp only [Std.ExtTreeMap.getElem?_map, Std.ExtTreeMap.getElem?_filter', hget]
  by_cases hkey : key ∈ settingsFields
  · rw [h.fields key hkey]
    split
    · split <;> simp [hkey]
    · rfl
  · rw [if_neg (fun heq => hkey (by rw [heq]; decide))]
    cases hv : s.extra[key]? with
    | none => rfl
    | some v => simp [hkey, (h.extraValues key v hv).1]

/-- What is written back is a value. -/
theorem canonical_settingsWithHooks {s : ClaudeSettings} (h : WellFormed s) :
    (settingsWithHooks s).canonical = settingsWithHooks s := by
  have hget := get_settingsWithHooks s (h.fields "hooks" (by decide))
  obtain ⟨m, hm⟩ : ∃ m, settingsWithHooks s = .ofMap m := ⟨_, rfl⟩
  simp only [hm, Json.get_ofMap] at hget
  rw [hm, Json.canonical_ofMap, Json.ofMap_inj]
  apply FiniteMap.ext
  intro key
  rw [Std.ExtTreeMap.getElem?_map, hget]
  split
  · split
    · rfl
    · rw [Option.map_some, (canonical_hooksValue_iff s.hooks).mpr
        fun name es hes e he => (h.hookValues name es hes e he).1]
  · cases hv : s.extra[key]? with
    | none => rfl
    | some v => rw [Option.map_some, (h.extraValues key v hv).1]

/-- The hook entries of what is written back. -/
theorem hookEntries_settingsWithHooks {s : ClaudeSettings} (h : WellFormed s) (name : String) :
    hookEntries (settingsWithHooks s) name = (s.hooks[name]?).getD [] := by
  unfold hookEntries
  rw [get_settingsWithHooks s (h.fields "hooks" (by decide)), if_pos rfl]
  by_cases hempty : s.hooks = ∅
  · simp [hempty]
  · rw [if_neg hempty, Option.map_some, (canonical_hooksValue_iff s.hooks).mpr
      fun name es hes e he => (h.hookValues name es hes e he).1]
    rw [Option.bind_some, hooksValue, Json.get_ofMap, Std.ExtTreeMap.getElem?_map]
    cases s.hooks[name]? <;> rfl

/-- The value of the hooks determines them. -/
theorem hooksValue_inj {h h' : FiniteMap String (List Json)} :
    hooksValue h = hooksValue h' ↔ h = h' := by
  rw [hooksValue, hooksValue, Json.ofMap_inj]
  refine ⟨?_, ?_⟩
  · intro heq
    apply FiniteMap.ext
    intro name
    have hname := congrArg (fun m : FiniteMap String Json => m[name]?) heq
    simp only [Std.ExtTreeMap.getElem?_map] at hname
    exact Option.map_injective (fun _ _ h => Json.array.inj h) hname
  · rintro rfl; rfl

/-- Settings with the other keys of a document are written back as its value exactly when
    the hooks are. -/
theorem settingsWithHooks_eq_canonical_iff {doc : Json} {s t : ClaudeSettings}
    (h : Decodes doc s) (hmanaged : doc.get "_ats_managed" = none) (hextra : t.extra = s.extra) :
    settingsWithHooks t = doc.canonical ↔
      (if t.hooks = ∅ then none else some (hooksValue t.hooks))
        = (doc.get "hooks").map Json.canonical := by
  have hfields : t.extra["hooks"]? = none := by rw [hextra, h.extra, if_pos (by decide)]
  have hget := get_settingsWithHooks t hfields
  have hdoc := Json.get_canonical doc
  obtain ⟨m, hm⟩ : ∃ m, settingsWithHooks t = .ofMap m := ⟨_, rfl⟩
  rw [h.object] at hdoc ⊢
  rw [hm] at hget ⊢
  rw [Json.ofMap_eq_iff]
  simp only [hget, hdoc]
  refine ⟨?_, ?_⟩
  · intro heq
    simpa using heq "hooks"
  · intro heq key
    by_cases hkey : key = "hooks"
    · rw [if_pos hkey, hkey, heq]
    · rw [if_neg hkey, hextra, h.extra]
      split
      · next hfield =>
        have hkey' : key = "_ats_managed" := by
          simpa [settingsFields, hkey] using hfield
        rw [hkey', hmanaged, Option.map_none]
      · rfl

/-- The default settings are well-formed. -/
theorem wellFormed_default : WellFormed .default :=
  ⟨by simp [ClaudeSettings.default], by simp [ClaudeSettings.default],
    by simp [ClaudeSettings.default]⟩

end AgentTermStatus
