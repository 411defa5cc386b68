import Mathlib.Tactic.Linarith

namespace AgentTermStatus.Lib

/-!
# Finite maps and their enumerations

A finite map is an extensional ordered map: two maps with the same lookups are equal.
Code that walks a hash map sees the keys in an order it does not control; here that
order is an argument of the walk, and `Enumerates order m` says it is a possible one.

* `FiniteMap` — the map type, with the lookups of `insert` and `erase` in `if`-form;
* `lookup_foldl` — a loop that updates each of some keys once;
* `Enumerates` — the possible orders of a walk: the permutations of the keys.
-/

/-- A finite map with ordered keys, equal to another as soon as all lookups agree. -/
abbrev FiniteMap (κ υ : Type) [Ord κ] := Std.ExtTreeMap κ υ compare

section
variable {κ υ : Type} [Ord κ] [Std.TransOrd κ] [Std.LawfulEqOrd κ]

/-- Two maps with the same lookups are equal. -/
theorem FiniteMap.ext {m n : FiniteMap κ υ} (h : ∀ k : κ, m[k]? = n[k]?) : m = n :=
  Std.ExtTreeMap.ext_getElem? h

variable [DecidableEq κ]

/-- The lookups of an insertion. -/
theorem FiniteMap.getElem?_insert_if (m : FiniteMap κ υ) (k a : κ) (v : υ) :
    (m.insert k v)[a]? = if k = a then some v else m[a]? := by
  rw [Std.ExtTreeMap.getElem?_insert]
  by_cases h : k = a <;> simp [h]

/-- The lookups of a removal. -/
theorem FiniteMap.getElem?_erase_if (m : FiniteMap κ υ) (k a : κ) :
    (m.erase k)[a]? = if k = a then none else m[a]? := by
  rw [Std.ExtTreeMap.getElem?_erase]
  by_cases h : k = a <;> simp [h]

/-- An insertion leaves the lookups of the other keys alone. -/
theorem FiniteMap.getElem?_insert_ne (m : FiniteMap κ υ) {k a : κ} (v : υ) (h : k ≠ a) :
    (m.insert k v)[a]? = m[a]? := by
  rw [FiniteMap.getElem?_insert_if, if_neg h]

omit [Ord κ] [Std.TransOrd κ] [Std.LawfulEqOrd κ] in
/-- A loop over distinct keys, each round of which updates one key: every listed key is
    updated once, from what it was before the loop. -/
theorem lookup_foldl {α : Type*} {φ : Type*} (step : α → κ → α) (look : α → κ → φ) (f : φ → φ)
    (hstep : ∀ s k a, look (step s k) a = if k = a then f (look s a) else look s a)
    {ks : List κ} (hnd : ks.Nodup) (s : α) (a : κ) :
    look (ks.foldl step s) a = if a ∈ ks then f (look s a) else look s a := by
  induction ks generalizing s with
  | nil => simp
  | cons k ks ih =>
    obtain ⟨hk, hnd⟩ := List.nodup_cons.mp hnd
    rw [List.foldl_cons, ih hnd, hstep]
    by_cases ha : k = a
    · subst ha; simp [hk]
    · simp [ha, Ne.symm ha]

/-! ### Enumerations -/

/-- `order` is an order in which the keys of `m` can be enumerated. -/
def Enumerates (order : List κ) (m : FiniteMap κ υ) : Prop := order.Perm m.keys

instance (order : List κ) (m : FiniteMap κ υ) : Decidable (Enumerates order m) :=
  inferInstanceAs (Decidable (order.Perm m.keys))

namespace Enumerates
variable {order : List κ} {m : FiniteMap κ υ}

omit [Std.LawfulEqOrd κ] [DecidableEq κ] in
/-- The keys in their own order are an enumeration. -/
theorem keys (m : FiniteMap κ υ) : Enumerates m.keys m := List.Perm.refl _

omit [DecidableEq κ] in
/-- An enumeration lists exactly the keys. -/
theorem mem_iff_lookup (h : Enumerates order m) (k : κ) :
    k ∈ order ↔ ∃ v, m[k]? = some v := by
  rw [List.Perm.mem_iff h, Std.ExtTreeMap.mem_keys, Std.ExtTreeMap.mem_iff_isSome_getElem?,
    Option.isSome_iff_exists]

omit [DecidableEq κ] in
/-- An enumeration lists every key once. -/
theorem nodup (h : Enumerates order m) : order.Nodup := by
  rw [List.Perm.nodup_iff h, List.nodup_iff_pairwise_ne]
  simpa using m.distinct_keys

end Enumerates

end

end AgentTermStatus.Lib
