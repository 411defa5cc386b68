import Mathlib.Data.List.Nodup
import Mathlib.Logic.Function.Basic

namespace AgentTermStatus.Lib

/-!
# Layered settings and conditional writes

Things have settings of their own, belong to groups that have settings too, and fall back to
defaults: `Layered`.  Several settings of one thing are assigned one after the other
(`assignAll`): each thing keeps its settings but that one (`assignAll_of_ne`), which takes the new
values (`assignAll_self`), and all is as it was exactly when each assignment repeats what was there
(`assignAll_eq_iff`).

A cell may be written or left alone, again and again: `overwrite`.  What the final write would have
made of a fresh cell is what it made of the used one exactly if it did write, or the earlier writes
left the cell fresh (`overwrite_concat_eq_iff`).
-/

/-! ### Assignments -/

section
variable {ι κ ν : Type*} [DecidableEq ι] [DecidableEq κ]

/-- Gives a setting of one thing a value, or takes its value away. -/
def assign (f : ι → κ → Option ν) (i : ι) (k : κ) (v : Option ν) : ι → κ → Option ν :=
  Function.update f i (Function.update (f i) k v)

/-- Assigns some settings of one thing, one after the other. -/
def assignAll (f : ι → κ → Option ν) (i : ι) (changes : List (κ × Option ν)) :
    ι → κ → Option ν := changes.foldl (fun f p => assign f i p.1 p.2) f

@[simp] theorem assignAll_nil (f : ι → κ → Option ν) (i : ι) : assignAll f i [] = f := rfl
@[simp] theorem assignAll_cons (f : ι → κ → Option ν) (i : ι) (p : κ × Option ν)
    (changes : List (κ × Option ν)) :
    assignAll f i (p :: changes) = assignAll (assign f i p.1 p.2) i changes := rfl

/-- An assignment changes one setting of one thing. -/
theorem assign_apply (f : ι → κ → Option ν) (i j : ι) (k l : κ) (v : Option ν) :
    assign f i k v j l = if i = j ∧ k = l then v else f j l := by
  unfold assign
  by_cases hj : i = j
  · subst hj
    by_cases hl : k = l
    · subst hl; simp
    · simp [hl, Function.update_of_ne (Ne.symm hl)]
  · simp [hj, Function.update_of_ne (Ne.symm hj)]

/-- Assigning what is there changes nothing. -/
theorem assign_self (f : ι → κ → Option ν) (i : ι) (k : κ) : assign f i k (f i k) = f := by
  rw [assign, Function.update_eq_self, Function.update_eq_self]

/-- Other things keep their settings. -/
theorem assignAll_of_ne (f : ι → κ → Option ν) {i j : ι} (h : i ≠ j)
    (changes : List (κ × Option ν)) : assignAll f i changes j = f j := by
  induction changes generalizing f with
  | nil => rfl
  | cons p changes ih =>
    rw [assignAll_cons, ih]
    funext l
    rw [assign_apply, if_neg fun hij => h hij.1]

omit [DecidableEq ι] in
/-- An assignment is found by its setting, if that is assigned once. -/
theorem lookup_of_mem {changes : List (κ × Option ν)} (hnd : (changes.map Prod.fst).Nodup)
    {p : κ × Option ν} (hp : p ∈ changes) : changes.lookup p.1 = some p.2 := by
  induction changes with
  | nil => exact absurd hp List.not_mem_nil
  | cons q changes ih =>
    obtain ⟨hq, hnd⟩ := List.nodup_cons.mp hnd
    rw [List.lookup_cons]
    rcases List.mem_cons.mp hp with rfl | hp
    · simp
    · have hne : p.1 ≠ q.1 := fun heq => hq (heq ▸ List.mem_map_of_mem hp)
      rw [beq_eq_false_iff_ne.mpr hne]
      exact ih hnd hp

/-- Settings that are each assigned once take the new values, the others keep theirs. -/
theorem assignAll_self (f : ι → κ → Option ν) (i : ι) {changes : List (κ × Option ν)}
    (hnd : (changes.map Prod.fst).Nodup) (k : κ) :
    assignAll f i changes i k = (changes.lookup k).getD (f i k) := by
  induction changes generalizing f with
  | nil => rfl
  | cons p changes ih =>
    obtain ⟨hp, hnd⟩ := List.nodup_cons.mp hnd
    rw [assignAll_cons, ih _ hnd, assign_apply, List.lookup_cons]
    by_cases hk : p.1 = k
    · -- nothing that comes later assigns the first setting again
      subst hk
      have hnone : changes.lookup p.1 = none := by
        rw [List.lookup_eq_none_iff]
        intro q hq
        have hne : p.1 ≠ q.1 := fun heq => hp (heq ▸ List.mem_map_of_mem hq)
        simpa using hne
      simp [hnone]
    · have hne : (k == p.1) = false := by simpa using Ne.symm hk
      simp [hk, hne]

/-- **Repeated settings.** Assignments of different settings change nothing exactly when each
    repeats what was there. -/
theorem assignAll_eq_iff (f : ι → κ → Option ν) (i : ι) {changes : List (κ × Option ν)}
    (hnd : (changes.map Prod.fst).Nodup) :
    assignAll f i changes = f ↔ ∀ p ∈ changes, f i p.1 = p.2 := by
  refine ⟨fun h p hp => ?_, fun h => ?_⟩
  · rw [← h, assignAll_self f i hnd, lookup_of_mem hnd hp, Option.getD_some]
  · clear hnd
    induction changes with
    | nil => rfl
    | cons p changes ih =>
      rw [List.forall_mem_cons] at h
      rw [assignAll_cons, ← h.1, assign_self]
      exact ih h.2

end

/-! ### Layers -/

/-- Settings `κ` with values `ν` of things `ι` that belong to groups `γ`. -/
structure Layered (ι γ κ ν : Type*) where
  own : ι → κ → Option ν
  group : γ → κ → Option ν
  default : κ → ν

namespace Layered
variable {ι γ κ ν : Type*}

/-- What a thing goes by: its own setting, that of its group, or the default. -/
def effective (s : Layered ι γ κ ν) (groupOf : ι → γ) (i : ι) (k : κ) : ν :=
  ((s.own i k).or (s.group (groupOf i) k)).getD (s.default k)

/-- Things with the same settings, in groups with the same settings, go by the same. -/
theorem effective_congr {s s' : Layered ι γ κ ν} (groupOf : ι → γ) {i : ι}
    (hown : s'.own i = s.own i) (hgroup : s'.group = s.group) (hdefault : s'.default = s.default) :
    s'.effective groupOf i = s.effective groupOf i := by
  funext k
  rw [effective, hown, hgroup, hdefault, effective]

variable [DecidableEq ι] [DecidableEq γ] [DecidableEq κ]

/-- Assigns a setting of a thing. -/
def setOwn (s : Layered ι γ κ ν) (i : ι) (k : κ) (v : Option ν) : Layered ι γ κ ν :=
  { s with own := assign s.own i k v }

/-- Assigns a setting of a group. -/
def setGroup (s : Layered ι γ κ ν) (g : γ) (k : κ) (v : Option ν) : Layered ι γ κ ν :=
  { s with group := assign s.group g k v }

/-- Assigns some settings of a thing. -/
def setOwns (s : Layered ι γ κ ν) (i : ι) (changes : List (κ × Option ν)) : Layered ι γ κ ν :=
  { s with own := assignAll s.own i changes }

/-- Assigns some settings of a group. -/
def setGroups (s : Layered ι γ κ ν) (g : γ) (changes : List (κ × Option ν)) :
    Layered ι γ κ ν := { s with group := assignAll s.group g changes }

omit [DecidableEq γ] in
/-- A thing's own settings are seen by no other. -/
theorem effective_setOwns (s : Layered ι γ κ ν) (groupOf : ι → γ) {i j : ι} (h : i ≠ j)
    (changes : List (κ × Option ν)) :
    (s.setOwns i changes).effective groupOf j = s.effective groupOf j :=
  effective_congr groupOf (assignAll_of_ne s.own h changes) rfl rfl

end Layered

/-! ### Conditional writes -/

section
variable {α : Type*}

/-- The value of a cell after some writes, each of which may leave it alone. -/
def overwrite (a : α) (ws : List (Option α)) : α := ws.foldl (fun a w => w.getD a) a

@[simp] theorem overwrite_nil (a : α) : overwrite a [] = a := rfl

@[simp] theorem overwrite_concat (a : α) (ws : List (Option α)) (w : Option α) :
    overwrite a (ws ++ [w]) = w.getD (overwrite a ws) := by
  rw [overwrite, List.foldl_append]
  rfl

/-- The last write makes of the used cell what it would make of a fresh one, if it writes, or if
    the writes before it left the cell as it was. -/
theorem overwrite_concat_eq_iff (a : α) (ws : List (Option α)) (w : Option α) :
    overwrite a (ws ++ [w]) = overwrite a [w] ↔ (w = none → overwrite a ws = a) := by
  rw [overwrite_concat, ← List.nil_append [w], overwrite_concat, overwrite_nil]
  cases w with
  | none => simp
  | some b => simp

end

end AgentTermStatus.Lib
