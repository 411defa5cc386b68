import Mathlib.Data.List.DropRight
import Mathlib.Data.List.Perm.Basic
import Mathlib.Order.Bounds.Basic
import Mathlib.Order.MinMax

namespace AgentTermStatus.Lib

/-!
# Join registers

A register over a linear order that is written in two ways: `set` overwrites the value,
`raise` replaces it only by something higher.  After any list of writes the register
holds the highest of a base and the raises after the last `set`, where the base is what
that `set` wrote, or the initial value if there was none (`foldl_write`).  Between two
`set`s the order of the raises is therefore irrelevant (`foldl_write_perm`).

When every `set` exceeds a bound, the register exceeds it for good once anything above the
bound has been written (`foldl_write_le_iff`).  Writes of one lower value leave it alone
exactly if none of them is a `set` (`foldl_write_eq_iff`).
-/

variable {α : Type*}

/-- One write to a join register. -/
inductive Write (α : Type*)
  /-- Overwrite the value. -/
  | set (a : α)
  /-- Keep the higher of the value and `a`. -/
  | raise (a : α)

namespace Write

/-- The value a write carries. -/
def value : Write α → α
  | set a   => a
  | raise a => a

/-- Does the write overwrite? -/
def isSet : Write α → Bool
  | set _   => true
  | raise _ => false

/-- The register after a write. -/
def apply [LinearOrder α] (current : α) : Write α → α
  | set a   => a
  | raise a => max current a

end Write

/-- A write leaves the old value or its own. -/
theorem Write.apply_eq_or [LinearOrder α] (s : α) (w : Write α) :
    w.apply s = s ∨ w.apply s = w.value := by
  cases w with
  | set a => exact Or.inr rfl
  | raise a => exact max_choice s a

/-- The writes after the last `set`: all of them raises. -/
def afterLastSet (ws : List (Write α)) : List (Write α) :=
  ws.rtakeWhile fun w => !w.isSet

/-- What the last `set` wrote, or the initial value `s` if there is none. -/
def baseOf (s : α) (ws : List (Write α)) : α :=
  ((ws.rdropWhile fun w => !w.isSet).getLast?.map Write.value).getD s

@[simp] theorem afterLastSet_nil : afterLastSet ([] : List (Write α)) = [] := rfl
@[simp] theorem baseOf_nil (s : α) : baseOf s [] = s := rfl

@[simp] theorem afterLastSet_set (ws : List (Write α)) (a : α) :
    afterLastSet (ws ++ [.set a]) = [] :=
  List.rtakeWhile_concat_neg _ _ _ (by simp [Write.isSet])

@[simp] theorem afterLastSet_raise (ws : List (Write α)) (a : α) :
    afterLastSet (ws ++ [.raise a]) = afterLastSet ws ++ [.raise a] :=
  List.rtakeWhile_concat_pos _ _ _ (by simp [Write.isSet])

@[simp] theorem baseOf_set (s : α) (ws : List (Write α)) (a : α) :
    baseOf s (ws ++ [.set a]) = a := by
  rw [baseOf, List.rdropWhile_concat_neg _ _ _ (by simp [Write.isSet])]
  simp [Write.value]

@[simp] theorem baseOf_raise (s : α) (ws : List (Write α)) (a : α) :
    baseOf s (ws ++ [.raise a]) = baseOf s ws := by
  rw [baseOf, List.rdropWhile_concat_pos _ _ _ (by simp [Write.isSet]), baseOf]

section
variable [LinearOrder α]

/-- The fold of `max` is the greatest of the start and the list. -/
theorem isGreatest_foldl_max (s : α) (xs : List α) :
    IsGreatest {x | x ∈ s :: xs} (xs.foldl max s) := by
  induction xs generalizing s with
  | nil => simp [IsGreatest, upperBounds]
  | cons x xs ih =>
    obtain ⟨hmem, hub⟩ := ih (max s x)
    have hmax : max s x ≤ xs.foldl max (max s x) := hub (by simp)
    refine ⟨?_, ?_⟩
    · -- the greatest of the tail is `max s x` or a tail element
      rcases List.mem_cons.mp hmem with heq | htail
      · rcases max_choice s x with h | h
        · exact List.mem_cons.mpr (Or.inl (heq.trans h))
        · exact List.mem_cons_of_mem _ (List.mem_cons.mpr (Or.inl (heq.trans h)))
      · exact List.mem_cons_of_mem _ (List.mem_cons_of_mem _ htail)
    · intro y hy
      rcases List.mem_cons.mp hy with rfl | hy
      · exact le_trans (le_max_left _ _) hmax
      · rcases List.mem_cons.mp hy with rfl | hy
        · exact le_trans (le_max_right _ _) hmax
        · exact hub (List.mem_cons_of_mem _ hy)

/-- **Closed form of a join register.** The fold of the writes is the fold of `max` over
    the raises after the last `set`, from what that `set` wrote. -/
theorem foldl_write (s : α) (ws : List (Write α)) :
    ws.foldl Write.apply s = ((afterLastSet ws).map Write.value).foldl max (baseOf s ws) := by
  -- induction from the right: the last write decides both the base and the suffix
  induction ws using List.reverseRecOn with
  | nil => rfl
  | append_singleton ws w ih =>
    rw [List.foldl_append, ih]
    cases w with
    | set a   => simp [Write.apply]
    | raise a => simp [Write.apply, Write.value]

/-- The register holds the highest of the base and the raises after the last `set`. -/
theorem isGreatest_foldl_write (s : α) (ws : List (Write α)) :
    IsGreatest {x | x ∈ baseOf s ws :: (afterLastSet ws).map Write.value}
      (ws.foldl Write.apply s) := by
  rw [foldl_write]
  exact isGreatest_foldl_max _ _

/-- A search down a strictly decreasing list finds the greatest element searched for. -/
theorem find?_eq_some_of_isGreatest {order : List α} (horder : order.Pairwise (· > ·))
    {q : α → Bool} {a : α} (ha : a ∈ order) (hgreatest : IsGreatest {x | q x} a) :
    order.find? q = some a := by
  induction order with
  | nil => exact absurd ha List.not_mem_nil
  | cons b order ih =>
    obtain ⟨hb, horder⟩ := List.pairwise_cons.mp horder
    rw [List.find?_cons]
    rcases List.mem_cons.mp ha with rfl | hmem
    · rw [hgreatest.1]
    · have hq : q b = false := by
        -- `b` stands above `a`, which nothing searched for does
        by_contra hq
        exact absurd (hgreatest.2 (by simpa using hq)) (not_le.mpr (hb a hmem))
      rw [hq]
      exact ih horder hmem

/-- Two raises commute. -/
theorem apply_comm_of_raise (s : α) {v w : Write α} (hv : v.isSet = false)
    (hw : w.isSet = false) : Write.apply (Write.apply s v) w = Write.apply (Write.apply s w) v := by
  cases v with
  | set a => exact absurd hv (by simp [Write.isSet])
  | raise a =>
    cases w with
    | set b => exact absurd hw (by simp [Write.isSet])
    | raise b =>
      show max (max s a) b = max (max s b) a
      rw [max_assoc, max_comm a b, max_assoc]

/-- **Permuting raises.** Reordering a block of raises, whatever was written before and
    after it, does not change the register. -/
theorem foldl_write_perm (s : α) (pre post : List (Write α)) {xs ys : List (Write α)}
    (hperm : xs.Perm ys) (hraise : ∀ w ∈ xs, w.isSet = false) :
    (pre ++ xs ++ post).foldl Write.apply s = (pre ++ ys ++ post).foldl Write.apply s := by
  simp only [List.foldl_append]
  have hblock : xs.foldl Write.apply (pre.foldl Write.apply s)
      = ys.foldl Write.apply (pre.foldl Write.apply s) :=
    hperm.foldl_eq' (fun v hv w hw z => apply_comm_of_raise z (hraise v hv) (hraise w hw)) _
  rw [hblock]

/-- A register above a bound that every `set` exceeds stays above it. -/
theorem lt_foldl_write {s a : α} (hs : a < s) {ws : List (Write α)}
    (hset : ∀ w ∈ ws, w.isSet = true → a < w.value) : a < ws.foldl Write.apply s := by
  induction ws generalizing s with
  | nil => exact hs
  | cons w ws ih =>
    rw [List.forall_mem_cons] at hset
    refine ih ?_ hset.2
    cases w with
    | set b => exact hset.1 rfl
    | raise b => exact lt_of_lt_of_le hs (le_max_left s b)

/-- **Bound rule.** If the register starts below a bound that every `set` exceeds, it ends
    below it exactly when nothing above it was written. -/
theorem foldl_write_le_iff {s a : α} (hs : s ≤ a) {ws : List (Write α)}
    (hset : ∀ w ∈ ws, w.isSet = true → a < w.value) :
    ws.foldl Write.apply s ≤ a ↔ ∀ w ∈ ws, w.value ≤ a := by
  induction ws generalizing s with
  | nil => simpa using hs
  | cons w ws ih =>
    rw [List.forall_mem_cons] at hset ⊢
    rw [List.foldl_cons]
    by_cases hw : w.value ≤ a
    · have hnext : Write.apply s w ≤ a := by
        cases w with
        | set b => exact absurd (hset.1 rfl) (not_lt.mpr hw)
        | raise b => exact max_le hs hw
      rw [ih hnext hset.2]
      exact ⟨fun h => ⟨hw, h⟩, fun h => h.2⟩
    · -- above the bound now, so above it at the end
      have hnext : a < Write.apply s w := by
        cases w with
        | set b => exact not_le.mp hw
        | raise b => exact lt_of_lt_of_le (not_le.mp hw) (le_max_right s b)
      exact ⟨fun h => absurd h (not_le.mpr (lt_foldl_write hnext hset.2)), fun h => absurd h.1 hw⟩

/-- A register keeps a value that is written to it over and over. -/
theorem foldl_write_self {a : α} {ws : List (Write α)} (hvalue : ∀ w ∈ ws, w.value = a) :
    ws.foldl Write.apply a = a := by
  induction ws with
  | nil => rfl
  | cons w ws ih =>
    rw [List.forall_mem_cons] at hvalue
    have hw : Write.apply a w = a := by
      rcases w.apply_eq_or a with h | h
      · exact h
      · rw [h, hvalue.1]
    rw [List.foldl_cons, hw, ih hvalue.2]

/-- **Defence rule.** Writes of one lower value leave a register alone exactly if none of them
    is a `set`. -/
theorem foldl_write_eq_iff {s a : α} (hs : a < s) {ws : List (Write α)}
    (hvalue : ∀ w ∈ ws, w.value = a) :
    ws.foldl Write.apply s = s ↔ ∀ w ∈ ws, w.isSet = false := by
  induction ws with
  | nil => simp
  | cons w ws ih =>
    rw [List.forall_mem_cons] at hvalue
    rw [List.foldl_cons, List.forall_mem_cons]
    cases w with
    | set b =>
      -- the value is lost, and the later writes do not bring it back
      obtain rfl : b = a := hvalue.1
      show ws.foldl Write.apply b = s ↔ _
      rw [foldl_write_self hvalue.2]
      exact iff_of_false hs.ne fun h => absurd h.1 (by simp [Write.isSet])
    | raise b =>
      obtain rfl : b = a := hvalue.1
      show ws.foldl Write.apply (max s b) = s ↔ _
      rw [max_eq_left hs.le, ih hvalue.2]
      exact ⟨fun h => ⟨rfl, h⟩, fun h => h.2⟩

end

end AgentTermStatus.Lib
