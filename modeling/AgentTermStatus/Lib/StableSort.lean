import Mathlib.Data.List.Induction
import Mathlib.Data.List.Sort

namespace AgentTermStatus.Lib

/-!
# Sorting and selecting by a key

`sortByKey key` sorts a list by a key and keeps the order of elements with equal keys: it
is the sort by the pair of key and position (`sortByKey_eq_sortByKeyIdx`).  Sorting batch
by batch sorts the whole list when no batch reaches back behind an earlier one
(`sortByKey_append`).  `maxByKey key` is the last element with the greatest key
(`maxByKey_spec`).
-/

variable {α κ : Type*} [LinearOrder κ] (key : α → κ)

/-- The list sorted by key, elements with equal keys staying in order. -/
def sortByKey (l : List α) : List α := l.insertionSort fun a b => key a ≤ key b

/-- The list sorted by the pair of key and position. -/
def sortByKeyIdx (l : List α) : List α :=
  (l.zipIdx.insertionSort fun a b =>
    key a.1 < key b.1 ∨ (key a.1 = key b.1 ∧ a.2 ≤ b.2)).map Prod.fst

@[simp] theorem sortByKey_nil : sortByKey key ([] : List α) = [] := rfl

theorem sortByKey_perm (l : List α) : (sortByKey key l).Perm l := List.perm_insertionSort _ l

@[simp] theorem mem_sortByKey {l : List α} {a : α} : a ∈ sortByKey key l ↔ a ∈ l :=
  (sortByKey_perm key l).mem_iff

/-- Sorting commutes with a map that keeps the keys. -/
theorem sortByKey_map {β : Type*} (key' : β → κ) (f : α → β) (hf : ∀ a, key' (f a) = key a)
    (l : List α) : sortByKey key' (l.map f) = (sortByKey key l).map f := by
  refine (List.map_insertionSort _ _ f l fun a _ b _ => ?_).symm
  rw [hf, hf]

/-- Inserting into a list whose second part lies above the new element. -/
theorem orderedInsert_append (r : α → α → Prop) [DecidableRel r] (a : α) (xs : List α)
    {ys : List α} (h : ∀ b ∈ ys, r a b) :
    (xs ++ ys).orderedInsert r a = xs.orderedInsert r a ++ ys := by
  induction xs with
  | nil =>
    cases ys with
    | nil => rfl
    | cons b ys => exact List.orderedInsert_cons_of_le r ys (h b List.mem_cons_self)
  | cons x xs ih =>
    rw [List.cons_append, List.orderedInsert_cons, List.orderedInsert_cons, ih]
    split <;> rfl

/-- **Batches.** Sorting two batches, the second one above the first, sorts both. -/
theorem sortByKey_append (xs ys : List α) (h : ∀ a ∈ xs, ∀ b ∈ ys, key a ≤ key b) :
    sortByKey key (xs ++ ys) = sortByKey key xs ++ sortByKey key ys := by
  unfold sortByKey
  induction xs with
  | nil => rfl
  | cons a xs ih =>
    rw [List.cons_append, List.insertionSort_cons, List.insertionSort_cons,
      ih fun x hx => h x (List.mem_cons_of_mem _ hx)]
    refine orderedInsert_append _ a _ fun b hb => h a List.mem_cons_self b ?_
    exact (List.mem_insertionSort _).mp hb

/-- Sorting compares an element only with later ones. -/
theorem insertionSort_congr (r s : α → α → Prop) [DecidableRel r] [DecidableRel s] {l : List α}
    (h : l.Pairwise fun a b => r a b ↔ s a b) : l.insertionSort r = l.insertionSort s := by
  have hinsert : ∀ (a : α) (xs : List α), (∀ b ∈ xs, r a b ↔ s a b) →
      xs.orderedInsert r a = xs.orderedInsert s a := by
    intro a xs hxs
    induction xs with
    | nil => rfl
    | cons x xs ih =>
      rw [List.orderedInsert_cons, List.orderedInsert_cons,
        ih fun b hb => hxs b (List.mem_cons_of_mem _ hb)]
      exact if_congr (hxs x List.mem_cons_self) rfl rfl
  induction l with
  | nil => rfl
  | cons a l ih =>
    obtain ⟨ha, hl⟩ := List.pairwise_cons.mp h
    rw [List.insertionSort_cons, List.insertionSort_cons, ih hl]
    exact hinsert a _ fun b hb => ha b ((List.mem_insertionSort _).mp hb)

/-- Positions grow along a list. -/
theorem zipIdx_pairwise (l : List α) (n : Nat) : (l.zipIdx n).Pairwise fun a b => a.2 < b.2 := by
  induction l generalizing n with
  | nil => exact List.Pairwise.nil
  | cons a l ih =>
    rw [List.zipIdx_cons, List.pairwise_cons]
    refine ⟨fun b hb => ?_, ih (n + 1)⟩
    exact List.le_snd_of_mem_zipIdx hb

/-- **Stability.** Sorting by key is sorting by key and position. -/
theorem sortByKey_eq_sortByKeyIdx (l : List α) : sortByKey key l = sortByKeyIdx key l := by
  have hcongr : l.zipIdx.Pairwise fun a b => key a.1 ≤ key b.1 ↔
      key a.1 < key b.1 ∨ (key a.1 = key b.1 ∧ a.2 ≤ b.2) := by
    refine (zipIdx_pairwise l 0).imp fun {a b} hlt => ?_
    rw [le_iff_lt_or_eq, and_iff_left (le_of_lt hlt)]
  have hmap := List.map_insertionSort (fun a b : α × Nat => key a.1 ≤ key b.1)
    (fun a b : α => key a ≤ key b) Prod.fst l.zipIdx fun a _ b _ => Iff.rfl
  rw [sortByKeyIdx, ← insertionSort_congr _ _ hcongr, hmap, List.zipIdx_map_fst]
  rfl

/-! ### Selection -/

/-- The last element with the greatest key. -/
def maxByKey : List α → Option α
  | [] => none
  | a :: as => some (as.foldl (fun m b => if key m ≤ key b then b else m) a)

@[simp] theorem maxByKey_eq_none_iff {l : List α} : maxByKey key l = none ↔ l = [] := by
  cases l <;> simp [maxByKey]

/-- A running maximum is one of the elements, and none of them has a greater key. -/
theorem foldl_max_spec (l : List α) (a : α) :
    let m := l.foldl (fun m b => if key m ≤ key b then b else m) a
    m ∈ a :: l ∧ ∀ b ∈ a :: l, key b ≤ key m := by
  induction l generalizing a with
  | nil => simp
  | cons b l ih =>
    -- the maximum so far is `b` or `a`, and has the greater key of the two
    obtain ⟨hmem, hmax⟩ := ih (if key a ≤ key b then b else a)
    have hhead := hmax _ List.mem_cons_self
    refine ⟨?_, ?_⟩
    · rcases List.mem_cons.mp hmem with hm | hm
      · rw [List.foldl_cons, hm]
        split <;> simp
      · exact List.mem_cons_of_mem _ (List.mem_cons_of_mem _ hm)
    · intro c hc
      rcases List.mem_cons.mp hc with rfl | hc
      · refine le_trans ?_ hhead
        split
        · assumption
        · exact le_rfl
      · rcases List.mem_cons.mp hc with rfl | hc
        · refine le_trans ?_ hhead
          split
          · exact le_rfl
          · next h => exact le_of_not_ge h
        · exact hmax c (List.mem_cons_of_mem _ hc)

/-- The selected element is in the list, and no element has a greater key. -/
theorem maxByKey_spec {l : List α} {m : α} (h : maxByKey key l = some m) :
    m ∈ l ∧ ∀ b ∈ l, key b ≤ key m := by
  cases l with
  | nil => exact absurd h (by simp [maxByKey])
  | cons a l =>
    obtain rfl := Option.some.inj h
    exact foldl_max_spec key l a

/-! ### Lists split by a label -/

/-- Two lists are permutations of each other when their parts of each label are. -/
theorem perm_of_filter_perm {ι : Type*} [DecidableEq ι] (label : α → ι) {xs ys : List α}
    (h : ∀ i, (xs.filter fun a => label a = i).Perm (ys.filter fun a => label a = i)) :
    xs.Perm ys := by
  classical
  rw [List.perm_iff_count]
  intro a
  have hcount := (h (label a)).count_eq a
  rwa [List.count_filter (by simp), List.count_filter (by simp)] at hcount

/-- A list is made of its parts, label by label. -/
theorem perm_flatMap_filter (label : α → ℕ) {n : ℕ} {xs : List α} (h : ∀ a ∈ xs, label a < n) :
    xs.Perm ((List.range n).flatMap fun i => xs.filter fun a => label a = i) := by
  refine perm_of_filter_perm label fun k => ?_
  -- only the part with the label `k` has elements with it
  have hpart : ∀ i, ((xs.filter fun a => label a = i).filter fun a => label a = k) =
      if i = k then xs.filter fun a => label a = k else [] := by
    intro i
    rw [List.filter_filter]
    split
    · next hi =>
      subst hi
      simp
    · next hi =>
      refine List.filter_eq_nil_iff.mpr fun a _ ha => hi ?_
      simp only [Bool.and_eq_true, decide_eq_true_eq] at ha
      exact ha.2.symm.trans ha.1
  have hflat : ∀ m, ((List.range m).flatMap fun i =>
      if i = k then xs.filter fun a => label a = k else []) =
        if k < m then xs.filter fun a => label a = k else [] := by
    intro m
    induction m with
    | zero => simp
    | succ m ih =>
      rw [List.range_succ, List.flatMap_append, ih, List.flatMap_singleton]
      rcases lt_trichotomy k m with hlt | rfl | hgt
      · rw [if_pos hlt, if_neg (by omega), if_pos (by omega), List.append_nil]
      · simp
      · rw [if_neg (by omega), if_neg (by omega), if_neg (by omega), List.append_nil]
  rw [List.filter_flatMap]
  simp only [hpart, hflat]
  split
  · exact List.Perm.refl _
  · next hk =>
    refine List.Perm.of_eq (List.filter_eq_nil_iff.mpr fun a ha hlabel => hk ?_)
    rw [← of_decide_eq_true hlabel]
    exact h a ha

/-- A list's parts, position by position. -/
theorem flatMap_eq_flatMap_range {β : Type*} {xs : List α} {f : α → List β} {g : ℕ → List β}
    (h : ∀ i a, xs[i]? = some a → f a = g i) :
    xs.flatMap f = (List.range xs.length).flatMap g := by
  induction xs using List.reverseRecOn with
  | nil => simp
  | append_singleton xs a ih =>
    rw [List.length_append, List.length_singleton, List.range_succ, List.flatMap_append,
      List.flatMap_append, List.flatMap_singleton, List.flatMap_singleton, h xs.length a (by simp)]
    rw [ih fun i b hb => h i b ?_]
    rw [List.getElem?_append_left (List.getElem?_eq_some_iff.mp hb).1]
    exact hb

/-- Parts put together position by position. -/
theorem sublist_flatMap_range {β : Type*} {xs : List α} {f : α → List β} {g : ℕ → List β}
    (h : ∀ i a, xs[i]? = some a → (g i).Sublist (f a)) :
    ((List.range xs.length).flatMap g).Sublist (xs.flatMap f) := by
  induction xs using List.reverseRecOn with
  | nil => simp
  | append_singleton xs a ih =>
    rw [List.length_append, List.length_singleton, List.range_succ, List.flatMap_append,
      List.flatMap_append, List.flatMap_singleton, List.flatMap_singleton]
    refine (ih fun i b hb => h i b ?_).append (h _ a (by simp))
    rw [List.getElem?_append_left (List.getElem?_eq_some_iff.mp hb).1]
    exact hb

end AgentTermStatus.Lib
