import Mathlib.Data.List.Infix

namespace AgentTermStatus.Lib

/-!
# Replacing a text within a text

`replaceAll pat repl cs` replaces every occurrence of `pat` in `cs` by `repl`, from left to right;
the search goes on after the occurrence that was replaced.

* `Replaced` — what such a replacement comes to, piece by piece; `replaceFrom_replaced`;
* `not_infix_replaceAll` — no occurrence is left, however `pat` overlaps itself, if `repl` has none
  of its elements;
* `replaceAll_eq_self` — without an occurrence nothing changes;
* `mem_replaceAll` — nothing new comes in but `repl`;
* `replaceAll_singleton` — a single element is replaced wherever it stands.
-/

section
variable {α : Type*} [DecidableEq α]

/-- The elements after the next `skip` ones, with every occurrence of `pat` replaced. -/
def replaceFrom (pat repl : List α) : Nat → List α → List α
  | _, []             => []
  | skip + 1, _ :: cs => replaceFrom pat repl skip cs
  | 0, c :: cs        =>
      if pat <+: c :: cs then repl ++ replaceFrom pat repl (pat.length - 1) cs
      else c :: replaceFrom pat repl 0 cs

/-- Every occurrence of `pat` replaced by `repl`.  The empty list occurs before every element and
    at the end. -/
def replaceAll (pat repl cs : List α) : List α :=
  if pat = [] then repl ++ cs.flatMap (fun c => c :: repl) else replaceFrom pat repl 0 cs

end

/-- What is skipped does not matter. -/
theorem replaceFrom_eq_drop {α : Type*} [DecidableEq α] (pat repl : List α) (skip : Nat)
    (cs : List α) : replaceFrom pat repl skip cs = replaceFrom pat repl 0 (cs.drop skip) := by
  induction cs generalizing skip with
  | nil => simp [replaceFrom]
  | cons c cs ih =>
    cases skip with
    | zero => rfl
    | succ skip => rw [replaceFrom, ih, List.drop_succ_cons]

/-- **A replacement, piece by piece:** an element at which `pat` does not occur is kept, and an
    occurrence becomes `repl`. -/
inductive Replaced {α : Type*} (pat repl : List α) : List α → List α → Prop
  | nil : Replaced pat repl [] []
  | keep {c : α} {cs rs : List α} (hnot : ¬ pat <+: c :: cs) (hrest : Replaced pat repl cs rs) :
      Replaced pat repl (c :: cs) (c :: rs)
  | replace {cs rs : List α} (hrest : Replaced pat repl cs rs) :
      Replaced pat repl (pat ++ cs) (repl ++ rs)

/-- `replaceFrom` replaces. -/
theorem replaceFrom_replaced {α : Type*} [DecidableEq α] {pat : List α} (hpat : pat ≠ [])
    (repl cs : List α) : Replaced pat repl cs (replaceFrom pat repl 0 cs) := by
  induction hlen : cs.length using Nat.strong_induction_on generalizing cs with
  | _ n ih =>
    cases cs with
    | nil => exact Replaced.nil
    | cons c cs =>
      rw [List.length_cons] at hlen
      by_cases hocc : pat <+: c :: cs
      · obtain ⟨rest, hrest⟩ := hocc
        have hpos : 0 < pat.length := List.length_pos_iff.mpr hpat
        have hlength := congrArg List.length hrest
        rw [List.length_append, List.length_cons] at hlength
        have hdrop : cs.drop (pat.length - 1) = rest := by
          rw [← List.drop_succ_cons (a := c), Nat.sub_add_cancel hpos, ← hrest, List.drop_left]
        rw [replaceFrom, if_pos ⟨rest, hrest⟩, replaceFrom_eq_drop, hdrop, ← hrest]
        exact Replaced.replace (ih rest.length (by omega) rest rfl)
      · rw [replaceFrom, if_neg hocc]
        exact Replaced.keep hocc (ih cs.length (by omega) cs rfl)

section
variable {α : Type*} {pat repl : List α}

/-- Every element was there before or comes from `repl`. -/
theorem Replaced.mem {cs rs : List α} (h : Replaced pat repl cs rs) {c : α} (hc : c ∈ rs) :
    c ∈ repl ∨ c ∈ cs := by
  induction h with
  | nil => exact Or.inr hc
  | @keep d cs rs hnot hrest ih =>
    rcases List.mem_cons.mp hc with rfl | hmem
    · exact Or.inr List.mem_cons_self
    · exact (ih hmem).imp_right (List.mem_cons_of_mem d)
  | replace hrest ih =>
    rcases List.mem_append.mp hc with hmem | hmem
    · exact Or.inl hmem
    · exact (ih hmem).imp_right (List.mem_append_right pat)

/-- Replacing leaves nothing only where nothing was. -/
theorem Replaced.eq_nil_iff (hpat : pat ≠ []) (hrepl : repl ≠ []) {cs rs : List α}
    (h : Replaced pat repl cs rs) : rs = [] ↔ cs = [] := by
  cases h with
  | nil => rfl
  | keep hnot hrest => simp
  | replace hrest => simp [hpat, hrepl]

/-- What has no element of a non-empty beginning does not stand there. -/
theorem eq_nil_of_prefix_append (hrepl : repl ≠ []) {front rs : List α}
    (hfront : ∀ c ∈ front, c ∉ repl) (h : front <+: repl ++ rs) : front = [] := by
  cases front with
  | nil => rfl
  | cons d front =>
    cases repl with
    | nil => exact absurd rfl hrepl
    | cons t repl =>
      have hd : d = t := (List.cons_prefix_cons.mp h).1
      exact absurd (hd ▸ List.mem_cons_self) (hfront d List.mem_cons_self)

/-- Elements that `repl` does not have stand at the beginning only where they stood before. -/
theorem Replaced.front_of_front (hrepl : repl ≠ []) {cs rs : List α}
    (h : Replaced pat repl cs rs) {front : List α} (hfront : ∀ c ∈ front, c ∉ repl)
    (hbegins : front <+: rs) : front <+: cs := by
  induction h generalizing front with
  | nil => exact hbegins
  | @keep d cs rs hnot hrest ih =>
    cases front with
    | nil => exact List.nil_prefix
    | cons c front =>
      rw [List.cons_prefix_cons] at hbegins ⊢
      exact ⟨hbegins.1, ih (fun c hc => hfront c (List.mem_cons_of_mem _ hc)) hbegins.2⟩
  | replace hrest ih =>
    rw [eq_nil_of_prefix_append hrepl hfront hbegins]
    exact List.nil_prefix

/-- What has no element of a beginning occurs only after it. -/
theorem infix_of_infix_append (hpat : pat ≠ []) (hdisjoint : ∀ c ∈ pat, c ∉ repl) {rs : List α}
    (h : pat <:+: repl ++ rs) : pat <:+: rs := by
  induction repl with
  | nil => exact h
  | cons t repl ih =>
    rw [List.cons_append, List.infix_cons_iff] at h
    rcases h with hfront | hrest
    · rw [← List.cons_append] at hfront
      exact absurd (eq_nil_of_prefix_append (List.cons_ne_nil t repl) hdisjoint hfront) hpat
    · exact ih (fun c hc hmem => hdisjoint c hc (List.mem_cons_of_mem t hmem)) hrest

/-- No occurrence is left by a replacement that shares no element with what it replaces. -/
theorem Replaced.no_occurrence (hpat : pat ≠ []) (hrepl : repl ≠ [])
    (hdisjoint : ∀ c ∈ pat, c ∉ repl) {cs rs : List α} (h : Replaced pat repl cs rs) :
    ¬ pat <:+: rs := by
  induction h with
  | nil => rwa [List.infix_nil]
  | keep hnot hrest ih =>
    rw [List.infix_cons_iff, not_or]
    refine ⟨fun hfront => ?_, ih⟩
    -- an occurrence that begins at a kept element was there before
    exact hnot ((Replaced.keep hnot hrest).front_of_front hrepl hdisjoint hfront)
  | replace hrest ih => exact fun h => ih (infix_of_infix_append hpat hdisjoint h)

/-- Where nothing occurs nothing changes. -/
theorem Replaced.eq_self {cs rs : List α} (h : Replaced pat repl cs rs)
    (hnot : ¬ pat <:+: cs) : rs = cs := by
  induction h with
  | nil => rfl
  | keep _ hrest ih =>
    rw [List.infix_cons_iff, not_or] at hnot
    rw [ih hnot.2]
  | @replace cs rs hrest ih => exact absurd (List.prefix_append pat cs).isInfix hnot

end

section
variable {α : Type*} [DecidableEq α] {pat repl : List α}

/-- Every element was there before or comes from `repl`. -/
theorem mem_replaceAll {c : α} {cs : List α} (h : c ∈ replaceAll pat repl cs) :
    c ∈ repl ∨ c ∈ cs := by
  unfold replaceAll at h
  split at h
  · rw [List.mem_append, List.mem_flatMap] at h
    rcases h with hrepl | ⟨d, hd, hc⟩
    · exact Or.inl hrepl
    · rcases List.mem_cons.mp hc with rfl | hrepl
      · exact Or.inr hd
      · exact Or.inl hrepl
  · next hpat => exact (replaceFrom_replaced hpat repl cs).mem h

/-- Replacing leaves nothing only where nothing was; the empty list occurs even there. -/
theorem replaceAll_eq_nil_iff (hrepl : repl ≠ []) (cs : List α) :
    replaceAll pat repl cs = [] ↔ pat ≠ [] ∧ cs = [] := by
  unfold replaceAll
  split
  · next hpat => simp [hrepl, hpat]
  · next hpat =>
    rw [(replaceFrom_replaced hpat repl cs).eq_nil_iff hpat hrepl, and_iff_right hpat]

/-- **No occurrence is left** by a replacement that shares no element with what it replaces. -/
theorem not_infix_replaceAll (hpat : pat ≠ []) (hrepl : repl ≠ [])
    (hdisjoint : ∀ c ∈ pat, c ∉ repl) (cs : List α) : ¬ pat <:+: replaceAll pat repl cs := by
  rw [replaceAll, if_neg hpat]
  exact (replaceFrom_replaced hpat repl cs).no_occurrence hpat hrepl hdisjoint

/-- Where nothing occurs nothing changes. -/
theorem replaceAll_eq_self (hpat : pat ≠ []) {cs : List α} (h : ¬ pat <:+: cs) (repl : List α) :
    replaceAll pat repl cs = cs := by
  rw [replaceAll, if_neg hpat]
  exact (replaceFrom_replaced hpat repl cs).eq_self h

/-- Replacing a single element replaces each element on its own. -/
theorem replaceAll_singleton (c : α) (repl cs : List α) :
    replaceAll [c] repl cs = cs.flatMap fun d => if d = c then repl else [d] := by
  rw [replaceAll, if_neg (List.cons_ne_nil c [])]
  induction cs with
  | nil => rfl
  | cons d cs ih =>
    rw [replaceFrom, List.flatMap_cons]
    by_cases hd : d = c
    · subst hd
      have hpre : [d] <+: d :: cs := List.prefix_append [d] cs
      rw [if_pos hpre, if_pos rfl]
      exact congrArg (repl ++ ·) ih
    · have hnot : ¬ [c] <+: d :: cs := fun h => hd (List.cons_prefix_cons.mp h).1.symm
      rw [if_neg hnot, if_neg hd, ih]
      rfl

end

end AgentTermStatus.Lib
