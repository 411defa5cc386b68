import AgentTermStatus.Lib.Run
import Mathlib.Algebra.Order.Ring.Int
import Mathlib.Data.List.Chain
import Mathlib.Logic.Function.Basic
import Mathlib.Tactic.Linarith

namespace AgentTermStatus.Lib

/-!
# Cooldowns

A table keeps for every key when it was last let through.  A call is let through if its key never
was, or if at least so many whole units of time have passed since then; each reads the clock twice,
to judge the call and to record it.

* `Spaced` — times with a gap between each and the next one; in a window there are no more of them
  than there are gaps (`Spaced.count_le`);
* `Cooldown.spaced_run` — the times at which a run lets a key through are spaced;
* `Cooldown.count_le` — so in every window there are only so many;
* `Cooldown.Governs` — a component that lets through what such a table lets through; what it emits
  for a key in a window is bounded in the same way (`Cooldown.Governs.count_le`).
-/

/-! ### Times with a gap between them -/

/-- Each time is at least a gap after the one before it. -/
def Spaced (gap : Int) (times : List Int) : Prop := times.IsChain fun a b => a + gap ≤ b

/-- The last of some spaced times is as many gaps after the first one as there are others. -/
theorem Spaced.exists_ge {gap a : Int} {times : List Int} (h : Spaced gap (a :: times)) :
    ∃ b ∈ a :: times, a + times.length * gap ≤ b := by
  induction times generalizing a with
  | nil => exact ⟨a, by simp, by simp⟩
  | cons a' times ih =>
    obtain ⟨hgap, hrest⟩ := List.isChain_cons_cons.mp h
    obtain ⟨b, hb, hle⟩ := ih hrest
    refine ⟨b, List.mem_cons_of_mem a hb, ?_⟩
    push_cast [List.length_cons]
    linarith

/-- Dropping some of the times leaves the others spaced. -/
theorem Spaced.filter {gap : Int} {times : List Int} (h : Spaced gap times) (hgap : 0 ≤ gap)
    (p : Int → Bool) : Spaced gap (times.filter p) := by
  have htrans : ∀ {a b c : Int}, a + gap ≤ b → b + gap ≤ c → a + gap ≤ c := by
    intro a b c hab hbc
    omega
  have : Trans (fun a b : Int => a + gap ≤ b) (fun a b => a + gap ≤ b) (fun a b => a + gap ≤ b) :=
    ⟨htrans⟩
  exact (List.isChain_iff_pairwise.mp h).filter p |>.isChain

/-- **Counting.** In a window there are at most as many gaps between spaced times as fit into it. -/
theorem Spaced.count_le {gap lo hi : Int} {times : List Int} (h : Spaced gap times)
    (hwindow : lo ≤ hi) :
    (((times.filter fun t => lo ≤ t ∧ t ≤ hi).length - 1 : ℕ) : Int) * gap ≤ hi - lo := by
  rcases le_or_gt gap 0 with hneg | hpos
  · have hle : (((times.filter fun t => lo ≤ t ∧ t ≤ hi).length - 1 : ℕ) : Int) * gap ≤ 0 :=
      mul_nonpos_of_nonneg_of_nonpos (Int.natCast_nonneg _) hneg
    omega
  · have hspaced := h.filter hpos.le fun t => lo ≤ t ∧ t ≤ hi
    have hin : ∀ t ∈ times.filter fun t => lo ≤ t ∧ t ≤ hi, lo ≤ t ∧ t ≤ hi :=
      fun t ht => by simpa using (List.mem_filter.mp ht).2
    generalize times.filter (fun t => lo ≤ t ∧ t ≤ hi) = inside at hspaced hin ⊢
    cases inside with
    | nil => simpa using hwindow
    | cons a rest =>
      obtain ⟨b, hb, hle⟩ := hspaced.exists_ge
      have hlo := (hin a List.mem_cons_self).1
      have hhi := (hin b hb).2
      rw [List.length_cons, Nat.add_sub_cancel]
      linarith

/-! ### The table -/

/-- A cooldown: the unit time is counted in, and for every key how many units it lasts. -/
structure Cooldown (κ : Type*) where
  unit : Int
  limit : κ → Int

/-- A call: its key, and the clock when it is judged and when it is recorded. -/
structure CooldownCall (κ : Type*) where
  key : κ
  checkedAt : Int
  recordedAt : Int

section
variable {κ : Type*}

/-- How long a key is held back. -/
def Cooldown.gap (c : Cooldown κ) (k : κ) : Int := c.unit * c.limit k

/-- What is let through comes after the cooldown of what was let through before. -/
theorem Cooldown.gap_le {c : Cooldown κ} (hunit : 0 < c.unit) {k : κ} (hlimit : 0 < c.limit k)
    {span : Int} (h : ¬ span.tdiv c.unit < c.limit k) : c.gap k ≤ span := by
  have hle : c.limit k ≤ span.tdiv c.unit := not_lt.mp h
  have hspan : 0 ≤ span := by
    by_contra hneg
    have hle' : span.tdiv c.unit ≤ (0 : Int).tdiv c.unit := Int.tdiv_le_tdiv hunit (by omega)
    rw [Int.zero_tdiv] at hle'
    omega
  rw [Int.tdiv_eq_ediv_of_nonneg hspan] at hle
  calc c.gap k = c.limit k * c.unit := mul_comm _ _
    _ ≤ span / c.unit * c.unit := mul_le_mul_of_nonneg_right hle hunit.le
    _ ≤ span := Int.ediv_mul_le span hunit.ne'

variable [DecidableEq κ] (c : Cooldown κ)

/-- One call: the table after it, and the call if it is let through. -/
def Cooldown.step (table : κ → Option Int) (a : CooldownCall κ) :
    (κ → Option Int) × List (CooldownCall κ) :=
  match table a.key with
  | some prev =>
    if (a.checkedAt - prev).tdiv c.unit < c.limit a.key then (table, [])
    else (Function.update table a.key (some a.recordedAt), [a])
  | none => (Function.update table a.key (some a.recordedAt), [a])

/-- The call comes within the cooldown of its key. -/
def Cooldown.Held (table : κ → Option Int) (a : CooldownCall κ) : Prop :=
  ∃ prev, table a.key = some prev ∧ (a.checkedAt - prev).tdiv c.unit < c.limit a.key

/-- A call that is held back. -/
theorem Cooldown.step_of_held {table : κ → Option Int} {a : CooldownCall κ} (h : c.Held table a) :
    c.step table a = (table, []) := by
  obtain ⟨prev, hprev, hlt⟩ := h
  simp only [Cooldown.step, hprev, if_pos hlt]

/-- A call that is let through. -/
theorem Cooldown.step_of_not_held {table : κ → Option Int} {a : CooldownCall κ}
    (h : ¬ c.Held table a) :
    c.step table a = (Function.update table a.key (some a.recordedAt), [a]) := by
  unfold Cooldown.step
  cases hprev : table a.key with
  | none => rfl
  | some prev => exact if_neg fun hlt => h ⟨prev, hprev, hlt⟩

/-- The times at which a key was let through. -/
def timesOf (k : κ) (out : List (CooldownCall κ)) : List Int :=
  (out.filter fun a => a.key = k).map CooldownCall.recordedAt

@[simp] theorem timesOf_nil (k : κ) : timesOf k [] = [] := rfl

@[simp] theorem timesOf_append (k : κ) (xs ys : List (CooldownCall κ)) :
    timesOf k (xs ++ ys) = timesOf k xs ++ timesOf k ys := by
  simp [timesOf]

variable {c}

/-- The table holds when each key was last let through, and these times are spaced. -/
structure Cooldown.Keeps (c : Cooldown κ) (start : κ → Option Int) (out : List (CooldownCall κ))
    (table : κ → Option Int) (k : κ) : Prop where
  spaced : Spaced (c.gap k) ((start k).toList ++ timesOf k out)
  last : ((start k).toList ++ timesOf k out).getLast? = table k

/-- **Step lemma.** A call keeps the times spaced. -/
theorem Cooldown.Keeps.step {start table : κ → Option Int} {out : List (CooldownCall κ)} {k : κ}
    (h : c.Keeps start out table k) (hunit : 0 < c.unit) (hlimit : 0 < c.limit k)
    {a : CooldownCall κ} (hclock : a.checkedAt ≤ a.recordedAt) :
    c.Keeps start (out ++ (c.step table a).2) (c.step table a).1 k := by
  by_cases hheld : c.Held table a
  · rw [Cooldown.step_of_held c hheld, List.append_nil]
    exact h
  · rw [Cooldown.step_of_not_held c hheld]
    show c.Keeps start (out ++ [a]) (Function.update table a.key (some a.recordedAt)) k
    by_cases hk : a.key = k
    · -- a call of the key that is let through comes behind the last one
      subst hk
      have htimes : timesOf a.key (out ++ [a]) = timesOf a.key out ++ [a.recordedAt] := by
        simp [timesOf]
      refine ⟨?_, ?_⟩
      · rw [htimes, ← List.append_assoc]
        refine List.isChain_append.mpr
          ⟨h.spaced, List.isChain_singleton _, fun prev hprev t ht => ?_⟩
        obtain rfl : a.recordedAt = t := by simpa using ht
        rw [Option.mem_def, h.last] at hprev
        have hle := Cooldown.gap_le hunit hlimit fun hlt => hheld ⟨prev, hprev, hlt⟩
        omega
      · rw [htimes, ← List.append_assoc, Function.update_self]
        simp
    · have hnone : timesOf k [a] = [] := by simp [timesOf, hk]
      refine ⟨?_, ?_⟩
      · rw [timesOf_append, hnone, List.append_nil]
        exact h.spaced
      · rw [timesOf_append, hnone, List.append_nil, Function.update_of_ne (Ne.symm hk)]
        exact h.last

/-- **Run lemma.** The times at which a run lets a key through are spaced. -/
theorem Cooldown.spaced_run (hunit : 0 < c.unit) {k : κ} (hlimit : 0 < c.limit k)
    (table : κ → Option Int) {calls : List (CooldownCall κ)}
    (hclock : ∀ a ∈ calls, a.checkedAt ≤ a.recordedAt) :
    Spaced (c.gap k) (timesOf k (trace c.step table calls)) := by
  have hstart : c.Keeps table [] table k := by
    cases htable : table k with
    | none => exact ⟨by simp [htable, Spaced], by simp [htable]⟩
    | some prev => exact ⟨by simp [htable, Spaced], by simp [htable]⟩
  have hall : Along c.step (fun _ _ => True) table calls :=
    along_of_forall (fun _ _ => trivial) table calls
  have hrun := hall.and_of_mem hclock
  have hkeeps := Along.trace_inv (fun out t => c.Keeps table out t k)
    (fun out t a ha h => h.step hunit hlimit ha.2) hrun hstart
  rw [List.nil_append] at hkeeps
  exact (List.isChain_append.mp hkeeps.spaced).2.1

/-- **How often a key is let through.** In every window there are at most as many cooldowns between
    the times at which a run lets a key through as fit into it. -/
theorem Cooldown.count_le (hunit : 0 < c.unit) (k : κ) (table : κ → Option Int)
    {calls : List (CooldownCall κ)} (hclock : ∀ a ∈ calls, a.checkedAt ≤ a.recordedAt)
    {lo hi : Int} (hwindow : lo ≤ hi) :
    ((((timesOf k (trace c.step table calls)).filter fun t => lo ≤ t ∧ t ≤ hi).length - 1 : ℕ) :
      Int) * c.gap k ≤ hi - lo := by
  rcases le_or_gt (c.limit k) 0 with hnone | hlimit
  · -- without a cooldown there is nothing to show
    have hgap : c.gap k ≤ 0 := mul_nonpos_of_nonneg_of_nonpos hunit.le hnone
    have hle := mul_nonpos_of_nonneg_of_nonpos (Int.natCast_nonneg
      ((timesOf k (trace c.step table calls)).filter fun t => lo ≤ t ∧ t ≤ hi).length.pred) hgap
    rw [Nat.pred_eq_sub_one] at hle
    omega
  · exact (Cooldown.spaced_run hunit hlimit table hclock).count_le hwindow

/-! ### Components with such a table -/

/-- A call that is let through, by its key and the time it is recorded. -/
def CooldownCall.stamp (a : CooldownCall κ) : κ × Int := (a.key, a.recordedAt)

variable {σ ι ω : Type*}

/-- The component keeps the table as part of its state: some of its operations are nothing to the
    table and emit nothing; any other one does to the table what `pick` makes of it, and emits
    something, stamped with its key and time, exactly if the table lets it through. -/
structure Cooldown.Governs (c : Cooldown κ) (step : σ → ι → σ × List ω) (I : σ → Prop)
    (table : σ → κ → Option Int) (pick : ι → Option (CooldownCall κ)) (stamp : ω → κ × Int) :
    Prop where
  inv : ∀ s i, I s → I (step s i).1
  skip : ∀ s i, I s → pick i = none → table (step s i).1 = table s ∧ (step s i).2 = []
  call : ∀ s i a, I s → pick i = some a → table (step s i).1 = (c.step (table s) a).1 ∧
    (step s i).2.map stamp = (c.step (table s) a).2.map CooldownCall.stamp

/-- **Simulation.** What the component emits is what the table lets through. -/
theorem Cooldown.Governs.trace_eq {step : σ → ι → σ × List ω} {I : σ → Prop}
    {table : σ → κ → Option Int} {pick : ι → Option (CooldownCall κ)} {stamp : ω → κ × Int}
    (h : c.Governs step I table pick stamp) {s : σ} (hs : I s) (is : List ι) :
    (trace step s is).map stamp =
      (trace c.step (table s) (is.filterMap pick)).map CooldownCall.stamp := by
  induction is generalizing s with
  | nil => rfl
  | cons i is ih =>
    have hrest := ih (h.inv s i hs)
    rw [trace_cons, List.map_append, hrest]
    cases hpick : pick i with
    | none =>
      obtain ⟨htable, hquiet⟩ := h.skip s i hs hpick
      rw [List.filterMap_cons_none hpick, hquiet, htable]
      rfl
    | some a =>
      obtain ⟨htable, hout⟩ := h.call s i a hs hpick
      rw [List.filterMap_cons_some hpick, hout, htable, trace_cons, List.map_append]

/-- **How often a component emits.** In every window there are at most as many cooldowns between the
    times at which a run emits something for a key as fit into it. -/
theorem Cooldown.Governs.count_le {step : σ → ι → σ × List ω} {I : σ → Prop}
    {table : σ → κ → Option Int} {pick : ι → Option (CooldownCall κ)} {stamp : ω → κ × Int}
    (h : c.Governs step I table pick stamp) (hunit : 0 < c.unit) {s : σ} (hs : I s) {is : List ι}
    (hclock : ∀ i ∈ is, ∀ a ∈ pick i, a.checkedAt ≤ a.recordedAt) (k : κ) {lo hi : Int}
    (hwindow : lo ≤ hi) :
    ((((trace step s is).filter fun o => (stamp o).1 = k ∧ lo ≤ (stamp o).2 ∧
      (stamp o).2 ≤ hi).length - 1 : ℕ) : Int) * c.gap k ≤ hi - lo := by
  have hcalls : ∀ a ∈ is.filterMap pick, a.checkedAt ≤ a.recordedAt := by
    intro a ha
    obtain ⟨i, hi, hpick⟩ := List.mem_filterMap.mp ha
    exact hclock i hi a hpick
  have hbound := Cooldown.count_le hunit k (table s) hcalls hwindow
  have hcount : ((trace step s is).filter fun o => (stamp o).1 = k ∧ lo ≤ (stamp o).2 ∧
      (stamp o).2 ≤ hi).length =
      ((timesOf k (trace c.step (table s) (is.filterMap pick))).filter
        fun t => lo ≤ t ∧ t ≤ hi).length := by
    -- both are counted by their stamps
    have hstamps := congrArg (fun out => (out.filter fun p : κ × Int =>
      p.1 = k ∧ lo ≤ p.2 ∧ p.2 ≤ hi).length) (h.trace_eq hs is)
    simp only [List.filter_map, List.length_map] at hstamps
    rw [timesOf, List.filter_map, List.length_map, List.filter_filter]
    refine hstamps.trans (congrArg List.length (List.filter_congr fun a _ => ?_))
    rw [Bool.eq_iff_iff]
    simp only [CooldownCall.stamp, Function.comp_apply, Bool.and_eq_true, decide_eq_true_eq]
    exact decide_eq_true_iff.trans and_comm
  rw [hcount]
  exact hbound

end

end AgentTermStatus.Lib
