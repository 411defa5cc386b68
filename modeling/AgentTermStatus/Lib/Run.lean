import Mathlib.Data.List.Basic
import Mathlib.Data.List.Infix

namespace AgentTermStatus.Lib

/-!
# Runs of a step function

A component is a step function `σ → ι → σ × List ω`: from a state and an operation it
gives the next state and what it emits.  Nondeterminism (clock readings, enumeration
orders, outcomes of system calls) is part of the operation.

* `exec`, `trace` — the state after a list of operations, and everything emitted;
* `Along` — every step of a run meets a condition on the state before it;
* `Along.exec_inv`, `Along.trace_inv` — the induction over runs, once for all: what a
  step preserves, a run preserves;
* `Along.trace_iff` — a property of the whole run holds at its end exactly when every step meets a
  condition, given what one step does to the property;
* `forall_prefix_iff_along` — a safety property holds after every prefix of a run
  exactly when every step meets a condition, given what one step does;
* `Since`, `Along.since_or_iff` — one kind of step has happened, and only another kind since; what
  is brought about by the first kind and kept by the second holds exactly then;
* `IsPart`, `IsPart.view_exec` — a run seen from one part of the system is that part's run;
* `Along.lockstep` — a run and the run of another system on some of its operations, related
  at every step;
* `ConnectedPath` — a list of edges that leads from one vertex to another.
-/

section
variable {σ ι ω : Type*} (step : σ → ι → σ × List ω)

/-- The state after the operations. -/
def exec : σ → List ι → σ
  | s, [] => s
  | s, i :: is => exec (step s i).1 is

/-- Everything emitted by the operations, in order. -/
def trace : σ → List ι → List ω
  | _, [] => []
  | s, i :: is => (step s i).2 ++ trace (step s i).1 is

/-- Every step of the run meets `C` in the state before it. -/
def Along (C : σ → ι → Prop) : σ → List ι → Prop
  | _, [] => True
  | s, i :: is => C s i ∧ Along C (step s i).1 is

/-- A condition that can be decided for a step can be decided for a run. -/
instance decidableAlong (C : σ → ι → Prop) [∀ s i, Decidable (C s i)] :
    ∀ s is, Decidable (Along step C s is)
  | _, [] => inferInstanceAs (Decidable True)
  | s, i :: is =>
      haveI := decidableAlong C (step s i).1 is
      inferInstanceAs (Decidable (C s i ∧ Along step C (step s i).1 is))

@[simp] theorem exec_nil (s : σ) : exec step s [] = s := rfl
@[simp] theorem exec_cons (s : σ) (i : ι) (is : List ι) :
    exec step s (i :: is) = exec step (step s i).1 is := rfl
@[simp] theorem trace_nil (s : σ) : trace step s [] = [] := rfl
@[simp] theorem trace_cons (s : σ) (i : ι) (is : List ι) :
    trace step s (i :: is) = (step s i).2 ++ trace step (step s i).1 is := rfl
@[simp] theorem along_nil (C : σ → ι → Prop) (s : σ) : Along step C s [] := trivial
@[simp] theorem along_cons (C : σ → ι → Prop) (s : σ) (i : ι) (is : List ι) :
    Along step C s (i :: is) ↔ C s i ∧ Along step C (step s i).1 is := Iff.rfl

/-! ### Composition -/

@[simp] theorem exec_append (s : σ) (xs ys : List ι) :
    exec step s (xs ++ ys) = exec step (exec step s xs) ys := by
  induction xs generalizing s with
  | nil => rfl
  | cons i xs ih => exact ih _

@[simp] theorem trace_append (s : σ) (xs ys : List ι) :
    trace step s (xs ++ ys) = trace step s xs ++ trace step (exec step s xs) ys := by
  induction xs generalizing s with
  | nil => rfl
  | cons i xs ih => simp only [List.cons_append, trace_cons, ih, exec_cons, List.append_assoc]

@[simp] theorem along_append (C : σ → ι → Prop) (s : σ) (xs ys : List ι) :
    Along step C s (xs ++ ys) ↔ Along step C s xs ∧ Along step C (exec step s xs) ys := by
  induction xs generalizing s with
  | nil => simp
  | cons i xs ih => simp only [List.cons_append, along_cons, ih, exec_cons, and_assoc]

variable {step}

/-- A run that meets `C` meets every weaker condition. -/
theorem Along.mono {C D : σ → ι → Prop} (h : ∀ s i, C s i → D s i) {s : σ} {is : List ι}
    (hrun : Along step C s is) : Along step D s is := by
  induction is generalizing s with
  | nil => trivial
  | cons i is ih => exact ⟨h s i hrun.1, ih hrun.2⟩

/-- A condition that holds of every step holds along every run. -/
theorem along_of_forall {C : σ → ι → Prop} (h : ∀ s i, C s i) (s : σ) (is : List ι) :
    Along step C s is := by
  induction is generalizing s with
  | nil => trivial
  | cons i is ih => exact ⟨h s i, ih _⟩

/-- A run that meets `C` meets, besides, what holds of all its operations. -/
theorem Along.and_of_mem {C : σ → ι → Prop} {Q : ι → Prop} {s : σ} {is : List ι}
    (hrun : Along step C s is) (h : ∀ i ∈ is, Q i) : Along step (fun s i => C s i ∧ Q i) s is := by
  induction is generalizing s with
  | nil => trivial
  | cons i is ih => exact ⟨⟨hrun.1, h i (by simp)⟩, ih hrun.2 fun j hj => h j (by simp [hj])⟩

/-- What a run meets, its prefixes meet. -/
theorem Along.of_isPrefix {C : σ → ι → Prop} {s : σ} {p is : List ι} (hrun : Along step C s is)
    (hp : p <+: is) : Along step C s p := by
  obtain ⟨q, rfl⟩ := hp
  exact ((along_append ..).mp hrun).1

/-! ### Induction over runs -/

/-- **Invariant rule.** What every step that meets `C` preserves holds after every run
    whose steps meet `C`. -/
theorem Along.exec_inv {C : σ → ι → Prop} (I : σ → Prop)
    (hstep : ∀ s i, C s i → I s → I (step s i).1) {s : σ} {is : List ι}
    (hrun : Along step C s is) (hs : I s) : I (exec step s is) := by
  induction is generalizing s with
  | nil => exact hs
  | cons i is ih => exact ih hrun.2 (hstep s i hrun.1 hs)

/-- **Strengthening rule.** If every step that meets `C` keeps an invariant, and meets `D`
    in a state with the invariant, a run that meets `C` meets `D`. -/
theorem Along.strengthen {C D : σ → ι → Prop} (I : σ → Prop)
    (hstep : ∀ s i, C s i → I s → I (step s i).1) (hgood : ∀ s i, C s i → I s → D s i)
    {s : σ} {is : List ι} (hrun : Along step C s is) (hs : I s) : Along step D s is := by
  induction is generalizing s with
  | nil => trivial
  | cons i is ih => exact ⟨hgood s i hrun.1 hs, ih hrun.2 (hstep s i hrun.1 hs)⟩

/-- **Trace rule.** An invariant that also speaks of everything emitted so far. -/
theorem Along.trace_inv {C : σ → ι → Prop} (J : List ω → σ → Prop)
    (hstep : ∀ out s i, C s i → J out s → J (out ++ (step s i).2) (step s i).1)
    {out : List ω} {s : σ} {is : List ι} (hrun : Along step C s is) (hs : J out s) :
    J (out ++ trace step s is) (exec step s is) := by
  induction is generalizing out s with
  | nil => simpa using hs
  | cons i is ih =>
    have hnext := ih hrun.2 (hstep out s i hrun.1 hs)
    simpa only [trace_cons, exec_cons, List.append_assoc] using hnext

/-- **Exact condition at the end.** A property of everything emitted so far and the state, which a
    step keeps or brings about exactly when it meets `C`, holds at the end of a run exactly when it
    held at the start and every step meets `C`. -/
theorem Along.trace_iff {E C : σ → ι → Prop} (J Q : List ω → σ → Prop)
    (hstep : ∀ out s i, E s i → J out s → J (out ++ (step s i).2) (step s i).1 ∧
      (Q (out ++ (step s i).2) (step s i).1 ↔ Q out s ∧ C s i))
    {out : List ω} {s : σ} {is : List ι} (hrun : Along step E s is) (hs : J out s) :
    Q (out ++ trace step s is) (exec step s is) ↔ Q out s ∧ Along step C s is := by
  induction is generalizing out s with
  | nil => simp
  | cons i is ih =>
    obtain ⟨hnext, hiff⟩ := hstep out s i hrun.1 hs
    have htail := ih hrun.2 hnext
    rw [trace_cons, exec_cons, along_cons, ← List.append_assoc, htail, hiff, and_assoc]

/-- **Exact condition for safety.** `P` holds after every prefix of a run exactly when
    every step meets `C`, provided that steps meeting `C` keep an invariant that gives
    `P`, and that a step failing `C` breaks `P` at once. -/
theorem forall_prefix_iff_along {E C : σ → ι → Prop} {I P : σ → Prop}
    (hkeep : ∀ s i, E s i → I s → C s i → I (step s i).1)
    (hgood : ∀ s, I s → P s)
    (hbad : ∀ s i, E s i → I s → ¬ C s i → ¬ P (step s i).1)
    {s : σ} {is : List ι} (hrun : Along step E s is) (hs : I s) :
    (∀ p, p <+: is → P (exec step s p)) ↔ Along step C s is := by
  induction is generalizing s with
  | nil =>
    refine ⟨fun _ => trivial, fun _ p hp => ?_⟩
    rw [List.prefix_nil.mp hp]
    exact hgood s hs
  | cons i is ih =>
    refine ⟨?_, ?_⟩
    · intro hall
      -- the prefix of the first step alone already fails if that step does
      have hC : C s i := by
        by_contra hC
        exact hbad s i hrun.1 hs hC (hall [i] (by simp))
      refine ⟨hC, (ih hrun.2 (hkeep s i hrun.1 hs hC)).mp fun p hp => ?_⟩
      exact hall (i :: p) (by simpa using hp)
    · rintro ⟨hC, hrest⟩ p hp
      cases p with
      | nil => exact hgood s hs
      | cons j p =>
        obtain ⟨rfl, htail⟩ := List.cons_prefix_cons.mp hp
        exact (ih hrun.2 (hkeep s j hrun.1 hs hC)).mpr hrest p htail

end

/-! ### What has held since -/

section
variable {σ ι ω : Type*} (step : σ → ι → σ × List ω)

/-- A step of the run meets `A`, and every later one meets `B`. -/
def Since (A B : σ → ι → Prop) (s : σ) (is : List ι) : Prop :=
  ∃ pre i post, is = pre ++ i :: post ∧ A (exec step s pre) i ∧
    Along step B (exec step s (pre ++ [i])) post

/-- Nothing has happened in the empty run. -/
theorem not_since_nil (A B : σ → ι → Prop) (s : σ) : ¬ Since step A B s [] := by
  rintro ⟨pre, i, post, heq, -⟩
  exact absurd heq (by simp)

/-- One more step: it meets `A`, or it meets `B` and `A` has happened before. -/
theorem since_concat (A B : σ → ι → Prop) (s : σ) (is : List ι) (i : ι) :
    Since step A B s (is ++ [i]) ↔
      A (exec step s is) i ∨ Since step A B s is ∧ B (exec step s is) i := by
  refine ⟨?_, ?_⟩
  · rintro ⟨pre, j, post, heq, hA, hB⟩
    rcases List.eq_nil_or_concat' post with rfl | ⟨post, k, rfl⟩
    · -- the last step is the one that meets `A`
      obtain ⟨rfl, heq⟩ := List.append_inj' heq rfl
      obtain rfl : i = j := by simpa using heq
      exact Or.inl hA
    · rw [← List.cons_append, ← List.append_assoc] at heq
      obtain ⟨rfl, heq⟩ := List.append_inj' heq rfl
      obtain rfl : i = k := by simpa using heq
      rw [along_append] at hB
      refine Or.inr ⟨⟨pre, j, post, rfl, hA, hB.1⟩, ?_⟩
      rw [List.append_cons, exec_append]
      exact hB.2.1
  · rintro (hA | ⟨⟨pre, j, post, rfl, hA, hB⟩, hi⟩)
    · exact ⟨is, i, [], rfl, hA, trivial⟩
    · refine ⟨pre, j, post ++ [i], by simp, hA, (along_append ..).mpr ⟨hB, ?_, trivial⟩⟩
      rw [← exec_append, ← List.append_cons]
      exact hi

variable {step}

/-- **Since rule.** If each step brings a property of the run about exactly when it meets `A`, and
    keeps it exactly when it meets `B`, the property holds exactly if a step has met `A` and every
    later one `B`, or if it held before the run and every step has met `B`. -/
theorem Along.since_or_iff {C A B : σ → ι → Prop} {s : σ} (Q : List ι → Prop)
    (hstep : ∀ is i, Along step C s is → C (exec step s is) i →
      (Q (is ++ [i]) ↔ A (exec step s is) i ∨ Q is ∧ B (exec step s is) i))
    {is : List ι} (hrun : Along step C s is) :
    Q is ↔ Since step A B s is ∨ Q [] ∧ Along step B s is := by
  induction is using List.reverseRecOn with
  | nil => simp [not_since_nil step A B s, Along]
  | append_singleton is i ih =>
    obtain ⟨hbefore, hi, -⟩ := (along_append ..).mp hrun
    rw [since_concat, hstep is i hbefore hi, ih hbefore, along_append]
    simp only [Along, and_true]
    tauto

/-- What does not hold before the run holds exactly if a step has met `A` and every later one
    `B`. -/
theorem Along.since_iff {C A B : σ → ι → Prop} {s : σ} (Q : List ι → Prop) (hnil : ¬ Q [])
    (hstep : ∀ is i, Along step C s is → C (exec step s is) i →
      (Q (is ++ [i]) ↔ A (exec step s is) i ∨ Q is ∧ B (exec step s is) i))
    {is : List ι} (hrun : Along step C s is) : Q is ↔ Since step A B s is := by
  rw [hrun.since_or_iff Q hstep]
  exact or_iff_left fun h => hnil h.1

end

/-! ### Projection to a part of a system -/

section
variable {σ ι ω τ κ : Type*} (step : σ → ι → σ × List ω) (part : τ → κ → τ × List ω)

/-- `part` is what the system does to the part of it that `view` shows: an operation acts
    on that part through what `pick` makes of it, if anything, and of its outputs those
    accepted by `own` are the part's. -/
structure IsPart (view : σ → τ) (pick : ι → Option κ) (own : ω → Bool) : Prop where
  view_step : ∀ s i, view (step s i).1 = (pick i).elim (view s) fun k => (part (view s) k).1
  own_step : ∀ s i, (step s i).2.filter own = (pick i).elim [] fun k => (part (view s) k).2

variable {step part} {view : σ → τ} {pick : ι → Option κ} {own : ω → Bool}

/-- **Projection rule.** A run of the system, seen from the part, is the part's own run on
    the operations picked for it. -/
theorem IsPart.view_exec (h : IsPart step part view pick own) (s : σ) (is : List ι) :
    view (exec step s is) = exec part (view s) (is.filterMap pick) := by
  induction is generalizing s with
  | nil => rfl
  | cons i is ih =>
    rw [exec_cons, ih, h.view_step, List.filterMap_cons]
    cases pick i <;> rfl

/-- The part's outputs in a run of the system are the outputs of the part's own run. -/
theorem IsPart.own_trace (h : IsPart step part view pick own) (s : σ) (is : List ι) :
    (trace step s is).filter own = trace part (view s) (is.filterMap pick) := by
  induction is generalizing s with
  | nil => rfl
  | cons i is ih =>
    rw [trace_cons, List.filter_append, ih, h.own_step, h.view_step, List.filterMap_cons]
    cases pick i <;> rfl

end

/-! ### Two runs in lockstep -/

section
variable {σ ι ω τ κ : Type*} {step : σ → ι → σ × List ω} {part : τ → κ → τ × List ω}

/-- **Lockstep rule.** Another system is run on some operations of a run, those `pick` makes
    something of.  If the skipped operations keep a relation between the states and emit nothing
    `own` accepts, and the others keep it, are possible for the other system and emit the same
    there, then all this holds of the runs. -/
theorem Along.lockstep {C : σ → ι → Prop} {D : τ → κ → Prop} (pick : ι → Option κ)
    (own : ω → Bool) (R : σ → τ → Prop)
    (hskip : ∀ s t i, C s i → R s t → pick i = none →
      R (step s i).1 t ∧ (step s i).2.filter own = [])
    (hboth : ∀ s t i k, C s i → R s t → pick i = some k →
      D t k ∧ R (step s i).1 (part t k).1 ∧ (step s i).2.filter own = (part t k).2.filter own)
    {s : σ} {t : τ} {is : List ι} (hrun : Along step C s is) (hst : R s t) :
    Along part D t (is.filterMap pick) ∧
      R (exec step s is) (exec part t (is.filterMap pick)) ∧
      (trace step s is).filter own = (trace part t (is.filterMap pick)).filter own := by
  induction is generalizing s t with
  | nil => exact ⟨trivial, hst, rfl⟩
  | cons i is ih =>
    obtain ⟨hi, hrun⟩ := hrun
    cases hpick : pick i with
    | none =>
      obtain ⟨hnext, hquiet⟩ := hskip s t i hi hst hpick
      obtain ⟨halong, hrel, htrace⟩ := ih hrun hnext
      rw [List.filterMap_cons_none hpick, trace_cons, List.filter_append, hquiet,
        List.nil_append]
      exact ⟨halong, hrel, htrace⟩
    | some k =>
      obtain ⟨hk, hnext, hout⟩ := hboth s t i k hi hst hpick
      obtain ⟨halong, hrel, htrace⟩ := ih hrun hnext
      rw [List.filterMap_cons_some hpick, trace_cons, trace_cons, List.filter_append,
        List.filter_append, hout, htrace]
      exact ⟨⟨hk, halong⟩, hrel, rfl⟩

end

/-! ### Connected paths -/

section
variable {α : Type*}

/-- The edges, each a pair of different vertices, lead from `a` to `b`. -/
def ConnectedPath : α → List (α × α) → α → Prop
  | a, [], b => a = b
  | a, (p, n) :: es, b => p = a ∧ p ≠ n ∧ ConnectedPath n es b

@[simp] theorem connectedPath_nil (a b : α) : ConnectedPath a [] b ↔ a = b := Iff.rfl
@[simp] theorem connectedPath_cons (a b p n : α) (es : List (α × α)) :
    ConnectedPath a ((p, n) :: es) b ↔ p = a ∧ p ≠ n ∧ ConnectedPath n es b := Iff.rfl

/-- Paths compose. -/
theorem connectedPath_append (a c : α) (es fs : List (α × α)) :
    ConnectedPath a (es ++ fs) c ↔ ∃ b, ConnectedPath a es b ∧ ConnectedPath b fs c := by
  induction es generalizing a with
  | nil => simp
  | cons e es ih =>
    obtain ⟨p, n⟩ := e
    simp only [List.cons_append, connectedPath_cons, ih]
    refine ⟨?_, ?_⟩
    · rintro ⟨hp, hne, b, hes, hfs⟩
      exact ⟨b, ⟨hp, hne, hes⟩, hfs⟩
    · rintro ⟨b, ⟨hp, hne, hes⟩, hfs⟩
      exact ⟨hp, hne, b, hes, hfs⟩

/-- A path, edge by edge: it starts at `a`, every edge starts where the one before it
    ended, no edge is a loop, and it ends at `b`. -/
theorem connectedPath_iff (a b : α) (es : List (α × α)) :
    ConnectedPath a es b ↔
      (∀ e ∈ es.head?, e.1 = a) ∧ es.IsChain (fun e f => f.1 = e.2) ∧
        (∀ e ∈ es, e.1 ≠ e.2) ∧ (es.getLast?.map Prod.snd).getD a = b := by
  induction es generalizing a with
  | nil => simp
  | cons e es ih =>
    obtain ⟨p, n⟩ := e
    rw [connectedPath_cons, ih]
    -- the chain condition looks at the next edge, if there is one
    cases es with
    | nil => simp
    | cons f es =>
      simp only [List.head?_cons, Option.mem_def, Option.some.injEq, forall_eq',
        List.isChain_cons_cons, List.mem_cons, forall_eq_or_imp, List.getLast?_cons_cons]
      refine ⟨?_, ?_⟩
      · rintro ⟨hp, hne, hf, hchain, hall, hlast⟩
        refine ⟨hp, ⟨hf, hchain⟩, ⟨hne, hall⟩, ?_⟩
        simpa [List.getLast?_cons] using hlast
      · rintro ⟨hp, ⟨hf, hchain⟩, ⟨hne, hall⟩, hlast⟩
        refine ⟨hp, hne, hf, hchain, hall, ?_⟩
        simpa [List.getLast?_cons] using hlast

/-- Along a path no vertex is followed by itself, and it ends at `b`. -/
theorem connectedPath_isChain_ne {a b : α} {es : List (α × α)} (h : ConnectedPath a es b) :
    (a :: es.map Prod.snd).IsChain (· ≠ ·) ∧ (es.map Prod.snd).getLast?.getD a = b := by
  induction es generalizing a with
  | nil => simpa using h
  | cons e es ih =>
    obtain ⟨p, n⟩ := e
    obtain ⟨rfl, hne, hrest⟩ := h
    obtain ⟨hchain, hlast⟩ := ih hrest
    refine ⟨List.IsChain.cons_cons hne hchain, ?_⟩
    rw [List.map_cons, List.getLast?_cons]
    exact hlast

end

end AgentTermStatus.Lib
