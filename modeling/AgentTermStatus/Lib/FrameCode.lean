import Mathlib.Logic.ExistsUnique
import Mathlib.Data.List.Basic

namespace AgentTermStatus.Lib

/-!
# Self-delimiting codes

A stream is read by taking words off its front.  `FrameCode` is a code whose words can be
taken off: the first word of a stream, if there is one, and the rest of the stream are
determined.  `split` takes off words until there is none left, and this is the only way to
cut the stream into words and a rest that starts with no word (`split_spec`, `split_unique`).
-/

/-- A code whose words can be read off the front of a stream. -/
structure FrameCode (α β : Type*) where
  /-- The word of a value. -/
  enc : α → List β
  /-- The first value of a stream, and the rest. -/
  next : List β → Option (α × List β)
  /-- A word is read back. -/
  next_enc : ∀ a r, next (enc a ++ r) = some (a, r)
  /-- Only words are read. -/
  eq_of_next : ∀ {b a r}, next b = some (a, r) → b = enc a ++ r
  /-- No word is empty. -/
  enc_ne_nil : ∀ a, enc a ≠ []

namespace FrameCode
variable {α β : Type*} (C : FrameCode α β)

/-- The words of some values, one after the other. -/
def encAll (as : List α) : List β := as.flatMap C.enc

@[simp] theorem encAll_nil : C.encAll [] = [] := rfl

@[simp] theorem encAll_cons (a : α) (as : List α) :
    C.encAll (a :: as) = C.enc a ++ C.encAll as := rfl

/-- Reading a word leaves a shorter stream. -/
theorem length_lt_of_next {b r : List β} {a : α} (h : C.next b = some (a, r)) :
    r.length < b.length := by
  have hpos := List.length_pos_iff.mpr (C.enc_ne_nil a)
  rw [C.eq_of_next h, List.length_append]
  omega

/-- Nothing is read exactly if the stream starts with no word. -/
theorem next_eq_none_iff (b : List β) : C.next b = none ↔ ∀ a, ¬ C.enc a <+: b := by
  refine ⟨?_, fun h => ?_⟩
  · rintro hnone a ⟨r, rfl⟩
    rw [C.next_enc] at hnone
    exact absurd hnone (by simp)
  · cases hb : C.next b with
    | none => rfl
    | some p => exact absurd ⟨p.2, (C.eq_of_next hb).symm⟩ (h p.1)

/-- The values of a stream, and what is left when no more can be read. -/
def split (b : List β) : List α × List β :=
  match _h : C.next b with
  | none => ([], b)
  | some (a, r) => (a :: (split r).1, (split r).2)
termination_by b.length
decreasing_by all_goals exact C.length_lt_of_next _h

theorem split_of_none {b : List β} (h : C.next b = none) : C.split b = ([], b) := by
  unfold split
  split
  · rfl
  · next h' => exact absurd (h'.symm.trans h) (by simp)

theorem split_of_some {b r : List β} {a : α} (h : C.next b = some (a, r)) :
    C.split b = (a :: (C.split r).1, (C.split r).2) := by
  rw [split]
  split
  · next h' => exact absurd (h.symm.trans h') (by simp)
  · next h' =>
    obtain ⟨rfl, rfl⟩ := Prod.mk.inj (Option.some.inj (h'.symm.trans h))
    rfl

/-- **Soundness.** The stream is made of the words read and of what is left, which starts
    with no word. -/
theorem split_spec (b : List β) :
    b = C.encAll (C.split b).1 ++ (C.split b).2 ∧ C.next (C.split b).2 = none := by
  induction hn : b.length using Nat.strongRecOn generalizing b with
  | _ n ih =>
    cases h : C.next b with
    | none => rw [C.split_of_none h]; exact ⟨rfl, h⟩
    | some p =>
      obtain ⟨a, r⟩ := p
      obtain ⟨heq, hend⟩ := ih r.length (hn ▸ C.length_lt_of_next h) r rfl
      rw [C.split_of_some h]
      refine ⟨?_, hend⟩
      rw [encAll_cons, List.append_assoc, ← heq]
      exact C.eq_of_next h

/-- **Uniqueness.** There is no other way to cut the stream into words and a rest that starts
    with no word. -/
theorem split_unique {as : List α} {r : List β} (h : C.next r = none) :
    C.split (C.encAll as ++ r) = (as, r) := by
  induction as with
  | nil => exact C.split_of_none h
  | cons a as ih =>
    rw [encAll_cons, List.append_assoc, C.split_of_some (C.next_enc a _), ih]

end FrameCode

end AgentTermStatus.Lib
