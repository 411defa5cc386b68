import AgentTermStatus.Lib.FrameCode

namespace AgentTermStatus.Lib

/-!
# Operating system commands of a terminal

A terminal takes `ESC ]`, some bytes and `BEL` for a command, and other bytes for text.  An
`OscBody` carries the proof that it contains neither `ESC` nor `BEL`, so the command it is written
as ends where it should.

* `oscCode` — commands are a self-delimiting code: a terminal reads back the commands that were
  written, and there is no other way to read them;
* `count_esc_encAll`, `count_bel_encAll` — in a stream of commands `ESC` and `BEL` occur once for
  each of them.
-/

/-- The byte that introduces a command. -/
def esc : UInt8 := 0x1b

/-- The byte that ends a command. -/
def bel : UInt8 := 0x07

/-- The byte between `ESC` and the body of a command. -/
def bracket : UInt8 := 0x5d

/-- May the byte stand in the body of a command? -/
def isBodyByte (b : UInt8) : Bool := b != esc && b != bel

/-- The body of a command. -/
structure OscBody where
  bytes : List UInt8
  /-- Nothing in it introduces or ends a command. -/
  clean : bytes.all isBodyByte = true

namespace OscBody

/-- Two bodies with the same bytes are equal. -/
theorem ext {a b : OscBody} (h : a.bytes = b.bytes) : a = b := by
  cases a; cases b; simpa using h

/-- The command with this body. -/
def command (o : OscBody) : List UInt8 := esc :: bracket :: (o.bytes ++ [bel])

/-- The body that some bytes begin with. -/
def front (bs : List UInt8) : OscBody where
  bytes := bs.takeWhile isBodyByte
  clean := List.all_takeWhile

/-- The command a stream begins with, and the rest of the stream. -/
def next : List UInt8 → Option (OscBody × List UInt8)
  | b :: b' :: bs =>
    if b = esc ∧ b' = bracket then
      match bs.dropWhile isBodyByte with
      | t :: rest => if t = bel then some (front bs, rest) else none
      | []        => none
    else none
  | _ => none

/-- A body is read up to its end. -/
theorem takeWhile_body (o : OscBody) (r : List UInt8) :
    (o.bytes ++ bel :: r).takeWhile isBodyByte = o.bytes ∧
      (o.bytes ++ bel :: r).dropWhile isBodyByte = bel :: r := by
  have hall : ∀ b ∈ o.bytes, isBodyByte b = true := List.all_eq_true.mp o.clean
  have hbel : ¬ isBodyByte bel = true := by decide
  refine ⟨?_, ?_⟩
  · rw [List.takeWhile_append_of_pos hall, List.takeWhile_cons_of_neg hbel, List.append_nil]
  · rw [List.dropWhile_append_of_pos hall, List.dropWhile_cons_of_neg hbel]

theorem next_command (o : OscBody) (r : List UInt8) :
    next (o.command ++ r) = some (o, r) := by
  have hsplit : o.command ++ r = esc :: bracket :: (o.bytes ++ bel :: r) := by
    simp [command]
  obtain ⟨htake, hdrop⟩ := takeWhile_body o r
  rw [hsplit, next, if_pos ⟨rfl, rfl⟩, hdrop]
  simp only [if_true]
  rw [show front (o.bytes ++ bel :: r) = o from ext htake]

theorem eq_of_next {bs r : List UInt8} {o : OscBody} (h : next bs = some (o, r)) :
    bs = o.command ++ r := by
  unfold next at h
  split at h
  · next b b' bs =>
    split at h
    · next hintro =>
      obtain ⟨rfl, rfl⟩ := hintro
      split at h
      · next t rest hdrop =>
        split at h
        · next hbel =>
          subst hbel
          obtain ⟨rfl, rfl⟩ := Prod.mk.inj (Option.some.inj h)
          have hbody := List.takeWhile_append_dropWhile (p := isBodyByte) (l := bs)
          rw [hdrop] at hbody
          have hcommand : (front bs).command ++ rest =
              esc :: bracket :: (bs.takeWhile isBodyByte ++ bel :: rest) := by
            simp [command, front]
          rw [hcommand, hbody]
        · exact absurd h (by simp)
      · exact absurd h (by simp)
    · exact absurd h (by simp)
  · exact absurd h (by simp)

end OscBody

/-- Commands are a self-delimiting code. -/
def oscCode : FrameCode OscBody UInt8 where
  enc := OscBody.command
  next := OscBody.next
  next_enc := OscBody.next_command
  eq_of_next := OscBody.eq_of_next
  enc_ne_nil _ := List.cons_ne_nil _ _

/-- A terminal that reads a stream of commands reads these commands, and nothing is left. -/
theorem split_encAll_oscCode (os : List OscBody) :
    oscCode.split (oscCode.encAll os) = (os, []) := by
  have hnone : oscCode.next [] = none := rfl
  have hsplit : oscCode.split (oscCode.encAll os ++ []) = (os, []) := oscCode.split_unique hnone
  rwa [List.append_nil] at hsplit

/-- A byte that no body contains occurs in a stream once for each of its commands, if it occurs
    once around a body. -/
theorem count_encAll {b : UInt8} (hbody : isBodyByte b = false)
    (haround : [esc, bracket, bel].count b = 1) (os : List OscBody) :
    (oscCode.encAll os).count b = os.length := by
  induction os with
  | nil => rfl
  | cons o os ih =>
    have hnone : o.bytes.count b = 0 := by
      refine List.count_eq_zero_of_not_mem fun hmem => ?_
      rw [List.all_eq_true.mp o.clean b hmem] at hbody
      exact absurd hbody (by decide)
    have hcommand : o.command.count b = 1 := by
      rw [← haround, OscBody.command]
      simp only [List.count_cons, List.count_append, hnone, List.count_nil]
      omega
    rw [FrameCode.encAll_cons, List.count_append, ih]
    show o.command.count b + os.length = _
    rw [hcommand, List.length_cons]
    omega

/-- `ESC` occurs once for each command. -/
theorem count_esc_encAll (os : List OscBody) : (oscCode.encAll os).count esc = os.length :=
  count_encAll (by decide) (by decide) os

/-- `BEL` occurs once for each command. -/
theorem count_bel_encAll (os : List OscBody) : (oscCode.encAll os).count bel = os.length :=
  count_encAll (by decide) (by decide) os

end AgentTermStatus.Lib
