import Mathlib.Data.List.Basic

namespace AgentTermStatus.Lib

/-!
# Bounded channels

A `Channel` holds what was sent and not yet received, oldest first, and never more than its
capacity.  Once its receiver is gone it is closed: it takes nothing and holds nothing.

`Ledger sent received waiting c` is the account of a channel: what was ever sent is what was
received and what was not, and while the channel is open the latter still waits in it.  Each
operation keeps the account (`Ledger.trySend`, `Ledger.recv`, `Ledger.close`); what waits when the
channel is closed is never received.
-/

/-- A channel for at most `capacity` values at a time. -/
structure Channel (α : Type*) (capacity : Nat) where
  /-- What was sent and not received, oldest first. -/
  queue : List α
  /-- The receiver is gone. -/
  closed : Bool
  bounded : queue.length ≤ capacity

/-- Why a value is not taken. -/
inductive TrySendError
  /-- There is no room now. -/
  | full
  /-- There is no receiver. -/
  | closed
  deriving DecidableEq

namespace Channel
variable {α : Type*} {capacity : Nat}

/-- An empty channel. -/
def new (α : Type*) (capacity : Nat) : Channel α capacity where
  queue := []
  closed := false
  bounded := Nat.zero_le _

/-- Sends a value, if there is a receiver and room. -/
def trySend (c : Channel α capacity) (a : α) : Except TrySendError (Channel α capacity) :=
  if c.closed then .error .closed
  else if h : c.queue.length < capacity then
    .ok { c with queue := c.queue ++ [a], bounded := by simpa using Nat.succ_le_of_lt h }
  else .error .full

/-- Receives the oldest value, if there is one. -/
def recv (c : Channel α capacity) : Option (α × Channel α capacity) :=
  match h : c.queue with
  | []        => none
  | a :: rest =>
    some (a, { c with queue := rest, bounded := by have := c.bounded; simp [h] at this; omega })

/-- The receiver goes, and with it all that waits. -/
def close (_ : Channel α capacity) : Channel α capacity where
  queue := []
  closed := true
  bounded := Nat.zero_le _

/-- A value that was sent waits behind the others in an open channel. -/
theorem of_trySend {c c' : Channel α capacity} {a : α} (h : c.trySend a = .ok c') :
    c.closed = false ∧ c'.closed = false ∧ c'.queue = c.queue ++ [a] := by
  unfold trySend at h
  split at h
  · exact absurd h (by simp)
  · next hopen =>
    split at h
    · obtain rfl := Except.ok.inj h
      exact ⟨by simpa using hopen, by simpa using hopen, rfl⟩
    · exact absurd h (by simp)

/-- While there is a receiver and room, a value is sent. -/
theorem exists_trySend {c : Channel α capacity} (hopen : c.closed = false)
    (hroom : c.queue.length < capacity) (a : α) : ∃ c', c.trySend a = .ok c' := by
  unfold trySend
  rw [if_neg (by simp [hopen]), dif_pos hroom]
  exact ⟨_, rfl⟩

/-- A value is sent only if there was room. -/
theorem room_of_trySend {c c' : Channel α capacity} {a : α} (h : c.trySend a = .ok c') :
    c.queue.length < capacity := by
  have hbounded := c'.bounded
  rw [(of_trySend h).2.2, List.length_append] at hbounded
  exact hbounded

/-- A value is turned away only if there is no receiver. -/
theorem closed_of_trySend {c : Channel α capacity} {a : α} (h : c.trySend a = .error .closed) :
    c.closed = true := by
  unfold trySend at h
  split at h
  · next hclosed => exact hclosed
  · split at h
    · exact absurd h (by simp)
    · exact absurd h (by simp)

/-- A value that is received was the oldest. -/
theorem of_recv {c c' : Channel α capacity} {a : α} (h : c.recv = some (a, c')) :
    c'.closed = c.closed ∧ c.queue = a :: c'.queue := by
  unfold recv at h
  split at h
  · exact absurd h (by simp)
  · next hqueue =>
    obtain ⟨rfl, rfl⟩ := Prod.mk.inj (Option.some.inj h)
    exact ⟨rfl, hqueue⟩

/-- Nothing is received from an empty channel. -/
theorem recv_eq_none_iff (c : Channel α capacity) : c.recv = none ↔ c.queue = [] := by
  unfold recv
  split <;> simp_all

end Channel

/-! ### The account of a channel -/

/-- What was sent into the channel was received or was not, in this order; while the channel is
    open, what was not received waits in it. -/
structure Ledger {α : Type*} {capacity : Nat} (sent received waiting : List α)
    (c : Channel α capacity) : Prop where
  fifo : sent = received ++ waiting
  waits : c.closed = false → c.queue = waiting

namespace Ledger
variable {α : Type*} {capacity : Nat} {sent received waiting : List α} {c c' : Channel α capacity}
  {a : α}

theorem new (α : Type*) (capacity : Nat) : Ledger [] [] [] (Channel.new α capacity) where
  fifo := rfl
  waits _ := rfl

/-- A value is sent. -/
theorem trySend (h : Ledger sent received waiting c) (hsend : c.trySend a = .ok c') :
    Ledger (sent ++ [a]) received (waiting ++ [a]) c' where
  fifo := by rw [h.fifo, List.append_assoc]
  waits _ := by
    obtain ⟨hopen, -, hqueue⟩ := Channel.of_trySend hsend
    rw [hqueue, h.waits hopen]

/-- A value is received. -/
theorem recv (h : Ledger sent received waiting c) (hopen : c.closed = false)
    (hrecv : c.recv = some (a, c')) :
    ∃ rest, waiting = a :: rest ∧ Ledger sent (received ++ [a]) rest c' := by
  obtain ⟨-, hqueue⟩ := Channel.of_recv hrecv
  rw [h.waits hopen] at hqueue
  refine ⟨c'.queue, hqueue, ?_, fun _ => rfl⟩
  rw [h.fifo, hqueue, List.append_assoc]
  rfl

/-- The channel is closed: what waits is lost. -/
theorem close (h : Ledger sent received waiting c) : Ledger sent received waiting c.close where
  fifo := h.fifo
  waits hopen := absurd hopen (by simp [Channel.close])

end Ledger

end AgentTermStatus.Lib
