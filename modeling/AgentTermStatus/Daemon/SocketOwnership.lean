import AgentTermStatus.Cli.StopCommand

namespace AgentTermStatus

open Lib

/-!
# Whose socket is at the path?

A daemon that holds the guard of the PID file removes the socket it finds, binds its own, serves it,
and removes what is at the path before it drops the guard.  Binding asks nobody whether the socket
is in use: its callers must ensure by the guard that no live daemon owns it.

* `SocketInv.step` — only the process that holds the guard has anything to do with the socket;
* `socket_kept` — so no daemon ever removes the socket of another one, or finds one in its way,
  whatever was left by those that were killed, and whatever `ats daemon stop` does in between.
-/

/-! ### Daemons and their sockets -/

/-- A socket, as opposed to its path. -/
abbrev SocketFile := Nat

/-- What a process that holds the guard has done about the socket. -/
inductive SocketPhase
  /-- Has not begun to bind it. -/
  | unbound
  /-- Has removed what was at the path, and is about to bind its own. -/
  | cleared
  /-- Has bound the socket `k`, and serves it. -/
  | listening (k : SocketFile)
  /-- Has ended the server, or failed to bind. -/
  | closed
  deriving DecidableEq

/-- The processes, the PID file and the socket. -/
structure Daemons where
  control : Control
  socket : Pid → SocketPhase
  /-- The socket at the path. -/
  path : Option SocketFile
  /-- The next socket to be bound. -/
  next : SocketFile

/-- A system call of a daemon about the socket, or one about the PID file. -/
inductive DaemonAction
  | guard (op : ControlAction)
  /-- Removes what is at the path of the socket. -/
  | unlink (p : Pid)
  | bind (p : Pid)
  /-- The server ends, and removes what is at the path. -/
  | close (p : Pid)
  /-- The server ends, or binding fails, and whatever is at the path stays. -/
  | fail (p : Pid)

/-- A socket that was in the way. -/
inductive SocketError
  | addressInUse (p : Pid)
  deriving DecidableEq

/-- Does the process hold the guard? -/
def Phase.Holds (ph : Phase) : Prop := ∃ i, ph = .holding i

instance : (ph : Phase) → Decidable ph.Holds
  | .holding i => .isTrue ⟨i, rfl⟩
  | .dead | .idle | .creating _ | .writing _ | .reading _ | .probing _ _ _ | .unlinking _ _ =>
    .isFalse (by rintro ⟨i, h⟩; simp at h)

namespace Daemons

/-- The process moves on with its socket. -/
def goto (s : Daemons) (p : Pid) (ph : SocketPhase) : Daemons :=
  { s with socket := Function.update s.socket p ph }

/-- The guard outlives the server: a process that holds it drops it when the server has ended. -/
def DropsEarly (s : Daemons) (p : Pid) : Action → Prop
  | .drop | .ioError _ => (s.control.host.phase p).Holds ∧ s.socket p ≠ .closed
  | _                  => False

instance (s : Daemons) (p : Pid) : (a : Action) → Decidable (s.DropsEarly p a)
  | .drop | .ioError _ => inferInstanceAs (Decidable (_ ∧ _))
  | .spawn | .die | .start | .create | .write | .read | .probe | .unlink =>
    inferInstanceAs (Decidable False)

end Daemons

/-- One step; one that is not the next step of its process does nothing. -/
def daemonsStep (s : Daemons) : DaemonAction → Daemons × List SocketError
  | .guard (.process p a) =>
    if s.DropsEarly p a then (s, [])
    else
      let s' := { s with control := (controlStep s.control (.process p a)).1 }
      -- without the guard there is no server
      if (s'.control.host.phase p).Holds then (s', []) else (s'.goto p .unbound, [])
  | .guard (.stop c a) => ({ s with control := (controlStep s.control (.stop c a)).1 }, [])
  | .unlink p =>
    if (s.control.host.phase p).Holds ∧ s.socket p = .unbound then
      ({ s with path := none }.goto p .cleared, [])
    else (s, [])
  | .bind p =>
    if s.socket p = .cleared then
      match s.path with
      | some _ => (s.goto p .closed, [.addressInUse p])
      | none   =>
        ({ s with path := some s.next, next := s.next + 1 }.goto p (.listening s.next), [])
    else (s, [])
  | .close p =>
    match s.socket p with
    | .listening _ => ({ s with path := none }.goto p .closed, [])
    | _            => (s, [])
  | .fail p => if (s.control.host.phase p).Holds then (s.goto p .closed, []) else (s, [])

/-- Nobody races for the guard. -/
def Daemons.Undisturbed (s : Daemons) : DaemonAction → Prop
  | .guard op => AgentTermStatus.Undisturbed s.control op
  | _         => True

instance (s : Daemons) : (op : DaemonAction) → Decidable (s.Undisturbed op)
  | .guard op => inferInstanceAs (Decidable (AgentTermStatus.Undisturbed s.control op))
  | .unlink _ | .bind _ | .close _ | .fail _ => inferInstanceAs (Decidable True)

/-- No daemon runs, and anything may be at the paths. -/
def Daemons.start (host : Host) (path : Option SocketFile) : Daemons where
  control := .start host
  socket := fun _ => .unbound
  path := path
  next := (path.map Nat.succ).getD 0

/-! ### Only the holder of the guard has a socket -/

/-- The invariant of the runs. -/
structure SocketInv (s : Daemons) : Prop where
  control : ControlInv s.control
  holds : ∀ p, s.socket p ≠ .unbound → (s.control.host.phase p).Holds
  cleared : ∀ p, s.socket p = .cleared → s.path = none
  listening : ∀ p k, s.socket p = .listening k → s.path = some k

section
variable {s : Daemons}

/-- A step of a process leaves the others where they are. -/
theorem pidStep_phase_of_ne (s : Host) {p q : Pid} (h : q ≠ p) (a : Action) :
    (pidStep s (p, a)).1.phase q = s.phase q := by
  have hmove := pidStep_move s p a
  generalize (pidStep s (p, a)).1 = s' at hmove ⊢
  cases hmove with
  | stay => rfl
  | _ => exact Function.update_of_ne h _ _

/-- A call of `ats daemon stop` leaves every process where it is. -/
theorem Control.stopStep_phase (s : Control) (c : Nat) (a : StopAction) :
    (s.stopStep c a).1.host.phase = s.host.phase := by
  have hmove := stopStep_move s c a
  generalize s.stopStep c a = r at hmove ⊢
  cases hmove <;> rfl

/-- A process that holds the guard is the only one with a socket. -/
theorem SocketInv.unbound_of_ne (h : SocketInv s) {p q : Pid}
    (hp : (s.control.host.phase p).Holds) (hq : q ≠ p) : s.socket q = .unbound := by
  by_contra hsocket
  obtain ⟨i, hi⟩ := hp
  obtain ⟨j, hj⟩ := h.holds q hsocket
  exact hq (h.control.orderly.claims.exclusive.oneHolder q p j i hj hi)

/-- **What the holder of the guard may do.** Whatever it makes of the socket and its path keeps the
    invariant, if it knows what is at the path. -/
theorem SocketInv.goto (h : SocketInv s) {p : Pid} {ph : SocketPhase} {path : Option SocketFile}
    {next : SocketFile} (hp : (s.control.host.phase p).Holds)
    (hcleared : ph = .cleared → path = none) (hlistening : ∀ k, ph = .listening k → path = some k) :
    SocketInv ({ s with path, next }.goto p ph) := by
  have hother : ∀ q ≠ p, s.socket q = .unbound := fun q hq => h.unbound_of_ne hp hq
  refine ⟨h.control, fun q hq => ?_, fun q hq => ?_, fun q k hq => ?_⟩
  all_goals
    simp only [Daemons.goto, Function.update_apply] at hq
    split at hq
  · next heq => exact heq ▸ hp
  · next hne => exact absurd (hother q hne) hq
  · exact hcleared hq
  · next hne => simp [hother q hne] at hq
  · exact hlistening k hq
  · next hne => simp [hother q hne] at hq

/-- **Step lemma.** The invariant survives every step. -/
theorem SocketInv.step (h : SocketInv s) (op : DaemonAction) (hop : s.Undisturbed op) :
    SocketInv (daemonsStep s op).1 ∧ (daemonsStep s op).2 = [] := by
  cases op with
  | guard op =>
    have hcontrol := h.control.step op hop
    cases op with
    | process p a =>
      have hphase := fun q (hq : q ≠ p) => pidStep_phase_of_ne s.control.host hq a
      simp only [daemonsStep]
      split
      · exact ⟨h, rfl⟩
      · split
        · next hp =>
          refine ⟨⟨hcontrol, fun q hq => ?_, h.cleared, h.listening⟩, rfl⟩
          rcases eq_or_ne q p with rfl | hne
          · exact hp
          · show ((pidStep s.control.host (p, a)).1.phase q).Holds
            rw [hphase q hne]
            exact h.holds q hq
        · -- a process that has lost the guard has no socket any more
          refine ⟨⟨hcontrol, fun q hq => ?_, fun q hq => ?_, fun q k hq => ?_⟩, rfl⟩
          all_goals
            simp only [Daemons.goto, Function.update_apply] at hq
            split at hq
          · exact absurd rfl hq
          · next hne =>
            show ((pidStep s.control.host (p, a)).1.phase q).Holds
            rw [hphase q hne]
            exact h.holds q hq
          · simp at hq
          · exact h.cleared q hq
          · simp at hq
          · exact h.listening q k hq
    | stop c a =>
      refine ⟨⟨hcontrol, fun q hq => ?_, h.cleared, h.listening⟩, rfl⟩
      show ((s.control.stopStep c a).1.host.phase q).Holds
      rw [Control.stopStep_phase]
      exact h.holds q hq
  | unlink p =>
    simp only [daemonsStep]
    split
    · next hp => exact ⟨h.goto hp.1 (by simp) (by simp), rfl⟩
    · exact ⟨h, rfl⟩
  | bind p =>
    simp only [daemonsStep]
    split
    · next hcleared =>
      rw [h.cleared p hcleared]
      refine ⟨h.goto (h.holds p (by simp [hcleared])) (by simp) (by simp), rfl⟩
    · exact ⟨h, rfl⟩
  | close p =>
    simp only [daemonsStep]
    split
    · next k hk => exact ⟨h.goto (h.holds p (by simp [hk])) (by simp) (by simp), rfl⟩
    · exact ⟨h, rfl⟩
  | fail p =>
    simp only [daemonsStep]
    split
    · next hp => exact ⟨h.goto hp (by simp) (by simp), rfl⟩
    · exact ⟨h, rfl⟩

/-- Before any daemon runs. -/
theorem Initial.socketInv {host : Host} (h : Initial host) (path : Option SocketFile) :
    SocketInv (Daemons.start host path) where
  control := h.controlInv
  holds := fun _ hp => absurd rfl hp
  cleared := fun _ hp => absurd hp (by simp [Daemons.start])
  listening := fun _ _ hp => absurd hp (by simp [Daemons.start])

/-- The invariant holds at every point of a run, and no socket was in the way. -/
theorem socketInv_run {host : Host} (h : Initial host) (path : Option SocketFile)
    {ops : List DaemonAction}
    (hrun : Along daemonsStep Daemons.Undisturbed (.start host path) ops) :
    trace daemonsStep (.start host path) ops = [] ∧
      SocketInv (exec daemonsStep (.start host path) ops) := by
  have hstart : ([] : List SocketError) = [] ∧ SocketInv (Daemons.start host path) :=
    ⟨rfl, h.socketInv path⟩
  have hinv := hrun.trace_inv (fun out s => out = [] ∧ SocketInv s) ?_ hstart
  · rwa [List.nil_append] at hinv
  · intro out s op hop hs
    obtain ⟨hnext, hnone⟩ := hs.2.step op hop
    rw [hs.1, hnone]
    exact ⟨rfl, hnext⟩

/-! ### What clients find -/

/-- What holds of the sockets while daemons come and go. -/
structure SocketSafe (s : Daemons) : Prop where
  /-- The socket that is served is at the path, by a process that holds the guard. -/
  reached : ∀ p k, s.socket p = .listening k →
    s.path = some k ∧ (s.control.host.phase p).Holds
  oneServer : ∀ p q k l, s.socket p = .listening k → s.socket q = .listening l → p = q
  /-- A process that has acquired the guard can serve, whatever it finds at the path. -/
  serves : ∀ p, (s.control.host.phase p).Holds → s.socket p = .unbound →
    ∃ k, (exec daemonsStep s [.unlink p, .bind p]).socket p = .listening k

/-- The invariant is enough. -/
theorem SocketInv.socketSafe (h : SocketInv s) : SocketSafe s where
  reached := fun p k hk => ⟨h.listening p k hk, h.holds p (by simp [hk])⟩
  oneServer := by
    intro p q k l hp hq
    by_contra hne
    have hholds := h.holds q (by simp [hq])
    rw [h.unbound_of_ne hholds hne] at hp
    exact absurd hp (by simp)
  serves := by
    intro p hholds hunbound
    refine ⟨s.next, ?_⟩
    simp [daemonsStep, Daemons.goto, hholds, hunbound]

/-- **Nobody removes the socket of a daemon that serves.** Daemons acquire the guard, bind their
    sockets, serve, end or are killed, and calls of `ats daemon stop` come in between; anything may
    be at the paths at first.  If nobody races for the guard, then at every point at most one
    process serves, and its socket is at the path; and no daemon ever finds a socket in its way. -/
theorem socket_kept (host : Host) (hhost : Initial host) (path : Option SocketFile)
    (ops : List DaemonAction)
    (hrun : Along daemonsStep Daemons.Undisturbed (.start host path) ops) :
    (∀ ops', ops' <+: ops → SocketSafe (exec daemonsStep (.start host path) ops')) ∧
    trace daemonsStep (.start host path) ops = [] :=
  ⟨fun _ hprefix => (socketInv_run hhost path (hrun.of_isPrefix hprefix)).2.socketSafe,
    (socketInv_run hhost path hrun).1⟩

/-- A daemon serves and is killed; another one takes over its PID file and its socket. -/
theorem socket_kept_takeover :
    SocketSafe (exec daemonsStep (.start twoProcesses none)
      [.guard (.process 1 .start), .guard (.process 1 .create), .guard (.process 1 .write),
        .unlink 1, .bind 1, .guard (.process 1 .die), .guard (.process 2 .start),
        .guard (.process 2 .create), .guard (.process 2 .read), .guard (.process 2 .probe),
        .guard (.process 2 .unlink), .guard (.process 2 .create), .guard (.process 2 .write),
        .unlink 2, .bind 2]) :=
  (socket_kept twoProcesses initial_twoProcesses none _ (by decide)).1 _ (List.prefix_refl _)

/-- If both processes have acquired the guard, the second one removes the socket that the first one
    serves. -/
theorem not_socketSafe_emptyRead :
    ¬ SocketSafe (exec daemonsStep (.start twoProcesses none)
      (emptyRead.map (fun op => .guard (.process op.1 op.2)) ++
        [.unlink 1, .bind 1, .unlink 2])) := by
  intro h
  exact absurd (h.reached 1 0 (by decide)).1 (by decide)

end

end AgentTermStatus
