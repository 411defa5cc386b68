import AgentTermStatus.Daemon.BrokerLoop
import AgentTermStatus.Daemon.Framing
import AgentTermStatus.Lib.Channel
import AgentTermStatus.Lib.Run

namespace AgentTermStatus

open Lib

/-!
# The daemon's tasks and their channel

The signal task, the socket server's loop, its connection handlers and the broker's loop run
concurrently.  Handlers send payloads into a bounded channel, the broker receives them, and the
server and the broker each watch the shutdown flag.  Every step of every task between two points
where it may be suspended is an operation of `systemStep`, so any interleaving is a run; what the
scheduler, the clock and the clients decide is part of the operation, and an operation that is not
possible does nothing.

The flag is set once, to `true`, by a signal, so a task that watches it sees a change exactly when
it is set.
-/

/-- As many payloads wait in the channel at most. -/
def eventChannelCapacity : Nat := 1024

/-- A connection handler. -/
inductive Handler
  /-- Reads the next frame. -/
  | reading
  /-- Waits for room in the channel, to send a payload. -/
  | sending (payload : List UInt8)
  | finished
  deriving DecidableEq

/-- What a read of a handler gives. -/
inductive ReadOutcome
  /-- The connection was silent for too long. -/
  | elapsed
  | ready (frame : Except FrameError (Option (List UInt8)))

/-- Where the server's loop is. -/
inductive ServerPhase
  | accepting
  /-- No longer accepting; waits for its connections to finish. -/
  | draining
  /-- `run` has returned; connections still running are aborted. -/
  | returned
  deriving DecidableEq

/-- The tasks and what they share. -/
structure System where
  /-- The channel of the payloads. -/
  channel : Channel (List UInt8) eventChannelCapacity
  /-- The shutdown flag. -/
  shutdown : Bool
  server : ServerPhase
  maxConnections : Nat
  /-- The connection handlers, in order of acceptance. -/
  handlers : List Handler
  task : BrokerTask

/-- One step of one task. -/
inductive SystemAction
  /-- The signal task sets the shutdown flag. -/
  | signal
  /-- The server accepts a connection. -/
  | accept
  /-- The server sees the shutdown flag. -/
  | serverShutdown
  /-- The server has waited for all connections. -/
  | joined
  /-- The server's grace period has passed. -/
  | graceElapsed
  /-- A handler's read is over. -/
  | read (i : Nat) (outcome : ReadOutcome)
  /-- A handler's send is over, unless it waits on. -/
  | send (i : Nat)
  /-- A handler is aborted. -/
  | abort (i : Nat)
  /-- The broker sees the shutdown flag. -/
  | brokerShutdown (now : DateTime) (sessions : List String)
  /-- The broker receives from the channel. -/
  | recv (now : DateTime) (sessions : List String)
  /-- The broker's drain tick. -/
  | drainTick (now : DateTime) (sessions : List String)
  /-- The broker's tick for the time-to-live. -/
  | ttlTick (now : DateTime) (order : List String)
  /-- The broker's `run` returns. -/
  | brokerReturn

/-- What the tasks do that matters to others. -/
inductive SystemOutput
  /-- A send into the channel has succeeded. -/
  | sent (payload : List UInt8)
  | broker (o : BrokerOutput)

/-- The handler after a read. -/
def ReadOutcome.next : ReadOutcome → Handler
  | .ready (.ok (some payload)) => .sending payload
  | .elapsed | .ready (.ok none) | .ready (.error _) => .finished

namespace System

/-- The daemon after its start. -/
def start (maxConnections : Nat) : System where
  channel := .new _ _
  shutdown := false
  server := .accepting
  maxConnections := maxConnections
  handlers := []
  task := .start (Broker.new StateEngine.new)

/-- A handler moves on. -/
def setHandler (s : System) (i : Nat) (h : Handler) : System :=
  { s with handlers := s.handlers.set i h }

/-- The connections that hold a permit. -/
def served (s : System) : Nat := s.handlers.countP fun h => h ≠ .finished

/-- Nobody is left who could send. -/
def sendersGone (s : System) : Prop := s.server = .returned ∧ ∀ h ∈ s.handlers, h = .finished

instance (s : System) : Decidable s.sendersGone := inferInstanceAs (Decidable (_ ∧ _))

/-- A step of the broker task with its outputs. -/
def runTask (s : System) (r : BrokerTask × List BrokerOutput) : System × List SystemOutput :=
  ({ s with task := r.1 }, r.2.map .broker)

end System

/-- One step of one task. -/
def systemStep (decode : List UInt8 → Option NormalizedEvent) (s : System) :
    SystemAction → System × List SystemOutput
  | .signal => ({ s with shutdown := true }, [])
  | .accept =>
    -- a connection beyond the limit is closed at once
    if s.server = .accepting ∧ s.served < s.maxConnections then
      ({ s with handlers := s.handlers ++ [.reading] }, [])
    else (s, [])
  | .serverShutdown =>
    if s.server = .accepting ∧ s.shutdown then ({ s with server := .draining }, []) else (s, [])
  | .joined =>
    if s.server = .draining ∧ ∀ h ∈ s.handlers, h = .finished then
      ({ s with server := .returned }, [])
    else (s, [])
  | .graceElapsed =>
    if s.server = .draining then ({ s with server := .returned }, []) else (s, [])
  | .read i outcome =>
    match s.handlers[i]? with
    | some .reading => (s.setHandler i outcome.next, [])
    | _ => (s, [])
  | .send i =>
    match s.handlers[i]? with
    | some (.sending payload) =>
      match s.channel.trySend payload with
      | .ok channel     => ({ s.setHandler i .reading with channel }, [.sent payload])
      | .error .closed  => (s.setHandler i .finished, [])
      -- without room the handler waits on
      | .error .full    => (s, [])
    | _ => (s, [])
  | .abort i =>
    -- the handlers that still run when the server returns are aborted with it
    if s.server = .returned then (s.setHandler i .finished, []) else (s, [])
  | .brokerShutdown now sessions =>
    if s.task.phase = .looping ∧ s.shutdown then s.runTask (s.task.finish now sessions)
    else (s, [])
  | .recv now sessions =>
    if s.task.phase = .looping then
      match s.channel.recv with
      | some (raw, channel) => ({ s with channel, task := s.task.receive decode raw }, [])
      | none =>
        -- `None` is received only when the channel is empty and no sender is left
        if s.sendersGone then s.runTask (s.task.finish now sessions) else (s, [])
    else (s, [])
  | .drainTick now sessions =>
    if s.task.phase = .looping then s.runTask (s.task.drain now sessions) else (s, [])
  | .ttlTick now order =>
    if s.task.phase = .looping then s.runTask (s.task.checkTtls now order) else (s, [])
  | .brokerReturn =>
    if s.task.phase = .stopping then
      ({ s with channel := s.channel.close, task := { s.task with phase := .returned } }, [])
    else (s, [])

/-- What the clock and the maps decide is possible: a drain meets each session with a buffer once,
    an expiry each session. -/
def SystemAction.Possible (s : System) : SystemAction → Prop
  | .brokerShutdown _ sessions | .recv _ sessions | .drainTick _ sessions =>
    Enumerates sessions s.task.broker.pending
  | .ttlTick _ order => Enumerates order s.task.broker.stateEngine.sessions
  | _ => True

instance decidableActionPossible (s : System) : (a : SystemAction) → Decidable (a.Possible s)
  | .brokerShutdown _ sessions | .recv _ sessions | .drainTick _ sessions =>
    inferInstanceAs (Decidable (Enumerates sessions _))
  | .ttlTick _ order => inferInstanceAs (Decidable (Enumerates order _))
  | .signal | .accept | .serverShutdown | .joined | .graceElapsed | .read _ _ | .send _
  | .abort _ | .brokerReturn => inferInstanceAs (Decidable True)

/-- A run of the daemon. -/
abbrev SystemRun (decode : List UInt8 → Option NormalizedEvent) (s : System)
    (ops : List SystemAction) : Prop :=
  Along (systemStep decode) (fun s a => a.Possible s) s ops

/-! ### What a step can do -/

/-- The action neither sends nor makes the broker leave its loop. -/
structure SystemAction.Quiet (s : System) (a : SystemAction) : Prop where
  noSend : ∀ i payload channel, a = .send i → s.handlers[i]? = some (.sending payload) →
    s.channel.trySend payload ≠ .ok channel
  noStop : ∀ now sessions, a = .brokerShutdown now sessions →
    ¬ (s.task.phase = .looping ∧ s.shutdown = true)

/-- What a step can do to the channel and the broker task. -/
inductive SystemMove (decode : List UInt8 → Option NormalizedEvent) (s : System) :
    SystemAction → System → List SystemOutput → Prop
  /-- The channel and the broker task are left alone. -/
  | stay {a : SystemAction} (s' : System) (hchannel : s'.channel = s.channel)
      (htask : s'.task = s.task) (hquiet : a.Quiet s) : SystemMove decode s a s' []
  /-- A payload is sent. -/
  | sent (i : Nat) (payload : List UInt8) (s' : System)
      (hhandler : s.handlers[i]? = some (.sending payload))
      (hsend : s.channel.trySend payload = .ok s'.channel) (htask : s'.task = s.task) :
      SystemMove decode s (.send i) s' [.sent payload]
  /-- A payload is received. -/
  | received (now : DateTime) (sessions : List String) (raw : List UInt8)
      (channel : Channel (List UInt8) eventChannelCapacity) (hphase : s.task.phase = .looping)
      (hrecv : s.channel.recv = some (raw, channel)) :
      SystemMove decode s (.recv now sessions)
        { s with channel, task := s.task.receive decode raw } []
  /-- The buffers are drained in the loop. -/
  | drained (now : DateTime) (sessions : List String) (hphase : s.task.phase = .looping) :
      SystemMove decode s (.drainTick now sessions) (s.runTask (s.task.drain now sessions)).1
        (s.runTask (s.task.drain now sessions)).2
  /-- The time-to-live is checked. -/
  | checked (now : DateTime) (order : List String) (hphase : s.task.phase = .looping) :
      SystemMove decode s (.ttlTick now order) (s.runTask (s.task.checkTtls now order)).1
        (s.runTask (s.task.checkTtls now order)).2
  /-- The broker leaves its loop for the shutdown flag. -/
  | stopped (now : DateTime) (sessions : List String) (hphase : s.task.phase = .looping)
      (hshutdown : s.shutdown = true) :
      SystemMove decode s (.brokerShutdown now sessions)
        (s.runTask (s.task.finish now sessions)).1 (s.runTask (s.task.finish now sessions)).2
  /-- The broker leaves its loop since nothing more can come. -/
  | ended (now : DateTime) (sessions : List String) (hphase : s.task.phase = .looping)
      (hrecv : s.channel.recv = none) (hgone : s.sendersGone) :
      SystemMove decode s (.recv now sessions)
        (s.runTask (s.task.finish now sessions)).1 (s.runTask (s.task.finish now sessions)).2
  /-- The broker returns. -/
  | returned (hphase : s.task.phase = .stopping) :
      SystemMove decode s .brokerReturn
        { s with channel := s.channel.close, task := { s.task with phase := .returned } } []

/-- Actions other than these two are quiet. -/
theorem SystemAction.quiet_of_ne {s : System} {a : SystemAction} (hsend : ∀ i, a ≠ .send i)
    (hstop : ∀ now sessions, a ≠ .brokerShutdown now sessions) : a.Quiet s where
  noSend i _ _ h := absurd h (hsend i)
  noStop now sessions h := absurd h (hstop now sessions)

/-- **What a step can do.** -/
theorem systemStep_move (decode : List UInt8 → Option NormalizedEvent) (s : System)
    (a : SystemAction) :
    SystemMove decode s a (systemStep decode s a).1 (systemStep decode s a).2 := by
  -- one case an action; one that is not possible leaves everything alone
  cases a with
  | signal => exact .stay _ rfl rfl (SystemAction.quiet_of_ne (by simp) (by simp))
  | accept =>
    simp only [systemStep]
    split <;> exact .stay _ rfl rfl (SystemAction.quiet_of_ne (by simp) (by simp))
  | serverShutdown =>
    simp only [systemStep]
    split <;> exact .stay _ rfl rfl (SystemAction.quiet_of_ne (by simp) (by simp))
  | joined =>
    simp only [systemStep]
    split <;> exact .stay _ rfl rfl (SystemAction.quiet_of_ne (by simp) (by simp))
  | graceElapsed =>
    simp only [systemStep]
    split <;> exact .stay _ rfl rfl (SystemAction.quiet_of_ne (by simp) (by simp))
  | read i outcome =>
    simp only [systemStep]
    split <;> exact .stay _ rfl rfl (SystemAction.quiet_of_ne (by simp) (by simp))
  | abort i =>
    simp only [systemStep]
    split <;> exact .stay _ rfl rfl (SystemAction.quiet_of_ne (by simp) (by simp))
  | send i =>
    simp only [systemStep]
    split
    · next payload hhandler =>
      split
      · next channel hsend => exact .sent i payload _ hhandler hsend rfl
      all_goals
        next hsend =>
        refine .stay _ rfl rfl ⟨?_, by simp⟩
        rintro _ payload' channel ⟨rfl⟩ hhandler'
        obtain rfl : payload = payload' := by simpa [hhandler] using hhandler'
        rw [hsend]
        simp
    · next hnot =>
      refine .stay _ rfl rfl ⟨?_, by simp⟩
      rintro _ payload channel ⟨rfl⟩ hhandler
      exact absurd hhandler (hnot payload)
  | brokerShutdown now sessions =>
    simp only [systemStep]
    split
    · next h => exact .stopped now sessions h.1 h.2
    · next h => exact .stay _ rfl rfl ⟨by simp, fun _ _ _ => h⟩
  | recv now sessions =>
    simp only [systemStep]
    split
    · next hphase =>
      split
      · next raw channel hrecv => exact .received now sessions raw channel hphase hrecv
      · next hrecv =>
        split
        · next hgone => exact .ended now sessions hphase hrecv hgone
        · exact .stay _ rfl rfl (SystemAction.quiet_of_ne (by simp) (by simp))
    · exact .stay _ rfl rfl (SystemAction.quiet_of_ne (by simp) (by simp))
  | drainTick now sessions =>
    simp only [systemStep]
    split
    · next hphase => exact .drained now sessions hphase
    · exact .stay _ rfl rfl (SystemAction.quiet_of_ne (by simp) (by simp))
  | ttlTick now order =>
    simp only [systemStep]
    split
    · next hphase => exact .checked now order hphase
    · exact .stay _ rfl rfl (SystemAction.quiet_of_ne (by simp) (by simp))
  | brokerReturn =>
    simp only [systemStep]
    split
    · next hphase => exact .returned hphase
    · exact .stay _ rfl rfl (SystemAction.quiet_of_ne (by simp) (by simp))

end AgentTermStatus
