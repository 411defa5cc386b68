import AgentTermStatus.Daemon.Broker

namespace AgentTermStatus

open Lib

/-!
# The broker's main loop

`Broker::run` as a task: the broker, what it remembers of the sessions for rendering, and where it
is.  Each branch of its `select!` is one function.  What it emits are the ingestions of its
drains and the views it hands to the rendering engine.

A task that has left its loop holds nothing (`BrokerTask.Keeps`): the last drain ingests all that
was buffered.
-/

/-- Where the broker task is. -/
inductive BrokerPhase
  /-- In its loop. -/
  | looping
  /-- Past its last drain, rendering what came of it. -/
  | stopping
  /-- `run` has returned, and the receiver is dropped. -/
  | returned
  deriving DecidableEq

/-- The broker task. -/
structure BrokerTask where
  broker : Broker
  /-- Per-event session and terminal info for render dispatch. -/
  sessionInfo : SessionTerminal
  phase : BrokerPhase

/-- What the broker task emits. -/
inductive BrokerOutput
  /-- An event is ingested by the state engine. -/
  | ingested (i : Broker.Ingestion)
  /-- A view is handed to the rendering engine. -/
  | dispatched (view : StateView)

namespace BrokerTask

/-- The task at its start. -/
def start (b : Broker) : BrokerTask where
  broker := b
  sessionInfo := ∅
  phase := .looping

/-- The views of some transitions. -/
def dispatch (t : BrokerTask) (transitions : List StateTransition) : List BrokerOutput :=
  transitions.map fun tr => .dispatched (transitionView t.sessionInfo tr)

/-- Drains the buffers and dispatches what changed. -/
def drain (t : BrokerTask) (now : DateTime) (sessions : List String) :
    BrokerTask × List BrokerOutput :=
  let (broker, log) := t.broker.drainLoop now sessions
  ({ t with broker }, log.map .ingested ++ t.dispatch (log.filterMap Broker.Ingestion.transition))

/-- Drains a last time and leaves the loop. -/
def finish (t : BrokerTask) (now : DateTime) (sessions : List String) :
    BrokerTask × List BrokerOutput :=
  let (t, out) := t.drain now sessions
  ({ t with phase := .stopping }, out)

/-- Buffers a received payload, if it decodes. -/
def receive (decode : List UInt8 → Option NormalizedEvent) (t : BrokerTask) (raw : List UInt8) :
    BrokerTask :=
  match t.broker.bufferEvent decode raw with
  | (broker, .ok event) =>
    { t with
      broker
      sessionInfo := t.sessionInfo.insert event.session.id
        (event.activity.bind Activity.label, event.session.terminal) }
  | (broker, .error _) => { t with broker }

/-- Expires the time-to-live of all sessions and dispatches what changed. -/
def checkTtls (t : BrokerTask) (now : DateTime) (order : List String) :
    BrokerTask × List BrokerOutput :=
  let (broker, transitions) := t.broker.checkTtls now order
  ({ t with broker }, t.dispatch transitions)

@[simp] theorem drain_phase (t : BrokerTask) (now : DateTime) (sessions : List String) :
    (t.drain now sessions).1.phase = t.phase := rfl
@[simp] theorem checkTtls_phase (t : BrokerTask) (now : DateTime) (order : List String) :
    (t.checkTtls now order).1.phase = t.phase := rfl
@[simp] theorem finish_phase (t : BrokerTask) (now : DateTime) (sessions : List String) :
    (t.finish now sessions).1.phase = .stopping := rfl

@[simp] theorem receive_phase (decode : List UInt8 → Option NormalizedEvent) (t : BrokerTask)
    (raw : List UInt8) : (t.receive decode raw).phase = t.phase := by
  unfold receive
  split <;> rfl

end BrokerTask

/-! ### What was received is ingested or buffered -/

/-- The events that were ingested. -/
def ingestedEvents (out : List BrokerOutput) : List NormalizedEvent :=
  out.filterMap fun
    | .ingested i   => some i.event
    | .dispatched _ => none

@[simp] theorem ingestedEvents_append (xs ys : List BrokerOutput) :
    ingestedEvents (xs ++ ys) = ingestedEvents xs ++ ingestedEvents ys := List.filterMap_append ..

@[simp] theorem ingestedEvents_dispatch (t : BrokerTask) (transitions : List StateTransition) :
    ingestedEvents (t.dispatch transitions) = [] := by
  simp [ingestedEvents, BrokerTask.dispatch]

@[simp] theorem ingestedEvents_map (log : List Broker.Ingestion) :
    ingestedEvents (log.map .ingested) = log.map Broker.Ingestion.event := by
  rw [ingestedEvents, List.filterMap_map, ← List.filterMap_eq_map]
  rfl

/-- The events decoded so far were ingested or wait in the buffers; outside the loop, all were
    ingested. -/
structure BrokerTask.Keeps (decoded ingested : List NormalizedEvent) (t : BrokerTask) : Prop where
  buffered : ∃ waiting, t.broker.Holds waiting ∧ decoded.Perm (ingested ++ waiting)
  done : t.phase ≠ .looping → decoded.Perm ingested

namespace BrokerTask
variable {decode : List UInt8 → Option NormalizedEvent} {decoded ingested : List NormalizedEvent}
  {t : BrokerTask}

theorem keeps_start (e : StateEngine) : Keeps [] [] (start (Broker.new e)) where
  buffered := ⟨[], Broker.holds_new e, List.Perm.refl _⟩
  done h := absurd rfl h

/-- A drain ingests what was decoded. -/
theorem Keeps.drain (h : Keeps decoded ingested t) (now : DateTime) {sessions : List String}
    (hsessions : Enumerates sessions t.broker.pending) :
    (t.drain now sessions).1.broker.Holds [] ∧
      decoded.Perm (ingested ++ ingestedEvents (t.drain now sessions).2) := by
  obtain ⟨waiting, hholds, hperm⟩ := h.buffered
  obtain ⟨hlog, hempty⟩ := hholds.drain now hsessions
  refine ⟨hempty, hperm.trans (List.Perm.append_left _ ?_)⟩
  -- the views that are dispatched are no ingestions
  have hout : ingestedEvents (t.drain now sessions).2 =
      (t.broker.drainLoop now sessions).2.map Broker.Ingestion.event := by
    show ingestedEvents (List.map _ _ ++ t.dispatch _) = _
    rw [ingestedEvents_append, ingestedEvents_map, ingestedEvents_dispatch, List.append_nil]
  rw [hout]
  exact hlog.symm

/-- **Step lemma.** The buffers are drained in the loop. -/
theorem Keeps.drained (h : Keeps decoded ingested t) (now : DateTime) {sessions : List String}
    (hsessions : Enumerates sessions t.broker.pending) :
    Keeps decoded (ingested ++ ingestedEvents (t.drain now sessions).2)
      (t.drain now sessions).1 where
  buffered := by
    obtain ⟨hempty, hperm⟩ := h.drain now hsessions
    exact ⟨[], hempty, by simpa using hperm⟩
  done _ := (h.drain now hsessions).2

/-- **Step lemma.** The buffers are drained for the last time. -/
theorem Keeps.finished (h : Keeps decoded ingested t) (now : DateTime) {sessions : List String}
    (hsessions : Enumerates sessions t.broker.pending) :
    Keeps decoded (ingested ++ ingestedEvents (t.finish now sessions).2)
      (t.finish now sessions).1 where
  buffered := (h.drained now hsessions).buffered
  done _ := (h.drain now hsessions).2

/-- **Step lemma.** A payload is received. -/
theorem Keeps.receive (h : Keeps decoded ingested t) (hphase : t.phase = .looping)
    (raw : List UInt8) :
    Keeps (decoded ++ (decode raw).toList) ingested (t.receive decode raw) := by
  obtain ⟨waiting, hholds, hperm⟩ := h.buffered
  unfold BrokerTask.receive Broker.bufferEvent
  cases hraw : decode raw with
  | none =>
    refine ⟨⟨waiting, hholds, by simpa using hperm⟩, fun hdone => absurd hphase hdone⟩
  | some event =>
    refine ⟨⟨waiting ++ [event], hholds.push event, ?_⟩, fun hdone => absurd hphase hdone⟩
    rw [← List.append_assoc]
    exact hperm.append_right _

/-- **Step lemma.** The time-to-live of the sessions is checked. -/
theorem Keeps.checkTtls (h : Keeps decoded ingested t) (now : DateTime) (order : List String) :
    Keeps decoded (ingested ++ ingestedEvents (t.checkTtls now order).2)
      (t.checkTtls now order).1 := by
  have hquiet : ingestedEvents (t.checkTtls now order).2 = [] := ingestedEvents_dispatch t _
  rw [hquiet, List.append_nil]
  exact ⟨h.buffered, h.done⟩

end BrokerTask

end AgentTermStatus
