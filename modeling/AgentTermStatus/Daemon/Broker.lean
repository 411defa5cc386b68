import AgentTermStatus.StateEngine.SessionView
import AgentTermStatus.Rendering.Engine
import AgentTermStatus.Lib.StableSort

namespace AgentTermStatus

open Lib

/-!
# The event broker

The broker decodes payloads into events, buffers them per session, and on every drain feeds
each session's buffer to the state engine in timestamp order.  The order in which a drain
meets the sessions, and its clock reading, are arguments.  What the decoder makes of a
payload is an argument too.

`dispatchRender` turns the transitions of a drain into calls of the rendering engine.
-/

/-- Why the broker rejects a payload: byte counts only, never payload bodies. -/
inductive BrokerError
  | deserialize (len : Nat)
  | noRenderingEngine
  deriving DecidableEq

/-- The state engine, and the events waiting to be ordered, by session. -/
structure Broker where
  stateEngine : StateEngine
  pending : FiniteMap String (List (DateTime × NormalizedEvent))

namespace Broker

/-- A broker with nothing buffered. -/
def new (stateEngine : StateEngine) : Broker where
  stateEngine := stateEngine
  pending := ∅

/-- Appends an event to the buffer of its session. -/
def push (b : Broker) (event : NormalizedEvent) : Broker :=
  let sid := event.session.id
  { b with
    pending := b.pending.insert sid ((b.pending[sid]?).getD [] ++ [(event.timestamp, event)]) }

/-- Adds a raw payload to the buffer, if it decodes. -/
def bufferEvent (decode : List UInt8 → Option NormalizedEvent) (b : Broker) (raw : List UInt8) :
    Broker × Except BrokerError NormalizedEvent :=
  match decode raw with
  | none       => (b, .error (.deserialize raw.length))
  | some event => (b.push event, .ok event)

/-- What a drain does with one event: the event, and the transition it caused. -/
structure Ingestion where
  event : NormalizedEvent
  transition : Option StateTransition

/-- Ingests the sorted events of one session. -/
def ingestAll (now : DateTime) :
    List (DateTime × NormalizedEvent) → StateEngine → StateEngine × List Ingestion
  | [], e => (e, [])
  | (_, event) :: events, e =>
    let (e, transition) := e.ingest event now
    let (e, log) := ingestAll now events e
    (e, { event, transition } :: log)

/-- The walk of a drain over the buffered sessions. -/
def drainLoop (now : DateTime) : List String → Broker → Broker × List Ingestion
  | [], b => (b, [])
  | sid :: sessions, b =>
    match b.pending[sid]? with
    | none        => drainLoop now sessions b
    | some events =>
      if events.isEmpty then drainLoop now sessions b
      else
        let (stateEngine, log) := ingestAll now (sortByKey Prod.fst events) b.stateEngine
        let (b, rest) := drainLoop now sessions
          { stateEngine, pending := b.pending.insert sid [] }
        (b, log ++ rest)

/-- Drains all buffered events in timestamp order, session by session. -/
def drainAndProcess (b : Broker) (now : DateTime) (sessions : List String) :
    Broker × List StateTransition :=
  let (b, log) := drainLoop now sessions b
  (b, log.filterMap Ingestion.transition)

/-- Expires the time-to-live of all sessions. -/
def checkTtls (b : Broker) (now : DateTime) (order : List String) :
    Broker × List StateTransition :=
  let (stateEngine, transitions) := b.stateEngine.expireTtls now order
  ({ b with stateEngine }, transitions)

end Broker

/-! ### Rendering the transitions -/

/-- The label and the terminal last seen with the events of each session. -/
abbrev SessionTerminal := FiniteMap String (Option ActivityLabel × Option TerminalContext)

/-- The view of a transition. -/
def transitionView (sessionTerminal : SessionTerminal) (t : StateTransition) : StateView :=
  let (label, terminal) := (sessionTerminal[t.sessionId]?).getD (none, none)
  { state := t.new
    label := label
    target := { sessionId := t.sessionId, terminal := terminal.getD .default } }

/-- What a call of the rendering engine meets, but for its view. -/
structure RenderEnv where
  checkedAt : DateTime
  recordedAt : DateTime
  answer : Nat → Option RendererError

/-- The calls that render some transitions. -/
def dispatchCalls (sessionTerminal : SessionTerminal) (ts : List (StateTransition × RenderEnv)) :
    List RenderCall :=
  ts.map fun (t, env) =>
    { view := transitionView sessionTerminal t
      checkedAt := env.checkedAt
      recordedAt := env.recordedAt
      answer := env.answer }

/-- Renders each transition in turn. -/
def dispatchRender (sessionTerminal : SessionTerminal) (d : Display)
    (ts : List (StateTransition × RenderEnv)) : Display :=
  (dispatchCalls sessionTerminal ts).foldl (fun d call => (renderStep d call).1) d

/-! ### Draining, as ingestions one at a time -/

namespace Broker

/-- The order in which a drain ingests the events of a session. -/
def batch (b : Broker) (sid : String) : List NormalizedEvent :=
  (sortByKey Prod.fst ((b.pending[sid]?).getD [])).map Prod.snd

/-- Everything buffered under a session id is an event of that session, with its
    timestamp. -/
def Keyed (b : Broker) : Prop :=
  ∀ sid, ∀ p : DateTime × NormalizedEvent, p ∈ (b.pending[sid]?).getD [] →
    p.2.session.id = sid ∧ p.1 = p.2.timestamp

/-- The ingestions of a log, one at a time. -/
abbrev ingestions (now : DateTime) (evs : List NormalizedEvent) :
    List (NormalizedEvent × DateTime) :=
  evs.map fun ev => (ev, now)

theorem map_fst_ingestions (now : DateTime) (evs : List NormalizedEvent) :
    (ingestions now evs).map Prod.fst = evs := by
  rw [List.map_map]
  exact List.map_id _

theorem ingestAll_cons (now : DateTime) (p : DateTime × NormalizedEvent)
    (events : List (DateTime × NormalizedEvent)) (e : StateEngine) :
    ingestAll now (p :: events) e =
      ((ingestAll now events (e.ingest p.2 now).1).1,
        ⟨p.2, (e.ingest p.2 now).2⟩ :: (ingestAll now events (e.ingest p.2 now).1).2) := rfl

/-- Ingesting a sorted batch is ingesting its events one at a time. -/
theorem ingestAll_eq (now : DateTime) (events : List (DateTime × NormalizedEvent))
    (e : StateEngine) :
    (ingestAll now events e).1 = exec ingestStep e (ingestions now (events.map Prod.snd)) ∧
    (ingestAll now events e).2.map Ingestion.event = events.map Prod.snd ∧
    (ingestAll now events e).2.filterMap Ingestion.transition =
      trace ingestStep e (ingestions now (events.map Prod.snd)) := by
  induction events generalizing e with
  | nil => exact ⟨rfl, rfl, rfl⟩
  | cons p events ih =>
    obtain ⟨hengine, hevents, htrans⟩ := ih (e.ingest p.2 now).1
    rw [ingestAll_cons, ingestions, List.map_cons, List.map_cons]
    refine ⟨hengine, ?_, ?_⟩
    · rw [List.map_cons, hevents]
    · rw [List.filterMap_cons, htrans, trace_cons, ingestStep]
      cases (e.ingest p.2 now).2 <;> rfl

/-- What one round of a drain does: the batch of the session is ingested, and its buffer
    is emptied. -/
structure DrainRound (now : DateTime) (sid : String) (b b' : Broker) (log : List Ingestion) :
    Prop where
  events : log.map Ingestion.event = b.batch sid
  engine : b'.stateEngine = exec ingestStep b.stateEngine (ingestions now (b.batch sid))
  transitions : log.filterMap Ingestion.transition =
    trace ingestStep b.stateEngine (ingestions now (b.batch sid))
  pending : ∀ id, (b'.pending[id]?).getD [] = if sid = id then [] else (b.pending[id]?).getD []

/-- A session with nothing buffered has nothing to drain. -/
theorem drainRound_of_empty (now : DateTime) {sid : String} {b : Broker}
    (h : (b.pending[sid]?).getD [] = []) : DrainRound now sid b b [] := by
  have hbatch : b.batch sid = [] := by rw [batch, h]; rfl
  refine ⟨by rw [hbatch]; rfl, by rw [hbatch]; rfl, by rw [hbatch]; rfl, fun id => ?_⟩
  split
  · next hid => rw [← hid, h]
  · rfl

/-- The walk is made of such rounds. -/
theorem drainLoop_cons (now : DateTime) (sid : String) (sessions : List String) (b : Broker) :
    ∃ b' log, DrainRound now sid b b' log ∧
      drainLoop now (sid :: sessions) b =
        ((drainLoop now sessions b').1, log ++ (drainLoop now sessions b').2) := by
  cases hpend : b.pending[sid]? with
  | none =>
    -- nothing was ever buffered for the session
    refine ⟨b, [], drainRound_of_empty now (by rw [hpend]; rfl), ?_⟩
    rw [drainLoop, hpend]
    rfl
  | some events =>
    by_cases hnil : events.isEmpty
    · -- everything buffered for it was drained before
      refine ⟨b, [], drainRound_of_empty now ?_, ?_⟩
      · rw [hpend, Option.getD_some]
        exact List.isEmpty_iff.mp hnil
      · rw [drainLoop, hpend]
        simp only [if_pos hnil, List.nil_append]
    · have hbatch : (sortByKey Prod.fst events).map Prod.snd = b.batch sid := by
        rw [batch, hpend, Option.getD_some]
      obtain ⟨hengine, hevents, htrans⟩ :=
        ingestAll_eq now (sortByKey Prod.fst events) b.stateEngine
      rw [hbatch] at hengine hevents htrans
      refine ⟨⟨_, b.pending.insert sid []⟩, _, ⟨hevents, hengine, htrans, fun id => ?_⟩, ?_⟩
      · show ((b.pending.insert sid [])[id]?).getD [] = _
        rw [FiniteMap.getElem?_insert_if]
        split <;> rfl
      · rw [drainLoop, hpend]
        simp only [if_neg hnil]

/-- The events of one session. -/
def eventsOf (id : String) (evs : List NormalizedEvent) : List NormalizedEvent :=
  evs.filter fun ev => ev.session.id = id

@[simp] theorem eventsOf_nil (id : String) : eventsOf id [] = [] := rfl

@[simp] theorem eventsOf_append (id : String) (xs ys : List NormalizedEvent) :
    eventsOf id (xs ++ ys) = eventsOf id xs ++ eventsOf id ys := List.filter_append ..

/-- A batch holds events of its session only. -/
theorem eventsOf_batch {b : Broker} (h : b.Keyed) (id sid : String) :
    eventsOf id (b.batch sid) = if sid = id then b.batch sid else [] := by
  have hall : ∀ ev ∈ b.batch sid, ev.session.id = sid := by
    intro ev hev
    obtain ⟨p, hp, rfl⟩ := List.mem_map.mp hev
    exact (h sid p ((mem_sortByKey _).mp hp)).1
  by_cases hid : sid = id
  · rw [if_pos hid]
    exact List.filter_eq_self.mpr fun ev hev => by simp [hall ev hev, hid]
  · rw [if_neg hid]
    exact List.filter_eq_nil_iff.mpr fun ev hev => by simp [hall ev hev, hid]

/-- **What a drain does.** It ingests the events of its log one at a time, the log holds
    for every listed session its batch, and the buffers of the listed sessions are empty
    afterwards. -/
theorem drainLoop_spec (now : DateTime) {sessions : List String} (hnd : sessions.Nodup)
    (b : Broker) (hkeyed : b.Keyed) :
    let after := drainLoop now sessions b
    let evs := after.2.map Ingestion.event
    after.1.stateEngine = exec ingestStep b.stateEngine (ingestions now evs) ∧
    after.2.filterMap Ingestion.transition =
      trace ingestStep b.stateEngine (ingestions now evs) ∧
    (∀ id, (after.1.pending[id]?).getD [] =
      if id ∈ sessions then [] else (b.pending[id]?).getD []) ∧
    (∀ id, eventsOf id evs = if id ∈ sessions then b.batch id else []) := by
  induction sessions generalizing b with
  | nil => exact ⟨rfl, rfl, fun id => by simp [drainLoop], fun id => by simp [drainLoop]⟩
  | cons sid sessions ih =>
    obtain ⟨hsid, hnd⟩ := List.nodup_cons.mp hnd
    obtain ⟨b', log, hround, heq⟩ := drainLoop_cons now sid sessions b
    -- the rest of the walk starts from buffers that are filed correctly
    have hkeyed' : b'.Keyed := by
      intro id p hp
      rw [hround.pending] at hp
      by_cases hid : sid = id
      · simp [hid] at hp
      · rw [if_neg hid] at hp
        exact hkeyed id p hp
    obtain ⟨hengine, htrans, hpending, hevents⟩ := ih hnd b' hkeyed'
    rw [heq]
    simp only [List.map_append, List.filterMap_append, hround.events, hround.transitions,
      List.mem_cons, eventsOf_append]
    refine ⟨?_, ?_, fun id => ?_, fun id => ?_⟩
    · rw [hengine, hround.engine, exec_append]
    · rw [htrans, hround.engine, trace_append]
    · rw [hpending, hround.pending]
      by_cases hid : sid = id
      · subst hid; simp [hsid]
      · simp [hid, Ne.symm hid]
    · rw [hevents, eventsOf_batch hkeyed]
      by_cases hid : sid = id
      · subst hid; simp [hsid]
      · -- the round left the buffer of another session alone
        have hsame : b'.batch id = b.batch id := by
          rw [batch, hround.pending, if_neg hid, batch]
        simp [hid, Ne.symm hid, hsame]

/-! ### What the buffers hold -/

/-- The buffers hold these events, those of each session in order of arrival. -/
def Holds (b : Broker) (waiting : List NormalizedEvent) : Prop :=
  ∀ id, (b.pending[id]?).getD [] = (eventsOf id waiting).map fun ev => (ev.timestamp, ev)

/-- Nothing is buffered at first. -/
theorem holds_new (e : StateEngine) : (Broker.new e).Holds [] := fun id => by simp [Broker.new]

section
variable {b : Broker} {waiting : List NormalizedEvent}

/-- Buffered events are filed under their session. -/
theorem Holds.keyed (h : b.Holds waiting) : b.Keyed := by
  intro sid p hp
  rw [h] at hp
  obtain ⟨ev, hev, rfl⟩ := List.mem_map.mp hp
  exact ⟨by simpa using (List.mem_filter.mp hev).2, rfl⟩

/-- The batch of a session is what waits for it, in order. -/
theorem Holds.batch_eq (h : b.Holds waiting) (id : String) :
    b.batch id = sortByKey NormalizedEvent.timestamp (eventsOf id waiting) := by
  rw [batch, h, sortByKey_map NormalizedEvent.timestamp Prod.fst _ fun _ => rfl, List.map_map]
  exact List.map_id _

/-- An event is buffered. -/
theorem Holds.push (h : b.Holds waiting) (event : NormalizedEvent) :
    (b.push event).Holds (waiting ++ [event]) := by
  intro id
  rw [Broker.push, FiniteMap.getElem?_insert_if, eventsOf_append, List.map_append]
  by_cases hid : event.session.id = id
  · subst hid
    rw [if_pos rfl, Option.getD_some, h]
    simp [eventsOf]
  · rw [if_neg hid, h]
    simp [eventsOf, hid]

/-- A drain meets every session for which something waits. -/
theorem Holds.eventsOf_drainLoop (h : b.Holds waiting) (now : DateTime) {sessions : List String}
    (hsessions : Enumerates sessions b.pending) (id : String) :
    eventsOf id ((drainLoop now sessions b).2.map Ingestion.event) = b.batch id ∧
      (((drainLoop now sessions b).1.pending[id]?).getD [] = []) := by
  obtain ⟨-, -, hpending, hevents⟩ := drainLoop_spec now hsessions.nodup b h.keyed
  rw [hpending, hevents]
  by_cases hid : id ∈ sessions
  · rw [if_pos hid, if_pos hid]
    exact ⟨rfl, rfl⟩
  · have hnone : (b.pending[id]?).getD [] = [] := by
      cases hp : b.pending[id]? with
      | none => rfl
      | some evs => exact absurd ((hsessions.mem_iff_lookup id).mpr ⟨evs, hp⟩) hid
    rw [if_neg hid, if_neg hid, batch, hnone]
    exact ⟨rfl, rfl⟩

/-- **A drain ingests all that waits.**  Its log holds the events that were buffered, each as
    often, and nothing is buffered afterwards. -/
theorem Holds.drain (h : b.Holds waiting) (now : DateTime) {sessions : List String}
    (hsessions : Enumerates sessions b.pending) :
    ((drainLoop now sessions b).2.map Ingestion.event).Perm waiting ∧
      (drainLoop now sessions b).1.Holds [] := by
  refine ⟨perm_of_filter_perm (fun ev => ev.session.id) fun id => ?_, fun id => ?_⟩
  · show (eventsOf id _).Perm (eventsOf id _)
    rw [(h.eventsOf_drainLoop now hsessions id).1, h.batch_eq]
    exact sortByKey_perm _ _
  · exact (h.eventsOf_drainLoop now hsessions id).2

/-! ### What a drain does to one session -/

/-- What the engine holds for a session once its buffer is drained. -/
def settled (b : Broker) (id : String) : SessionView :=
  exec sessionStep (b.stateEngine.view id) (b.batch id)

/-- **A drain settles every session.** -/
theorem Holds.view_drain (h : b.Holds waiting) (now : DateTime) {sessions : List String}
    (hsessions : Enumerates sessions b.pending) (id : String) :
    (b.drainAndProcess now sessions).1.stateEngine.view id = b.settled id := by
  obtain ⟨hengine, -, -, -⟩ := drainLoop_spec now hsessions.nodup b h.keyed
  show (drainLoop now sessions b).1.stateEngine.view id = _
  rw [hengine, (isPart_session id).view_exec, filterMap_ownEvent, map_fst_ingestions, settled,
    ← (h.eventsOf_drainLoop now hsessions id).1]
  rfl

/-- An event of another session makes no difference to what a session settles in. -/
theorem Holds.settled_push_ne (h : b.Holds waiting) {event : NormalizedEvent} {id : String}
    (hid : event.session.id ≠ id) : (b.push event).settled id = b.settled id := by
  have hbatch : (b.push event).batch id = b.batch id := by
    rw [(h.push event).batch_eq, h.batch_eq, eventsOf_append]
    simp [eventsOf, hid]
  rw [settled, hbatch]
  rfl

/-- An event that is not older than what waits for its session comes after it. -/
theorem Holds.batch_push_self (h : b.Holds waiting) (event : NormalizedEvent)
    (hlast : ∀ ev ∈ eventsOf event.session.id waiting, ev.timestamp ≤ event.timestamp) :
    (b.push event).batch event.session.id = b.batch event.session.id ++ [event] := by
  have hown : eventsOf event.session.id [event] = [event] := by simp [eventsOf]
  rw [(h.push event).batch_eq, h.batch_eq, eventsOf_append, hown,
    sortByKey_append _ _ _ fun ev hev e he => by
      rw [List.mem_singleton.mp he]
      exact hlast ev hev]
  rfl

/-- It is then the last one its session ingests. -/
theorem Holds.settled_push_self (h : b.Holds waiting) (event : NormalizedEvent)
    (hlast : ∀ ev ∈ eventsOf event.session.id waiting, ev.timestamp ≤ event.timestamp) :
    (b.push event).settled event.session.id =
      (sessionStep (b.settled event.session.id) event).1 := by
  rw [settled, h.batch_push_self event hlast, exec_append]
  rfl

end

end Broker

end AgentTermStatus
