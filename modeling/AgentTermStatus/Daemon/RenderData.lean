import AgentTermStatus.Daemon.BrokerLoop

namespace AgentTermStatus

open Lib StateEngine Broker

/-!
# Whose data a transition is rendered with

The broker's loop files the label and the terminal of an event under its session when the event
arrives, and looks them up when a transition of the session is rendered.  In between come the
ordering correction and the state engine, so a transition of one event is rendered with the data
of another as soon as a later arrival of the session has other data.

* `loopKeeps_run` — what is filed for a session are the data of its last arrival;
* `renders_own_data_iff` — a drain renders every transition with the data of its own event exactly
  if the last arrivals of the sessions show the same data;
* `transition_loses_pane` — a transition that is rendered without the pane of its event.
-/

/-! ### The loop as a step function -/

/-- What the loop does in one round before it ends. -/
inductive LoopOp
  /-- A payload is received. -/
  | receive (raw : List UInt8)
  /-- The buffers are drained. -/
  | drain (now : DateTime) (sessions : List String)
  /-- The time-to-live of the sessions is checked. -/
  | checkTtls (now : DateTime) (order : List String)

/-- One round: the task after it, and what it emits. -/
def loopStep (decode : List UInt8 → Option NormalizedEvent) (t : BrokerTask) :
    LoopOp → BrokerTask × List BrokerOutput
  | .receive raw         => (t.receive decode raw, [])
  | .drain now sessions  => t.drain now sessions
  | .checkTtls now order => t.checkTtls now order

/-- The round is possible: a drain meets each session with a buffer once, and an expiry each
    session. -/
def LoopOp.Possible (t : BrokerTask) : LoopOp → Prop
  | .receive _         => True
  | .drain _ sessions  => Enumerates sessions t.broker.pending
  | .checkTtls _ order => Enumerates order t.broker.stateEngine.sessions

instance decidableLoopOpPossible (t : BrokerTask) : (op : LoopOp) → Decidable (op.Possible t)
  | .receive _         => inferInstanceAs (Decidable True)
  | .drain _ sessions  => inferInstanceAs (Decidable (Enumerates sessions t.broker.pending))
  | .checkTtls _ order =>
      inferInstanceAs (Decidable (Enumerates order t.broker.stateEngine.sessions))

/-- A run of rounds is possible. -/
abbrev LoopRun (decode : List UInt8 → Option NormalizedEvent) (t : BrokerTask)
    (ops : List LoopOp) : Prop :=
  Along (loopStep decode) (fun t op => op.Possible t) t ops

/-- The event received in a round. -/
def LoopOp.received (decode : List UInt8 → Option NormalizedEvent) :
    LoopOp → List NormalizedEvent
  | .receive raw => (decode raw).toList
  | _            => []

/-- The events received, in order of arrival. -/
def receivedEvents (decode : List UInt8 → Option NormalizedEvent) (ops : List LoopOp) :
    List NormalizedEvent := ops.flatMap fun op => op.received decode

/-- The last event of a session. -/
def lastOf (id : String) (evs : List NormalizedEvent) : Option NormalizedEvent :=
  (eventsOf id evs).getLast?

/-! ### The data of an event -/

/-- The label of an event. -/
def labelOf (ev : NormalizedEvent) : Option ActivityLabel := ev.activity.bind Activity.label

/-- The terminal of an event, as a renderer is given it. -/
def terminalOf (ev : NormalizedEvent) : TerminalContext := ev.session.terminal.getD .default

/-- The view carries the data of the event. -/
def Carries (view : StateView) (ev : NormalizedEvent) : Prop :=
  view.label = labelOf ev ∧ view.target.terminal = terminalOf ev

/-- Two events carry the same data. -/
def SameData (ev ev' : NormalizedEvent) : Prop :=
  labelOf ev = labelOf ev' ∧ terminalOf ev = terminalOf ev'

instance (ev ev' : NormalizedEvent) : Decidable (SameData ev ev') :=
  inferInstanceAs (Decidable (_ ∧ _))

/-- The views a drain hands out, each with the ingestion that caused its transition. -/
def drainViews (t : BrokerTask) (now : DateTime) (sessions : List String) :
    List (Ingestion × StateView) :=
  (t.broker.drainLoop now sessions).2.filterMap fun i =>
    i.transition.map fun tr => (i, transitionView t.sessionInfo tr)

/-- These are the views that are dispatched, in order. -/
theorem drain_dispatches (t : BrokerTask) (now : DateTime) (sessions : List String) :
    (t.drain now sessions).2 =
      (t.broker.drainLoop now sessions).2.map .ingested ++
        (drainViews t now sessions).map fun p => .dispatched p.2 := by
  show _ ++ t.dispatch _ = _
  rw [BrokerTask.dispatch, drainViews, List.map_filterMap, List.map_filterMap]
  simp only [Option.map_map]
  rfl

/-! ### What is filed for a session -/

/-- What holds of the loop after it received `received` and ingested `ingested`. -/
structure LoopKeeps (received ingested : List NormalizedEvent) (t : BrokerTask) : Prop where
  looping : t.phase = .looping
  keeps : t.Keeps received ingested
  info : ∀ id : String, t.sessionInfo[id]? =
    (lastOf id received).map fun ev => (labelOf ev, ev.session.terminal)

section
variable {decode : List UInt8 → Option NormalizedEvent} {received ingested : List NormalizedEvent}
  {t : BrokerTask}

theorem loopKeeps_start (e : StateEngine) : LoopKeeps [] [] (.start (.new e)) where
  looping := rfl
  keeps := BrokerTask.keeps_start e
  info id := by simp [BrokerTask.start, lastOf]

/-- The last event of a session once another event has arrived. -/
theorem lastOf_concat (id : String) (evs : List NormalizedEvent) (ev : NormalizedEvent) :
    lastOf id (evs ++ [ev]) = if ev.session.id = id then some ev else lastOf id evs := by
  rw [lastOf, eventsOf_append]
  by_cases hid : ev.session.id = id
  · simp [eventsOf, hid]
  · simp [eventsOf, hid, lastOf]

/-- **Step lemma.** A payload is received: its event is the last arrival of its session. -/
theorem LoopKeeps.receive (h : LoopKeeps received ingested t) (raw : List UInt8) :
    LoopKeeps (received ++ (decode raw).toList) ingested (t.receive decode raw) where
  looping := by rw [BrokerTask.receive_phase, h.looping]
  keeps := h.keeps.receive h.looping raw
  info id := by
    unfold BrokerTask.receive bufferEvent
    cases decode raw with
    | none => simpa using h.info id
    | some ev =>
      show (t.sessionInfo.insert ev.session.id (labelOf ev, ev.session.terminal))[id]? = _
      rw [FiniteMap.getElem?_insert_if, Option.toList_some, lastOf_concat, h.info]
      split <;> rfl

/-- **Step lemma.** Nothing else changes what is filed. -/
theorem LoopKeeps.step (h : LoopKeeps received ingested t) {op : LoopOp} (hop : op.Possible t) :
    ∃ ingested', LoopKeeps (received ++ op.received decode) ingested' (loopStep decode t op).1 := by
  cases op with
  | receive raw => exact ⟨ingested, h.receive raw⟩
  | drain now sessions =>
    show ∃ ingested', LoopKeeps (received ++ []) ingested' (t.drain now sessions).1
    rw [List.append_nil]
    exact ⟨_, h.looping, h.keeps.drained now hop, h.info⟩
  | checkTtls now order =>
    show ∃ ingested', LoopKeeps (received ++ []) ingested' (t.checkTtls now order).1
    rw [List.append_nil]
    exact ⟨_, h.looping, h.keeps.checkTtls now order, h.info⟩

/-- **Run lemma.** What is filed for a session are the data of its last arrival. -/
theorem loopKeeps_run {ops : List LoopOp} (h : LoopKeeps received ingested t)
    (hrun : LoopRun decode t ops) :
    ∃ ingested', LoopKeeps (received ++ receivedEvents decode ops) ingested'
      (exec (loopStep decode) t ops) := by
  induction ops generalizing received ingested t with
  | nil => exact ⟨ingested, by simpa [receivedEvents] using h⟩
  | cons op ops ih =>
    obtain ⟨ingested', hnext⟩ := h.step hrun.1
    obtain ⟨ingested'', hlast⟩ := ih hnext hrun.2
    refine ⟨ingested'', ?_⟩
    rw [receivedEvents, List.flatMap_cons, ← List.append_assoc]
    exact hlast

/-! ### The ingestions of a drain -/

/-- The transition of an ingestion is the one the state engine reported for its event. -/
theorem ingestAll_transition (now : DateTime) (events : List (DateTime × NormalizedEvent))
    (e : StateEngine) :
    ∀ i ∈ (ingestAll now events e).2, ∃ e' : StateEngine,
      i.transition = (e'.ingest i.event now).2 := by
  induction events generalizing e with
  | nil => simp [ingestAll]
  | cons p events ih =>
    rw [ingestAll_cons, List.forall_mem_cons]
    exact ⟨⟨e, rfl⟩, ih _⟩

theorem drainLoop_transition (now : DateTime) (sessions : List String) (b : Broker) :
    ∀ i ∈ (drainLoop now sessions b).2, ∃ e' : StateEngine,
      i.transition = (e'.ingest i.event now).2 := by
  induction sessions generalizing b with
  | nil => simp [drainLoop]
  | cons sid sessions ih =>
    rw [drainLoop]
    split
    · exact ih b
    · next events _ =>
      split
      · exact ih b
      · intro i hi
        rcases List.mem_append.mp hi with hi | hi
        · exact ingestAll_transition now _ _ i hi
        · exact ih _ i hi

/-- A transition is one of the session of its event. -/
theorem drainLoop_sessionId {now : DateTime} {sessions : List String} {b : Broker}
    {i : Ingestion} (hi : i ∈ (drainLoop now sessions b).2) {tr : StateTransition}
    (htr : i.transition = some tr) : tr.sessionId = i.event.session.id := by
  obtain ⟨e, he⟩ := drainLoop_transition now sessions b i hi
  rw [he, ingest_snd] at htr
  split at htr
  · exact absurd htr (by simp)
  · rw [← Option.some.inj htr]

end

/-- An event that a drain ingests has arrived, so its session has a last arrival. -/
theorem LoopKeeps.exists_lastOf {received ingested : List NormalizedEvent} {t : BrokerTask}
    (h : LoopKeeps received ingested t) {now : DateTime} {sessions : List String}
    (hsessions : Enumerates sessions t.broker.pending) {i : Ingestion}
    (hi : i ∈ (t.broker.drainLoop now sessions).2) :
    ∃ last, lastOf i.event.session.id received = some last := by
  obtain ⟨waiting, hholds, hperm⟩ := h.keeps.buffered
  have hwaiting : i.event ∈ waiting :=
    (hholds.drain now hsessions).1.mem_iff.mp (List.mem_map_of_mem hi)
  have hreceived : i.event ∈ eventsOf i.event.session.id received :=
    List.mem_filter.mpr ⟨hperm.mem_iff.mpr (List.mem_append_right _ hwaiting), by simp⟩
  exact Option.isSome_iff_exists.mp (List.getLast?_isSome.mpr (List.ne_nil_of_mem hreceived))

/-- The view of a transition carries the data of its event exactly if the last arrival of the
    session carries the same. -/
theorem LoopKeeps.carries_iff {received ingested : List NormalizedEvent} {t : BrokerTask}
    (h : LoopKeeps received ingested t) {now : DateTime} {sessions : List String}
    (hsessions : Enumerates sessions t.broker.pending) {i : Ingestion}
    (hi : i ∈ (t.broker.drainLoop now sessions).2) {tr : StateTransition}
    (htr : i.transition = some tr) :
    Carries (transitionView t.sessionInfo tr) i.event ↔
      ∀ last ∈ lastOf i.event.session.id received, SameData last i.event := by
  obtain ⟨last, hlast⟩ := h.exists_lastOf hsessions hi
  have hinfo : t.sessionInfo[tr.sessionId]? = some (labelOf last, last.session.terminal) := by
    rw [drainLoop_sessionId hi htr, h.info, hlast, Option.map_some]
  have hview : Carries (transitionView t.sessionInfo tr) i.event ↔ SameData last i.event := by
    rw [transitionView, hinfo]
    rfl
  rw [hview, hlast]
  simp

/-- **When transitions are rendered with the data of their own events.** Whatever the loop has
    received and done, a drain renders every transition with the label and the terminal of the
    event that caused it if and only if each such event carries the same data as the last arrival
    of its session. -/
theorem renders_own_data_iff (decode : List UInt8 → Option NormalizedEvent) (e : StateEngine)
    (ops : List LoopOp) (hrun : LoopRun decode (.start (.new e)) ops) (now : DateTime)
    (sessions : List String)
    (hsessions : Enumerates sessions
      (exec (loopStep decode) (.start (.new e)) ops).broker.pending) :
    (∀ p ∈ drainViews (exec (loopStep decode) (.start (.new e)) ops) now sessions,
        Carries p.2 p.1.event) ↔
      ∀ i ∈ ((exec (loopStep decode) (.start (.new e)) ops).broker.drainLoop now sessions).2,
        i.transition.isSome → ∀ last ∈ lastOf i.event.session.id (receivedEvents decode ops),
          SameData last i.event := by
  obtain ⟨ingested, hkeeps⟩ := loopKeeps_run (loopKeeps_start e) hrun
  rw [List.nil_append] at hkeeps
  generalize exec (loopStep decode) (.start (.new e)) ops = t at hkeeps hsessions ⊢
  refine ⟨fun hall i hi hsome => ?_, fun hall p hp => ?_⟩
  · obtain ⟨tr, htr⟩ := Option.isSome_iff_exists.mp hsome
    refine (hkeeps.carries_iff hsessions hi htr).mp (hall (i, transitionView t.sessionInfo tr) ?_)
    exact List.mem_filterMap.mpr ⟨i, hi, by rw [htr, Option.map_some]⟩
  · obtain ⟨i, hi, hview⟩ := List.mem_filterMap.mp hp
    obtain ⟨tr, htr, rfl⟩ := Option.map_eq_some_iff.mp hview
    exact (hkeeps.carries_iff hsessions hi htr).mpr (hall i hi (by rw [htr]; rfl))

/-! ### A pane that is lost -/

/-- A turn ends in a pane. -/
def endOfTurn : NormalizedEvent :=
  { NormalizedEvent.bare 1 .agentCompleted "s" 0 with
    session := { SessionIdentity.default with
      id := "s"
      terminal := some { TerminalContext.default with tmuxPane := some "%1" } } }

/-- The session is heard of again, by an event without a terminal. -/
def laterHeartbeat : NormalizedEvent := .bare 2 .sessionHeartbeat "s" 1

/-- Reads one of the two events. -/
def decodeTurn (raw : List UInt8) : Option NormalizedEvent :=
  if raw = [1] then some endOfTurn else if raw = [2] then some laterHeartbeat else none

/-- Both arrive before the next drain. -/
def turnArrives : List LoopOp := [.receive [1], .receive [2]]

/-- The result of the turn is rendered without the pane it was reported from. -/
theorem transition_loses_pane :
    ¬ ∀ (decode : List UInt8 → Option NormalizedEvent) (e : StateEngine) (ops : List LoopOp)
        (now : DateTime) (sessions : List String),
      LoopRun decode (.start (.new e)) ops →
      Enumerates sessions (exec (loopStep decode) (.start (.new e)) ops).broker.pending →
      ∀ p ∈ drainViews (exec (loopStep decode) (.start (.new e)) ops) now sessions,
        Carries p.2 p.1.event := by
  intro hall
  have hcarries := hall decodeTurn .new turnArrives 2 ["s"] (by decide) (by decide)
    (⟨endOfTurn, some ⟨"s", .idle, .result⟩⟩, ⟨.result, none, ⟨"s", .default⟩⟩)
    (List.mem_cons_self ..)
  exact absurd hcarries.2 (by decide)

/-- A later event of the session, from the same pane. -/
def panedHeartbeat : NormalizedEvent := { laterHeartbeat with session := endOfTurn.session }

/-- Reads the end of the turn and this one. -/
def decodePaned (raw : List UInt8) : Option NormalizedEvent :=
  if raw = [1] then some endOfTurn else if raw = [2] then some panedHeartbeat else none

/-- Followed by an event from the same pane, the end of the turn is rendered, and in its pane. -/
theorem renders_own_data_iff_endOfTurn :
    drainViews (exec (loopStep decodePaned) (.start (.new .new)) turnArrives) 2 ["s"] ≠ [] ∧
      ∀ p ∈ drainViews (exec (loopStep decodePaned) (.start (.new .new)) turnArrives) 2 ["s"],
        Carries p.2 p.1.event := by
  refine ⟨List.cons_ne_nil _ _, ?_⟩
  refine (renders_own_data_iff decodePaned .new turnArrives (by decide) 2 ["s"] (by decide)).mpr ?_
  intro i hi _ last hlast
  -- both carry the same pane, and the later one arrives last
  rcases List.mem_pair.mp (show i ∈ [_, _] from hi) with rfl | rfl <;>
    obtain rfl := Option.some.inj (show some panedHeartbeat = some last from hlast) <;> decide

end AgentTermStatus
