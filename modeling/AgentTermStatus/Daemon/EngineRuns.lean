import AgentTermStatus.Daemon.Connections
import AgentTermStatus.StateEngine.SessionView
import AgentTermStatus.StateEngine.TransitionChain

namespace AgentTermStatus

open Lib StateEngine Broker

/-!
# The daemon runs the state engine

Whatever its tasks do and in whatever order, the daemon's state engine goes through a run of
`engineStep`: the events that the drains ingest and the expiries of the ticks, and nothing else.
So what holds in every run of an engine holds in the daemon.

What the renderers are told is what that run emits: one view for each transition, in order.  The
views of a session therefore never repeat a state, and the last one shows what the engine holds.

* `EngineHistory` — the run of the engine that lies behind a run of the daemon;
* `daemon_refines_engine` — there is one behind every run.
-/

/-- The views that were handed to the rendering engine. -/
def dispatchedViews (out : List SystemOutput) : List StateView :=
  (brokerOutputs out).filterMap fun
    | .ingested _      => none
    | .dispatched view => some view

/-- The session and the state that a view is about. -/
def StateView.shows (view : StateView) : String × AgentState := (view.target.sessionId, view.state)

/-- The session and the state that a transition leads to. -/
def StateTransition.leadsTo (t : StateTransition) : String × AgentState := (t.sessionId, t.new)

/-- The events that operations ingest. -/
def ingestedIn (ops : List EngineOp) : List NormalizedEvent :=
  ops.filterMap fun
    | .ingest event _ => some event
    | _               => none

@[simp] theorem dispatchedViews_append (xs ys : List SystemOutput) :
    dispatchedViews (xs ++ ys) = dispatchedViews xs ++ dispatchedViews ys := by
  simp [dispatchedViews]

@[simp] theorem ingestedIn_append (xs ys : List EngineOp) :
    ingestedIn (xs ++ ys) = ingestedIn xs ++ ingestedIn ys := List.filterMap_append ..

/-- What is dispatched for some transitions. -/
theorem dispatchedViews_dispatch (t : BrokerTask) (ts : List StateTransition) :
    (dispatchedViews ((t.dispatch ts).map .broker)).map StateView.shows =
      ts.map StateTransition.leadsTo := by
  rw [dispatchedViews, brokerOutputs_broker, BrokerTask.dispatch, List.filterMap_map,
    List.map_filterMap, ← List.filterMap_eq_map]
  rfl

/-- Ingestions are no views. -/
theorem dispatchedViews_ingested (log : List Ingestion) (out : List BrokerOutput) :
    dispatchedViews ((log.map BrokerOutput.ingested ++ out).map .broker) =
      dispatchedViews (out.map .broker) := by
  have hnone : (log.map BrokerOutput.ingested).filterMap (fun
      | .ingested _      => none
      | .dispatched view => some view) = [] := by
    simp
  rw [dispatchedViews, dispatchedViews, brokerOutputs_broker, brokerOutputs_broker,
    List.filterMap_append, hnone, List.nil_append]

/-- The events ingested by a list of ingestions. -/
theorem ingestedIn_ingestions (now : DateTime) (evs : List NormalizedEvent) :
    ingestedIn ((ingestions now evs).map fun i => .ingest i.1 i.2) = evs := by
  rw [ingestions, List.map_map, ingestedIn, List.filterMap_map]
  exact List.filterMap_some

/-- Ingestions are possible in every state. -/
theorem engineRun_ingestions (e : StateEngine) (evs : List (NormalizedEvent × DateTime)) :
    EngineRun e (evs.map fun i => .ingest i.1 i.2) := by
  induction evs generalizing e with
  | nil => trivial
  | cons i evs ih => exact ⟨trivial, ih _⟩

/-- The transitions of some ingestions, as a run of an engine. -/
theorem trace_ingestStep (e : StateEngine) (evs : List (NormalizedEvent × DateTime)) :
    trace engineStep e (evs.map fun i => .ingest i.1 i.2) = trace ingestStep e evs := by
  induction evs generalizing e with
  | nil => rfl
  | cons i evs ih =>
    rw [List.map_cons, trace_cons, trace_cons, ih]
    rfl

/-! ### The run behind a run -/

/-- A run of the engine behind a run of the daemon: it leads to the daemon's engine, ingests what
    the daemon ingests, and emits what the daemon dispatches. -/
structure EngineHistory (out : List SystemOutput) (t : BrokerTask) (history : List EngineOp) :
    Prop where
  possible : EngineRun StateEngine.new history
  engine : t.broker.stateEngine = exec engineStep StateEngine.new history
  ingested : ingestedIn history = ingestedBy out
  dispatched : (dispatchedViews out).map StateView.shows =
    (trace engineStep StateEngine.new history).map StateTransition.leadsTo

/-- Nothing has happened yet. -/
theorem engineHistory_start :
    EngineHistory [] (.start (Broker.new StateEngine.new)) [] where
  possible := trivial
  engine := rfl
  ingested := rfl
  dispatched := rfl

section
variable {out : List SystemOutput} {t : BrokerTask} {history : List EngineOp}

/-- The history goes on. -/
theorem EngineHistory.extend (h : EngineHistory out t history) {t' : BrokerTask}
    {out' : List BrokerOutput} {ops : List EngineOp}
    (hpossible : EngineRun t.broker.stateEngine ops)
    (hengine : t'.broker.stateEngine = exec engineStep t.broker.stateEngine ops)
    (hingested : ingestedEvents out' = ingestedIn ops)
    (hdispatched : (dispatchedViews (out'.map .broker)).map StateView.shows =
      (trace engineStep t.broker.stateEngine ops).map StateTransition.leadsTo) :
    EngineHistory (out ++ out'.map .broker) t' (history ++ ops) where
  possible := (along_append ..).mpr ⟨h.possible, h.engine ▸ hpossible⟩
  engine := by rw [hengine, h.engine, exec_append]
  ingested := by
    show _ = ingestedEvents (brokerOutputs (out ++ out'.map .broker))
    rw [ingestedIn_append, brokerOutputs_append, brokerOutputs_broker, ingestedEvents_append,
      hingested, h.ingested]
    rfl
  dispatched := by
    rw [dispatchedViews_append, List.map_append, hdispatched, h.dispatched, h.engine,
      trace_append, List.map_append]

/-- **Step lemma.** A drain ingests its events one at a time and dispatches their transitions. -/
theorem EngineHistory.drain (h : EngineHistory out t history) {waiting : List NormalizedEvent}
    (hholds : t.broker.Holds waiting) (now : DateTime) {sessions : List String}
    (hsessions : Enumerates sessions t.broker.pending) :
    ∃ ops, EngineHistory (out ++ (t.drain now sessions).2.map .broker) (t.drain now sessions).1
      (history ++ ops) := by
  obtain ⟨hengine, htrans, -, -⟩ := drainLoop_spec now hsessions.nodup t.broker hholds.keyed
  let evs := ingestions now ((drainLoop now sessions t.broker).2.map Ingestion.event)
  refine ⟨evs.map fun i => .ingest i.1 i.2, h.extend (engineRun_ingestions _ evs) ?_ ?_ ?_⟩
  · rw [exec_ingestStep]
    exact hengine
  · show ingestedEvents (List.map _ _ ++ t.dispatch _) = _
    rw [ingestedEvents_append, ingestedEvents_map, ingestedEvents_dispatch, List.append_nil,
      ingestedIn_ingestions]
  · show (dispatchedViews (List.map _ (List.map _ _ ++ t.dispatch _))).map _ = _
    rw [dispatchedViews_ingested, dispatchedViews_dispatch, trace_ingestStep, ← htrans]

/-- **Step lemma.** So does the last drain. -/
theorem EngineHistory.finish (h : EngineHistory out t history) {waiting : List NormalizedEvent}
    (hholds : t.broker.Holds waiting) (now : DateTime) {sessions : List String}
    (hsessions : Enumerates sessions t.broker.pending) :
    ∃ ops, EngineHistory (out ++ (t.finish now sessions).2.map .broker) (t.finish now sessions).1
      (history ++ ops) := by
  obtain ⟨ops, hnext⟩ := h.drain hholds now hsessions
  exact ⟨ops, hnext.possible, hnext.engine, hnext.ingested, hnext.dispatched⟩

/-- **Step lemma.** A tick expires the sessions and dispatches their transitions. -/
theorem EngineHistory.checkTtls (h : EngineHistory out t history) (now : DateTime)
    {order : List String} (horder : Enumerates order t.broker.stateEngine.sessions) :
    ∃ ops, EngineHistory (out ++ (t.checkTtls now order).2.map .broker) (t.checkTtls now order).1
      (history ++ ops) := by
  refine ⟨[.expireTtls now order], h.extend ⟨horder, trivial⟩ rfl ?_ ?_⟩
  · exact ingestedEvents_dispatch t _
  · show (dispatchedViews ((t.dispatch _).map .broker)).map _ = _
    rw [dispatchedViews_dispatch, trace_cons, trace_nil, List.append_nil]
    rfl

/-- **Step lemma.** A receipt leaves the engine alone. -/
theorem EngineHistory.receive (h : EngineHistory out t history)
    (decode : List UInt8 → Option NormalizedEvent) (raw : List UInt8) :
    EngineHistory out (t.receive decode raw) history := by
  refine ⟨h.possible, ?_, h.ingested, h.dispatched⟩
  rw [← h.engine, BrokerTask.receive, Broker.bufferEvent]
  cases decode raw <;> rfl

/-- **Step lemma.** Every step of the daemon keeps a history. -/
theorem EngineHistory.step {decode : List UInt8 → Option NormalizedEvent} {s : System}
    (h : EngineHistory out s.task history) {waiting : List NormalizedEvent}
    (hholds : s.task.broker.Holds waiting) {a : SystemAction} (ha : a.Possible s) :
    ∃ history', EngineHistory (out ++ (systemStep decode s a).2) (systemStep decode s a).1.task
      history' := by
  have hmove := systemStep_move decode s a
  generalize (systemStep decode s a).1 = s' at hmove ⊢
  generalize (systemStep decode s a).2 = out' at hmove ⊢
  cases hmove with
  | stay _ hchannel htask =>
    rw [List.append_nil, htask]
    exact ⟨history, h⟩
  | sent i payload _ hhandler hsend htask =>
    rw [htask]
    refine ⟨history, h.possible, h.engine, ?_, ?_⟩
    · rw [h.ingested, ingestedBy, ingestedBy, brokerOutputs_append, brokerOutputs_sent,
        List.append_nil]
    · rw [dispatchedViews_append, List.map_append, ← h.dispatched]
      exact List.append_nil _
  | received now sessions raw channel =>
    rw [List.append_nil]
    exact ⟨history, h.receive decode raw⟩
  | drained now sessions =>
    obtain ⟨ops, hnext⟩ := h.drain hholds now ha
    exact ⟨_, hnext⟩
  | checked now order =>
    obtain ⟨ops, hnext⟩ := h.checkTtls now ha
    exact ⟨_, hnext⟩
  | stopped now sessions =>
    obtain ⟨ops, hnext⟩ := h.finish hholds now ha
    exact ⟨_, hnext⟩
  | ended now sessions =>
    obtain ⟨ops, hnext⟩ := h.finish hholds now ha
    exact ⟨_, hnext⟩
  | returned =>
    rw [List.append_nil]
    exact ⟨history, h.possible, h.engine, h.ingested, h.dispatched⟩

end

/-! ### What the renderers were told -/

/-- The states dispatched for a session, in order. -/
def statesTold (id : String) (out : List SystemOutput) : List AgentState :=
  ((dispatchedViews out).filter fun view => view.target.sessionId = id).map StateView.state

/-- They are the new states of its transitions. -/
theorem EngineHistory.statesTold_eq {out : List SystemOutput} {t : BrokerTask}
    {history : List EngineOp} (h : EngineHistory out t history) (id : String) :
    statesTold id out = (edgesOf id (trace engineStep StateEngine.new history)).map Prod.snd := by
  have htold : ∀ views : List StateView,
      (views.filter fun view => view.target.sessionId = id).map StateView.state =
        ((views.map StateView.shows).filter fun p => p.1 = id).map Prod.snd := by
    intro views
    rw [List.filter_map, List.map_map]
    rfl
  have hedges : ∀ ts : List StateTransition,
      (edgesOf id ts).map Prod.snd =
        ((ts.map StateTransition.leadsTo).filter fun p => p.1 = id).map Prod.snd := by
    intro ts
    rw [edgesOf, transitionsOf, List.map_map, List.filter_map, List.map_map]
    rfl
  rw [statesTold, htold, h.dispatched, hedges]

/-- **The daemon runs the state engine.** Behind every run of the daemon's tasks there is a run of a
    new state engine that leads to the daemon's engine, ingests the events the daemon ingests, in
    their order, and emits the transitions whose views the daemon dispatches.  So what the renderers
    were told for a session, starting from `idle`, never repeats a state, and ends with the state
    the engine holds for it. -/
theorem daemon_refines_engine (decode : List UInt8 → Option NormalizedEvent) (maxConnections : Nat)
    (ops : List SystemAction) (hrun : SystemRun decode (System.start maxConnections) ops) :
    let s := exec (systemStep decode) (System.start maxConnections) ops
    let out := trace (systemStep decode) (System.start maxConnections) ops
    (∃ history, EngineHistory out s.task history) ∧
    ∀ id, (AgentState.idle :: statesTold id out).IsChain (· ≠ ·) ∧
      (statesTold id out).getLast?.getD .idle = s.task.broker.stateEngine.shown id := by
  intro s out
  obtain ⟨history, h⟩ : ∃ history, EngineHistory out s.task history := by
    let Historical (out : List SystemOutput) (s : System) :=
      (∃ received waiting, Account decode out s received waiting) ∧
        ∃ history, EngineHistory out s.task history
    have hstep : ∀ out s (a : SystemAction), a.Possible s → Historical out s →
        Historical (out ++ (systemStep decode s a).2) (systemStep decode s a).1 := by
      rintro out s a ha ⟨⟨received, waiting, haccount⟩, history, h⟩
      obtain ⟨buffered, hholds, -⟩ := haccount.task.buffered
      exact ⟨(haccount.step ha).1, h.step hholds ha⟩
    have hstart : Historical [] (System.start maxConnections) :=
      ⟨⟨[], [], account_start maxConnections⟩, [], engineHistory_start⟩
    have hall := Along.trace_inv Historical hstep hrun hstart
    rw [List.nil_append] at hall
    exact hall.2
  refine ⟨⟨history, h⟩, fun id => ?_⟩
  have hpath := engineRun_path StateEngine.new history h.possible id
  have hnew : StateEngine.new.shown id = .idle := by simp [shown, getState, StateEngine.new]
  rw [hnew, ← h.engine] at hpath
  rw [h.statesTold_eq]
  exact connectedPath_isChain_ne hpath

/-- A session starts working, and half an hour later it is no longer known what it does. -/
theorem daemon_refines_engine_lostSession :
    let decode : List UInt8 → Option NormalizedEvent := fun _ => some lostSessionStart
    let ops : List SystemAction :=
      [.accept, .read 0 (.ready (.ok (some [1]))), .send 0, .recv 0 [], .drainTick 0 ["s"],
        .ttlTick (Duration.minutes 30) ["s"]]
    let s := exec (systemStep decode) (System.start 64) ops
    let out := trace (systemStep decode) (System.start 64) ops
    statesTold "s" out = [.working, .unknown] ∧
      (statesTold "s" out).getLast?.getD .idle = s.task.broker.stateEngine.shown "s" := by
  intro decode ops s out
  have hrun : SystemRun decode (System.start 64) ops := by decide
  exact ⟨by decide, ((daemon_refines_engine decode 64 ops hrun).2 "s").2⟩

end AgentTermStatus
