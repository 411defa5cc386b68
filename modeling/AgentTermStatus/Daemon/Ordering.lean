import AgentTermStatus.Daemon.Broker

namespace AgentTermStatus

open Lib StateEngine Broker

/-!
# Ordering correction is exact

Events arrive in any order and are drained in batches.  As long as no event comes after a
drain with a timestamp smaller than one already drained for its session, the batches of a
session join to one stable sort of all its events, so the engine ends as if every session's
events had been ingested one at a time in order of timestamp and arrival: wherever the
drains fall, however the sessions interleave, and in whatever order a drain meets them.
-/

/-- What a broker does between two expiries. -/
inductive BrokerOp
  /-- An event arrives and is buffered. -/
  | buffer (event : NormalizedEvent)
  /-- The buffers are drained. -/
  | drain (now : DateTime) (sessions : List String)

/-- One operation: the broker after it, and what it ingested. -/
def brokerStep (b : Broker) : BrokerOp → Broker × List Ingestion
  | .buffer event       => (b.push event, [])
  | .drain now sessions => drainLoop now sessions b

/-- The operation is possible: a drain meets each session with a buffer once. -/
def BrokerOp.Possible (b : Broker) : BrokerOp → Prop
  | .buffer _         => True
  | .drain _ sessions => Enumerates sessions b.pending

instance (b : Broker) : (op : BrokerOp) → Decidable (op.Possible b)
  | .buffer _         => inferInstanceAs (Decidable True)
  | .drain _ sessions => inferInstanceAs (Decidable (Enumerates sessions b.pending))

/-- A run of operations is possible. -/
abbrev BrokerRun (b : Broker) (ops : List BrokerOp) : Prop :=
  Along brokerStep (fun b op => op.Possible b) b ops

/-- The events that arrive, in order. -/
def arrivals : List BrokerOp → List NormalizedEvent
  | []                   => []
  | .buffer event :: ops => event :: arrivals ops
  | .drain _ _ :: ops    => arrivals ops

/-- No event comes after a drain with a timestamp smaller than one already drained for its
    session.  `drained` and `waiting` are the events that arrived before. -/
def NoLateArrival : (drained waiting : List NormalizedEvent) → List BrokerOp → Prop
  | _, _, [] => True
  | drained, waiting, .buffer event :: ops =>
      (∀ d ∈ drained, d.session.id = event.session.id → d.timestamp ≤ event.timestamp) ∧
        NoLateArrival drained (waiting ++ [event]) ops
  | drained, waiting, .drain _ _ :: ops => NoLateArrival (drained ++ waiting) [] ops

instance decidableNoLateArrival : ∀ drained waiting ops,
    Decidable (NoLateArrival drained waiting ops)
  | _, _, [] => inferInstanceAs (Decidable True)
  | drained, waiting, .buffer event :: ops =>
      haveI := decidableNoLateArrival drained (waiting ++ [event]) ops
      inferInstanceAs (Decidable ((∀ d ∈ drained, d.session.id = event.session.id →
        d.timestamp ≤ event.timestamp) ∧ NoLateArrival drained (waiting ++ [event]) ops))
  | drained, waiting, .drain _ _ :: ops => decidableNoLateArrival (drained ++ waiting) [] ops

/-- Some events in order of timestamp and arrival. -/
def inOrder (evs : List NormalizedEvent) : List NormalizedEvent :=
  sortByKeyIdx NormalizedEvent.timestamp evs

/-- The invariant of a run from the engine `e`, after `drained` and with `waiting` still to
    be drained: the log holds every session's drained events in order, the engine has
    ingested exactly the log, and the buffers hold what is waiting. -/
structure Tracks (e : StateEngine) (drained waiting : List NormalizedEvent)
    (log : List Ingestion) (b : Broker) : Prop where
  buffers : b.Holds waiting
  ordered : ∀ id, eventsOf id (log.map Ingestion.event) =
    sortByKey NormalizedEvent.timestamp (eventsOf id drained)
  ingested : ∃ evs : List (NormalizedEvent × DateTime),
    evs.map Prod.fst = log.map Ingestion.event ∧ b.stateEngine = exec ingestStep e evs ∧
      log.filterMap Ingestion.transition = trace ingestStep e evs
  settled : ∀ d ∈ drained, ∀ w ∈ waiting, d.session.id = w.session.id →
    d.timestamp ≤ w.timestamp

/-- Before anything arrives. -/
theorem tracks_new (e : StateEngine) : Tracks e [] [] [] (Broker.new e) where
  buffers := holds_new e
  ordered id := rfl
  ingested := ⟨[], rfl, rfl, rfl⟩
  settled := by simp

section
variable {e : StateEngine} {drained waiting : List NormalizedEvent} {log : List Ingestion}
  {b : Broker}

/-- **Step lemma.** An event arrives. -/
theorem Tracks.buffer (h : Tracks e drained waiting log b) {event : NormalizedEvent}
    (hlate : ∀ d ∈ drained, d.session.id = event.session.id → d.timestamp ≤ event.timestamp) :
    Tracks e drained (waiting ++ [event]) log (b.push event) where
  buffers := h.buffers.push event
  ordered := h.ordered
  ingested := h.ingested
  settled := by
    intro d hd w hw hsame
    rcases List.mem_append.mp hw with hw | hw
    · exact h.settled d hd w hw hsame
    · obtain rfl := List.mem_singleton.mp hw
      exact hlate d hd hsame

/-- **Step lemma.** The buffers are drained. -/
theorem Tracks.drain (h : Tracks e drained waiting log b) (now : DateTime)
    {sessions : List String} (hsessions : Enumerates sessions b.pending) :
    Tracks e (drained ++ waiting) [] (log ++ (drainLoop now sessions b).2)
      (drainLoop now sessions b).1 := by
  obtain ⟨hengine, htrans, -, -⟩ := drainLoop_spec now hsessions.nodup b h.buffers.keyed
  obtain ⟨evs, hfst, hexec, htrace⟩ := h.ingested
  refine ⟨(h.buffers.drain now hsessions).2, fun id => ?_, ?_, by simp⟩
  · have hbatch := (h.buffers.eventsOf_drainLoop now hsessions id).1
    rw [List.map_append, eventsOf_append, h.ordered, hbatch, h.buffers.batch_eq, eventsOf_append]
    -- batches join to one sort, since nothing waiting reaches back behind what was drained
    refine (sortByKey_append _ _ _ fun d hd w hw => ?_).symm
    obtain ⟨hd, hdid⟩ := List.mem_filter.mp hd
    obtain ⟨hw, hwid⟩ := List.mem_filter.mp hw
    refine h.settled d hd w hw ?_
    rw [of_decide_eq_true hdid, of_decide_eq_true hwid]
  · refine ⟨evs ++ ingestions now ((drainLoop now sessions b).2.map Ingestion.event), ?_, ?_, ?_⟩
    · rw [List.map_append, List.map_append, hfst, map_fst_ingestions]
    · rw [hengine, hexec, exec_append]
    · rw [List.filterMap_append, htrace, htrans, hexec, trace_append]

end

/-- **Run lemma.** A run without late arrivals keeps the invariant, and what has arrived is
    drained or waiting. -/
theorem tracks_run {e : StateEngine} {drained waiting : List NormalizedEvent}
    {log : List Ingestion} {b : Broker} (ops : List BrokerOp)
    (h : Tracks e drained waiting log b) (hrun : BrokerRun b ops)
    (hlate : NoLateArrival drained waiting ops) :
    ∃ drained' waiting', drained' ++ waiting' = drained ++ waiting ++ arrivals ops ∧
      Tracks e drained' waiting' (log ++ trace brokerStep b ops) (exec brokerStep b ops) := by
  -- induction over the run; an arrival joins what waits, a drain moves all of it
  induction ops generalizing drained waiting log b with
  | nil => exact ⟨drained, waiting, by simp [arrivals], by simpa using h⟩
  | cons op ops ih =>
    obtain ⟨hop, hrun⟩ := hrun
    cases op with
    | buffer event =>
      obtain ⟨hev, hlate⟩ := hlate
      obtain ⟨drained', waiting', heq, htracks⟩ := ih (h.buffer hev) hrun hlate
      exact ⟨drained', waiting', by simpa [arrivals] using heq, htracks⟩
    | drain now sessions =>
      obtain ⟨drained', waiting', heq, htracks⟩ := ih (h.drain now hop) hrun hlate
      refine ⟨drained', waiting', by simpa [arrivals] using heq, ?_⟩
      rw [trace_cons, exec_cons, ← List.append_assoc]
      exact htracks

/-- **Ordering correction is exact.** Events arrive and are drained in any run that ends
    with a drain and in which none arrives late.  Then every event was ingested exactly
    once, nothing is left in the buffers, and every session has the state, the link and the
    transitions it would have if its events had been ingested one at a time, at any clock
    readings, in order of timestamp and arrival. -/
theorem drains_exact (e : StateEngine) (ops : List BrokerOp) (now : DateTime)
    (sessions : List String) (hrun : BrokerRun (Broker.new e) (ops ++ [.drain now sessions]))
    (hlate : NoLateArrival [] [] ops) :
    let final := exec brokerStep (Broker.new e) (ops ++ [.drain now sessions])
    let log := trace brokerStep (Broker.new e) (ops ++ [.drain now sessions])
    (log.map Ingestion.event).Perm (arrivals ops) ∧
    (∀ id : String, (final.pending[id]?).getD [] = []) ∧
    ∀ (id : String) (reference : List (NormalizedEvent × DateTime)),
      reference.map Prod.fst = inOrder (eventsOf id (arrivals ops)) →
      final.stateEngine.view id = (exec ingestStep e reference).view id ∧
      transitionsOf id (log.filterMap Ingestion.transition) =
        transitionsOf id (trace ingestStep e reference) := by
  obtain ⟨hrun, hdrain, -⟩ := (along_append _ _ _ _ _).mp hrun
  obtain ⟨drained, waiting, heq, htracks⟩ := tracks_run ops (tracks_new e) hrun hlate
  have hfinal := htracks.drain now hdrain
  rw [heq, List.nil_append, List.nil_append, List.nil_append] at hfinal
  intro final log
  have hlog : log = trace brokerStep (Broker.new e) ops ++
      (drainLoop now sessions (exec brokerStep (Broker.new e) ops)).2 := by
    simp [log, brokerStep]
  have hbroker : final = (drainLoop now sessions (exec brokerStep (Broker.new e) ops)).1 := by
    simp [final, brokerStep]
  rw [hlog, hbroker]
  -- the last drain left nothing waiting, so the invariant speaks of all arrivals
  refine ⟨perm_of_filter_perm (fun ev => ev.session.id) fun id => ?_, fun id => ?_,
    fun id reference href => ?_⟩
  · show (eventsOf id _).Perm (eventsOf id _)
    rw [hfinal.ordered]
    exact sortByKey_perm _ _
  · rw [hfinal.buffers]
    rfl
  · obtain ⟨evs, hfst, hexec, htrace⟩ := hfinal.ingested
    -- seen from the session, both sides are its own run on the same events
    have hown : evs.filterMap (ownEvent id) = reference.map Prod.fst := by
      rw [filterMap_ownEvent, hfst, href, inOrder, ← sortByKey_eq_sortByKeyIdx]
      exact hfinal.ordered id
    have hrefown : reference.filterMap (ownEvent id) = reference.map Prod.fst := by
      rw [filterMap_ownEvent, href]
      refine List.filter_eq_self.mpr fun ev hev => ?_
      rw [inOrder, ← sortByKey_eq_sortByKeyIdx, mem_sortByKey] at hev
      exact (List.mem_filter.mp hev).2
    have hpart := isPart_session id
    refine ⟨?_, ?_⟩
    · rw [hexec, hpart.view_exec, hpart.view_exec, hown, hrefown]
    · rw [htrace]
      show List.filter _ _ = List.filter _ _
      rw [hpart.own_trace, hpart.own_trace, hown, hrefown]

/-- Two sessions, events out of order and with equal timestamps, and two drains that meet
    the sessions in different orders. -/
theorem drains_exact_twoSessions :
    let ops : List BrokerOp :=
      [.buffer (.bare 1 .agentCompleted "a" 5), .buffer (.bare 2 .agentStarted "b" 9),
        .buffer (.bare 3 .agentStarted "a" 2), .drain 10 ["b", "a"],
        .buffer (.bare 4 .toolFailed "a" 7), .buffer (.bare 5 .userInputReceived "a" 7)]
    let final := exec brokerStep (Broker.new StateEngine.new) (ops ++ [.drain 20 ["a", "b"]])
    final.stateEngine.getState "a" = some .working := by
  intro ops final
  have h := drains_exact StateEngine.new ops 20 ["a", "b"] (by decide) (by decide)
  have hview := (h.2.2 "a" ((inOrder (eventsOf "a" (arrivals ops))).map fun ev => (ev, 0))
    (by rw [List.map_map]; exact List.map_id _)).1
  show (final.stateEngine.view "a").session.map SessionState.state = _
  rw [hview]
  decide

end AgentTermStatus
