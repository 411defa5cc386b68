import AgentTermStatus.StateEngine.SessionView

namespace AgentTermStatus

open Lib StateEngine

/-!
# Aggregation of child sessions

The link of a session is the parent named last in its current lifetime: by the last of the
events ingested since it was created that names a parent other than the session itself.  A
session and its link come and go together, so every link belongs to a live session
(`run_links`), and the aggregated state of a parent is the greatest state of the live sessions
whose last named parent it is (`aggregated_state`).
-/

/-! ### Lifetimes -/

/-- The event an operation ingests, if it is one of the session `id`. -/
def EngineOp.eventOf (id : String) : EngineOp → Option NormalizedEvent
  | .ingest ev _ => if ev.session.id = id then some ev else none
  | _ => none

/-- The events ingested in the current lifetime of a session, given those before the
    operations: the list starts afresh whenever the session is gone. -/
def lifetimeEvents (id : String) (e : StateEngine) (past : List NormalizedEvent) :
    List EngineOp → List NormalizedEvent
  | [] => past
  | op :: ops =>
    let e' := (engineStep e op).1
    lifetimeEvents id e'
      (if (e'.sessions[id]?).isSome then past ++ (op.eventOf id).toList else []) ops

/-- The parent an event of `id` names, unless it names `id` itself. -/
def namedParent (id : String) (ev : NormalizedEvent) : Option String :=
  match ev.session.parentId with
  | some p => if p ≠ id then some p else none
  | none   => none

/-- The parent, other than `id` itself, that the events of `id` named last. -/
def lastNamedParent (id : String) (evs : List NormalizedEvent) : Option String :=
  (evs.filterMap (namedParent id)).getLast?

@[simp] theorem lastNamedParent_nil (id : String) : lastNamedParent id [] = none := rfl

theorem lastNamedParent_append (id : String) (evs : List NormalizedEvent)
    (ev : NormalizedEvent) :
    lastNamedParent id (evs ++ [ev]) = (namedParent id ev).or (lastNamedParent id evs) := by
  unfold lastNamedParent
  rw [List.filterMap_append]
  cases hev : namedParent id ev with
  | none => rw [List.filterMap_cons_none hev, List.filterMap_nil, List.append_nil, Option.none_or]
  | some p => rw [List.filterMap_cons_some hev, List.filterMap_nil, List.getLast?_concat,
      Option.some_or]

/-- No session is its own last named parent. -/
theorem lastNamedParent_ne {id p : String} {evs : List NormalizedEvent}
    (h : lastNamedParent id evs = some p) : p ≠ id := by
  obtain ⟨ev, -, hev⟩ := List.mem_filterMap.mp (List.mem_of_getLast? h)
  unfold namedParent at hev
  split at hev
  · obtain ⟨hne, hp⟩ := Option.ite_none_right_eq_some.mp hev
    obtain rfl := Option.some.inj hp
    exact hne
  · exact absurd hev (by simp)

/-- Ingestion records the parent an event names. -/
theorem linkParent_eq_or (pm : FiniteMap String String) (ev : NormalizedEvent) :
    (linkParent pm ev.session.id ev.session.parentId)[ev.session.id]? =
      (namedParent ev.session.id ev).or pm[ev.session.id]? := by
  rw [linkParent_self, namedParent]
  cases ev.session.parentId with
  | none => rfl
  | some p =>
    show (if p ≠ ev.session.id then some p else _) =
      (if p ≠ ev.session.id then some p else none).or _
    by_cases hp : p ≠ ev.session.id
    · rw [if_pos hp, if_pos hp, Option.some_or]
    · rw [if_neg hp, if_neg hp, Option.none_or]

/-- The link of a session is the parent its lifetime named last, and a session that is gone
    has no lifetime. -/
structure Linked (id : String) (e : StateEngine) (past : List NormalizedEvent) : Prop where
  link : e.parentMap[id]? = lastNamedParent id past
  gone : e.sessions[id]? = none → past = []

/-- What leaves the link and the presence of a session alone keeps both together. -/
theorem Linked.keep {id : String} {e e' : StateEngine} {past : List NormalizedEvent}
    (h : Linked id e past) (hlink : e'.parentMap[id]? = e.parentMap[id]?)
    (hlive : (e'.sessions[id]?).isSome = (e.sessions[id]?).isSome) :
    Linked id e' (if (e'.sessions[id]?).isSome then past ++ [] else []) := by
  rw [hlive, List.append_nil]
  cases hs : e.sessions[id]? with
  | none =>
    have hpast := h.gone hs
    subst hpast
    exact ⟨hlink.trans h.link, fun _ => rfl⟩
  | some s =>
    refine ⟨hlink.trans h.link, fun hnone => ?_⟩
    rw [hs, hnone] at hlive
    exact absurd hlive (by simp)

/-- **Invariant step.** One operation keeps the link and the lifetime together. -/
theorem Linked.step {id : String} {e : StateEngine} {past : List NormalizedEvent}
    (h : Linked id e past) {op : EngineOp} (hpos : op.Possible e) :
    Linked id (engineStep e op).1
      (if ((engineStep e op).1.sessions[id]?).isSome then past ++ (op.eventOf id).toList
        else []) := by
  cases op with
  | ingest ev now =>
    by_cases hid : ev.session.id = id
    · subst hid
      show Linked _ (e.ingest ev now).1 (if ((e.ingest ev now).1.sessions[_]?).isSome then _ else _)
      rw [ingest_session_self, Option.isSome_some, if_pos rfl, EngineOp.eventOf, if_pos rfl,
        Option.toList_some]
      -- the event is the last of the lifetime, so the parent it names is the last one
      refine ⟨?_, fun hnone => ?_⟩
      · rw [ingest_fst, linkParent_eq_or, lastNamedParent_append, h.link]
      · rw [ingest_session_self] at hnone
        exact absurd hnone (by simp)
    · rw [EngineOp.eventOf, if_neg hid]
      have hlink : (e.ingest ev now).1.parentMap[id]? = e.parentMap[id]? := by
        rw [ingest_fst, linkParent_ne _ _ hid]
      exact h.keep hlink (congrArg Option.isSome (ingest_session_ne e ev now hid))
  | heartbeat sid now =>
    have hlive : ((e.heartbeat sid now).sessions[id]?).isSome = (e.sessions[id]?).isSome := by
      rw [heartbeat_session]
      split <;> simp
    exact h.keep (congrArg (fun pm => pm[id]?) (heartbeat_parentMap e now sid)) hlive
  | expireTtls now order =>
    have hlink := expireTtls_parentMap e now hpos id
    have hsession := expireTtls_session e now hpos id
    by_cases hrec : ∃ s, e.sessions[id]? = some s ∧ Reclaimed e.parentMap id s now
    · rw [if_pos hrec] at hlink
      obtain ⟨s, hs, hrec⟩ := hrec
      rw [hs, Option.bind_some, if_pos hrec] at hsession
      show Linked _ (e.expireTtls now order).1
        (if ((e.expireTtls now order).1.sessions[_]?).isSome then _ else _)
      rw [hsession]
      exact ⟨hlink, fun _ => rfl⟩
    · rw [if_neg hrec] at hlink
      have hlive : ((e.expireTtls now order).1.sessions[id]?).isSome =
          (e.sessions[id]?).isSome := by
        rw [hsession]
        cases hs : e.sessions[id]? with
        | none => rfl
        | some s =>
          rw [Option.bind_some, if_neg fun hr => hrec ⟨s, hs, hr⟩]
          rfl
      exact h.keep hlink hlive

/-- **Joint invariant of both maps.** After every run, the link of each session is the parent
    named last in its lifetime, and only live sessions have one. -/
theorem run_links (id : String) {e : StateEngine} {past : List NormalizedEvent}
    {ops : List EngineOp} (hrun : EngineRun e ops) (h : Linked id e past) :
    Linked id (exec engineStep e ops) (lifetimeEvents id e past ops) := by
  induction ops generalizing e past with
  | nil => exact h
  | cons op ops ih => exact ih hrun.2 (h.step hrun.1)

/-! ### The aggregated state -/

namespace StateEngine

theorem isChildOf_iff (e : StateEngine) (p c : String) :
    e.isChildOf p c = true ↔ e.parentMap[c]? = some p := by
  unfold isChildOf
  cases e.parentMap[c]? <;> simp

/-- The states that are aggregated are those of the live sessions linked to the parent. -/
theorem mem_childStates {e : StateEngine} {order : List String}
    (h : Enumerates order e.sessions) (p : String) (st : AgentState) :
    st ∈ e.childStates p order ↔
      ∃ c : String, e.parentMap[c]? = some p ∧ e.getState c = some st := by
  unfold childStates
  rw [List.mem_filterMap]
  refine ⟨?_, ?_⟩
  · rintro ⟨c, -, hc⟩
    obtain ⟨hchild, hst⟩ := Option.ite_none_right_eq_some.mp hc
    exact ⟨c, (isChildOf_iff e p c).mp hchild, hst⟩
  · rintro ⟨c, hlink, hst⟩
    obtain ⟨s, hs, -⟩ := Option.map_eq_some_iff.mp hst
    refine ⟨c, (h.mem_iff_lookup c).mpr ⟨s, hs⟩, ?_⟩
    rw [if_pos ((isChildOf_iff e p c).mpr hlink)]
    exact hst

/-- Without children nothing is aggregated. -/
theorem getAggregatedState_eq_none_iff {e : StateEngine} {order : List String}
    (h : Enumerates order e.sessions) (p : String) :
    e.getAggregatedState p order = none ↔
      ∀ (c : String) (st : AgentState), e.parentMap[c]? = some p → e.getState c ≠ some st := by
  have hnone : e.getAggregatedState p order = none ↔ e.childStates p order = [] := by
    unfold getAggregatedState
    simp
  rw [hnone, List.eq_nil_iff_forall_not_mem]
  refine ⟨fun hall c st hlink hst => hall st ((mem_childStates h p st).mpr ⟨c, hlink, hst⟩), ?_⟩
  intro hall st hst
  obtain ⟨c, hlink, hc⟩ := (mem_childStates h p st).mp hst
  exact hall c st hlink hc

/-- What is aggregated is the greatest of the states of the children. -/
theorem getAggregatedState_eq_some_iff {e : StateEngine} {order : List String}
    (h : Enumerates order e.sessions) (p : String) (st : AgentState) :
    e.getAggregatedState p order = some st ↔
      IsGreatest {st | ∃ c : String, e.parentMap[c]? = some p ∧ e.getState c = some st} st := by
  have hset : {st | ∃ c : String, e.parentMap[c]? = some p ∧ e.getState c = some st} =
      {st | st ∈ e.childStates p order} := Set.ext fun st => (mem_childStates h p st).symm
  have hsome : ∀ st, e.getAggregatedState p order = some st →
      IsGreatest {st | st ∈ e.childStates p order} st := by
    intro st hst
    unfold getAggregatedState at hst
    simp only at hst
    split at hst
    · exact absurd hst (by simp)
    · exact maxByKey_spec priority hst
  rw [hset]
  refine ⟨hsome st, fun hst => ?_⟩
  -- the greatest state is unique, and some state is aggregated
  cases hagg : e.getAggregatedState p order with
  | none =>
    obtain ⟨c, hlink, hc⟩ := (mem_childStates h p st).mp hst.1
    exact absurd hc ((getAggregatedState_eq_none_iff h p).mp hagg c st hlink)
  | some st' => rw [(hsome st' hagg).unique hst]

end StateEngine

/-- After the operations, `c` is a live child of `p` in the state `st`: it is another session,
    and the event of its current lifetime that last named a parent other than `c` named `p`. -/
def IsChild (ops : List EngineOp) (p c : String) (st : AgentState) : Prop :=
  c ≠ p ∧ (exec engineStep StateEngine.new ops).getState c = some st ∧
    lastNamedParent c (lifetimeEvents c StateEngine.new [] ops) = some p

section
variable {ops : List EngineOp}

/-- After every run from the empty engine, links and lifetimes agree. -/
theorem linked_of_run (hrun : EngineRun StateEngine.new ops) (c : String) :
    Linked c (exec engineStep StateEngine.new ops) (lifetimeEvents c StateEngine.new [] ops) :=
  run_links c hrun ⟨by simp [StateEngine.new], fun _ => rfl⟩

/-- The live children are the live sessions that are linked to the parent. -/
theorem isChild_iff (hrun : EngineRun StateEngine.new ops) (p c : String) (st : AgentState) :
    IsChild ops p c st ↔ (exec engineStep StateEngine.new ops).parentMap[c]? = some p ∧
      (exec engineStep StateEngine.new ops).getState c = some st := by
  rw [(linked_of_run hrun c).link]
  refine ⟨fun h => ⟨h.2.2, h.2.1⟩, fun h => ⟨Ne.symm (lastNamedParent_ne h.1), h.2, h.1⟩⟩

/-- Every link belongs to a live session and leads to another one. -/
theorem link_of_live (hrun : EngineRun StateEngine.new ops) {c q : String}
    (hlink : (exec engineStep StateEngine.new ops).parentMap[c]? = some q) :
    (∃ s, (exec engineStep StateEngine.new ops).sessions[c]? = some s) ∧ q ≠ c := by
  have hlinked := linked_of_run hrun c
  refine ⟨?_, lastNamedParent_ne (hlinked.link.symm.trans hlink)⟩
  -- a session that is gone has no lifetime, so no link
  cases hs : (exec engineStep StateEngine.new ops).sessions[c]? with
  | some s => exact ⟨s, rfl⟩
  | none =>
    rw [hlinked.link, hlinked.gone hs] at hlink
    exact absurd hlink (by simp)

end

/-- **Aggregation.** After every run: nothing is aggregated for a session exactly if no live
    session is linked to it, and exactly if it has no live child; otherwise the highest state
    of its live children is, in whatever order the sessions are met; every link belongs to a
    live session and leads to another one; and so a child in `attention` or `risk` shows. -/
theorem aggregated_state {ops : List EngineOp} (hrun : EngineRun StateEngine.new ops)
    (p : String) {order : List String}
    (horder : Enumerates order (exec engineStep StateEngine.new ops).sessions) :
    let e := exec engineStep StateEngine.new ops
    (e.getAggregatedState p order = none ↔
      ¬ ∃ (c : String) (s : SessionState), e.sessions[c]? = some s ∧ e.parentMap[c]? = some p) ∧
    (e.getAggregatedState p order = none ↔ ¬ ∃ c st, IsChild ops p c st) ∧
    (∀ st, e.getAggregatedState p order = some st ↔
      IsGreatest {st | ∃ c, IsChild ops p c st} st) ∧
    (∀ order', Enumerates order' e.sessions →
      e.getAggregatedState p order' = e.getAggregatedState p order) ∧
    (∀ c q : String, e.parentMap[c]? = some q → (∃ s, e.sessions[c]? = some s) ∧ q ≠ c) ∧
    (∀ c st, IsChild ops p c st → st = .attention ∨ st = .risk →
      ∃ st', e.getAggregatedState p order = some st' ∧ (st' = .attention ∨ st' = .risk)) := by
  intro e
  have hchild := isChild_iff hrun p
  have hset : {st | ∃ c, IsChild ops p c st} =
      {st | ∃ c : String, e.parentMap[c]? = some p ∧ e.getState c = some st} :=
    Set.ext fun st => exists_congr fun c => hchild c st
  -- whatever the order, the greatest state of the live children is aggregated
  have hgreatest : ∀ order', Enumerates order' e.sessions → ∀ st,
      e.getAggregatedState p order' = some st ↔ IsGreatest {st | ∃ c, IsChild ops p c st} st := by
    intro order' horder' st
    rw [hset]
    exact getAggregatedState_eq_some_iff horder' p st
  refine ⟨?_, ?_, hgreatest order horder, ?_, fun c q => link_of_live hrun, ?_⟩
  · rw [getAggregatedState_eq_none_iff horder]
    refine ⟨?_, ?_⟩
    · rintro hall ⟨c, s, hs, hlink⟩
      exact hall c s.state hlink (getState_of_session hs)
    · intro hnone c st hlink hst
      obtain ⟨s, hs, -⟩ := Option.map_eq_some_iff.mp hst
      exact hnone ⟨c, s, hs, hlink⟩
  · rw [getAggregatedState_eq_none_iff horder]
    refine ⟨?_, ?_⟩
    · rintro hall ⟨c, st, hc⟩
      exact hall c st ((hchild c st).mp hc).1 ((hchild c st).mp hc).2
    · intro hnone c st hlink hst
      exact hnone ⟨c, st, (hchild c st).mpr ⟨hlink, hst⟩⟩
  · -- both orders give the one greatest state
    intro order' horder'
    refine Option.ext fun st => ?_
    rw [hgreatest order' horder', hgreatest order horder]
  · intro c st hc hst
    cases hagg : e.getAggregatedState p order with
    | none =>
      exact absurd ((hchild c st).mp hc).2
        ((getAggregatedState_eq_none_iff horder p).mp hagg c st ((hchild c st).mp hc).1)
    | some st' =>
      -- no state but these two is as great as one of them
      have hle : st ≤ st' := ((hgreatest order horder st').mp hagg).2 ⟨c, hc⟩
      rw [le_iff_priority] at hle
      refine ⟨st', rfl, ?_⟩
      rcases hst with rfl | rfl <;> cases st' <;> simp [priority] at hle ⊢

/-- A child that is moved to another parent, named by a duplicate again, expires and comes
    back. -/
def reparentedRun : List EngineOp :=
  let child (n : Uuid) (t : EventType) (p : Option String) (ts : DateTime) : NormalizedEvent :=
    { NormalizedEvent.bare n t "c" ts with
      session := { SessionIdentity.default with id := "c", parentId := p } }
  [.ingest (child 1 .agentStarted (some "p") 0) 0,
    .ingest (child 2 .agentWorking (some "q") 1) 1,
    .ingest (child 2 .agentWorking (some "p") 1) 2,
    .expireTtls (Duration.hours 1) ["c"],
    .expireTtls (Duration.hours 2) ["c"],
    .ingest (child 3 .userInputRequired (some "p") (Duration.hours 3)) (Duration.hours 3)]

/-- What is aggregated for both parents after this run. -/
theorem aggregated_state_reparentedRun :
    IsGreatest {st | ∃ c, IsChild reparentedRun "p" c st} .attention ∧
      ¬ ∃ c st, IsChild reparentedRun "q" c st :=
  ⟨((aggregated_state (by decide) "p" (by decide)).2.2.1 .attention).mp
      (show (exec engineStep StateEngine.new reparentedRun).getAggregatedState "p" ["c"] = _ by
        decide),
    (aggregated_state (by decide) "q" (by decide)).2.1.mp
      (show (exec engineStep StateEngine.new reparentedRun).getAggregatedState "q" ["c"] = _ by
        decide)⟩

end AgentTermStatus
