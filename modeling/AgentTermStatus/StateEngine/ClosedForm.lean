import AgentTermStatus.StateEngine.SessionView

namespace AgentTermStatus

open Lib StateEngine

/-!
# The closed form of the state machine

Every fresh event is a write to a join register, so the state a list of fresh events leads
to can be read off without running the machine: it is the highest of what the last forced
event proposed, or the state before the list if no event was forced, and what the events
after it propose (`highestState`, `closedForm`).
-/

/-- The state an event proposes, with its own risk flag. -/
def proposedBy (ev : NormalizedEvent) : AgentState := stateFromEvent ev.eventType (isRiskEvent ev)

/-- Is the event forced? -/
def isForced (ev : NormalizedEvent) : Bool := forcedTransition ev.eventType

/-- The events after the last forced one. -/
def afterLastForced (evs : List NormalizedEvent) : List NormalizedEvent :=
  evs.rtakeWhile fun ev => !isForced ev

/-- The state proposed by the last forced event, or `s` if there is none. -/
def baseState (s : AgentState) (evs : List NormalizedEvent) : AgentState :=
  ((evs.rdropWhile fun ev => !isForced ev).getLast?.map proposedBy).getD s

/-- All states, the highest first. -/
def displayOrder : List AgentState :=
  [.risk, .attention, .error, .result, .working, .idle, .unknown]

/-- The highest of some states. -/
def highestState (states : List AgentState) : Option AgentState :=
  displayOrder.find? fun a => a ∈ states

/-- The highest of the base and the states proposed after the last forced event. -/
def closedForm (s : AgentState) (evs : List NormalizedEvent) : Option AgentState :=
  highestState (baseState s evs :: (afterLastForced evs).map proposedBy)

/-! ### Events as writes -/

/-- What a fresh event does to the state of its session. -/
def eventWrite (ev : NormalizedEvent) : Write AgentState := writeOf ev.eventType (isRiskEvent ev)

theorem eventWrite_isSet (ev : NormalizedEvent) : (eventWrite ev).isSet = isForced ev :=
  writeOf_isSet _ _

theorem eventWrite_value (ev : NormalizedEvent) : (eventWrite ev).value = proposedBy ev :=
  writeOf_value _ _

/-- A forced event sets the state it proposes. -/
theorem apply_eventWrite_of_forced (s : AgentState) {ev : NormalizedEvent}
    (h : isForced ev = true) : Write.apply s (eventWrite ev) = proposedBy ev := by
  have hset : eventWrite ev = .set (proposedBy ev) := if_pos h
  rw [hset, Write.apply]

/-- Any other event raises the state to the one it proposes. -/
theorem apply_eventWrite_of_not_forced (s : AgentState) {ev : NormalizedEvent}
    (h : ¬ isForced ev = true) : Write.apply s (eventWrite ev) = max s (proposedBy ev) := by
  have hraise : eventWrite ev = .raise (proposedBy ev) := if_neg h
  rw [hraise, Write.apply]

/-- Only a time-out, which is forced, proposes `unknown`. -/
theorem proposedBy_eq_unknown_iff (ev : NormalizedEvent) :
    proposedBy ev = .unknown ↔ ev.eventType = .sessionTimeout := by
  unfold proposedBy
  generalize isRiskEvent ev = r
  generalize ev.eventType = t
  cases t <;> cases r <;> decide

/-- No forced event proposes `idle`. -/
theorem proposedBy_ne_idle_of_forced {ev : NormalizedEvent} (h : isForced ev = true) :
    proposedBy ev ≠ .idle := by
  unfold isForced at h
  unfold proposedBy
  generalize isRiskEvent ev = r
  generalize ev.eventType = t at h
  cases t <;> cases r <;> revert h <;> decide

/-- An event that is not forced does not propose `unknown`. -/
theorem proposedBy_ne_unknown_of_not_forced {ev : NormalizedEvent} (h : ¬ isForced ev = true) :
    proposedBy ev ≠ .unknown := by
  rw [ne_eq, proposedBy_eq_unknown_iff]
  intro ht
  exact h (by rw [isForced, ht]; rfl)

/-- Forced events are the `set`s, and an event writes what it proposes. -/
theorem eventWrite_comp :
    (fun w => !w.isSet) ∘ eventWrite = (fun ev => !isForced ev) ∧
      Write.value ∘ eventWrite = proposedBy :=
  ⟨funext fun ev => by rw [Function.comp_apply, eventWrite_isSet], funext eventWrite_value⟩

/-- The raises after the last `set` are the later proposals. -/
theorem afterLastSet_eventWrite (evs : List NormalizedEvent) :
    (afterLastSet (evs.map eventWrite)).map Write.value = (afterLastForced evs).map proposedBy := by
  obtain ⟨hforced, hvalue⟩ := eventWrite_comp
  rw [afterLastSet, List.rtakeWhile, ← List.map_reverse, List.takeWhile_map, ← List.map_reverse,
    List.map_map, hforced, hvalue, afterLastForced, List.rtakeWhile]

/-- The base of the register is the base of the events. -/
theorem baseOf_eventWrite (s : AgentState) (evs : List NormalizedEvent) :
    baseOf s (evs.map eventWrite) = baseState s evs := by
  obtain ⟨hforced, hvalue⟩ := eventWrite_comp
  rw [baseOf, List.rdropWhile, ← List.map_reverse, List.dropWhile_map, ← List.map_reverse,
    List.getLast?_map, Option.map_map, hforced, hvalue, baseState, List.rdropWhile]

/-- A state is the highest of some states if it is one of them and none is above it. -/
theorem highestState_eq_some {states : List AgentState} {a : AgentState}
    (h : IsGreatest {x | x ∈ states} a) : highestState states = some a := by
  have horder : displayOrder.Pairwise (· > ·) := by decide
  have hmem : a ∈ displayOrder := by cases a <;> decide
  exact find?_eq_some_of_isGreatest horder hmem (by simpa using h)

/-- The register of the events holds their closed form. -/
theorem closedForm_eq_foldl (s : AgentState) (evs : List NormalizedEvent) :
    closedForm s evs = some ((evs.map eventWrite).foldl Write.apply s) := by
  have h := isGreatest_foldl_write s (evs.map eventWrite)
  rw [afterLastSet_eventWrite, baseOf_eventWrite] at h
  exact highestState_eq_some h

/-! ### Runs of fresh events -/

namespace SessionView

/-- The state shown: `idle` when there is no session. -/
def state (v : SessionView) : AgentState := v.session.elim .idle SessionState.state

/-- The event ids recorded: none when there is no session. -/
def seen (v : SessionView) : Finset Uuid := v.session.elim ∅ SessionState.seenEventIds

theorem current_state (v : SessionView) (ev : NormalizedEvent) :
    (v.current ev).state = v.state ∧ (v.current ev).seenEventIds = v.seen := by
  unfold current state seen
  cases v.session <;> exact ⟨rfl, rfl⟩

end SessionView

/-- What a fresh event does to the view of its session. -/
theorem sessionStep_fresh (v : SessionView) (ev : NormalizedEvent) (h : ev.eventId ∉ v.seen) :
    (sessionStep v ev).1.state = Write.apply v.state (eventWrite ev) ∧
    (sessionStep v ev).1.seen = insert ev.eventId v.seen ∧
    (v.after ev).updatedAt = ev.timestamp := by
  obtain ⟨hstate, hseen⟩ := v.current_state ev
  obtain ⟨hnext, hupdated, -, hids, -⟩ := (v.current ev).apply_of_fresh ev.eventId ev.eventType
    (isRiskEvent ev) ev.timestamp (by rwa [hseen])
  refine ⟨?_, ?_, hupdated⟩
  · show (v.after ev).state = _
    rw [SessionView.after, hnext, SessionState.nextState, hstate, eventWrite]
  · show (v.after ev).seenEventIds = _
    rw [SessionView.after, hids, hseen]

/-- No event of the list is a duplicate, of one recorded or of another one of the list. -/
def AllFresh (seen : Finset Uuid) (evs : List NormalizedEvent) : Prop :=
  (evs.map NormalizedEvent.eventId).Nodup ∧ ∀ ev ∈ evs, ev.eventId ∉ seen

instance (seen : Finset Uuid) (evs : List NormalizedEvent) : Decidable (AllFresh seen evs) :=
  inferInstanceAs (Decidable (_ ∧ _))

/-- The rest of a list of fresh events is fresh after its first event. -/
theorem AllFresh.tail {seen : Finset Uuid} {ev : NormalizedEvent} {evs : List NormalizedEvent}
    (h : AllFresh seen (ev :: evs)) : AllFresh (insert ev.eventId seen) evs := by
  obtain ⟨hnd, hnew⟩ := h
  rw [List.map_cons, List.nodup_cons] at hnd
  refine ⟨hnd.2, fun x hx => ?_⟩
  rw [Finset.mem_insert, not_or]
  refine ⟨fun heq => hnd.1 ?_, hnew x (List.mem_cons_of_mem _ hx)⟩
  rw [← heq]
  exact List.mem_map_of_mem hx

/-- Freshness does not depend on the order. -/
theorem AllFresh.perm {seen : Finset Uuid} {evs evs' : List NormalizedEvent}
    (h : AllFresh seen evs) (hperm : evs.Perm evs') : AllFresh seen evs' :=
  ⟨(hperm.map _).nodup_iff.mp h.1, fun ev hev => h.2 ev (hperm.mem_iff.mpr hev)⟩

/-- **Run lemma.** Fresh events write to the state one after the other. -/
theorem exec_sessionStep_state (v : SessionView) (evs : List NormalizedEvent)
    (h : AllFresh v.seen evs) :
    (exec sessionStep v evs).state = (evs.map eventWrite).foldl Write.apply v.state := by
  induction evs generalizing v with
  | nil => rfl
  | cons ev evs ih =>
    obtain ⟨hstate, hseen, -⟩ := sessionStep_fresh v ev (h.2 ev List.mem_cons_self)
    rw [exec_cons, ih _ (by rw [hseen]; exact h.tail), hstate, List.map_cons, List.foldl_cons]

/-- The last of some fresh events leaves its timestamp. -/
theorem exec_sessionStep_updatedAt (v : SessionView) (evs : List NormalizedEvent)
    (h : AllFresh v.seen evs) {last : NormalizedEvent} (hlast : last ∈ evs.getLast?) :
    ∃ s, (exec sessionStep v evs).session = some s ∧ s.updatedAt = last.timestamp := by
  induction evs generalizing v with
  | nil => simp at hlast
  | cons ev evs ih =>
    obtain ⟨-, hseen, hupdated⟩ := sessionStep_fresh v ev (h.2 ev List.mem_cons_self)
    cases evs with
    | nil =>
      have heq : ev = last := by simpa using hlast
      exact ⟨v.after ev, rfl, heq ▸ hupdated⟩
    | cons ev' evs =>
      rw [List.getLast?_cons_cons] at hlast
      exact ih _ (by rw [hseen]; exact h.tail) hlast

/-- Events of one session, ingested one after the other: the engine's view of the session
    is the view after all of them. -/
theorem view_exec_ingests (e : StateEngine) (id : String)
    (evs : List (NormalizedEvent × DateTime)) (hid : ∀ i ∈ evs, i.1.session.id = id) :
    (exec engineStep e (evs.map fun i => .ingest i.1 i.2)).view id =
      exec sessionStep (e.view id) (evs.map Prod.fst) := by
  have hown : (evs.map Prod.fst).filter (fun ev => ev.session.id = id) = evs.map Prod.fst := by
    refine List.filter_eq_self.mpr fun ev hev => ?_
    obtain ⟨i, hi, rfl⟩ := List.mem_map.mp hev
    simpa using hid i hi
  rw [exec_ingestStep, (isPart_session id).view_exec, filterMap_ownEvent, hown]

/-- A session is there after any event, and stays. -/
theorem exec_sessionStep_session (v : SessionView) (evs : List NormalizedEvent)
    (h : v.session.isSome ∨ evs ≠ []) :
    (exec sessionStep v evs).session.map SessionState.state
      = some (exec sessionStep v evs).state := by
  induction evs generalizing v with
  | nil =>
    obtain ⟨s, hs⟩ := Option.isSome_iff_exists.mp (h.resolve_right (not_not.mpr rfl))
    simp [SessionView.state, hs]
  | cons ev evs ih => exact ih _ (Or.inl rfl)

/-- The view an engine has of a session it holds. -/
theorem view_of_session {e : StateEngine} {id : String} {s : SessionState}
    (hs : e.sessions[id]? = some s) :
    (e.view id).state = s.state ∧ (e.view id).seen = s.seenEventIds := by
  have hview : (e.view id).session = some s := hs
  exact ⟨by simp [SessionView.state, hview], by simp [SessionView.seen, hview]⟩

/-- The view is in no state but `idle` that the session is not in. -/
theorem view_state_ne {e : StateEngine} {id : String} {st : AgentState}
    (h : e.getState id ≠ some st) (hidle : st ≠ .idle) : (e.view id).state ≠ st := by
  unfold SessionView.state StateEngine.view
  unfold getState at h
  cases hs : e.sessions[id]? with
  | none => exact Ne.symm hidle
  | some s => simpa [hs] using h

/-- **Run lemma, for an engine.** Fresh events of a session, ingested one after the other, write
    to its state, which is `idle` if there was none. -/
theorem getState_exec_ingests (e : StateEngine) (id : String)
    (evs : List (NormalizedEvent × DateTime)) (hid : ∀ i ∈ evs, i.1.session.id = id)
    (hfresh : AllFresh (e.view id).seen (evs.map Prod.fst))
    (h : (e.sessions[id]?).isSome ∨ evs ≠ []) :
    (exec engineStep e (evs.map fun i => .ingest i.1 i.2)).getState id =
      some ((evs.map fun i => eventWrite i.1).foldl Write.apply (e.view id).state) := by
  show ((exec engineStep e _).view id).session.map SessionState.state = _
  rw [view_exec_ingests e id evs hid, exec_sessionStep_session _ _ (h.imp_right (by simp)),
    exec_sessionStep_state _ _ hfresh, List.map_map]
  rfl

/-- **Closed form of the state machine.** Fresh events of a session, ingested one after the
    other at any clock readings, leave it in the closed form of its state and the events,
    updated at the timestamp of the last one; and permuting some of them that are not
    forced and stand together makes no difference to the state. -/
theorem ingest_closedForm (e : StateEngine) (id : String) (s : SessionState)
    (hs : e.sessions[id]? = some s) (evs : List (NormalizedEvent × DateTime))
    (hid : ∀ i ∈ evs, i.1.session.id = id) (hfresh : AllFresh s.seenEventIds (evs.map Prod.fst)) :
    let after := fun evs : List (NormalizedEvent × DateTime) =>
      exec engineStep e (evs.map fun i => .ingest i.1 i.2)
    (after evs).getState id = closedForm s.state (evs.map Prod.fst) ∧
    (∀ last ∈ evs.getLast?, ((after evs).sessions[id]?).map SessionState.updatedAt
      = some last.1.timestamp) ∧
    (∀ pre xs ys post, evs = pre ++ xs ++ post → xs.Perm ys →
      (∀ i ∈ xs, isForced i.1 = false) →
      (after (pre ++ ys ++ post)).getState id = (after evs).getState id) := by
  intro after
  obtain ⟨hstate, hseen⟩ := view_of_session hs
  -- the state after any list of fresh events is the register after their writes
  have hafter : ∀ evs : List (NormalizedEvent × DateTime), (∀ i ∈ evs, i.1.session.id = id) →
      AllFresh s.seenEventIds (evs.map Prod.fst) →
      (after evs).getState id
        = some (((evs.map Prod.fst).map eventWrite).foldl Write.apply s.state) := by
    intro evs hid hfresh
    rw [List.map_map, ← hstate]
    exact getState_exec_ingests e id evs hid (by rwa [hseen]) (Or.inl (by simp [hs]))
  refine ⟨?_, ?_, ?_⟩
  · rw [hafter evs hid hfresh, closedForm_eq_foldl]
  · intro last hlast
    show ((after evs).view id).session.map SessionState.updatedAt = _
    have hlast' : last.1 ∈ (evs.map Prod.fst).getLast? := by
      rw [List.getLast?_map]
      exact Option.mem_map_of_mem _ hlast
    obtain ⟨s', hs', hupdated⟩ :=
      exec_sessionStep_updatedAt _ _ (hseen.symm ▸ hfresh) hlast'
    rw [view_exec_ingests e id evs hid, hs', Option.map_some, hupdated]
  · intro pre xs ys post heq hperm hforced
    have hpermAll : (pre ++ xs ++ post).Perm (pre ++ ys ++ post) :=
      (hperm.append_left pre).append_right post
    rw [heq] at hid hfresh ⊢
    have hid' : ∀ i ∈ pre ++ ys ++ post, i.1.session.id = id :=
      fun i hi => hid i (hpermAll.mem_iff.mpr hi)
    have hfresh' : AllFresh s.seenEventIds ((pre ++ ys ++ post).map Prod.fst) :=
      hfresh.perm (hpermAll.map _)
    rw [hafter _ hid hfresh, hafter _ hid' hfresh']
    simp only [List.map_append]
    refine congrArg some (foldl_write_perm _ _ _ ((hperm.map _).map _) ?_).symm
    intro w hw
    simp only [List.mem_map] at hw
    obtain ⟨ev, ⟨i, hi, rfl⟩, rfl⟩ := hw
    rw [eventWrite_isSet, hforced i hi]

/-- An approval request and the forced answer to it, then a completed turn whose late tool
    call no longer shows. -/
theorem ingest_closedForm_answered :
    let e := (StateEngine.new.ingest (.bare 0 .agentStarted "s" 0) 0).1
    let evs : List (NormalizedEvent × DateTime) :=
      [(.bare 1 .userApprovalRequired "s" 1, 1), (.bare 2 .userInputReceived "s" 2, 5),
        (.bare 3 .agentCompleted "s" 4, 5), (.bare 4 .toolStarted "s" 3, 6)]
    (exec engineStep e (evs.map fun i => .ingest i.1 i.2)).getState "s" = some .result := by
  intro e evs
  have h := ingest_closedForm e "s" _ rfl evs (by decide) (by decide)
  exact h.1.trans (by decide)

end AgentTermStatus
