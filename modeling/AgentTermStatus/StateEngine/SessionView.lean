import AgentTermStatus.StateEngine.Engine

namespace AgentTermStatus

open Lib StateEngine

/-!
# One session, seen in isolation

Ingestion acts on one session at a time and reads the clock only to create a session whose
clock its first event overwrites.  So what an engine holds for a session id, its session
and its link (`SessionView`), evolves by a step function of its own (`sessionStep`), fed
with the events of that session alone and without a clock: `isPart_session`.
-/

/-- What an engine holds for one session id. -/
structure SessionView where
  /-- The session, if there is one. -/
  session : Option SessionState
  /-- The parent it is linked to. -/
  parent : Option String

/-- The view of an engine that has no such session. -/
def SessionView.empty : SessionView := ⟨none, none⟩

namespace SessionView

/-- The session the next event meets. -/
def current (v : SessionView) (ev : NormalizedEvent) : SessionState :=
  v.session.getD (SessionState.new ev.timestamp)

/-- The session after the event. -/
def after (v : SessionView) (ev : NormalizedEvent) : SessionState :=
  ((v.current ev).apply ev.eventId ev.eventType (isRiskEvent ev) ev.timestamp).1

end SessionView

/-- One event of the session: what it leaves, and the transition it emits. -/
def sessionStep (v : SessionView) (ev : NormalizedEvent) : SessionView × List StateTransition :=
  ({ session := some (v.after ev)
     parent :=
       match ev.session.parentId with
       | some p => if p ≠ ev.session.id then some p else v.parent
       | none   => v.parent },
    if (v.current ev).state = (v.after ev).state then []
    else [{ sessionId := ev.session.id
            previous := (v.current ev).state
            new := (v.after ev).state }])

/-- The view an engine has of a session id. -/
def StateEngine.view (id : String) (e : StateEngine) : SessionView where
  session := e.sessions[id]?
  parent := e.parentMap[id]?

/-- One ingestion, at a clock reading. -/
def ingestStep (e : StateEngine) (i : NormalizedEvent × DateTime) :
    StateEngine × List StateTransition :=
  ((e.ingest i.1 i.2).1, (e.ingest i.1 i.2).2.toList)

/-- The event, if it belongs to the session `id`. -/
def ownEvent (id : String) (i : NormalizedEvent × DateTime) : Option NormalizedEvent :=
  if i.1.session.id = id then some i.1 else none

/-- The clock a session was created at shows in nothing but its first `updatedAt`, which
    its first event overwrites. -/
theorem apply_new (now now' : DateTime) (eventId : Uuid) (t : EventType) (r : Bool)
    (ts : DateTime) :
    (SessionState.new now).apply eventId t r ts = (SessionState.new now').apply eventId t r ts := by
  have hnone : ∀ now, eventId ∉ (SessionState.new now).seenEventIds :=
    fun _ => Finset.notMem_empty eventId
  unfold SessionState.apply
  rw [if_neg (hnone now), if_neg (hnone now')]
  rfl

/-- Neither the session an event leaves nor the state it met depends on the clock. -/
theorem sessionFor_view (e : StateEngine) (ev : NormalizedEvent) (now : DateTime) :
    (e.sessionFor ev now).state = ((e.view ev.session.id).current ev).state ∧
      e.sessionAfter ev now = (e.view ev.session.id).after ev := by
  unfold sessionAfter SessionView.after SessionView.current sessionFor view
  cases e.sessions[ev.session.id]? with
  | none => exact ⟨rfl, by rw [Option.getD_none, Option.getD_none, apply_new now ev.timestamp]⟩
  | some s => exact ⟨rfl, rfl⟩

/-- The link of a session after one of its events. -/
theorem linkParent_self (pm : FiniteMap String String) (id : String) (parentId : Option String) :
    (linkParent pm id parentId)[id]? =
      match parentId with
      | some p => if p ≠ id then some p else pm[id]?
      | none   => pm[id]? := by
  unfold linkParent
  cases parentId with
  | none => rfl
  | some p =>
    simp only
    split
    · rw [FiniteMap.getElem?_insert_if, if_pos rfl]
    · rfl

/-- The links of the other sessions. -/
theorem linkParent_ne (pm : FiniteMap String String) {sid id : String}
    (parentId : Option String) (h : sid ≠ id) : (linkParent pm sid parentId)[id]? = pm[id]? := by
  unfold linkParent
  cases parentId with
  | none => rfl
  | some p =>
    simp only
    split
    · exact FiniteMap.getElem?_insert_ne _ _ h
    · rfl

/-- **Locality.** Ingestion, seen from one session, is `sessionStep` on its own events. -/
theorem isPart_session (id : String) :
    IsPart ingestStep sessionStep (StateEngine.view id) (ownEvent id)
      (fun t => t.sessionId = id) where
  view_step := by
    rintro e ⟨ev, now⟩
    by_cases hid : ev.session.id = id
    · subst hid
      rw [ownEvent, if_pos rfl]
      show view _ (e.ingest ev now).1 = (sessionStep (e.view ev.session.id) ev).1
      rw [view, ingest_session_self, ingest_fst, (sessionFor_view e ev now).2, linkParent_self]
      rfl
    · rw [ownEvent, if_neg hid]
      show view _ (e.ingest ev now).1 = e.view id
      rw [view, ingest_session_ne e ev now hid, ingest_fst, linkParent_ne _ _ hid]
      rfl
  own_step := by
    rintro e ⟨ev, now⟩
    by_cases hid : ev.session.id = id
    · subst hid
      obtain ⟨hfor, hafter⟩ := sessionFor_view e ev now
      rw [ownEvent, if_pos rfl]
      show transitionsOf _ (e.ingest ev now).2.toList = (sessionStep (e.view ev.session.id) ev).2
      rw [ingest_snd, hfor, hafter, sessionStep]
      split
      · rfl
      · simp [transitionsOf]
    · rw [ownEvent, if_neg hid]
      exact ingest_transitions_ne e ev now hid

/-- The events of a list that belong to one session are those it picks, in order. -/
theorem filterMap_ownEvent (id : String) (evs : List (NormalizedEvent × DateTime)) :
    evs.filterMap (ownEvent id) = (evs.map Prod.fst).filter fun ev => ev.session.id = id := by
  induction evs with
  | nil => rfl
  | cons i evs ih =>
    rw [List.filterMap_cons, ih, List.map_cons, List.filter_cons, ownEvent]
    by_cases hid : i.1.session.id = id <;> simp [hid]

/-- The run of `ingest` operations, as a run of an engine. -/
theorem exec_ingestStep (e : StateEngine) (evs : List (NormalizedEvent × DateTime)) :
    exec engineStep e (evs.map fun i => .ingest i.1 i.2) = exec ingestStep e evs := by
  induction evs generalizing e with
  | nil => rfl
  | cons i evs ih => exact ih _

end AgentTermStatus
