import AgentTermStatus.StateEngine.Idempotency
import AgentTermStatus.StateEngine.SessionView

namespace AgentTermStatus

open Lib StateEngine

/-!
# What a duplicate still does

`SessionState.apply` stops at a recorded event id, so a duplicate leaves every session as it
is (`ingest_recorded_sessions`).  `StateEngine.ingest` goes on after it: the duplicate shares
a branch with the events that change no state, and that branch records the parent the event
names.

`ingest_duplicate_iff` says when a duplicate leaves the whole engine as it is: exactly when it
names no parent, its own session, or the parent its session is linked to already.
`relinked_by_duplicate` is a session that moves back to its former parent when its first event
is delivered again.
-/

/-- Nothing the engine `e'` holds or answers differs from `e`. -/
structure Unchanged (e e' : StateEngine) : Prop where
  /-- Every session has its state, its clock and its recorded ids. -/
  sessions : ∀ id : String, e'.sessions[id]? = e.sessions[id]?
  /-- Every session has its parent. -/
  links : ∀ id : String, e'.parentMap[id]? = e.parentMap[id]?
  /-- Every parent shows the same state. -/
  aggregated : ∀ parentId order, Enumerates order e.sessions →
    e'.getAggregatedState parentId order = e.getAggregatedState parentId order

/-- An engine with the same sessions and the same links is the same engine, so it answers the
    same. -/
theorem unchanged_of_lookups {e e' : StateEngine}
    (hsessions : ∀ id : String, e'.sessions[id]? = e.sessions[id]?)
    (hlinks : ∀ id : String, e'.parentMap[id]? = e.parentMap[id]?) : Unchanged e e' := by
  obtain ⟨sessions, parentMap⟩ := e
  obtain ⟨sessions', parentMap'⟩ := e'
  obtain rfl : sessions' = sessions := FiniteMap.ext hsessions
  obtain rfl : parentMap' = parentMap := FiniteMap.ext hlinks
  exact ⟨fun _ => rfl, fun _ => rfl, fun _ _ _ => rfl⟩

/-- The event names no parent, its own session, or the parent its session is linked to. -/
def NamesLinkedParent (e : StateEngine) (event : NormalizedEvent) : Prop :=
  ∀ p ∈ event.session.parentId, p = event.session.id ∨ e.parentMap[event.session.id]? = some p

instance (e : StateEngine) (event : NormalizedEvent) : Decidable (NamesLinkedParent e event) :=
  inferInstanceAs (Decidable (∀ p ∈ event.session.parentId, _))

/-- Ingesting a duplicate leaves every session as it is. -/
theorem ingest_recorded_sessions {e : StateEngine} {event : NormalizedEvent}
    (h : Recorded e event) (now : DateTime) (id : String) :
    (e.ingest event now).1.sessions[id]? = e.sessions[id]? := by
  obtain ⟨s, hs, hseen⟩ := h
  by_cases hid : event.session.id = id
  · subst hid
    rw [ingest_session_self, sessionAfter_of_seen hs hseen, hs]
  · exact ingest_session_ne e event now hid

/-- An event leaves the link of its session as it is exactly if it names no other parent. -/
theorem linkParent_self_eq_iff (e : StateEngine) (event : NormalizedEvent) :
    (linkParent e.parentMap event.session.id event.session.parentId)[event.session.id]? =
        e.parentMap[event.session.id]? ↔ NamesLinkedParent e event := by
  rw [linkParent_self, NamesLinkedParent]
  cases event.session.parentId with
  | none => simp
  | some p =>
    by_cases hown : p = event.session.id
    · simp [hown]
    · simp only [ne_eq, hown, not_false_eq_true, if_true, Option.mem_def, Option.some.injEq,
        forall_eq', false_or]
      exact eq_comm

/-- **When a duplicate changes nothing.** Ingesting an event whose id its live session has
    recorded leaves the whole engine unchanged exactly if the event names no parent other than
    the one its session is linked to. -/
theorem ingest_duplicate_iff (e : StateEngine) (event : NormalizedEvent) (now : DateTime)
    (h : Recorded e event) :
    Unchanged e (e.ingest event now).1 ↔ NamesLinkedParent e event := by
  have hlinks : (e.ingest event now).1.parentMap =
      linkParent e.parentMap event.session.id event.session.parentId := by rw [ingest_fst]
  rw [← linkParent_self_eq_iff]
  refine ⟨?_, ?_⟩
  · intro hsame
    rw [← hlinks]
    exact hsame.links _
  · intro hlink
    refine unchanged_of_lookups (ingest_recorded_sessions h now) fun id => ?_
    rw [hlinks]
    by_cases hid : event.session.id = id
    · rw [← hid, hlink]
    · exact linkParent_ne _ _ hid

/-- A subagent is first announced under the parent `p`. -/
def firstParent : NormalizedEvent :=
  { NormalizedEvent.bare 1 .agentStarted "s" 0 with
    session := { SessionIdentity.default with id := "s", parentId := some "p" } }

/-- It is announced again under the parent `q`. -/
def secondParent : NormalizedEvent :=
  { NormalizedEvent.bare 2 .agentWorking "s" 1 with
    session := { SessionIdentity.default with id := "s", parentId := some "q" } }

/-- The subagent moves from `p` to `q`. -/
def movedSessionRun : List EngineOp := [.ingest firstParent 0, .ingest secondParent 1]

/-- The first event, delivered again, moves the subagent back: `q` loses the state it showed. -/
theorem relinked_by_duplicate :
    ¬ ∀ (ops : List EngineOp) (event : NormalizedEvent) (now : DateTime),
      EngineRun StateEngine.new ops → Recorded (exec engineStep StateEngine.new ops) event →
      Unchanged (exec engineStep StateEngine.new ops)
        ((exec engineStep StateEngine.new ops).ingest event now).1 := by
  intro hall
  have hrecorded : Recorded (exec engineStep StateEngine.new movedSessionRun) firstParent :=
    ⟨_, rfl, by decide⟩
  have hsame := hall movedSessionRun firstParent 2 (by decide) hrecorded
  have hshown := hsame.aggregated "q" ["s"] (by decide)
  exact absurd hshown (by decide)

/-- The second event, delivered again, finds its own link. -/
theorem ingest_duplicate_secondParent :
    Unchanged (exec engineStep StateEngine.new movedSessionRun)
      ((exec engineStep StateEngine.new movedSessionRun).ingest secondParent 2).1 :=
  (ingest_duplicate_iff _ secondParent 2 ⟨_, rfl, by decide⟩).mpr (by decide)

end AgentTermStatus
