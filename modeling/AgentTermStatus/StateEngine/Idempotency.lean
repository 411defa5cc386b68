import AgentTermStatus.StateEngine.Engine

namespace AgentTermStatus

open Lib StateEngine

/-!
# Replaying an event

A session remembers the ids of its events, so ingesting an event a second time does
nothing for as long as the session lives (`replays_of_recorded`).  The memory goes with
the session: once an expiry has forgotten it, the same event creates the session anew.

`replays_iff_never_forgotten` says that this is the only way: after an event has been
ingested, replaying it does nothing at every later point of a run exactly when no step of
the run forgets its session.
-/

/-- The event's id is recorded in its session. -/
def Recorded (e : StateEngine) (event : NormalizedEvent) : Prop :=
  ∃ s, e.sessions[event.session.id]? = some s ∧ event.eventId ∈ s.seenEventIds

/-- Ingesting the event emits nothing and changes no state, whatever the clock says. -/
def Replays (e : StateEngine) (event : NormalizedEvent) : Prop :=
  ∀ now, (e.ingest event now).2 = none ∧
    ∀ id, (e.ingest event now).1.getState id = e.getState id

/-- The operation forgets the session `id`: it is an expiry that finds the session in
    `unknown`, out of time, and named by nobody as parent. -/
def Forgets (id : String) (e : StateEngine) : EngineOp → Prop
  | .expireTtls now _ => ∃ s, e.sessions[id]? = some s ∧ Reclaimed e.parentMap id s now
  | _ => False

instance (id : String) (e : StateEngine) : (op : EngineOp) → Decidable (Forgets id e op)
  | .ingest _ _       => inferInstanceAs (Decidable False)
  | .heartbeat _ _    => inferInstanceAs (Decidable False)
  | .expireTtls now _ => inferInstanceAs
      (Decidable (∃ s, e.sessions[id]? = some s ∧ Reclaimed e.parentMap id s now))

/-- Ingesting an event records it. -/
theorem recorded_ingest_self (e : StateEngine) (event : NormalizedEvent) (now : DateTime) :
    Recorded (e.ingest event now).1 event := by
  refine ⟨_, ingest_session_self e event now, ?_⟩
  rw [sessionAfter, SessionState.apply_seenEventIds]
  exact Finset.mem_insert_self _ _

/-- A recorded event does nothing when it comes again. -/
theorem replays_of_recorded {e : StateEngine} {event : NormalizedEvent}
    (h : Recorded e event) : Replays e event := by
  obtain ⟨s, hs, hseen⟩ := h
  intro now
  have hfor : e.sessionFor event now = s := sessionFor_of_session hs now
  have hafter : e.sessionAfter event now = s := sessionAfter_of_seen hs hseen now
  refine ⟨by rw [ingest_snd, hfor, hafter, if_pos rfl], fun id => ?_⟩
  unfold getState
  by_cases hid : event.session.id = id
  · subst hid
    rw [ingest_session_self, hafter, hs]
  · rw [ingest_session_ne e event now hid]

/-- An event whose session is unknown does something: it creates the session. -/
theorem not_replays_of_absent {e : StateEngine} {event : NormalizedEvent}
    (h : e.sessions[event.session.id]? = none) : ¬ Replays e event := by
  intro hrep
  have hstate := (hrep 0).2 event.session.id
  simp only [getState, ingest_session_self, h, Option.map_some, Option.map_none] at hstate
  exact absurd hstate (by simp)

/-- **Step lemma.** An event stays recorded unless its session is forgotten. -/
theorem recorded_step {e : StateEngine} {event : NormalizedEvent} (op : EngineOp)
    (hop : op.Possible e) (h : Recorded e event) (hkeep : ¬ Forgets event.session.id e op) :
    Recorded (engineStep e op).1 event := by
  obtain ⟨s, hs, hseen⟩ := h
  have hmove := engineStep_sessionMove hop event.session.id
  rw [Recorded]
  generalize (engineStep e op).1.sessions[event.session.id]? = o at hmove ⊢
  cases hmove with
  | left _ => exact ⟨s, hs, hseen⟩
  | applied other now hid =>
    -- another event of the session: its id joins the recorded ones
    refine ⟨_, rfl, ?_⟩
    have hfor : e.sessionFor other now = s := sessionFor_of_session (hid ▸ hs) now
    rw [sessionAfter, hfor, SessionState.apply_seenEventIds]
    exact Finset.mem_insert_of_mem hseen
  | extended now hs' =>
    obtain rfl := Option.some.inj (hs.symm.trans hs')
    exact ⟨s.extendHeartbeat now, rfl, by rwa [(s.extendHeartbeat_state now).2]⟩
  | checked now order hs' _ =>
    obtain rfl := Option.some.inj (hs.symm.trans hs')
    exact ⟨(s.checkTtl now).1, rfl, by rwa [SessionState.checkTtl_seenEventIds]⟩
  | forgotten now order hs' hrec => exact absurd ⟨_, hs', hrec⟩ hkeep

/-- A step that forgets a session makes every event of it new again. -/
theorem not_replays_of_forgets {e : StateEngine} {event : NormalizedEvent} (op : EngineOp)
    (hop : op.Possible e) (h : Forgets event.session.id e op) :
    ¬ Replays (engineStep e op).1 event := by
  cases op with
  | ingest other now => exact absurd h id
  | heartbeat sid now => exact absurd h id
  | expireTtls now order =>
    obtain ⟨s, hs, hrec⟩ := h
    apply not_replays_of_absent
    show (e.expireTtls now order).1.sessions[event.session.id]? = none
    rw [expireTtls_session e now hop, hs, Option.bind_some, if_pos hrec]

/-- **When replaying does nothing.** After an event has been ingested in a run of a new
    engine, replaying it does nothing at every later point of the run exactly when no later
    step of the run forgets its session. -/
theorem replays_iff_never_forgotten (pre post : List EngineOp) (event : NormalizedEvent)
    (now : DateTime) (h : EngineRun StateEngine.new (pre ++ .ingest event now :: post)) :
    (∀ p, p <+: post →
        Replays (exec engineStep StateEngine.new (pre ++ .ingest event now :: p)) event) ↔
      Along engineStep (fun e op => ¬ Forgets event.session.id e op)
        (exec engineStep StateEngine.new (pre ++ [.ingest event now])) post := by
  have hpost := ((along_append engineStep _ _ pre _).mp h).2.2
  have hrun := forall_prefix_iff_along (I := fun e => Recorded e event)
    (P := fun e => Replays e event)
    (C := fun e op => ¬ Forgets event.session.id e op)
    (fun e op hop hrec hkeep => recorded_step op hop hrec hkeep)
    (fun e => replays_of_recorded)
    (fun e op hop _ hforgets => not_replays_of_forgets op hop (not_not.mp hforgets))
    hpost (recorded_ingest_self _ event now)
  simpa only [exec_append, exec_cons, exec_nil] using hrun

/-- After the session was forgotten, the same event is no duplicate any more. -/
theorem not_replays_lostSession :
    ¬ ∀ (pre post : List EngineOp) (event : NormalizedEvent) (now : DateTime),
      EngineRun StateEngine.new (pre ++ .ingest event now :: post) →
      Replays (exec engineStep StateEngine.new (pre ++ .ingest event now :: post)) event := by
  intro hall
  have hrun : EngineRun StateEngine.new lostSessionRun := by decide
  have hrep := hall [] lostSessionRun.tail lostSessionStart 0 hrun (Duration.minutes 32)
  exact absurd hrep.1 (by decide)

/-- While the session lives, its event stays a duplicate: after the first expiry too. -/
theorem replays_lostSession_unknown :
    Replays (exec engineStep StateEngine.new (lostSessionRun.take 2)) lostSessionStart :=
  (replays_iff_never_forgotten [] [.expireTtls (Duration.minutes 30) ["s"]] lostSessionStart 0
    (by decide)).mpr (by decide) _ (List.prefix_refl _)

end AgentTermStatus
