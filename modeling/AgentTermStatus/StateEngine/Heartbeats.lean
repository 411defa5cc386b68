import AgentTermStatus.StateEngine.Evidence
import AgentTermStatus.StateEngine.Expiry

namespace AgentTermStatus

open Lib StateEngine

/-!
# Heartbeat events and heartbeat calls

A heartbeat reaches a session in two ways.  `StateEngine.heartbeat` restarts the time-to-live of
the present state, and leaves `idle` and `unknown` alone.  An ingested `sessionHeartbeat` proposes
`working` like a report of work, so it raises exactly the two states the call leaves alone.

* `heartbeat_session_after`, `heartbeatEvent_session_after` — what each way leaves of a session;
* `heartbeats_agree_iff` — they agree exactly on the sessions that are neither `idle` nor
  `unknown`;
* `heartbeat_revives_lost_session` — a session that expired to `unknown` is set back to `working`
  by the event.
-/

/-- A fresh heartbeat event of the recorded session `s`. -/
structure HeartbeatEvent (e : StateEngine) (event : NormalizedEvent) (s : SessionState) :
    Prop where
  session : e.sessions[event.session.id]? = some s
  heartbeat : event.eventType = .sessionHeartbeat
  fresh : Fresh e event

/-- The two ways do the same to the session `s` of the event. -/
structure HeartbeatsAgree (e : StateEngine) (event : NormalizedEvent) (s : SessionState)
    (now : DateTime) : Prop where
  /-- Ingesting the event emits no transition. -/
  quiet : (e.ingest event now).2 = none
  /-- It leaves the state, the time-to-live and the clock that a heartbeat call at its timestamp
      leaves, and the state and the time-to-live are those the session had. -/
  same : ∃ s₁ s₂ : SessionState,
    (e.ingest event now).1.sessions[event.session.id]? = some s₁ ∧
      (e.heartbeat event.session.id event.timestamp).sessions[event.session.id]? = some s₂ ∧
      (s₁.state = s₂.state ∧ s₁.ttl = s₂.ttl ∧ s₁.updatedAt = s₂.updatedAt) ∧
      s₁.state = s.state ∧ s₁.ttl = s.ttl

/-- A heartbeat raises a state exactly if the state is `idle` or `unknown`. -/
theorem nextState_heartbeat_eq_iff (s : SessionState) (r : Bool) :
    s.nextState .sessionHeartbeat r = s.state ↔ s.state ≠ .idle ∧ s.state ≠ .unknown := by
  show max s.state .working = s.state ↔ _
  cases s.state <;> decide

section
variable {e : StateEngine} {event : NormalizedEvent} {s : SessionState}

/-- The session after a heartbeat call. -/
theorem heartbeat_session_after (hs : e.sessions[event.session.id]? = some s) (t : DateTime) :
    (e.heartbeat event.session.id t).sessions[event.session.id]? = some (s.extendHeartbeat t) := by
  rw [heartbeat_session, if_pos rfl, hs, Option.map_some]

/-- The session after a heartbeat event, and what the event emits. -/
theorem heartbeatEvent_session_after (h : HeartbeatEvent e event s) (now : DateTime) :
    ∃ s' : SessionState, (e.ingest event now).1.sessions[event.session.id]? = some s' ∧
      s'.state = s.nextState .sessionHeartbeat (isRiskEvent event) ∧
      s'.updatedAt = event.timestamp ∧ s'.ttl = ttlDuration s'.state ∧
      ((e.ingest event now).2 = none ↔ s'.state = s.state) := by
  have hseen := (fresh_iff h.session).mp h.fresh
  have hfor : e.sessionFor event now = s := sessionFor_of_session h.session now
  obtain ⟨hstate, hupdated, httl, -⟩ :=
    s.apply_of_fresh event.eventId event.eventType (isRiskEvent event) event.timestamp hseen
  rw [h.heartbeat] at hstate hupdated httl
  have hafter : e.sessionAfter event now =
      (s.apply event.eventId .sessionHeartbeat (isRiskEvent event) event.timestamp).1 := by
    rw [sessionAfter, hfor, h.heartbeat]
  refine ⟨_, ingest_session_self e event now, ?_, ?_, ?_, ?_⟩
  · rw [hafter, hstate]
  · rw [hafter, hupdated]
  · rw [hafter, httl, hstate]
  · rw [ingest_snd, hfor]
    split
    · next heq => exact ⟨fun _ => heq.symm, fun _ => rfl⟩
    · next hne => exact ⟨fun h => absurd h (by simp), fun h => absurd h.symm hne⟩

/-- **When the two ways agree**, on a session with the time-to-live of its state. -/
theorem heartbeatsAgree_iff (hs : TtlOfState s) (h : HeartbeatEvent e event s) (now : DateTime) :
    HeartbeatsAgree e event s now ↔ s.state ≠ .idle ∧ s.state ≠ .unknown := by
  obtain ⟨s₁, hs₁, hstate, hupdated, httl, hquiet⟩ := heartbeatEvent_session_after h now
  rw [← nextState_heartbeat_eq_iff s (isRiskEvent event), ← hstate]
  refine ⟨fun hagree => hquiet.mp hagree.quiet, fun hsame => ?_⟩
  -- the call does not take its special case either
  have halive : s.state ≠ .idle ∧ s.state ≠ .unknown :=
    (nextState_heartbeat_eq_iff s (isRiskEvent event)).mp (hstate ▸ hsame)
  have hcall : s.extendHeartbeat event.timestamp =
      { s with updatedAt := event.timestamp, ttl := ttlDuration s.state } := if_pos halive
  refine ⟨hquiet.mpr hsame, s₁, _, hs₁, heartbeat_session_after h.session _, ?_, hsame, ?_⟩
  · rw [hcall, httl, hupdated, hsame]
    exact ⟨rfl, rfl, rfl⟩
  · rw [httl, hsame]
    exact (show s.ttl = _ from hs).symm

end

/-- **Heartbeats agree on the sessions that are alive.** In every engine a run reaches, ingesting a
    fresh heartbeat event does to its session what a heartbeat call does exactly if the session
    is neither `idle` nor `unknown`. -/
theorem heartbeats_agree_iff {ops : List EngineOp} (hrun : EngineRun StateEngine.new ops)
    (event : NormalizedEvent) (s : SessionState) (now : DateTime)
    (h : HeartbeatEvent (exec engineStep StateEngine.new ops) event s) :
    HeartbeatsAgree (exec engineStep StateEngine.new ops) event s now ↔
      s.state ≠ .idle ∧ s.state ≠ .unknown :=
  heartbeatsAgree_iff (run_ttlOfState hrun h.session) h now

/-! ### A session that comes back -/

/-- A session starts working and expires to `unknown`. -/
def expiredWork : List EngineOp :=
  [.ingest lostSessionStart 0, .expireTtls (Duration.minutes 30) ["s"]]

/-- The session after that. -/
def expiredSession : SessionState where
  state := .unknown
  errorType := none
  updatedAt := Duration.minutes 30
  ttl := Duration.seconds 30
  seenEventIds := {1}

/-- A heartbeat of it, one second later. -/
def lateHeartbeat : NormalizedEvent := .bare 2 .sessionHeartbeat "s" (Duration.seconds 1801)

theorem heartbeatEvent_lateHeartbeat :
    HeartbeatEvent (exec engineStep StateEngine.new expiredWork) lateHeartbeat expiredSession :=
  ⟨rfl, rfl, by decide⟩

/-- The heartbeat event sets the `unknown` session to `working`, which the heartbeat call does
    not. -/
theorem heartbeat_revives_lost_session :
    ¬ ∀ (ops : List EngineOp) (event : NormalizedEvent) (s : SessionState) (now : DateTime),
      EngineRun StateEngine.new ops →
      HeartbeatEvent (exec engineStep StateEngine.new ops) event s →
      s.updatedAt ≤ event.timestamp →
      HeartbeatsAgree (exec engineStep StateEngine.new ops) event s now := by
  intro hall
  have hagree := hall expiredWork lateHeartbeat expiredSession (Duration.seconds 1801) (by decide)
    heartbeatEvent_lateHeartbeat (by decide)
  exact absurd hagree.quiet (by decide)

/-- The two ways disagree on the lost session. -/
theorem heartbeats_agree_iff_lateHeartbeat :
    ¬ HeartbeatsAgree (exec engineStep StateEngine.new expiredWork) lateHeartbeat expiredSession
        (Duration.seconds 1801) := fun hagree =>
  ((heartbeats_agree_iff (by decide) lateHeartbeat expiredSession (Duration.seconds 1801)
    heartbeatEvent_lateHeartbeat).mp hagree).2 rfl

end AgentTermStatus
