import AgentTermStatus.StateEngine.Evidence
import AgentTermStatus.StateEngine.Expiry

namespace AgentTermStatus

open Lib StateEngine

/-!
# Events that arrive late

A fresh event writes its own timestamp to the clock of its session, also when the clock is
ahead of it already.  So an event that arrives late always turns the clock back
(`late_event_turns_back`), and the deadline of a state it does not change comes earlier by the
same span.

* `late_event_never_keeps_life` — no late event leaves the clock where it was, and the expiry
  of its session is left alone exactly if the event changes the state or the state is `idle`;
* `working_session_expires_early` — a working session that expires ten seconds early because a
  late report of the same work came in.
-/

/-- The event is fresh and older than the clock of its recorded session `s`. -/
structure Late (e : StateEngine) (event : NormalizedEvent) (s : SessionState) : Prop where
  session : e.sessions[event.session.id]? = some s
  fresh : Fresh e event
  older : event.timestamp < s.updatedAt

/-- Ingesting the event does not turn back the clock of its session. -/
def KeepsClock (e : StateEngine) (event : NormalizedEvent) (now : DateTime) : Prop :=
  ∀ s s' : SessionState, e.sessions[event.session.id]? = some s →
    (e.ingest event now).1.sessions[event.session.id]? = some s' → s.updatedAt ≤ s'.updatedAt

/-- If ingesting the event leaves the state of its session unchanged, every expiry call that
    would have emitted nothing for the session before it emits nothing for it after it. -/
def KeepsExpiry (e : StateEngine) (event : NormalizedEvent) (now : DateTime) : Prop :=
  (e.ingest event now).1.getState event.session.id = e.getState event.session.id →
    ∀ t order order', Enumerates order e.sessions →
      Enumerates order' (e.ingest event now).1.sessions →
      transitionsOf event.session.id (e.expireTtls t order).2 = [] →
      transitionsOf event.session.id ((e.ingest event now).1.expireTtls t order').2 = []

section
variable {e : StateEngine} {event : NormalizedEvent} {s : SessionState}

/-- What a late event does to the session it finds. -/
theorem Late.ingest_session (h : Late e event s) (now : DateTime) :
    ∃ s', (e.ingest event now).1.sessions[event.session.id]? = some s' ∧
      s'.updatedAt = event.timestamp ∧ TtlOfState s' := by
  have hseen := (fresh_iff h.session).mp h.fresh
  have hfor : e.sessionFor event now = s := sessionFor_of_session h.session now
  obtain ⟨hstate, hupdated, httl, -⟩ :=
    s.apply_of_fresh event.eventId event.eventType (isRiskEvent event) event.timestamp hseen
  refine ⟨_, ingest_session_self e event now, ?_, ?_⟩
  · rw [sessionAfter, hfor, hupdated]
  · rw [TtlOfState, sessionAfter, hfor, httl, hstate]

/-- **A late event turns the clock back.** -/
theorem late_event_turns_back (h : Late e event s) (now : DateTime) :
    ¬ KeepsClock e event now := by
  intro hkeep
  obtain ⟨s', hs', hupdated, -⟩ := h.ingest_session now
  have hle := hkeep s s' h.session hs'
  rw [hupdated] at hle
  exact absurd hle (not_le.mpr h.older)

/-- An expiry call emits nothing for a session exactly if the session is not expired. -/
theorem expiry_quiet_iff {id : String} (hs : e.sessions[id]? = some s) (t : DateTime)
    {order : List String} (horder : Enumerates order e.sessions) :
    transitionsOf id (e.expireTtls t order).2 = [] ↔ ¬ s.Expired t := by
  rw [expireTtls_transitions e t horder, hs, Option.elim_some, expiryOf]
  by_cases hexp : s.Expired t <;> simp [hexp]

/-- **When a late event leaves the expiry of its session alone.** -/
theorem late_event_keepsExpiry_iff (hs : TtlOfState s) (h : Late e event s) (now : DateTime) :
    KeepsExpiry e event now ↔
      (e.ingest event now).1.getState event.session.id ≠ some s.state ∨ s.state = .idle := by
  obtain ⟨s', hs', hupdated, httl'⟩ := h.ingest_session now
  have hbefore : e.getState event.session.id = some s.state := getState_of_session h.session
  have hafter : (e.ingest event now).1.getState event.session.id = some s'.state :=
    getState_of_session hs'
  rw [KeepsExpiry, hafter, hbefore]
  refine ⟨fun hkeep => ?_, ?_⟩
  · -- at its new deadline the session is expired, and was not before the event
    by_contra hboth
    obtain ⟨hsame, hidle⟩ := not_or.mp hboth
    obtain heq : s'.state = s.state := Option.some.inj (not_not.mp hsame)
    have hearlier : s'.deadline < s.deadline := by
      unfold SessionState.deadline
      rw [show s'.ttl = _ from httl', show s.ttl = _ from hs, heq, hupdated]
      exact Int.add_lt_add_right h.older _
    have hquiet := hkeep (congrArg some heq) s'.deadline _ _ (Enumerates.keys _)
      (Enumerates.keys _) ((expiry_quiet_iff h.session _ (Enumerates.keys _)).mpr fun hexp =>
        absurd ((s.expired_iff hs _).mp hexp).2 (not_le.mpr hearlier))
    refine (expiry_quiet_iff hs' _ (Enumerates.keys _)).mp hquiet ?_
    exact (s'.expired_iff httl' _).mpr ⟨heq ▸ hidle, le_refl _⟩
  · rintro (hchanged | hidle) hsame t order order' _ horder' _
    · exact absurd hsame hchanged
    · -- an `idle` session never expires
      refine (expiry_quiet_iff hs' t horder').mpr fun hexp => hexp.1 ?_
      rw [Option.some.inj hsame, hidle]

end

/-- **No late event leaves the life of its session alone.** In every engine a run reaches, a fresh
    event that is older than the clock of its session turns that clock back; and it leaves the
    expiry of the session alone only if it changes the state, or if the state is `idle`. -/
theorem late_event_never_keeps_life {ops : List EngineOp}
    (hrun : EngineRun StateEngine.new ops) (event : NormalizedEvent) (s : SessionState)
    (now : DateTime) (h : Late (exec engineStep StateEngine.new ops) event s) :
    ¬ KeepsClock (exec engineStep StateEngine.new ops) event now ∧
      (KeepsExpiry (exec engineStep StateEngine.new ops) event now ↔
        ((exec engineStep StateEngine.new ops).ingest event now).1.getState event.session.id
            ≠ some s.state ∨ s.state = .idle) :=
  ⟨late_event_turns_back h now,
    late_event_keepsExpiry_iff (run_ttlOfState hrun h.session) h now⟩

/-- A session starts working ten seconds into its day. -/
def startedWork : NormalizedEvent := .bare 1 .agentStarted "s" (Duration.seconds 10)

/-- A report of the same work, ten seconds older, that comes in later. -/
def lateReport : NormalizedEvent := .bare 2 .agentStarted "s" 0

/-- The late report turns the clock back to its own timestamp, and the session expires half an hour
    after that, though not half an hour after it started working. -/
theorem working_session_expires_early :
    ¬ ∀ (ops : List EngineOp) (event : NormalizedEvent) (s : SessionState) (now : DateTime),
      EngineRun StateEngine.new ops → Late (exec engineStep StateEngine.new ops) event s →
      KeepsClock (exec engineStep StateEngine.new ops) event now ∧
        KeepsExpiry (exec engineStep StateEngine.new ops) event now := by
  intro hall
  have hlate : Late (exec engineStep StateEngine.new [.ingest startedWork 0]) lateReport
      { state := .working, errorType := none, updatedAt := Duration.seconds 10
        ttl := Duration.minutes 30, seenEventIds := {1} } :=
    ⟨rfl, by decide, by decide⟩
  obtain ⟨-, hexpiry⟩ := hall [.ingest startedWork 0] lateReport _ 0 (by decide) hlate
  have hquiet := hexpiry (by decide) (Duration.minutes 30) ["s"] ["s"] (by decide) (by decide)
    (by decide)
  exact absurd hquiet (by decide)

/-- The clock of the working session goes back. -/
theorem late_event_never_keeps_life_report :
    ¬ KeepsClock (exec engineStep StateEngine.new [.ingest startedWork 0]) lateReport 0 :=
  (late_event_never_keeps_life (by decide) lateReport
    { state := .working, errorType := none, updatedAt := Duration.seconds 10
      ttl := Duration.minutes 30, seenEventIds := {1} } 0
    ⟨rfl, by decide, by decide⟩).1

end AgentTermStatus
