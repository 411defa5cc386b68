import AgentTermStatus.StateEngine.Evidence
import AgentTermStatus.StateEngine.Expiry

namespace AgentTermStatus

open Lib StateEngine

/-!
# Which expired sessions stay in the engine

An expiry call removes a session in the moment it moves it from `unknown` to `idle`, unless the
session is a parent in that moment; a session that is `idle` is never looked at again.  So a
session that gets back to `idle` in any other way is parked there (`Parks`), and stays until an
event of its own proposes another state (`Rests`).

* `parked_iff` — the sessions that have left `idle`, are back, and are still in the engine are
  the parked ones;
* `all_reclaimed_iff` — once all sessions are back, a further expiry call finds none left in the
  engine exactly if none is parked;
* `family_leaks_parent` — a parent and its child expire together, and the parent stays.
-/

/-- After the step the session is in the engine, in a state other than `idle`. -/
def Leaves (id : String) (e : StateEngine) (op : EngineOp) : Prop :=
  ∃ st ≠ AgentState.idle, (engineStep e op).1.getState id = some st

/-- After the step the session is in the engine. -/
def Survives (id : String) (e : StateEngine) (op : EngineOp) : Prop :=
  (engineStep e op).1.getState id ≠ none

/-- The session has left `idle` in the run, and has been in the engine since. -/
def HasLeftIdle (id : String) (ops : List EngineOp) : Prop :=
  Since engineStep (Leaves id) (Survives id) StateEngine.new ops

/-- The step is an expiry call that finds the session out of time, and a parent. -/
def ExpiresParent (id : String) (e : StateEngine) : EngineOp → Prop
  | .expireTtls now _ =>
      (∃ s, e.sessions[id]? = some s ∧ s.Expired now) ∧ isParent e.parentMap id = true
  | _ => False

/-- The step finds the session in `unknown` and puts it back to `idle` without removing it: an
    expiry call that finds it to be a parent, or a fresh event that proposes `idle`. -/
def Parks (id : String) (e : StateEngine) (op : EngineOp) : Prop :=
  e.getState id = some .unknown ∧
    (ExpiresParent id e op ∨ ∃ ev ∈ freshEvent id e op, proposedBy ev = .idle)

/-- The step does not ingest a fresh event of the session that proposes a state other than
    `idle`. -/
def Rests (id : String) (e : StateEngine) (op : EngineOp) : Prop :=
  ∀ ev ∈ freshEvent id e op, proposedBy ev = .idle

/-- The session has been parked in the run, and rests since. -/
def Parked (id : String) (ops : List EngineOp) : Prop :=
  Since engineStep (Parks id) (Rests id) StateEngine.new ops

/-! ### What one step does to a session in each state -/

/-- What brings a session to `idle`, by the state it is in: from `idle` and `unknown` the events
    that propose `idle`, and none from any other state. -/
theorem apply_eq_idle_iff (s : AgentState) (ev : NormalizedEvent) :
    Write.apply s (eventWrite ev) = .idle ↔
      (s = .idle ∨ s = .unknown) ∧ proposedBy ev = .idle := by
  by_cases h : isForced ev = true
  · have hp := proposedBy_ne_idle_of_forced h
    rw [apply_eventWrite_of_forced s h]
    exact iff_of_false hp fun hboth => hp hboth.2
  · have hp := proposedBy_ne_unknown_of_not_forced h
    rw [apply_eventWrite_of_not_forced s h]
    generalize proposedBy ev = p at hp
    cases s <;> cases p <;> revert hp <;> decide

section
variable {id : String} {e : StateEngine} {s : SessionState}

/-- The state of a session after it ingested an event. -/
theorem sessionAfter_state (hs : e.sessions[id]? = some s) {ev : NormalizedEvent} (now : DateTime)
    (hid : ev.session.id = id) :
    (Fresh e ev → (e.sessionAfter ev now).state = Write.apply s.state (eventWrite ev)) ∧
      (¬ Fresh e ev → (e.sessionAfter ev now).state = s.state) := by
  subst hid
  rw [fresh_iff hs, not_not]
  refine ⟨fun hfresh => ?_, fun hseen => by rw [sessionAfter_of_seen hs hseen]⟩
  rw [sessionAfter, sessionFor_of_session hs]
  exact (s.apply_of_fresh _ _ _ _ hfresh).1

/-- A session after an ingestion. -/
theorem idle_after_ingest_iff (hs : e.sessions[id]? = some s) (ev : NormalizedEvent)
    (now : DateTime) :
    (e.ingest ev now).1.getState id = some .idle ↔
      Parks id e (.ingest ev now) ∨ s.state = .idle ∧ Rests id e (.ingest ev now) := by
  have hstate : e.getState id = some s.state := getState_of_session hs
  rw [Parks, Rests, hstate, Option.some.injEq, freshEvent]
  by_cases hid : ev.session.id = id
  · obtain ⟨hfresh, hseen⟩ := sessionAfter_state hs now hid
    rw [getState, ← hid, ingest_session_self, Option.map_some, Option.some.injEq]
    by_cases h : Fresh e ev
    · rw [hfresh h, apply_eq_idle_iff, if_pos ⟨rfl, h⟩]
      simp only [ExpiresParent, false_or, Option.mem_def, Option.some.injEq, exists_eq_left',
        forall_eq']
      rw [or_and_right, or_comm]
    · rw [hseen h, if_neg fun hboth => h hboth.2]
      simp [ExpiresParent]
  · rw [getState, ingest_session_ne e ev now hid, if_neg fun hboth => hid hboth.1]
    simp [ExpiresParent, hs]

/-- A session after an expiry call. -/
theorem idle_after_expiry_iff (hs : e.sessions[id]? = some s) (now : DateTime)
    {order : List String} (horder : Enumerates order e.sessions) :
    (e.expireTtls now order).1.getState id = some .idle ↔
      Parks id e (.expireTtls now order) ∨
        s.state = .idle ∧ Rests id e (.expireTtls now order) := by
  have hstate : e.getState id = some s.state := getState_of_session hs
  have hrests : Rests id e (.expireTtls now order) := fun _ h => absurd h (by simp [freshEvent])
  rw [getState, expireTtls_session e now horder, hs, Option.bind_some, Parks, hstate,
    Option.some.injEq, ExpiresParent, hs]
  by_cases hexp : s.Expired now
  · -- an expired session is not `idle`; it gets there from `unknown` unless it is removed
    have hidle : s.state ≠ .idle := hexp.1
    have hcheck := s.checkTtl_of_expired hexp
    by_cases hunknown : s.state = .unknown
    · cases hpar : isParent e.parentMap id with
      | true => simp [Reclaimed, hpar, hcheck, hunknown, hexp]
      | false => simp [Reclaimed, hpar, hunknown, hexp, freshEvent]
    · simp [Reclaimed, hcheck, hunknown, hidle]
  · simp [Reclaimed, hexp, s.checkTtl_of_not_expired hexp, hrests, freshEvent]

/-- **Step lemma.** A session that is in the engine is `idle` after a step exactly if the step
    parks it, or it was `idle` and rests. -/
theorem idle_after_iff {op : EngineOp} (hop : op.Possible e) (hs : e.sessions[id]? = some s) :
    (engineStep e op).1.getState id = some .idle ↔
      Parks id e op ∨ s.state = .idle ∧ Rests id e op := by
  cases op with
  | ingest ev now => exact idle_after_ingest_iff hs ev now
  | heartbeat sid now =>
    have hstate : (e.heartbeat sid now).getState id = some s.state := by
      rw [getState, heartbeat_session, hs, Option.map_some]
      split
      · rw [Option.map_some, (s.extendHeartbeat_state now).1]
      · rw [Option.map_some]
    show (e.heartbeat sid now).getState id = _ ↔ _
    rw [hstate]
    simp [Parks, Rests, ExpiresParent, freshEvent]
  | expireTtls now order => exact idle_after_expiry_iff hs now hop

end

/-! ### What a run leaves behind -/

/-- A session that is in a state other than `idle` has left `idle`. -/
theorem hasLeftIdle_of_getState {id : String} {ops : List EngineOp} {st : AgentState}
    (h : (exec engineStep StateEngine.new ops).getState id = some st) (hidle : st ≠ .idle) :
    HasLeftIdle id ops := by
  rcases List.eq_nil_or_concat' ops with rfl | ⟨ops, op, rfl⟩
  · simp [getState, StateEngine.new] at h
  · rw [exec_append] at h
    exact (since_concat ..).mpr (Or.inl ⟨st, hidle, h⟩)

/-- A session that has left `idle` is in the engine. -/
theorem HasLeftIdle.session {id : String} {ops : List EngineOp} (h : HasLeftIdle id ops) :
    ∃ s, (exec engineStep StateEngine.new ops).sessions[id]? = some s := by
  have hne : (exec engineStep StateEngine.new ops).getState id ≠ none := by
    rcases List.eq_nil_or_concat' ops with rfl | ⟨ops, op, rfl⟩
    · exact (not_since_nil _ _ _ _ h).elim
    · rw [exec_append]
      rcases (since_concat ..).mp h with ⟨st, -, hst⟩ | ⟨-, hsurvives⟩
      · show (engineStep _ op).1.getState id ≠ none
        simp [hst]
      · exact hsurvives
  rw [← Option.ne_none_iff_exists']
  exact fun hnone => hne (by rw [getState, hnone, Option.map_none])

/-- **Run lemma.** The sessions that have left `idle` and are back in it are the parked ones. -/
theorem parked_iff {id : String} {ops : List EngineOp} (hrun : EngineRun StateEngine.new ops) :
    HasLeftIdle id ops ∧ (exec engineStep StateEngine.new ops).getState id = some .idle ↔
      Parked id ops := by
  refine hrun.since_iff (fun ops => HasLeftIdle id ops ∧
    (exec engineStep StateEngine.new ops).getState id = some .idle) ?_ ?_
  · rintro ⟨-, hidle⟩
    simp [getState, StateEngine.new] at hidle
  · intro ops op _ hop
    have hconcat : HasLeftIdle id (ops ++ [op]) ↔
        Leaves id (exec engineStep StateEngine.new ops) op ∨
          HasLeftIdle id ops ∧ Survives id (exec engineStep StateEngine.new ops) op :=
      since_concat ..
    have hexec : exec engineStep StateEngine.new (ops ++ [op]) =
        (engineStep (exec engineStep StateEngine.new ops) op).1 := by rw [exec_append]; rfl
    rw [hexec]
    refine ⟨?_, ?_⟩
    · rintro ⟨hleft, hidle⟩
      -- the step did not take the session out of `idle`, so it was out before
      have hbefore : HasLeftIdle id ops := by
        rcases hconcat.mp hleft with ⟨st, hst, hstate⟩ | ⟨hbefore, -⟩
        · exact absurd (Option.some.inj (hstate.symm.trans hidle)) hst
        · exact hbefore
      obtain ⟨s, hs⟩ := hbefore.session
      rcases (idle_after_iff hop hs).mp hidle with hparks | ⟨hstate, hrests⟩
      · exact Or.inl hparks
      · exact Or.inr ⟨⟨hbefore, hstate ▸ getState_of_session hs⟩, hrests⟩
    · intro h
      have hbefore : HasLeftIdle id ops := by
        rcases h with hparks | ⟨⟨hbefore, -⟩, -⟩
        · exact hasLeftIdle_of_getState hparks.1 (by decide)
        · exact hbefore
      obtain ⟨s, hs⟩ := hbefore.session
      have hstate : (HasLeftIdle id ops ∧
          (exec engineStep StateEngine.new ops).getState id = some .idle) → s.state = .idle := by
        rintro ⟨-, hstate⟩
        rwa [getState_of_session hs, Option.some.injEq] at hstate
      have hidle := (idle_after_iff hop hs).mpr (h.imp_right (And.imp_left hstate))
      exact ⟨hconcat.mpr (Or.inr ⟨hbefore, by simp [Survives, hidle]⟩), hidle⟩

/-- An `idle` session stays through every expiry call. -/
theorem session_after_expiry_of_idle {e : StateEngine} {id : String}
    (h : e.getState id = some .idle) (now : DateTime) {order : List String}
    (horder : Enumerates order e.sessions) :
    (e.expireTtls now order).1.sessions[id]? = e.sessions[id]? := by
  obtain ⟨s, hs, hidle⟩ := Option.map_eq_some_iff.mp h
  have hnot : ¬ s.Expired now := fun hexp => hexp.1 hidle
  rw [expireTtls_session e now horder, hs, Option.bind_some, if_neg fun hrec => hnot hrec.1,
    s.checkTtl_of_not_expired hnot]

/-- **When expired sessions are reclaimed.** Take any run that ends with expiry calls, after which
    every session that has left `idle` is back in it.  A further expiry call leaves none of these
    sessions in the engine if and only if none was parked in the run and has rested since. -/
theorem all_reclaimed_iff {ops : List EngineOp} {calls : Calls}
    (hrun : EngineRun StateEngine.new (ops ++ expiryCalls calls))
    (hback : ∀ id, HasLeftIdle id (ops ++ expiryCalls calls) →
      (exec engineStep StateEngine.new (ops ++ expiryCalls calls)).getState id = some .idle)
    (now : DateTime) {order : List String}
    (horder : Enumerates order
      (exec engineStep StateEngine.new (ops ++ expiryCalls calls)).sessions) :
    (∀ id, HasLeftIdle id (ops ++ expiryCalls calls) →
        ((exec engineStep StateEngine.new (ops ++ expiryCalls calls)).expireTtls now
          order).1.sessions[id]? = none) ↔
      ∀ id, ¬ Parked id (ops ++ expiryCalls calls) := by
  refine forall_congr' fun id => ?_
  rw [← parked_iff hrun, not_and]
  refine forall_congr' fun hleft => ?_
  rw [session_after_expiry_of_idle (hback id hleft) now horder]
  -- it is back in `idle`, so it is in the engine
  obtain ⟨s, hs, -⟩ := Option.map_eq_some_iff.mp (hback id hleft)
  exact iff_of_false (by rw [hs]; simp) (not_not.mpr (hback id hleft))

/-! ### A parent that stays -/

/-- A parent starts working, and its child. -/
def familyStart : List EngineOp :=
  [.ingest (.bare 1 .agentStarted "p" 0) 0,
    .ingest { NormalizedEvent.bare 2 .agentStarted "c" 0 with
      session := { SessionIdentity.default with id := "c", parentId := some "p" } } 0]

/-- Both expire together, in two stages. -/
def familyCalls : Calls :=
  [(Duration.minutes 30, ["c", "p"]), (Duration.minutes 31, ["c", "p"])]

/-- The child is removed in the call that finds the parent still to be one. -/
theorem parked_family : Parked "p" (familyStart ++ expiryCalls familyCalls) :=
  ⟨familyStart ++ expiryCalls (familyCalls.take 1), .expireTtls (Duration.minutes 31) ["c", "p"],
    [], rfl, ⟨by decide, Or.inl ⟨⟨_, rfl, by decide⟩, by decide⟩⟩, trivial⟩

/-- Only the parent is left of the family, and it is `idle`. -/
theorem family_back (id : String) (h : HasLeftIdle id (familyStart ++ expiryCalls familyCalls)) :
    (exec engineStep StateEngine.new (familyStart ++ expiryCalls familyCalls)).getState id
      = some .idle := by
  have horder : Enumerates ["p"]
      (exec engineStep StateEngine.new (familyStart ++ expiryCalls familyCalls)).sessions := by
    decide
  obtain rfl : id = "p" := by simpa using (horder.mem_iff_lookup id).mpr h.session
  decide

/-- Another expiry call does not remove the parent: one session is left of every such family. -/
theorem family_leaks_parent :
    ¬ ∀ (ops : List EngineOp) (calls : Calls) (now : DateTime) (order : List String),
      EngineRun StateEngine.new (ops ++ expiryCalls calls) →
      (∀ id, HasLeftIdle id (ops ++ expiryCalls calls) →
        (exec engineStep StateEngine.new (ops ++ expiryCalls calls)).getState id = some .idle) →
      Enumerates order (exec engineStep StateEngine.new (ops ++ expiryCalls calls)).sessions →
      ∀ id, HasLeftIdle id (ops ++ expiryCalls calls) →
        ((exec engineStep StateEngine.new (ops ++ expiryCalls calls)).expireTtls now
          order).1.sessions[id]? = none := by
  intro hall
  have hrun : EngineRun StateEngine.new (familyStart ++ expiryCalls familyCalls) := by decide
  have hgone := hall familyStart familyCalls (Duration.hours 1) ["p"] hrun family_back (by decide)
    "p" ((parked_iff hrun).mpr parked_family).1
  exact absurd hgone (by decide)

/-- The parent of the family is parked, so the family is not reclaimed. -/
theorem all_reclaimed_family :
    ¬ ∀ id, HasLeftIdle id (familyStart ++ expiryCalls familyCalls) →
      ((exec engineStep StateEngine.new (familyStart ++ expiryCalls familyCalls)).expireTtls
        (Duration.hours 1) ["p"]).1.sessions[id]? = none := fun hall =>
  (all_reclaimed_iff (by decide) family_back (Duration.hours 1) (by decide)).mp hall "p"
    parked_family

end AgentTermStatus
