import AgentTermStatus.StateEngine.ClosedForm

namespace AgentTermStatus

open Lib StateEngine

/-!
# How long a state is shown after its evidence

The evidence of a displayed state is the last fresh event that proposed it
(`exists_evidence`).  A fresh event that loses the priority comparison leaves the state alone,
but `SessionState.apply` restarts the time-to-live at the timestamp of that event all the same.

`shown_at_most_ttl_iff` says when the time-to-live bounds how long the state outlives its
evidence: exactly when no later fresh event has a later timestamp.
`result_outlives_its_ttl` is a `result` still shown 8 s after the event that reported it.
-/

/-! ### Fresh events of a run -/

/-- The event has not been recorded by its session. -/
def Fresh (e : StateEngine) (ev : NormalizedEvent) : Prop :=
  ev.eventId ∉ (e.view ev.session.id).seen

instance (e : StateEngine) (ev : NormalizedEvent) : Decidable (Fresh e ev) :=
  inferInstanceAs (Decidable (_ ∉ _))

/-- The event an operation ingests, if it is a fresh one of the session `id`. -/
def freshEvent (id : String) (e : StateEngine) : EngineOp → Option NormalizedEvent
  | .ingest ev _ => if ev.session.id = id ∧ Fresh e ev then some ev else none
  | _ => none

/-- The fresh events of the session `id` among the operations, in order. -/
def freshEvents (id : String) : StateEngine → List EngineOp → List NormalizedEvent
  | _, [] => []
  | e, op :: ops => (freshEvent id e op).toList ++ freshEvents id (engineStep e op).1 ops

/-- Is the operation a heartbeat of the session `id`? -/
def EngineOp.beats (id : String) : EngineOp → Bool
  | .heartbeat sid _ => sid = id
  | _ => false

/-- The operation is possible, brings no evidence for the state `st` of the session `id`, and
    leaves the session in it. -/
def NoEvidence (id : String) (st : AgentState) (e : StateEngine) (op : EngineOp) : Prop :=
  op.Possible e ∧ (∀ ev ∈ freshEvent id e op, proposedBy ev ≠ st) ∧
    (engineStep e op).1.getState id = some st

instance (id : String) (st : AgentState) (e : StateEngine) (op : EngineOp) :
    Decidable (NoEvidence id st e op) := inferInstanceAs (Decidable (_ ∧ _ ∧ _))

/-- The evidence of a displayed state: the fresh event `ev` proposed the state `st`, which is
    neither `idle` nor `unknown`, and the session has shown it since without new evidence. -/
structure Evidence (before : List EngineOp) (ev : NormalizedEvent) (now : DateTime)
    (after : List EngineOp) (st : AgentState) : Prop where
  run : EngineRun StateEngine.new before
  fresh : Fresh (exec engineStep StateEngine.new before) ev
  proposed : proposedBy ev = st
  not_idle : st ≠ .idle
  not_unknown : st ≠ .unknown
  shown : (exec engineStep StateEngine.new (before ++ [.ingest ev now])).getState
    ev.session.id = some st
  since : Along engineStep (NoEvidence ev.session.id st)
    (exec engineStep StateEngine.new (before ++ [.ingest ev now])) after

/-! ### What one step does to a session that stays in its state -/

/-- The event is fresh for a recorded session that has not recorded it. -/
theorem fresh_iff {e : StateEngine} {ev : NormalizedEvent} {s : SessionState}
    (hs : e.sessions[ev.session.id]? = some s) : Fresh e ev ↔ ev.eventId ∉ s.seenEventIds := by
  rw [Fresh, SessionView.seen, StateEngine.view, hs, Option.elim_some]

/-- The session shows `st` with the time-to-live of `st`, since `t`. -/
def ShownSince (id : String) (st : AgentState) (t : DateTime) (e : StateEngine) : Prop :=
  ∃ s : SessionState, e.sessions[id]? = some s ∧ s.state = st ∧ s.ttl = ttlDuration st ∧
    s.updatedAt = t

/-- The timestamp of the last of some events, or `t` if there are none. -/
def lastTimestamp (t : DateTime) (evs : List NormalizedEvent) : DateTime :=
  evs.foldl (fun _ ev => ev.timestamp) t

/-- Of events in the order of their timestamps, the last is not after `t` exactly if none is. -/
theorem lastTimestamp_le_iff {t : DateTime} {evs : List NormalizedEvent}
    (h : evs.Pairwise fun a b => a.timestamp ≤ b.timestamp) :
    lastTimestamp t evs ≤ t ↔ ∀ ev ∈ evs, ev.timestamp ≤ t := by
  induction evs using List.reverseRecOn with
  | nil => simp [lastTimestamp]
  | append_singleton evs last _ =>
    have hlast : lastTimestamp t (evs ++ [last]) = last.timestamp := by
      rw [lastTimestamp, List.foldl_append, List.foldl_cons, List.foldl_nil]
    have hbefore : ∀ ev ∈ evs, ev.timestamp ≤ last.timestamp := fun ev hev =>
      (List.pairwise_append.mp h).2.2 ev hev last (by simp)
    rw [hlast]
    refine ⟨fun hle ev hev => ?_, fun hall => hall last (by simp)⟩
    -- the last one has the greatest timestamp
    rcases List.mem_append.mp hev with hev | hev
    · exact le_trans (hbefore ev hev) hle
    · rwa [List.mem_singleton.mp hev]

/-- **Step lemma.** Without a heartbeat, a session that stays in its state keeps its clock, or
    a fresh event sets the clock to its timestamp. -/
theorem shownSince_step {id : String} {st : AgentState} {t : DateTime} {e : StateEngine}
    {op : EngineOp} (hunknown : st ≠ .unknown) (h : ShownSince id st t e)
    (hop : NoEvidence id st e op) (hbeat : op.beats id = false) :
    ShownSince id st (lastTimestamp t (freshEvent id e op).toList) (engineStep e op).1 := by
  obtain ⟨s, hs, hstate, httl, hupdated⟩ := h
  obtain ⟨hpos, -, hshown⟩ := hop
  have hmove := engineStep_sessionMove hpos id
  rw [getState] at hshown
  rw [ShownSince]
  generalize (engineStep e op).1.sessions[id]? = o at hmove hshown ⊢
  cases hmove with
  | left hother =>
    have hnone : freshEvent id e op = none := by
      cases op with
      | ingest ev now => exact if_neg fun hboth => hother ev now rfl hboth.1
      | heartbeat _ _ => rfl
      | expireTtls _ _ => rfl
    rw [hnone]
    exact ⟨s, hs, hstate, httl, hupdated⟩
  | applied ev now hid =>
    subst hid
    have hfor : e.sessionFor ev now = s := sessionFor_of_session hs now
    rw [sessionAfter, hfor] at hshown ⊢
    by_cases hfresh : Fresh e ev
    · obtain ⟨hstate', hupdated', httl', -⟩ :=
        s.apply_of_fresh ev.eventId ev.eventType (isRiskEvent ev) ev.timestamp
          ((fresh_iff hs).mp hfresh)
      have hst : (s.apply ev.eventId ev.eventType (isRiskEvent ev) ev.timestamp).1.state = st :=
        Option.some.inj hshown
      rw [freshEvent, if_pos ⟨rfl, hfresh⟩]
      exact ⟨_, rfl, hst, by rw [httl', ← hstate', hst], hupdated'⟩
    · -- a duplicate leaves the session as it is
      have hseen : ev.eventId ∈ s.seenEventIds := by
        rwa [fresh_iff hs, not_not] at hfresh
      rw [freshEvent, if_neg fun hboth => hfresh hboth.2, s.apply_of_seen _ _ _ _ hseen]
      exact ⟨s, rfl, hstate, httl, hupdated⟩
  | extended now _ => exact absurd hbeat (by simp [EngineOp.beats])
  | checked now order hs' _ =>
    obtain rfl := Option.some.inj (hs.symm.trans hs')
    -- an expiry would have moved the session to another state
    have hnot : ¬ s.Expired now := by
      intro hexp
      rw [s.checkTtl_of_expired hexp, if_neg (hstate ▸ hunknown)] at hshown
      exact hunknown (Option.some.inj hshown).symm
    rw [s.checkTtl_of_not_expired hnot]
    exact ⟨s, rfl, hstate, httl, hupdated⟩
  | forgotten now order _ _ => exact absurd hshown (by simp)

/-- **Run lemma.** The clock of a session that stays in its state is the timestamp of the last
    fresh event. -/
theorem shownSince_run {id : String} {st : AgentState} {t : DateTime} {e : StateEngine}
    {ops : List EngineOp} (hunknown : st ≠ .unknown) (h : ShownSince id st t e)
    (hrun : Along engineStep (NoEvidence id st) e ops)
    (hbeat : ∀ op ∈ ops, op.beats id = false) :
    ShownSince id st (lastTimestamp t (freshEvents id e ops)) (exec engineStep e ops) := by
  induction ops generalizing e t with
  | nil => exact h
  | cons op ops ih =>
    have hnext := shownSince_step hunknown h hrun.1 (hbeat op (by simp))
    rw [freshEvents, lastTimestamp, List.foldl_append, exec_cons]
    exact ih hnext hrun.2 fun op hop => hbeat op (by simp [hop])

/-- A visible state leaves at an expiry call exactly if its deadline has passed. -/
theorem expiry_moves_iff {id : String} {st : AgentState} {t : DateTime} {e : StateEngine}
    (hidle : st ≠ .idle) (hunknown : st ≠ .unknown) (h : ShownSince id st t e) (now : DateTime)
    {order : List String} (horder : Enumerates order e.sessions) :
    (e.expireTtls now order).1.getState id = some .unknown ↔ t + ttlDuration st ≤ now := by
  obtain ⟨s, hs, hstate, httl, hupdated⟩ := h
  have hexpired : s.Expired now ↔ t + ttlDuration st ≤ now := by
    rw [SessionState.Expired, hstate, httl, hupdated]
    have hne : ttlDuration st ≠ 0 := fun hzero => hidle ((ttlDuration_eq_zero_iff st).mp hzero)
    refine ⟨fun h => le_sub_iff_add_le'.mp h.2.2, fun h => ⟨hidle, hne, le_sub_iff_add_le'.mpr h⟩⟩
  rw [← hexpired, getState, expireTtls_session e now horder, hs, Option.bind_some,
    if_neg fun hrec => hunknown (hstate ▸ hrec.2.1), Option.map_some, Option.some.injEq]
  by_cases hexp : s.Expired now
  · rw [s.checkTtl_of_expired hexp, if_neg (hstate ▸ hunknown)]
    exact ⟨fun _ => hexp, fun _ => rfl⟩
  · rw [s.checkTtl_of_not_expired hexp, hstate]
    exact ⟨fun heq => absurd heq hunknown, fun h => absurd h hexp⟩

/-! ### Every visible state has its evidence -/

/-- An ingestion after which its session shows `st`, not `idle`, either ingests a fresh event
    that proposes `st`, or finds the session showing it. -/
theorem shown_before_ingest {st : AgentState} {e : StateEngine} {ev : NormalizedEvent}
    {now : DateTime} (hidle : st ≠ .idle) (hshown : (e.sessionAfter ev now).state = st) :
    (Fresh e ev ∧ proposedBy ev = st) ∨ e.getState ev.session.id = some st := by
  rw [sessionAfter] at hshown
  have hseen : (e.sessionFor ev now).seenEventIds = (e.view ev.session.id).seen := by
    unfold sessionFor SessionView.seen StateEngine.view
    cases e.sessions[ev.session.id]? <;> rfl
  -- a session that has just been created is `idle`
  have hold : (e.sessionFor ev now).state = st → e.getState ev.session.id = some st := by
    unfold sessionFor getState
    cases e.sessions[ev.session.id]? with
    | none => exact fun h => absurd h.symm hidle
    | some s => exact fun h => congrArg some h
  by_cases hfresh : ev.eventId ∈ (e.sessionFor ev now).seenEventIds
  · rw [SessionState.apply_of_seen _ _ _ _ _ hfresh] at hshown
    exact Or.inr (hold hshown)
  · rw [(SessionState.apply_of_fresh _ _ _ _ _ hfresh).1, SessionState.nextState] at hshown
    rcases Write.apply_eq_or (e.sessionFor ev now).state
      (writeOf ev.eventType (isRiskEvent ev)) with hkept | hset
    · exact Or.inr (hold (hkept.symm.trans hshown))
    · rw [hset, writeOf_value] at hshown
      exact Or.inl ⟨by rwa [hseen] at hfresh, hshown⟩

/-- A step after which a session shows `st`, neither `idle` nor `unknown`, either ingests a
    fresh event that proposes `st`, or finds the session showing it. -/
theorem shown_before {id : String} {st : AgentState} {e : StateEngine} {op : EngineOp}
    (hidle : st ≠ .idle) (hunknown : st ≠ .unknown) (hpos : op.Possible e)
    (hshown : (engineStep e op).1.getState id = some st) :
    (∃ ev now, op = .ingest ev now ∧ ev.session.id = id ∧ Fresh e ev ∧ proposedBy ev = st) ∨
      e.getState id = some st := by
  have hmove := engineStep_sessionMove hpos id
  rw [getState] at hshown
  generalize (engineStep e op).1.sessions[id]? = o at hmove hshown
  cases hmove with
  | left _ => exact .inr hshown
  | applied ev now hid =>
    subst hid
    rcases shown_before_ingest hidle (Option.some.inj hshown) with ⟨hfresh, hprop⟩ | hold
    · exact .inl ⟨ev, now, rfl, rfl, hfresh, hprop⟩
    · exact .inr hold
  | @extended now s hs =>
    right
    rw [Option.map_some, (s.extendHeartbeat_state now).1] at hshown
    rw [getState, hs]
    exact hshown
  | @checked now order s hs _ =>
    right
    -- an expiry would have left it `idle` or `unknown`
    have hnot : ¬ s.Expired now := by
      intro hexp
      rw [Option.map_some, Option.some.injEq, s.checkTtl_of_expired hexp] at hshown
      simp only at hshown
      split at hshown
      · exact hidle hshown.symm
      · exact hunknown hshown.symm
    rw [s.checkTtl_of_not_expired hnot] at hshown
    rw [getState, hs]
    exact hshown
  | forgotten now order _ _ => exact absurd hshown (by simp)

/-- **Every visible state has its evidence.** A session that a run leaves in a state other than
    `idle` and `unknown` owes it to the last fresh event that proposed it. -/
theorem exists_evidence {ops : List EngineOp} (hrun : EngineRun StateEngine.new ops)
    {id : String} {st : AgentState} (hidle : st ≠ .idle) (hunknown : st ≠ .unknown)
    (hshown : (exec engineStep StateEngine.new ops).getState id = some st) :
    ∃ before ev now after, ops = before ++ .ingest ev now :: after ∧ ev.session.id = id ∧
      Evidence before ev now after st := by
  induction ops using List.reverseRecOn with
  | nil => exact absurd hshown (by simp [StateEngine.new, getState])
  | append_singleton ops op ih =>
    obtain ⟨hbefore, hpos, -⟩ := (along_append ..).mp hrun
    have hlast : (engineStep (exec engineStep StateEngine.new ops) op).1.getState id = some st := by
      rwa [exec_append] at hshown
    by_cases hnew : ∃ ev now, op = .ingest ev now ∧ ev.session.id = id ∧
        Fresh (exec engineStep StateEngine.new ops) ev ∧ proposedBy ev = st
    · obtain ⟨ev, now, rfl, rfl, hfresh, hprop⟩ := hnew
      exact ⟨ops, ev, now, [], rfl, rfl,
        ⟨hbefore, hfresh, hprop, hidle, hunknown, hshown, trivial⟩⟩
    · have hold := (shown_before hidle hunknown hpos hlast).resolve_left hnew
      obtain ⟨before, ev, now, after, rfl, rfl, hev⟩ := ih hbefore hold
      refine ⟨before, ev, now, after ++ [op], by simp, rfl, { hev with since := ?_ }⟩
      have hsplit : exec engineStep StateEngine.new (before ++ .ingest ev now :: after) =
          exec engineStep (exec engineStep StateEngine.new (before ++ [.ingest ev now])) after := by
        rw [List.append_cons, exec_append]
      rw [hsplit] at hlast hpos hnew
      refine (along_append ..).mpr
        ⟨hev.since, ⟨hpos, fun ev' hev' hprop => hnew ?_, hlast⟩, trivial⟩
      -- the fresh event of the last operation, if any, is the operation's
      cases op with
      | ingest ev'' now' =>
        obtain ⟨⟨hid, hfresh⟩, heq⟩ := Option.ite_none_right_eq_some.mp hev'
        obtain rfl := Option.some.inj heq
        exact ⟨ev'', now', rfl, hid, hfresh, hprop⟩
      | heartbeat sid now' => exact absurd hev' (by simp [freshEvent])
      | expireTtls now' order => exact absurd hev' (by simp [freshEvent])

/-! ### The bound -/

/-- The engine after the event and the operations since. -/
def engineSince (before : List EngineOp) (ev : NormalizedEvent) (now : DateTime)
    (after : List EngineOp) : StateEngine :=
  exec engineStep (exec engineStep StateEngine.new (before ++ [.ingest ev now])) after

/-- The fresh events of the session since the event. -/
def freshSince (before : List EngineOp) (ev : NormalizedEvent) (now : DateTime)
    (after : List EngineOp) : List NormalizedEvent :=
  freshEvents ev.session.id (exec engineStep StateEngine.new (before ++ [.ingest ev now])) after

/-- Every expiry call from the time-to-live of `st` after the event on moves the session to
    `unknown`. -/
def ShownAtMostTtl (before : List EngineOp) (ev : NormalizedEvent) (now : DateTime)
    (after : List EngineOp) (st : AgentState) : Prop :=
  ∀ (t : DateTime) (order : List String),
    Enumerates order (engineSince before ev now after).sessions →
    ev.timestamp + ttlDuration st ≤ t →
    ((engineSince before ev now after).expireTtls t order).1.getState ev.session.id =
      some .unknown

/-- A session shows its state since its evidence. -/
theorem Evidence.shownSince {before : List EngineOp} {ev : NormalizedEvent} {now : DateTime}
    {after : List EngineOp} {st : AgentState} (h : Evidence before ev now after st) :
    ShownSince ev.session.id st ev.timestamp
      (exec engineStep StateEngine.new (before ++ [.ingest ev now])) := by
  have hshown := h.shown
  rw [exec_append] at hshown ⊢
  have hnext := ingest_session_self (exec engineStep StateEngine.new before) ev now
  have hfresh : ev.eventId ∉
      ((exec engineStep StateEngine.new before).sessionFor ev now).seenEventIds := by
    have hview := h.fresh
    unfold Fresh SessionView.seen StateEngine.view at hview
    unfold sessionFor
    cases hs : (exec engineStep StateEngine.new before).sessions[ev.session.id]? with
    | none => exact Finset.notMem_empty _
    | some s => simpa [hs] using hview
  obtain ⟨hstate, hupdated, httl, -⟩ := SessionState.apply_of_fresh _ ev.eventId ev.eventType
    (isRiskEvent ev) ev.timestamp hfresh
  -- what is shown after the event is the state of the session it made
  have hst : ((exec engineStep StateEngine.new before).sessionAfter ev now).state = st := by
    have hmap := hshown
    rw [show exec engineStep (exec engineStep StateEngine.new before) [.ingest ev now] =
      ((exec engineStep StateEngine.new before).ingest ev now).1 from rfl, getState, hnext,
      Option.map_some, Option.some.injEq] at hmap
    exact hmap
  exact ⟨_, hnext, hst, by rw [sessionAfter, httl, ← hstate]; exact congrArg ttlDuration hst,
    hupdated⟩

/-- The time-to-live after the evidence bounds how long the state is shown exactly if no fresh event
    since has a later timestamp than it. -/
theorem Evidence.shownAtMostTtl_iff {before : List EngineOp} {ev : NormalizedEvent}
    {now : DateTime} {after : List EngineOp} {st : AgentState}
    (h : Evidence before ev now after st)
    (hbeat : ∀ op ∈ after, op.beats ev.session.id = false)
    (hordered : (freshSince before ev now after).Pairwise fun a b => a.timestamp ≤ b.timestamp) :
    ShownAtMostTtl before ev now after st ↔
      ∀ ev' ∈ freshSince before ev now after, ev'.timestamp ≤ ev.timestamp := by
  have hend := shownSince_run h.not_unknown h.shownSince h.since hbeat
  rw [← lastTimestamp_le_iff hordered]
  have hmoves := fun t => @expiry_moves_iff _ _ _ _ h.not_idle h.not_unknown hend t
  refine ⟨fun hall => ?_, fun hle t order horder ht => (hmoves t horder).mpr ?_⟩
  · -- a call exactly at the deadline that the evidence sets
    have hcall := hall (ev.timestamp + ttlDuration st) _ (List.Perm.refl _) le_rfl
    exact le_of_add_le_add_right ((hmoves _ (List.Perm.refl _)).mp hcall)
  · exact le_trans (add_le_add_left hle _) ht

/-- **How long a state outlives its evidence.** Every session that a run leaves in a state other
    than `idle` and `unknown` shows it since a fresh event proposed it.  If there was no heartbeat
    and no other evidence since, and the fresh events since come in the order of their timestamps,
    the time-to-live after that event bounds how long the state is shown exactly if none of them has
    a later timestamp than it. -/
theorem shown_at_most_ttl_iff (st : AgentState) :
    (∀ (ops : List EngineOp) (id : String), EngineRun StateEngine.new ops →
      st ≠ .idle → st ≠ .unknown → (exec engineStep StateEngine.new ops).getState id = some st →
      ∃ before ev now after, ops = before ++ .ingest ev now :: after ∧ ev.session.id = id ∧
        Evidence before ev now after st) ∧
    ∀ (before : List EngineOp) (ev : NormalizedEvent) (now : DateTime) (after : List EngineOp),
      Evidence before ev now after st → (∀ op ∈ after, op.beats ev.session.id = false) →
      (freshSince before ev now after).Pairwise (fun a b => a.timestamp ≤ b.timestamp) →
      (ShownAtMostTtl before ev now after st ↔
        ∀ ev' ∈ freshSince before ev now after, ev'.timestamp ≤ ev.timestamp) :=
  ⟨fun _ _ hrun hidle hunknown hshown => exists_evidence hrun hidle hunknown hshown,
    fun _ _ _ _ hev hbeat hordered => hev.shownAtMostTtl_iff hbeat hordered⟩

/-- The report of a finished answer. -/
def answered : NormalizedEvent := .bare 1 .agentCompleted "s" 0

/-- An event of lower priority, 7 s later. -/
def stillWorking : NormalizedEvent := .bare 2 .agentWorking "s" (Duration.seconds 7)

/-- **The bound fails.** A `result` reported at 0 is still shown by an expiry call at 8 s, its
    time-to-live, since an event that lost the priority comparison came at 7 s. -/
theorem result_outlives_its_ttl :
    Evidence [] answered 0 [.ingest stillWorking (Duration.seconds 7)] .result ∧
      proposedBy stillWorking ≠ .result ∧
      ((engineSince [] answered 0 [.ingest stillWorking (Duration.seconds 7)]).expireTtls
        (Duration.seconds 8) ["s"]).1.getState "s" = some .result ∧
      ¬ ShownAtMostTtl [] answered 0 [.ingest stillWorking (Duration.seconds 7)] .result := by
  have hstays : ((engineSince [] answered 0 [.ingest stillWorking (Duration.seconds 7)]).expireTtls
      (Duration.seconds 8) ["s"]).1.getState "s" = some .result := by decide
  refine ⟨⟨trivial, by decide, by decide, by decide, by decide, by decide, by decide⟩, by decide,
    hstays, fun hall => ?_⟩
  have hcall := hall (Duration.seconds 8) ["s"] (by decide) (by decide)
  exact absurd (hstays.symm.trans hcall) (by decide)

/-- The bound holds when the later event carries an earlier timestamp. -/
theorem shown_at_most_ttl_answered :
    ShownAtMostTtl [] answered 0 [.ingest { stillWorking with timestamp := 0 } 1] .result := by
  have hev : Evidence [] answered 0 [.ingest { stillWorking with timestamp := 0 } 1] .result :=
    ⟨trivial, by decide, by decide, by decide, by decide, by decide, by decide⟩
  exact ((shown_at_most_ttl_iff .result).2 [] answered 0 _ hev (by decide) (by decide)).mpr
    (by decide)

end AgentTermStatus
