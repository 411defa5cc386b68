import AgentTermStatus.StateEngine.Engine

namespace AgentTermStatus

open Lib StateEngine

/-!
# Expiry in two stages

Every place that writes the state of a session writes the time-to-live of that state with it
(`TtlOfState`), so only an `idle` session has none.  Without events, a session therefore
leaves its state at the first expiry call that reaches its deadline, is `unknown` until the
first call 30 s after that, and is `idle` or forgotten from then on.

* `run_session_inv` — what `apply`, `checkTtl` and `extendHeartbeat` keep of a session, every
  run keeps of every session;
* `expiry_waits`, `expiry_fires`, `expiry_rests` — the three phases of a sequence of calls;
* `two_stage_expiry` — the phases put together, for every reachable engine.
-/

/-! ### What holds of every session -/

/-- **Session invariant rule.** What holds of a new session and is kept by events, expiry and
    heartbeats holds of every session of every engine a run reaches. -/
theorem run_session_inv (P : SessionState → Prop)
    (hnew : ∀ now, P (SessionState.new now))
    (happly : ∀ s eventId t r ts, P s → P (SessionState.apply s eventId t r ts).1)
    (hcheck : ∀ s now, P s → P (SessionState.checkTtl s now).1)
    (hbeat : ∀ s now, P s → P (SessionState.extendHeartbeat s now))
    {e : StateEngine} {ops : List EngineOp} (hrun : EngineRun e ops)
    (he : ∀ (id : String) (s : SessionState), e.sessions[id]? = some s → P s) :
    ∀ (id : String) (s : SessionState),
      (exec engineStep e ops).sessions[id]? = some s → P s := by
  refine hrun.exec_inv
    (fun e => ∀ (id : String) (s : SessionState), e.sessions[id]? = some s → P s) ?_ he
  intro e op hop he id s hs
  have hmove := engineStep_sessionMove hop id
  generalize (engineStep e op).1.sessions[id]? = o at hmove hs
  cases hmove with
  | left _ => exact he id s hs
  | applied ev now hid =>
    -- the event meets the session, or a new one
    have hfor : P (e.sessionFor ev now) := by
      unfold sessionFor
      cases hold : e.sessions[ev.session.id]? with
      | none => exact hnew now
      | some old => exact he _ _ hold
    obtain rfl := Option.some.inj hs
    exact happly _ _ _ _ _ hfor
  | extended now hold =>
    obtain rfl := Option.some.inj hs
    exact hbeat _ _ (he id _ hold)
  | checked now order hold _ =>
    obtain rfl := Option.some.inj hs
    exact hcheck _ _ (he id _ hold)
  | forgotten now order _ _ => exact absurd hs (by simp)

/-- The time-to-live of a session is that of its state. -/
def TtlOfState (s : SessionState) : Prop := s.ttl = ttlDuration s.state

/-- **Invariant.** In every engine a run reaches, the time-to-live of every session is that of
    its state. -/
theorem run_ttlOfState {ops : List EngineOp} (hrun : EngineRun StateEngine.new ops)
    {id : String} {s : SessionState}
    (hs : (exec engineStep StateEngine.new ops).sessions[id]? = some s) : TtlOfState s := by
  refine run_session_inv TtlOfState (fun _ => rfl) ?_ ?_ ?_ hrun ?_ id s hs
  · intro s eventId t r ts hs
    by_cases hseen : eventId ∈ s.seenEventIds
    · rw [s.apply_of_seen eventId t r ts hseen]
      exact hs
    · obtain ⟨hstate, -, httl, -⟩ := s.apply_of_fresh eventId t r ts hseen
      rw [TtlOfState, httl, hstate]
  · intro s now hs
    by_cases hexp : s.Expired now
    · rw [s.checkTtl_of_expired hexp]
      rfl
    · rw [s.checkTtl_of_not_expired hexp]
      exact hs
  · intro s now hs
    unfold SessionState.extendHeartbeat
    split
    · rfl
    · exact hs
  · intro id s hs
    exact absurd hs (by simp [StateEngine.new])

/-! ### Sequences of expiry calls -/

/-- Expiry calls, each with its time and the order it meets the sessions in. -/
abbrev Calls := List (DateTime × List String)

/-- The calls, as operations. -/
def expiryCalls (calls : Calls) : List EngineOp := calls.map fun c => .expireTtls c.1 c.2

/-- The calls are possible. -/
def CallsRun (e : StateEngine) (calls : Calls) : Prop := EngineRun e (expiryCalls calls)

/-- The engine after the calls. -/
def afterCalls (e : StateEngine) (calls : Calls) : StateEngine :=
  exec engineStep e (expiryCalls calls)

/-- What the calls emit for a session. -/
def emittedBy (e : StateEngine) (calls : Calls) (id : String) : List StateTransition :=
  transitionsOf id (trace engineStep e (expiryCalls calls))

@[simp] theorem afterCalls_nil (e : StateEngine) : afterCalls e [] = e := rfl

@[simp] theorem emittedBy_nil (e : StateEngine) (id : String) : emittedBy e [] id = [] := rfl

theorem callsRun_cons (e : StateEngine) (c : DateTime × List String) (calls : Calls) :
    CallsRun e (c :: calls) ↔
      Enumerates c.2 e.sessions ∧ CallsRun (e.expireTtls c.1 c.2).1 calls := Iff.rfl

theorem afterCalls_cons (e : StateEngine) (c : DateTime × List String) (calls : Calls) :
    afterCalls e (c :: calls) = afterCalls (e.expireTtls c.1 c.2).1 calls := rfl

theorem emittedBy_cons (e : StateEngine) (c : DateTime × List String) (calls : Calls)
    (id : String) :
    emittedBy e (c :: calls) id =
      transitionsOf id (e.expireTtls c.1 c.2).2 ++ emittedBy (e.expireTtls c.1 c.2).1 calls id :=
  transitionsOf_append ..

theorem callsRun_append (e : StateEngine) (xs ys : Calls) :
    CallsRun e (xs ++ ys) ↔ CallsRun e xs ∧ CallsRun (afterCalls e xs) ys := by
  unfold CallsRun expiryCalls
  rw [List.map_append]
  exact along_append ..

theorem afterCalls_append (e : StateEngine) (xs ys : Calls) :
    afterCalls e (xs ++ ys) = afterCalls (afterCalls e xs) ys := by
  unfold afterCalls expiryCalls
  rw [List.map_append, exec_append]

theorem emittedBy_append (e : StateEngine) (xs ys : Calls) (id : String) :
    emittedBy e (xs ++ ys) id = emittedBy e xs id ++ emittedBy (afterCalls e xs) ys id := by
  unfold emittedBy afterCalls expiryCalls
  rw [List.map_append, trace_append, transitionsOf_append]

namespace SessionState

/-- When the present state of the session expires. -/
def deadline (s : SessionState) : DateTime := s.updatedAt + s.ttl

/-- A session with the time-to-live of its state is expired from its deadline on, unless it
    is `idle`. -/
theorem expired_iff {s : SessionState} (hs : TtlOfState s) (now : DateTime) :
    s.Expired now ↔ s.state ≠ .idle ∧ s.deadline ≤ now := by
  have hzero := ttlDuration_eq_zero_iff s.state
  rw [← show s.ttl = _ from hs] at hzero
  have hdue : s.ttl ≤ now - s.updatedAt ↔ s.deadline ≤ now := le_sub_iff_add_le'
  refine ⟨?_, ?_⟩
  · rintro ⟨hidle, -, hle⟩
    exact ⟨hidle, hdue.mp hle⟩
  · rintro ⟨hidle, hle⟩
    exact ⟨hidle, fun httl => hidle (hzero.mp httl), hdue.mpr hle⟩

end SessionState

section
variable {e : StateEngine} {id : String}

/-- **First phase.** A session is left alone by the calls at which it is not expired. -/
theorem expiry_waits {s : SessionState} {calls : Calls} (hrun : CallsRun e calls)
    (hs : e.sessions[id]? = some s) (hwait : ∀ c ∈ calls, ¬ s.Expired c.1) :
    (afterCalls e calls).sessions[id]? = some s ∧ emittedBy e calls id = [] := by
  -- induction over the calls; each leaves the session as it is
  induction calls generalizing e with
  | nil => exact ⟨hs, rfl⟩
  | cons c calls ih =>
    obtain ⟨hc, hrun⟩ := (callsRun_cons e c calls).mp hrun
    have hnot : ¬ s.Expired c.1 := hwait c (by simp)
    have hstep : (e.expireTtls c.1 c.2).1.sessions[id]? = some s := by
      rw [expireTtls_session e c.1 hc, hs, Option.bind_some,
        if_neg fun hrec => hnot hrec.1, s.checkTtl_of_not_expired hnot]
    obtain ⟨hafter, hquiet⟩ := ih hrun hstep fun c hc => hwait c (by simp [hc])
    refine ⟨hafter, ?_⟩
    rw [emittedBy_cons, hquiet, expireTtls_transitions e c.1 hc, hs, Option.elim_some, expiryOf,
      if_neg hnot, List.append_nil]

/-- **Last phase.** A session that is `idle` or absent stays so. -/
theorem expiry_rests {o : Option SessionState} {calls : Calls} (hrun : CallsRun e calls)
    (ho : e.sessions[id]? = o) (hidle : ∀ s ∈ o, s.state = .idle) :
    (afterCalls e calls).sessions[id]? = o ∧ emittedBy e calls id = [] := by
  cases o with
  | some s => exact expiry_waits hrun ho fun c _ hexp => hexp.1 (hidle s rfl)
  | none =>
    induction calls generalizing e with
    | nil => exact ⟨ho, rfl⟩
    | cons c calls ih =>
      obtain ⟨hc, hrun⟩ := (callsRun_cons e c calls).mp hrun
      have hstep : (e.expireTtls c.1 c.2).1.sessions[id]? = none := by
        rw [expireTtls_session e c.1 hc, ho, Option.bind_none]
      obtain ⟨hafter, hquiet⟩ := ih hrun hstep
      refine ⟨hafter, ?_⟩
      rw [emittedBy_cons, hquiet, expireTtls_transitions e c.1 hc, ho, Option.elim_none,
        List.append_nil]

/-- **Transition phase.** A session leaves its state at the first call at which it is expired:
    from `unknown` to `idle`, or out of the engine if it is no parent, and from any other state
    to `unknown`. -/
theorem expiry_fires {s : SessionState} {before : Calls} {c : DateTime × List String}
    (hrun : CallsRun e (before ++ [c])) (hs : e.sessions[id]? = some s)
    (hwait : ∀ b ∈ before, ¬ s.Expired b.1) (hexp : s.Expired c.1) :
    (afterCalls e (before ++ [c])).sessions[id]? =
        (if Reclaimed (afterCalls e before).parentMap id s c.1 then none
          else some (s.checkTtl c.1).1) ∧
      emittedBy e (before ++ [c]) id =
        [⟨id, s.state, if s.state = .unknown then .idle else .unknown⟩] := by
  obtain ⟨hbefore, hc, -⟩ := (callsRun_append e before [c]).mp hrun
  obtain ⟨hmid, hquiet⟩ := expiry_waits hbefore hs hwait
  rw [afterCalls_append, emittedBy_append, hquiet, afterCalls_cons, emittedBy_cons,
    expireTtls_transitions _ c.1 hc, hmid, Option.elim_some, expiryOf, if_pos hexp,
    s.checkTtl_of_expired hexp]
  refine ⟨?_, rfl⟩
  rw [afterCalls_nil, expireTtls_session _ c.1 hc, hmid, Option.bind_some,
    s.checkTtl_of_expired hexp]

/-- What a session in a state other than `idle` and `unknown` is after its first stage. -/
theorem first_stage {s : SessionState} (hs : TtlOfState s) (hidle : s.state ≠ .idle)
    (hunknown : s.state ≠ .unknown) {now : DateTime} (hdue : s.deadline ≤ now) :
    s.Expired now ∧ (∀ pm, ¬ Reclaimed pm id s now) ∧
      TtlOfState (s.checkTtl now).1 ∧ (s.checkTtl now).1.state = .unknown ∧
      (s.checkTtl now).1.deadline = now + ttlDuration .unknown := by
  have hexp : s.Expired now := (s.expired_iff hs now).mpr ⟨hidle, hdue⟩
  refine ⟨hexp, fun pm hrec => hunknown hrec.2.1, ?_⟩
  rw [s.checkTtl_of_expired hexp, if_neg hunknown]
  exact ⟨rfl, rfl, rfl⟩

/-- What a session in the state `unknown` is after its second stage. -/
theorem second_stage {s : SessionState} (hs : TtlOfState s) (hunknown : s.state = .unknown)
    {now : DateTime} (hdue : s.deadline ≤ now) :
    s.Expired now ∧ (∀ pm, Reclaimed pm id s now ↔ isParent pm id = false) ∧
      (s.checkTtl now).1.state = .idle := by
  have hexp : s.Expired now := (s.expired_iff hs now).mpr ⟨by simp [hunknown], hdue⟩
  refine ⟨hexp, fun pm => ⟨fun hrec => hrec.2.2, fun hpar => ⟨hexp, hunknown, hpar⟩⟩, ?_⟩
  rw [s.checkTtl_of_expired hexp, if_pos hunknown]

end

/-! ### The two stages -/

/-- A session is not expired at calls before its deadline. -/
theorem not_expired_of_lt {s : SessionState} (hs : TtlOfState s) {calls : Calls}
    (h : ∀ c ∈ calls, c.1 < s.deadline) : ∀ c ∈ calls, ¬ s.Expired c.1 :=
  fun c hc hexp => not_le.mpr (h c hc) ((s.expired_iff hs c.1).mp hexp).2

section
variable {e : StateEngine} {id : String} {s : SessionState}

/-- A session in the state `unknown` becomes `idle`, or is forgotten if no session names it as
    parent, at the first call that reaches its deadline; nothing happens to it afterwards. -/
theorem unknown_expires (hs : TtlOfState s) (hsess : e.sessions[id]? = some s)
    (hunknown : s.state = .unknown) {before after : Calls} {d : DateTime × List String}
    (hrun : CallsRun e (before ++ d :: after)) (hbefore : ∀ b ∈ before, b.1 < s.deadline)
    (hd : s.deadline ≤ d.1) :
    (afterCalls e (before ++ d :: after)).getState id =
        (if isParent (afterCalls e before).parentMap id then some .idle else none) ∧
      emittedBy e (before ++ d :: after) id = [⟨id, .unknown, .idle⟩] := by
  obtain ⟨hexp, hrec, hstate⟩ := second_stage hs hunknown hd
  rw [List.append_cons] at hrun ⊢
  obtain ⟨hfirst, hafter⟩ := (callsRun_append _ _ _).mp hrun
  obtain ⟨hfires, hemit⟩ := expiry_fires hfirst hsess (not_expired_of_lt hs hbefore) hexp
  -- what is left of the session, if anything, is `idle`
  have hidle : ∀ t ∈ (if Reclaimed (afterCalls e before).parentMap id s d.1 then none
      else some (s.checkTtl d.1).1), t.state = .idle := by
    intro t ht
    split at ht
    · exact absurd ht (by simp)
    · obtain rfl := Option.some.inj ht
      exact hstate
  obtain ⟨hrest, hquiet⟩ := expiry_rests hafter hfires hidle
  rw [afterCalls_append, emittedBy_append, hemit, hquiet, List.append_nil, if_pos hunknown,
    hunknown]
  refine ⟨?_, rfl⟩
  rw [getState, hrest, if_congr (hrec _) rfl rfl]
  cases isParent (afterCalls e before).parentMap id with
  | true => simp [hstate]
  | false => rfl

/-- A session in another state than `idle` and `unknown` becomes `unknown` at the first call
    that reaches its deadline, with a deadline of its own. -/
theorem state_expires (hs : TtlOfState s) (hsess : e.sessions[id]? = some s)
    (hidle : s.state ≠ .idle) (hunknown : s.state ≠ .unknown) {before : Calls}
    {c : DateTime × List String} (hrun : CallsRun e (before ++ [c]))
    (hbefore : ∀ b ∈ before, b.1 < s.deadline) (hc : s.deadline ≤ c.1) :
    ∃ s', (afterCalls e (before ++ [c])).sessions[id]? = some s' ∧ TtlOfState s' ∧
      s'.state = .unknown ∧ s'.deadline = c.1 + Duration.seconds 30 ∧
      emittedBy e (before ++ [c]) id = [⟨id, s.state, .unknown⟩] := by
  obtain ⟨hexp, hrec, httl, hstate, hdeadline⟩ := first_stage hs hidle hunknown hc
  obtain ⟨hfires, hemit⟩ := expiry_fires hrun hsess (not_expired_of_lt hs hbefore) hexp
  rw [if_neg (hrec _)] at hfires
  rw [if_neg hunknown] at hemit
  exact ⟨_, hfires, httl, hstate, hdeadline, hemit⟩

end

/-- The two-stage law for the session `s` that an engine holds under `id`. -/
structure TwoStageExpiry (e : StateEngine) (id : String) (s : SessionState) : Prop where
  /-- Its time-to-live is that of its state. -/
  ttl : s.ttl = ttlDuration s.state
  /-- Only an `idle` session has no time-to-live. -/
  ttl_zero : s.ttl = 0 ↔ s.state = .idle
  /-- Before its deadline no call touches it. -/
  waits : s.state ≠ .idle → s.state ≠ .unknown → ∀ calls, CallsRun e calls →
    (∀ c ∈ calls, c.1 < s.deadline) →
      (afterCalls e calls).getState id = some s.state ∧ emittedBy e calls id = []
  /-- The first call that reaches its deadline moves it to `unknown`, where it stays as long as
      the later calls are less than 30 s later. -/
  unknown : s.state ≠ .idle → s.state ≠ .unknown → ∀ before c after,
    CallsRun e (before ++ c :: after) → (∀ b ∈ before, b.1 < s.deadline) → s.deadline ≤ c.1 →
    (∀ a ∈ after, a.1 < c.1 + Duration.seconds 30) →
      (afterCalls e (before ++ c :: after)).getState id = some .unknown ∧
      emittedBy e (before ++ c :: after) id = [⟨id, s.state, .unknown⟩]
  /-- The first later call that is 30 s later moves it to `idle`, where it stays, or removes it:
      it is kept exactly if some session names it as parent. -/
  idle : s.state ≠ .idle → s.state ≠ .unknown → ∀ before c between d after,
    CallsRun e (before ++ c :: (between ++ d :: after)) →
    (∀ b ∈ before, b.1 < s.deadline) → s.deadline ≤ c.1 →
    (∀ a ∈ between, a.1 < c.1 + Duration.seconds 30) → c.1 + Duration.seconds 30 ≤ d.1 →
      (afterCalls e (before ++ c :: (between ++ d :: after))).getState id =
        (if isParent (afterCalls e (before ++ c :: between)).parentMap id then some .idle
          else none) ∧
      emittedBy e (before ++ c :: (between ++ d :: after)) id =
        [⟨id, s.state, .unknown⟩, ⟨id, .unknown, .idle⟩]
  /-- No call moves it to `idle`, or removes it, from a state other than `unknown`. -/
  through_unknown : ∀ now order, Enumerates order e.sessions →
    (∀ t ∈ transitionsOf id (e.expireTtls now order).2, t.new = .idle → t.previous = .unknown) ∧
    (s.state ≠ .idle → s.state ≠ .unknown →
      (e.expireTtls now order).1.getState id = some s.state ∨
        (e.expireTtls now order).1.getState id = some .unknown)
  /-- It is not stuck: a call from its deadline on, and a later one 30 s after all before it,
      leave it `idle` or removed. -/
  not_stuck : s.state ≠ .idle → ∀ before c between d after,
    CallsRun e (before ++ c :: (between ++ d :: after)) → s.deadline ≤ c.1 →
    (∀ b ∈ before ++ c :: between, b.1 + Duration.seconds 30 ≤ d.1) →
      (afterCalls e (before ++ c :: (between ++ d :: after))).getState id ∈ [some .idle, none]

/-- Of calls one of which reaches a deadline, there is a first one that does. -/
theorem exists_first_due {deadline : DateTime} {calls : Calls}
    (h : ∃ c ∈ calls, deadline ≤ c.1) :
    ∃ before c after, calls = before ++ c :: after ∧ (∀ b ∈ before, b.1 < deadline) ∧
      deadline ≤ c.1 := by
  obtain ⟨c, hc⟩ : ∃ c, calls.find? (fun c => decide (deadline ≤ c.1)) = some c := by
    rw [← Option.isSome_iff_exists, List.find?_isSome]
    simpa using h
  obtain ⟨hdue, before, after, heq, hbefore⟩ := List.find?_eq_some_iff_append.mp hc
  refine ⟨before, c, after, heq, fun b hb => ?_, by simpa using hdue⟩
  simpa using hbefore b hb

section
variable {e : StateEngine} {id : String} {s : SessionState}

/-- From `unknown`, a call that reaches the deadline is enough to leave. -/
theorem unknown_leaves (hs : TtlOfState s) (hsess : e.sessions[id]? = some s)
    (hunknown : s.state = .unknown) {calls : Calls} (hrun : CallsRun e calls)
    (hdue : ∃ c ∈ calls, s.deadline ≤ c.1) :
    (afterCalls e calls).getState id ∈ [some .idle, none] := by
  obtain ⟨before, d, after, rfl, hbefore, hd⟩ := exists_first_due hdue
  rw [(unknown_expires hs hsess hunknown hrun hbefore hd).1]
  split <;> simp

/-- No call moves a session to `idle`, or removes it, from a state other than `unknown`. -/
theorem expiry_through_unknown (hsess : e.sessions[id]? = some s) (now : DateTime)
    {order : List String} (horder : Enumerates order e.sessions) :
    (∀ t ∈ transitionsOf id (e.expireTtls now order).2, t.new = .idle → t.previous = .unknown) ∧
    (s.state ≠ .idle → s.state ≠ .unknown →
      (e.expireTtls now order).1.getState id = some s.state ∨
        (e.expireTtls now order).1.getState id = some .unknown) := by
  refine ⟨fun t ht hidle => ?_, fun hidle hunknown => ?_⟩
  · rw [expireTtls_transitions e now horder, hsess, Option.elim_some, expiryOf] at ht
    split at ht
    · next hexp =>
      obtain rfl := List.mem_singleton.mp ht
      rw [s.checkTtl_of_expired hexp] at hidle
      by_contra hne
      exact absurd hidle (by rw [if_neg hne]; simp)
    · exact absurd ht (by simp)
  · rw [getState, expireTtls_session e now horder, hsess, Option.bind_some,
      if_neg fun hrec => hunknown hrec.2.1, Option.map_some]
    by_cases hexp : s.Expired now
    · right
      rw [s.checkTtl_of_expired hexp, if_neg hunknown]
    · left
      rw [s.checkTtl_of_not_expired hexp]

/-- From any other state but `idle`, a call that reaches the deadline and one that comes 30 s after
    it and all before are enough to leave. -/
theorem state_leaves (hs : TtlOfState s) (hsess : e.sessions[id]? = some s)
    (hidle : s.state ≠ .idle) (hunknown : s.state ≠ .unknown) {before between after : Calls}
    {c d : DateTime × List String}
    (hrun : CallsRun e (before ++ c :: (between ++ d :: after))) (hc : s.deadline ≤ c.1)
    (hd : ∀ b ∈ before ++ c :: between, b.1 + Duration.seconds 30 ≤ d.1) :
    (afterCalls e (before ++ c :: (between ++ d :: after))).getState id ∈ [some .idle, none] := by
  -- the call `d` comes after the first one that reaches the deadline, by at least 30 s
  obtain ⟨before', f, rest, heq, hbefore, hf⟩ :=
    exists_first_due (show ∃ b ∈ before ++ [c], s.deadline ≤ b.1 from ⟨c, by simp, hc⟩)
  have hmem : f ∈ before ++ c :: between := by
    rw [List.append_cons, heq]
    simp
  rw [List.append_cons, heq, List.append_assoc, List.cons_append, List.append_cons] at hrun ⊢
  obtain ⟨hfirst, hrest⟩ := (callsRun_append _ _ _).mp hrun
  obtain ⟨s', hsess', hs', hstate, hdeadline, -⟩ :=
    state_expires hs hsess hidle hunknown hfirst hbefore hf
  rw [afterCalls_append]
  exact unknown_leaves hs' hsess' hstate hrest ⟨d, by simp, by rw [hdeadline]; exact hd f hmem⟩

/-- The two-stage law follows from the session having the time-to-live of its state. -/
theorem twoStageExpiry_of_ttlOfState (hs : TtlOfState s) (hsess : e.sessions[id]? = some s) :
    TwoStageExpiry e id s where
  ttl := hs
  ttl_zero := by rw [show s.ttl = _ from hs]; exact ttlDuration_eq_zero_iff s.state
  waits := by
    intro _ _ calls hrun hbefore
    obtain ⟨hafter, hquiet⟩ := expiry_waits hrun hsess (not_expired_of_lt hs hbefore)
    exact ⟨getState_of_session hafter, hquiet⟩
  unknown := by
    intro hidle hunknown before c after hrun hbefore hc hafter
    rw [List.append_cons] at hrun ⊢
    obtain ⟨hfirst, hrest⟩ := (callsRun_append _ _ _).mp hrun
    -- after the first call that is due the session is `unknown`, with a deadline of its own
    obtain ⟨s', hsess', hs', hstate, hdeadline, hemit⟩ :=
      state_expires hs hsess hidle hunknown hfirst hbefore hc
    obtain ⟨hstay, hquiet⟩ :=
      expiry_waits hrest hsess' (not_expired_of_lt hs' (by rw [hdeadline]; exact hafter))
    rw [afterCalls_append, emittedBy_append, hemit, hquiet, getState_of_session hstay, hstate]
    exact ⟨rfl, rfl⟩
  idle := by
    intro hidle hunknown before c between d after hrun hbefore hc hbetween hd
    rw [List.append_cons] at hrun ⊢
    rw [List.append_cons before c between]
    obtain ⟨hfirst, hrest⟩ := (callsRun_append _ _ _).mp hrun
    obtain ⟨s', hsess', hs', hstate, hdeadline, hemit⟩ :=
      state_expires hs hsess hidle hunknown hfirst hbefore hc
    obtain ⟨hget, hemit'⟩ := unknown_expires hs' hsess' hstate hrest
      (by rw [hdeadline]; exact hbetween) (by rw [hdeadline]; exact hd)
    rw [afterCalls_append _ _ (between ++ d :: after), afterCalls_append _ _ between,
      emittedBy_append, hemit, hemit']
    exact ⟨hget, rfl⟩
  through_unknown now _ horder := expiry_through_unknown hsess now horder
  not_stuck := by
    intro hidle before c between d after hrun hc hd
    by_cases hunknown : s.state = .unknown
    · exact unknown_leaves hs hsess hunknown hrun ⟨c, by simp, hc⟩
    · exact state_leaves hs hsess hidle hunknown hrun hc hd

end

/-- **Expiry in two stages.** In every engine that ingestions, heartbeats and expiry calls
    reach from the empty one, every session obeys the two-stage law. -/
theorem two_stage_expiry {ops : List EngineOp} (hrun : EngineRun StateEngine.new ops)
    {id : String} {s : SessionState}
    (hs : (exec engineStep StateEngine.new ops).sessions[id]? = some s) :
    TwoStageExpiry (exec engineStep StateEngine.new ops) id s :=
  twoStageExpiry_of_ttlOfState (run_ttlOfState hrun hs) hs

/-- The law for the session of `lostSessionRun` before its expiry calls. -/
theorem two_stage_expiry_lostSession :
    TwoStageExpiry (exec engineStep StateEngine.new [.ingest lostSessionStart 0]) "s"
      { state := .working, errorType := none, updatedAt := 0, ttl := Duration.minutes 30
        seenEventIds := {1} } :=
  two_stage_expiry (by decide) rfl

end AgentTermStatus
