import AgentTermStatus.StateEngine.SessionView

namespace AgentTermStatus

open Lib StateEngine

/-!
# Isolation of sessions

What an engine holds for a session id changes only by the events and heartbeats of that
session and by expiry.  Expiry reads one thing more: whether some session names it as parent.
So as long as none does (`NotParent`), the run without the events and heartbeats of all other
sessions shows the same states of the session and emits the same transitions for it
(`session_isolation`).
-/

/-! ### One session under heartbeats and expiry -/

namespace SessionView

/-- The view after a heartbeat. -/
def heartbeat (v : SessionView) (now : DateTime) : SessionView :=
  { v with session := v.session.map fun s => s.extendHeartbeat now }

/-- The view after an expiry call, if no session names this one as parent. -/
def expire (v : SessionView) (now : DateTime) : SessionView :=
  match v.session with
  | none => v
  | some s =>
    if s.Expired now ∧ s.state = .unknown then .empty
    else { v with session := some (s.checkTtl now).1 }

end SessionView

/-- No session names `id` as parent. -/
def NotParent (id : String) (e : StateEngine) : Prop := ∀ c : String, e.parentMap[c]? ≠ some id

theorem NotParent.isParent_eq_false {id : String} {e : StateEngine} (h : NotParent id e) :
    isParent e.parentMap id = false := by
  rw [Bool.eq_false_iff, ne_eq, isParent_iff]
  rintro ⟨c, hc⟩
  exact h c hc

theorem heartbeat_view (e : StateEngine) (sid id : String) (now : DateTime) :
    (e.heartbeat sid now).view id =
      if sid = id then (e.view id).heartbeat now else e.view id := by
  rw [StateEngine.view, heartbeat_session, heartbeat_parentMap]
  split <;> rfl

theorem expireTtls_view {e : StateEngine} {id : String} (hnp : NotParent id e) (now : DateTime)
    {order : List String} (h : Enumerates order e.sessions) :
    (e.expireTtls now order).1.view id = (e.view id).expire now := by
  -- being no parent, it is forgotten as soon as its second stage is over
  have hrec : ∀ s, Reclaimed e.parentMap id s now ↔ s.Expired now ∧ s.state = .unknown :=
    fun s => ⟨fun hr => ⟨hr.1, hr.2.1⟩, fun hr => ⟨hr.1, hr.2, hnp.isParent_eq_false⟩⟩
  rw [StateEngine.view, expireTtls_session e now h, expireTtls_parentMap e now h,
    SessionView.expire, StateEngine.view]
  simp only [hrec]
  cases e.sessions[id]? with
  | none => simp
  | some s =>
    by_cases hexp : s.Expired now ∧ s.state = .unknown
    · simp [hexp, SessionView.empty]
    · simp [hexp]

/-! ### The run without the other sessions -/

/-- What is left of an operation when everything that concerns other sessions is deleted: the
    expiry calls stay, and walk what is left of the session map. -/
def isolate (id : String) : EngineOp → Option EngineOp
  | .ingest ev now        => if ev.session.id = id then some (.ingest ev now) else none
  | .heartbeat sid now    => if sid = id then some (.heartbeat sid now) else none
  | .expireTtls now order => some (.expireTtls now (order.filter fun a => a = id))

/-- The operation is no event of another session that names `id` as parent. -/
def Unnamed (id : String) : EngineOp → Prop
  | .ingest ev _ => ev.session.id ≠ id → ev.session.parentId ≠ some id
  | _ => True

instance (id : String) : (op : EngineOp) → Decidable (Unnamed id op)
  | .ingest ev _    => inferInstanceAs (Decidable (ev.session.id ≠ id → ev.session.parentId ≠ _))
  | .heartbeat _ _  => inferInstanceAs (Decidable True)
  | .expireTtls _ _ => inferInstanceAs (Decidable True)

/-- An ingested event that does not name `id` makes it no parent; a link of `id` to itself is
    not recorded. -/
theorem notParent_ingest {id : String} {e : StateEngine} (hnp : NotParent id e)
    {ev : NormalizedEvent} (now : DateTime) (hev : Unnamed id (.ingest ev now)) :
    NotParent id (e.ingest ev now).1 := by
  intro c hc
  rw [ingest_fst] at hc
  by_cases hself : ev.session.id = c
  · subst hself
    rw [linkParent_self] at hc
    split at hc
    · next p hp =>
      split at hc
      · next hne =>
        obtain rfl := Option.some.inj hc
        exact hev (Ne.symm hne) hp
      · exact hnp _ hc
    · exact hnp _ hc
  · rw [linkParent_ne _ _ hself] at hc
    exact hnp c hc

theorem notParent_heartbeat {id : String} {e : StateEngine} (hnp : NotParent id e) (sid : String)
    (now : DateTime) : NotParent id (e.heartbeat sid now) := by
  rw [NotParent, heartbeat_parentMap]
  exact hnp

theorem notParent_expireTtls {id : String} {e : StateEngine} (hnp : NotParent id e)
    (now : DateTime) {order : List String} (horder : Enumerates order e.sessions) :
    NotParent id (e.expireTtls now order).1 := by
  intro c
  rw [expireTtls_parentMap e now horder]
  split
  · simp
  · exact hnp c

/-- **Invariant step.** As long as no event names `id` as parent, it is no parent. -/
theorem notParent_step {id : String} {e : StateEngine} {op : EngineOp} (hnp : NotParent id e)
    (hpos : op.Possible e) (hop : Unnamed id op) : NotParent id (engineStep e op).1 := by
  cases op with
  | ingest ev now => exact notParent_ingest hnp now hop
  | heartbeat sid now => exact notParent_heartbeat hnp sid now
  | expireTtls now order => exact notParent_expireTtls hnp now hpos

/-! ### The two runs in lockstep -/

/-- An engine, and the one that was only told of the session `id`. -/
structure Isolated (id : String) (e e' : StateEngine) : Prop where
  view : e'.view id = e.view id
  alone : ∀ a : String, a ≠ id → e'.sessions[a]? = none
  notParent : NotParent id e
  notParent' : NotParent id e'

/-- Two engines with the same view agree on the session. -/
theorem Isolated.session {id : String} {e e' : StateEngine} (h : Isolated id e e') :
    e'.sessions[id]? = e.sessions[id]? := congrArg SessionView.session h.view

/-- What is left of an enumeration enumerates the sessions that are left. -/
theorem Isolated.enumerates {id : String} {e e' : StateEngine} (h : Isolated id e e')
    {order : List String} (horder : Enumerates order e.sessions) :
    Enumerates (order.filter fun a => a = id) e'.sessions := by
  refine (List.perm_ext_iff_of_nodup (horder.nodup.filter _)
    (Enumerates.keys e'.sessions).nodup).mpr fun a => ?_
  rw [List.mem_filter, horder.mem_iff_lookup, (Enumerates.keys e'.sessions).mem_iff_lookup]
  -- the second engine holds no session but this one
  by_cases ha : a = id
  · subst ha
    simp [h.session]
  · simp [ha, h.alone a ha]

/-- Both engines ingest an event of the session. -/
theorem Isolated.ingest {e e' : StateEngine} {ev : NormalizedEvent}
    (h : Isolated ev.session.id e e') (now : DateTime)
    (hop : Unnamed ev.session.id (.ingest ev now)) :
    Isolated ev.session.id (e.ingest ev now).1 (e'.ingest ev now).1 ∧
      transitionsOf ev.session.id (e.ingest ev now).2.toList =
        transitionsOf ev.session.id (e'.ingest ev now).2.toList := by
  -- in both, the session makes its own step from the same view
  have hpart := isPart_session ev.session.id
  have hview := fun e => hpart.view_step e (ev, now)
  have hown := fun e => hpart.own_step e (ev, now)
  rw [ownEvent, if_pos rfl] at hview hown
  refine ⟨⟨?_, fun a ha => ?_, notParent_ingest h.notParent now hop,
    notParent_ingest h.notParent' now hop⟩, ?_⟩
  · refine (hview e').trans ?_
    rw [h.view]
    exact (hview e).symm
  -- no other session comes up in the second engine
  · rw [ingest_session_ne e' ev now (Ne.symm ha)]
    exact h.alone a ha
  · refine (hown e).trans ?_
    rw [← h.view]
    exact (hown e').symm

/-- Both engines get a heartbeat of the session. -/
theorem Isolated.heartbeat {id : String} {e e' : StateEngine} (h : Isolated id e e')
    (now : DateTime) : Isolated id (e.heartbeat id now) (e'.heartbeat id now) where
  view := by rw [heartbeat_view, heartbeat_view, h.view]
  alone a ha := by
    rw [heartbeat_session, if_neg (Ne.symm ha)]
    exact h.alone a ha
  notParent := notParent_heartbeat h.notParent id now
  notParent' := notParent_heartbeat h.notParent' id now

/-- Both engines are asked to expire what is due; the second one has less to walk. -/
theorem Isolated.expire {id : String} {e e' : StateEngine} (h : Isolated id e e')
    (now : DateTime) {order order' : List String} (horder : Enumerates order e.sessions)
    (horder' : Enumerates order' e'.sessions) :
    Isolated id (e.expireTtls now order).1 (e'.expireTtls now order').1 ∧
      transitionsOf id (e.expireTtls now order).2 =
        transitionsOf id (e'.expireTtls now order').2 := by
  refine ⟨⟨?_, fun a ha => ?_, ?_, ?_⟩, ?_⟩
  · rw [expireTtls_view h.notParent' now horder', expireTtls_view h.notParent now horder, h.view]
  · rw [expireTtls_session e' now horder', h.alone a ha, Option.bind_none]
  · exact notParent_expireTtls h.notParent now horder
  · exact notParent_expireTtls h.notParent' now horder'
  · rw [expireTtls_transitions e now horder, expireTtls_transitions e' now horder', h.session]

/-- **Step lemma.** An operation on the session `id`, or an expiry call, does the same for it in
    both engines. -/
theorem Isolated.step_both {id : String} {e e' : StateEngine} (h : Isolated id e e')
    {op op' : EngineOp} (hpos : op.Possible e) (hop : Unnamed id op)
    (hkeep : isolate id op = some op') :
    op'.Possible e' ∧ Isolated id (engineStep e op).1 (engineStep e' op').1 ∧
      transitionsOf id (engineStep e op).2 = transitionsOf id (engineStep e' op').2 := by
  cases op with
  | ingest ev now =>
    obtain ⟨hid, hkeep⟩ := Option.ite_none_right_eq_some.mp hkeep
    obtain rfl := Option.some.inj hkeep
    subst hid
    exact ⟨trivial, h.ingest now hop⟩
  | heartbeat sid now =>
    obtain ⟨hid, hkeep⟩ := Option.ite_none_right_eq_some.mp hkeep
    obtain rfl := Option.some.inj hkeep
    subst hid
    exact ⟨trivial, h.heartbeat now, rfl⟩
  | expireTtls now order =>
    obtain rfl := Option.some.inj hkeep
    have horder := h.enumerates hpos
    exact ⟨horder, h.expire now hpos horder⟩

/-- **Step lemma.** An operation on another session does nothing to the session `id`. -/
theorem Isolated.step_skip {id : String} {e e' : StateEngine} (h : Isolated id e e')
    {op : EngineOp} (hpos : op.Possible e) (hop : Unnamed id op) (hskip : isolate id op = none) :
    Isolated id (engineStep e op).1 e' ∧ transitionsOf id (engineStep e op).2 = [] := by
  have hnp := notParent_step h.notParent hpos hop
  cases op with
  | ingest ev now =>
    have hid : ev.session.id ≠ id := fun hid => by simp [isolate, hid] at hskip
    have hview := (isPart_session id).view_step e (ev, now)
    rw [ownEvent, if_neg hid] at hview
    exact ⟨⟨h.view.trans hview.symm, h.alone, hnp, h.notParent'⟩,
      ingest_transitions_ne e ev now hid⟩
  | heartbeat sid now =>
    have hid : sid ≠ id := fun hid => by simp [isolate, hid] at hskip
    refine ⟨⟨?_, h.alone, hnp, h.notParent'⟩, rfl⟩
    show e'.view id = (e.heartbeat sid now).view id
    rw [heartbeat_view, if_neg hid]
    exact h.view
  | expireTtls now order => exact absurd hskip (by simp [isolate])

/-- **Session isolation.** Let no event of another session name `id` as parent.  Deleting every
    event and heartbeat of the other sessions leaves a possible run, and after every step it
    shows the same state of the session and has emitted the same transitions for it. -/
theorem session_isolation (id : String) {ops : List EngineOp}
    (hrun : EngineRun StateEngine.new ops) (hops : ∀ op ∈ ops, Unnamed id op) :
    EngineRun StateEngine.new (ops.filterMap (isolate id)) ∧
      ∀ p, p <+: ops →
        (exec engineStep StateEngine.new p).getState id =
          (exec engineStep StateEngine.new (p.filterMap (isolate id))).getState id ∧
        transitionsOf id (trace engineStep StateEngine.new p) =
          transitionsOf id (trace engineStep StateEngine.new (p.filterMap (isolate id))) := by
  have hstart : Isolated id StateEngine.new StateEngine.new :=
    ⟨rfl, fun a _ => by simp [StateEngine.new], fun c => by simp [StateEngine.new],
      fun c => by simp [StateEngine.new]⟩
  have hgood := hrun.and_of_mem hops
  have hboth := fun q (hq : q <+: ops) =>
    Along.lockstep (isolate id) (fun t : StateTransition => t.sessionId = id) (Isolated id)
      (fun e e' op hop h hskip => h.step_skip hop.1 hop.2 hskip)
      (fun e e' op op' hop h hkeep => h.step_both hop.1 hop.2 hkeep)
      (hgood.of_isPrefix hq) hstart
  refine ⟨(hboth ops (List.prefix_refl ops)).1, fun p hp => ?_⟩
  obtain ⟨-, hrel, htrace⟩ := hboth p hp
  refine ⟨?_, htrace⟩
  rw [getState, getState, hrel.session]

/-- Two sessions whose operations alternate, both of which expire; `b` names a parent. -/
def twoSessionRun : List EngineOp :=
  [.ingest (.bare 1 .agentStarted "a" 0) 0,
    .ingest { NormalizedEvent.bare 2 .userInputRequired "b" 1 with
      session := { SessionIdentity.default with id := "b", parentId := some "c" } } 1,
    .heartbeat "b" 2,
    .expireTtls (Duration.minutes 30) ["a", "b"],
    .ingest (.bare 3 .agentCompleted "a" (Duration.minutes 31)) (Duration.minutes 31),
    .expireTtls (Duration.hours 5) ["a", "b"]]

/-- Isolation of the session `a` in this run. -/
theorem session_isolation_twoSessionRun :
    EngineRun StateEngine.new (twoSessionRun.filterMap (isolate "a")) ∧
      ∀ p, p <+: twoSessionRun →
        (exec engineStep StateEngine.new p).getState "a" =
          (exec engineStep StateEngine.new (p.filterMap (isolate "a"))).getState "a" ∧
        transitionsOf "a" (trace engineStep StateEngine.new p) =
          transitionsOf "a" (trace engineStep StateEngine.new (p.filterMap (isolate "a"))) :=
  session_isolation "a" (by decide) (by decide)

end AgentTermStatus
