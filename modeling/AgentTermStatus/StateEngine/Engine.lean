import AgentTermStatus.StateEngine.Machine
import AgentTermStatus.Lib.Run
import AgentTermStatus.Lib.StableSort

namespace AgentTermStatus

open Lib

/-!
# The state engine: all sessions, and the operations on them

`StateEngine` maps session ids to sessions and sessions to their parents.  The walk of
`expireTtls` over the session map takes its order as an argument.

Every operation acts on one session at a time, so each has spec lemmas that say what
becomes of a given session id and which transitions of that id it emits:
`ingest_session_self`, `ingest_session_ne`, `heartbeat_session`, `expireTtls_session`.
`EngineOp` and `engineStep` put the operations together as the step function of the runs of
an engine; `engineStep_sessionMove` says what any of them does to a given session.
-/

/-- A state change of one session. -/
structure StateTransition where
  sessionId : String
  previous : AgentState
  new : AgentState
  deriving DecidableEq

/-- All sessions, and the parent of each session that has one. -/
structure StateEngine where
  sessions : FiniteMap String SessionState
  parentMap : FiniteMap String String

/-- Is the event marked as a high-risk operation? -/
def isRiskEvent (event : NormalizedEvent) : Bool :=
  match event.activity.bind fun a => a.risk with
  | some .high     => true
  | some .critical => true
  | _              => false

namespace StateEngine

/-- An engine without sessions. -/
def new : StateEngine where
  sessions := ∅
  parentMap := ∅

/-- Records the parent an event names, unless a session names itself. -/
def linkParent (parentMap : FiniteMap String String) (sessionId : String)
    (parentId : Option String) : FiniteMap String String :=
  match parentId with
  | some p => if p ≠ sessionId then parentMap.insert sessionId p else parentMap
  | none   => parentMap

/-- Ingests an event: the transition of its session if the state changed. -/
def ingest (e : StateEngine) (event : NormalizedEvent) (now : DateTime) :
    StateEngine × Option StateTransition :=
  let sessionId := event.session.id
  let isRisk := isRiskEvent event
  let session := (e.sessions[sessionId]?).getD (SessionState.new now)
  let (session, result) := session.apply event.eventId event.eventType isRisk event.timestamp
  let sessions := e.sessions.insert sessionId session
  match result with
  | .changed previous new =>
      ({ sessions, parentMap := linkParent e.parentMap sessionId event.session.parentId },
        some { sessionId, previous, new })
  | .unchanged | .idempotent =>
      ({ sessions, parentMap := linkParent e.parentMap sessionId event.session.parentId }, none)

/-- Does some session name `id` as its parent? -/
def isParent (parentMap : FiniteMap String String) (id : String) : Bool :=
  parentMap.toList.any fun p => p.2 = id

/-- The walk of `expireTtls`: the sessions after it, the transitions, and the ids to remove. -/
def expireLoop (parentMap : FiniteMap String String) (now : DateTime) :
    List String → FiniteMap String SessionState →
      FiniteMap String SessionState × List StateTransition × List String
  | [], sessions => (sessions, [], [])
  | id :: order, sessions =>
    match sessions[id]? with
    | none => expireLoop parentMap now order sessions
    | some session =>
      match session.checkTtl now with
      | (session', none) => expireLoop parentMap now order (sessions.insert id session')
      | (session', some _) =>
        let (sessions, transitions, expiredIds) :=
          expireLoop parentMap now order (sessions.insert id session')
        (sessions,
          { sessionId := id, previous := session.state, new := session'.state } :: transitions,
          if session'.state = .idle ∧ isParent parentMap id = false then id :: expiredIds
          else expiredIds)

/-- Forgets a session and its link to its parent. -/
def removeSession (e : StateEngine) (id : String) : StateEngine where
  sessions := e.sessions.erase id
  parentMap := e.parentMap.erase id

/-- Expires the time-to-live of all sessions, met in the order `order`. -/
def expireTtls (e : StateEngine) (now : DateTime) (order : List String) :
    StateEngine × List StateTransition :=
  let (sessions, transitions, expiredIds) := expireLoop e.parentMap now order e.sessions
  (expiredIds.foldl removeSession { e with sessions }, transitions)

/-- The current state of a session. -/
def getState (e : StateEngine) (id : String) : Option AgentState :=
  (e.sessions[id]?).map fun s => s.state

/-- Is the session linked to `parentId`? -/
def isChildOf (e : StateEngine) (parentId childId : String) : Bool :=
  ((e.parentMap[childId]?).map fun p => decide (p = parentId)).getD false

/-- The states of the sessions linked to `parentId`, met in the order `order`. -/
def childStates (e : StateEngine) (parentId : String) (order : List String) : List AgentState :=
  order.filterMap fun childId =>
    if e.isChildOf parentId childId then (e.sessions[childId]?).map fun s => s.state else none

/-- The state a parent session shows: the one of highest priority among its children. -/
def getAggregatedState (e : StateEngine) (parentId : String) (order : List String) :
    Option AgentState :=
  let children := e.childStates parentId order
  if children.isEmpty then none else maxByKey priority children

/-- Extends the time-to-live of a session. -/
def heartbeat (e : StateEngine) (id : String) (now : DateTime) : StateEngine :=
  match e.sessions[id]? with
  | some session => { e with sessions := e.sessions.insert id (session.extendHeartbeat now) }
  | none => e

/-- The number of sessions. -/
def sessionCount (e : StateEngine) : Nat := e.sessions.size

/-! ### Ingestion, session by session -/

/-- The session an event meets: the recorded one, or a new one. -/
def sessionFor (e : StateEngine) (event : NormalizedEvent) (now : DateTime) : SessionState :=
  (e.sessions[event.session.id]?).getD (SessionState.new now)

/-- The session after an event. -/
def sessionAfter (e : StateEngine) (event : NormalizedEvent) (now : DateTime) : SessionState :=
  ((e.sessionFor event now).apply event.eventId event.eventType (isRiskEvent event)
    event.timestamp).1

/-- An ingested event writes its own session and its own link. -/
theorem ingest_fst (e : StateEngine) (event : NormalizedEvent) (now : DateTime) :
    (e.ingest event now).1 =
      { sessions := e.sessions.insert event.session.id (e.sessionAfter event now)
        parentMap := linkParent e.parentMap event.session.id event.session.parentId } := by
  unfold ingest
  simp only
  split <;> rfl

/-- An ingested event is reported exactly if it changed its session's state. -/
theorem ingest_snd (e : StateEngine) (event : NormalizedEvent) (now : DateTime) :
    (e.ingest event now).2 =
      if (e.sessionFor event now).state = (e.sessionAfter event now).state then none
      else some { sessionId := event.session.id
                  previous := (e.sessionFor event now).state
                  new := (e.sessionAfter event now).state } := by
  have hres := (e.sessionFor event now).apply_result event.eventId event.eventType
    (isRiskEvent event) event.timestamp
  unfold sessionAfter
  unfold sessionFor at *
  unfold ingest
  rcases hres with ⟨hchanged, hne⟩ | ⟨hsame, heq⟩
  · simp only [hchanged, if_neg hne]
  · simp only [if_pos heq.symm]
    split
    · next h => exact absurd h (hsame _ _)
    all_goals rfl

/-- The session of the event after its ingestion. -/
theorem ingest_session_self (e : StateEngine) (event : NormalizedEvent) (now : DateTime) :
    (e.ingest event now).1.sessions[event.session.id]? = some (e.sessionAfter event now) := by
  rw [ingest_fst, FiniteMap.getElem?_insert_if, if_pos rfl]

section
variable {e : StateEngine} {s : SessionState}

/-- The state of a recorded session. -/
theorem getState_of_session {id : String} (hs : e.sessions[id]? = some s) :
    e.getState id = some s.state := by
  rw [getState, hs, Option.map_some]

/-- An event meets the recorded session. -/
theorem sessionFor_of_session {event : NormalizedEvent}
    (hs : e.sessions[event.session.id]? = some s) (now : DateTime) :
    e.sessionFor event now = s := by
  rw [sessionFor, hs, Option.getD_some]

/-- An event whose id the session has recorded leaves it as it is. -/
theorem sessionAfter_of_seen {event : NormalizedEvent}
    (hs : e.sessions[event.session.id]? = some s) (hseen : event.eventId ∈ s.seenEventIds)
    (now : DateTime) : e.sessionAfter event now = s := by
  rw [sessionAfter, sessionFor_of_session hs, SessionState.apply_of_seen _ _ _ _ _ hseen]

end

/-- The other sessions after the ingestion of an event. -/
theorem ingest_session_ne (e : StateEngine) (event : NormalizedEvent) (now : DateTime)
    {id : String} (h : event.session.id ≠ id) :
    (e.ingest event now).1.sessions[id]? = e.sessions[id]? := by
  rw [ingest_fst, FiniteMap.getElem?_insert_ne _ _ h]

/-- The transitions of one session. -/
def transitionsOf (id : String) (ts : List StateTransition) : List StateTransition :=
  ts.filter fun t => t.sessionId = id

@[simp] theorem transitionsOf_nil (id : String) : transitionsOf id [] = [] := rfl

@[simp] theorem transitionsOf_append (id : String) (xs ys : List StateTransition) :
    transitionsOf id (xs ++ ys) = transitionsOf id xs ++ transitionsOf id ys :=
  List.filter_append ..

/-- An ingested event emits nothing for the other sessions. -/
theorem ingest_transitions_ne (e : StateEngine) (event : NormalizedEvent) (now : DateTime)
    {id : String} (h : event.session.id ≠ id) :
    transitionsOf id (e.ingest event now).2.toList = [] := by
  rw [ingest_snd]
  split
  · rfl
  · simp [transitionsOf, h]

/-! ### Expiry, session by session -/

/-- A session is a parent exactly if some link leads to it. -/
theorem isParent_iff (pm : FiniteMap String String) (id : String) :
    isParent pm id = true ↔ ∃ c : String, pm[c]? = some id := by
  unfold isParent
  rw [List.any_eq_true]
  refine ⟨?_, ?_⟩
  · rintro ⟨⟨c, p⟩, hmem, hp⟩
    obtain rfl : p = id := by simpa using hp
    exact ⟨c, Std.ExtTreeMap.mem_toList_iff_getElem?_eq_some.mp hmem⟩
  · rintro ⟨c, hc⟩
    exact ⟨(c, id), Std.ExtTreeMap.mem_toList_iff_getElem?_eq_some.mpr hc, by simp⟩

/-- What an expiry at `now` emits for a session. -/
def expiryOf (id : String) (s : SessionState) (now : DateTime) : List StateTransition :=
  if s.Expired now then
    [{ sessionId := id, previous := s.state, new := (s.checkTtl now).1.state }]
  else []

theorem transitionsOf_expiryOf (id a : String) (s : SessionState) (now : DateTime) :
    transitionsOf id (expiryOf a s now) = if a = id then expiryOf a s now else [] := by
  unfold expiryOf transitionsOf
  split <;> by_cases h : a = id <;> simp [h]

/-- An expiry at `now` forgets the session: it moves it to `idle`, and no session names it
    as parent. -/
def Reclaimed (parentMap : FiniteMap String String) (id : String) (s : SessionState)
    (now : DateTime) : Prop :=
  s.Expired now ∧ s.state = .unknown ∧ isParent parentMap id = false

instance (parentMap : FiniteMap String String) (id : String) (s : SessionState)
    (now : DateTime) : Decidable (Reclaimed parentMap id s now) :=
  inferInstanceAs (Decidable (_ ∧ _ ∧ _))

/-- One round of the walk: the session is checked, its transition is emitted, and its id is
    listed if it is to be forgotten. -/
theorem expireLoop_cons_some (pm : FiniteMap String String) (now : DateTime) (id : String)
    (order : List String) (m : FiniteMap String SessionState) {s : SessionState}
    (h : m[id]? = some s) :
    expireLoop pm now (id :: order) m =
      let rest := expireLoop pm now order (m.insert id (s.checkTtl now).1)
      (rest.1, expiryOf id s now ++ rest.2.1,
        (if Reclaimed pm id s now then [id] else []) ++ rest.2.2) := by
  rw [expireLoop, h]
  by_cases hexp : s.Expired now
  · have hcheck := s.checkTtl_of_expired hexp
    simp only [hcheck, expiryOf, Reclaimed, true_and, hexp]
    by_cases hunk : s.state = .unknown <;> by_cases hpar : isParent pm id = false <;>
      simp [hunk, hpar]
  · have hcheck := s.checkTtl_of_not_expired hexp
    simp [hcheck, expiryOf, hexp, Reclaimed]

theorem expireLoop_cons_none (pm : FiniteMap String String) (now : DateTime) (id : String)
    (order : List String) (m : FiniteMap String SessionState) (h : m[id]? = none) :
    expireLoop pm now (id :: order) m = expireLoop pm now order m := by
  rw [expireLoop, h]

section
variable (pm : FiniteMap String String) (now : DateTime) {order : List String}

/-- **What the walk does with a session.** A listed session is checked once, its expiry is
    emitted, and it is listed for removal if the expiry reclaims it; nothing happens to a
    session that is not listed. -/
theorem expireLoop_spec (hnd : order.Nodup) (m : FiniteMap String SessionState) (id : String) :
    (expireLoop pm now order m).1[id]? =
        (if id ∈ order then (m[id]?).map fun s => (s.checkTtl now).1 else m[id]?) ∧
      transitionsOf id (expireLoop pm now order m).2.1 =
        (if id ∈ order then (m[id]?).elim [] fun s => expiryOf id s now else []) ∧
      (id ∈ (expireLoop pm now order m).2.2 ↔
        id ∈ order ∧ ∃ s, m[id]? = some s ∧ Reclaimed pm id s now) := by
  induction order generalizing m with
  | nil => simp [expireLoop]
  | cons a order ih =>
    obtain ⟨ha, hnd⟩ := List.nodup_cons.mp hnd
    cases hm : m[a]? with
    | none =>
      obtain ⟨hsessions, htransitions, hids⟩ := ih hnd m
      rw [expireLoop_cons_none pm now a order m hm, hsessions, htransitions, hids]
      by_cases hid : id = a
      · subst hid; simp [ha, hm]
      · simp [hid]
    | some s =>
      obtain ⟨hsessions, htransitions, hids⟩ := ih hnd (m.insert a (s.checkTtl now).1)
      rw [expireLoop_cons_some pm now a order m hm]
      simp only
      rw [hsessions, transitionsOf_append, transitionsOf_expiryOf, htransitions, List.mem_append,
        hids, FiniteMap.getElem?_insert_if]
      by_cases hid : id = a
      · -- the session met now: the rest of the walk does not meet it again
        subst hid
        by_cases hrec : Reclaimed pm id s now <;> simp [ha, hm, hrec]
      · rw [if_neg (Ne.symm hid), if_neg (Ne.symm hid)]
        by_cases hrec : Reclaimed pm a s now <;> simp [hid, hrec]

end

/-- Removing sessions one after the other. -/
theorem foldl_removeSession (ids : List String) (e : StateEngine) (id : String) :
    (ids.foldl removeSession e).sessions[id]? =
        (if id ∈ ids then none else e.sessions[id]?) ∧
      (ids.foldl removeSession e).parentMap[id]? =
        (if id ∈ ids then none else e.parentMap[id]?) := by
  induction ids generalizing e with
  | nil => simp
  | cons a ids ih =>
    rw [List.foldl_cons, (ih _).1, (ih _).2, removeSession]
    simp only [FiniteMap.getElem?_erase_if, List.mem_cons]
    by_cases hid : id = a
    · subst hid; simp
    · simp [hid, Ne.symm hid]

section
variable (e : StateEngine) (now : DateTime) {order : List String}

/-- The sessions the walk lists for removal are those the expiry reclaims. -/
theorem mem_expireTtls_ids (h : Enumerates order e.sessions) (id : String) :
    id ∈ (expireLoop e.parentMap now order e.sessions).2.2 ↔
      ∃ s, e.sessions[id]? = some s ∧ Reclaimed e.parentMap id s now := by
  rw [(expireLoop_spec _ _ h.nodup _ _).2.2, h.mem_iff_lookup]
  refine ⟨?_, ?_⟩
  · exact fun hmem => hmem.2
  · exact fun ⟨s, hs, hrec⟩ => ⟨⟨s, hs⟩, s, hs, hrec⟩

/-- **What expiry does to a session.** It is checked against the clock, and forgotten if
    that moves it to `idle` and no session names it as parent. -/
theorem expireTtls_session (h : Enumerates order e.sessions) (id : String) :
    (e.expireTtls now order).1.sessions[id]? =
      (e.sessions[id]?).bind fun s =>
        if Reclaimed e.parentMap id s now then none else some (s.checkTtl now).1 := by
  show (List.foldl removeSession _ _).sessions[id]? = _
  rw [(foldl_removeSession _ _ id).1, if_congr (mem_expireTtls_ids e now h id) rfl rfl]
  show (if _ then none else (expireLoop e.parentMap now order e.sessions).1[id]?) = _
  rw [(expireLoop_spec _ _ h.nodup _ _).1]
  have hmem := h.mem_iff_lookup id
  cases hs : e.sessions[id]? with
  | none => simp
  | some s => simp [hmem, hs]

/-- **What expiry does to a link.** It is dropped exactly with its session. -/
theorem expireTtls_parentMap (h : Enumerates order e.sessions) (id : String) :
    (e.expireTtls now order).1.parentMap[id]? =
      if ∃ s, e.sessions[id]? = some s ∧ Reclaimed e.parentMap id s now then none
      else e.parentMap[id]? := by
  show (List.foldl removeSession _ _).parentMap[id]? = _
  rw [(foldl_removeSession _ _ id).2]
  exact if_congr (mem_expireTtls_ids e now h id) rfl rfl

/-- **What expiry emits for a session.** Its transition, if its time-to-live has elapsed. -/
theorem expireTtls_transitions (h : Enumerates order e.sessions) (id : String) :
    transitionsOf id (e.expireTtls now order).2 =
      (e.sessions[id]?).elim [] fun s => expiryOf id s now := by
  show transitionsOf id (expireLoop e.parentMap now order e.sessions).2.1 = _
  rw [(expireLoop_spec _ _ h.nodup _ _).2.1]
  have hmem := h.mem_iff_lookup id
  cases hs : e.sessions[id]? with
  | none => simp
  | some s => simp [hmem, hs]

/-- A heartbeat changes no link. -/
theorem heartbeat_parentMap (sid : String) : (e.heartbeat sid now).parentMap = e.parentMap := by
  unfold heartbeat
  split <;> rfl

/-- What a heartbeat does to a session. -/
theorem heartbeat_session (sid id : String) :
    (e.heartbeat sid now).sessions[id]? =
      if sid = id then (e.sessions[id]?).map fun s => s.extendHeartbeat now
      else e.sessions[id]? := by
  unfold heartbeat
  cases hs : e.sessions[sid]? with
  | none =>
    by_cases hid : sid = id
    · subst hid; simp [hs]
    · simp [hid]
  | some s =>
    simp only
    rw [FiniteMap.getElem?_insert_if]
    by_cases hid : sid = id
    · subst hid; simp [hs]
    · simp [hid]

end

end StateEngine

/-! ### Runs of an engine -/

/-- An operation on an engine, with the clock readings and enumeration order it meets. -/
inductive EngineOp
  | ingest (event : NormalizedEvent) (now : DateTime)
  | heartbeat (sessionId : String) (now : DateTime)
  | expireTtls (now : DateTime) (order : List String)

/-- One operation: the engine after it, and the transitions it emits. -/
def engineStep (e : StateEngine) : EngineOp → StateEngine × List StateTransition
  | .ingest event now      => ((e.ingest event now).1, (e.ingest event now).2.toList)
  | .heartbeat id now      => (e.heartbeat id now, [])
  | .expireTtls now order  => e.expireTtls now order

/-- The operation is possible: the order of a walk enumerates the session map. -/
def EngineOp.Possible (e : StateEngine) : EngineOp → Prop
  | .expireTtls _ order => Enumerates order e.sessions
  | _ => True

instance (e : StateEngine) : (op : EngineOp) → Decidable (op.Possible e)
  | .ingest _ _         => inferInstanceAs (Decidable True)
  | .heartbeat _ _      => inferInstanceAs (Decidable True)
  | .expireTtls _ order => inferInstanceAs (Decidable (Enumerates order e.sessions))

/-- A run of operations is possible. -/
abbrev EngineRun (e : StateEngine) (ops : List EngineOp) : Prop :=
  Along engineStep (fun e op => op.Possible e) e ops

section
open StateEngine

/-- What an operation does to the session `id`, by what the engine holds for it afterwards. -/
inductive SessionMove (id : String) (e : StateEngine) : EngineOp → Option SessionState → Prop
  /-- It leaves the session alone, and does not ingest an event of it. -/
  | left {op : EngineOp} (hother : ∀ event now, op = .ingest event now → event.session.id ≠ id) :
      SessionMove id e op e.sessions[id]?
  /-- It ingests an event of the session. -/
  | applied (event : NormalizedEvent) (now : DateTime) (hid : event.session.id = id) :
      SessionMove id e (.ingest event now) (some (e.sessionAfter event now))
  /-- It is a heartbeat of the session. -/
  | extended (now : DateTime) {s : SessionState} (hs : e.sessions[id]? = some s) :
      SessionMove id e (.heartbeat id now) (some (s.extendHeartbeat now))
  /-- It is an expiry that keeps the session. -/
  | checked (now : DateTime) (order : List String) {s : SessionState}
      (hs : e.sessions[id]? = some s) (hkept : ¬ Reclaimed e.parentMap id s now) :
      SessionMove id e (.expireTtls now order) (some (s.checkTtl now).1)
  /-- It is an expiry that forgets the session. -/
  | forgotten (now : DateTime) (order : List String) {s : SessionState}
      (hs : e.sessions[id]? = some s) (hrec : Reclaimed e.parentMap id s now) :
      SessionMove id e (.expireTtls now order) none

/-- **What an operation does to a session.** -/
theorem engineStep_sessionMove {e : StateEngine} {op : EngineOp} (hop : op.Possible e)
    (id : String) : SessionMove id e op (engineStep e op).1.sessions[id]? := by
  cases op with
  | ingest event now =>
    show SessionMove id e _ (e.ingest event now).1.sessions[id]?
    by_cases hid : event.session.id = id
    · subst hid
      rw [ingest_session_self]
      exact .applied event now rfl
    · rw [ingest_session_ne e event now hid]
      refine .left ?_
      rintro _ _ ⟨rfl, rfl⟩
      exact hid
  | heartbeat sid now =>
    show SessionMove id e _ (e.heartbeat sid now).sessions[id]?
    rw [heartbeat_session]
    split
    · next hid =>
      subst hid
      cases hs : e.sessions[sid]? with
      | none =>
        rw [Option.map_none, ← hs]
        exact .left (by simp)
      | some s => exact .extended now hs
    · exact .left (by simp)
  | expireTtls now order =>
    show SessionMove id e _ (e.expireTtls now order).1.sessions[id]?
    rw [expireTtls_session e now hop]
    cases hs : e.sessions[id]? with
    | none =>
      rw [Option.bind_none, ← hs]
      exact .left (by simp)
    | some s =>
      rw [Option.bind_some]
      split
      · next hrec => exact .forgotten now order hs hrec
      · next hkept => exact .checked now order hs hkept

end

/-- A session starts working and is not heard of again. -/
def lostSessionStart : NormalizedEvent := .bare 1 .agentStarted "s" 0

/-- Its event is ingested, and two expiries take it to `unknown` and to `idle`; the second
    one forgets it. -/
def lostSessionRun : List EngineOp :=
  [.ingest lostSessionStart 0,
    .expireTtls (Duration.minutes 30) ["s"],
    .expireTtls (Duration.minutes 31) ["s"]]

example : EngineRun StateEngine.new lostSessionRun ∧
    (exec engineStep StateEngine.new lostSessionRun).sessionCount = 0 := by decide

end AgentTermStatus
