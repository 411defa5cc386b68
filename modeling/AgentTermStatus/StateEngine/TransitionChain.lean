import AgentTermStatus.StateEngine.Engine
import Mathlib.Data.List.Chain

namespace AgentTermStatus

open Lib StateEngine

/-!
# The transitions of a session form a path

A consumer of transitions never sees the session map.  What it shows for a session is the
`new` of the last transition it got, `idle` before the first one.  That is always the
session's state: every operation emits, for each session id, a path from the state shown
before it to the state shown after it (`engineStep_path`), so a whole run does, however
sessions are created, expired, forgotten and created again.
-/

/-- The state shown for a session id: `idle` when there is no such session. -/
def StateEngine.shown (e : StateEngine) (id : String) : AgentState :=
  (e.getState id).getD .idle

/-- The transitions of a session as edges between states. -/
def edgesOf (id : String) (ts : List StateTransition) : List (AgentState × AgentState) :=
  (transitionsOf id ts).map fun t => (t.previous, t.new)

@[simp] theorem edgesOf_nil (id : String) : edgesOf id [] = [] := rfl

@[simp] theorem edgesOf_append (id : String) (xs ys : List StateTransition) :
    edgesOf id (xs ++ ys) = edgesOf id xs ++ edgesOf id ys := by
  simp [edgesOf]

/-- The session an event meets is in the state shown for it. -/
theorem sessionFor_state (e : StateEngine) (event : NormalizedEvent) (now : DateTime) :
    (e.sessionFor event now).state = e.shown event.session.id := by
  unfold sessionFor shown getState
  cases e.sessions[event.session.id]? <;> rfl

/-- An ingestion emits a path for every session. -/
theorem ingest_path (e : StateEngine) (event : NormalizedEvent) (now : DateTime) (id : String) :
    ConnectedPath (e.shown id) (edgesOf id (e.ingest event now).2.toList)
      ((e.ingest event now).1.shown id) := by
  by_cases hid : event.session.id = id
  · subst hid
    have hafter : (e.ingest event now).1.shown event.session.id
        = (e.sessionAfter event now).state := by
      simp only [shown, getState, ingest_session_self, Option.map_some, Option.getD_some]
    rw [hafter, ingest_snd, sessionFor_state]
    by_cases heq : e.shown event.session.id = (e.sessionAfter event now).state
    · rw [if_pos heq]
      simpa using heq
    · rw [if_neg heq]
      simpa [edgesOf, transitionsOf] using heq
  · have hsame : (e.ingest event now).1.shown id = e.shown id := by
      simp only [shown, getState, ingest_session_ne e event now hid]
    rw [hsame, edgesOf, ingest_transitions_ne e event now hid]
    simp

/-- A heartbeat changes no shown state. -/
theorem heartbeat_shown (e : StateEngine) (sid : String) (now : DateTime) (id : String) :
    (e.heartbeat sid now).shown id = e.shown id := by
  unfold shown getState
  rw [heartbeat_session]
  split
  · cases e.sessions[id]? with
    | none => rfl
    | some s => simp [(s.extendHeartbeat_state now).1]
  · rfl

/-- An expiry emits a path for every session. -/
theorem expireTtls_path (e : StateEngine) (now : DateTime) {order : List String}
    (h : Enumerates order e.sessions) (id : String) :
    ConnectedPath (e.shown id) (edgesOf id (e.expireTtls now order).2)
      ((e.expireTtls now order).1.shown id) := by
  unfold shown getState edgesOf
  rw [expireTtls_session e now h, expireTtls_transitions e now h]
  cases e.sessions[id]? with
  | none => simp
  | some s =>
    by_cases hexp : s.Expired now
    · have hcheck := s.checkTtl_of_expired hexp
      by_cases hunk : s.state = .unknown
      · -- the session is shown as `idle` whether it is kept or forgotten
        by_cases hrec : Reclaimed e.parentMap id s now <;>
          simp [expiryOf, hexp, hcheck, hunk, hrec]
      · have hrec : ¬ Reclaimed e.parentMap id s now := fun hrec => hunk hrec.2.1
        simp [expiryOf, hexp, hcheck, hunk, hrec]
    · -- a session that is not expired is kept as it is
      have hrec : ¬ Reclaimed e.parentMap id s now := fun hrec => hexp hrec.1
      simp [expiryOf, hexp, s.checkTtl_of_not_expired hexp, hrec]

/-- **Step lemma.** Every operation emits, for every session, a path from the state shown
    before it to the state shown after it. -/
theorem engineStep_path (e : StateEngine) (op : EngineOp) (h : op.Possible e) (id : String) :
    ConnectedPath (e.shown id) (edgesOf id (engineStep e op).2)
      ((engineStep e op).1.shown id) := by
  cases op with
  | ingest event now => exact ingest_path e event now id
  | heartbeat sid now => exact (heartbeat_shown e sid now id).symm
  | expireTtls now order => exact expireTtls_path e now h id

/-- **Run lemma.** So does every run. -/
theorem engineRun_path (e : StateEngine) (ops : List EngineOp) (h : EngineRun e ops)
    (id : String) :
    ConnectedPath (e.shown id) (edgesOf id (trace engineStep e ops))
      ((exec engineStep e ops).shown id) := by
  have hstep : ∀ out e' (op : EngineOp), op.Possible e' →
      ConnectedPath (e.shown id) (edgesOf id out) (e'.shown id) →
      ConnectedPath (e.shown id) (edgesOf id (out ++ (engineStep e' op).2))
        ((engineStep e' op).1.shown id) := by
    intro out e' op hop hpath
    rw [edgesOf_append]
    exact (connectedPath_append _ _ _ _).mpr ⟨_, hpath, engineStep_path e' op hop id⟩
  have hnil : ConnectedPath (e.shown id) (edgesOf id []) (e.shown id) := rfl
  simpa using Along.trace_inv
    (fun out e' => ConnectedPath (e.shown id) (edgesOf id out) (e'.shown id)) hstep h hnil

/-- The transitions lead from `start` to `final`, each starting where the one before it
    ended and none staying where it is. -/
structure ConnectedTransitions (start : AgentState) (ts : List StateTransition)
    (final : AgentState) : Prop where
  /-- The first transition starts at `start`. -/
  starts : ∀ t ∈ ts.head?, t.previous = start
  /-- Each transition starts where the one before it ended. -/
  linked : ts.IsChain fun t u => u.previous = t.new
  /-- Every transition changes the state. -/
  moves : ∀ t ∈ ts, t.previous ≠ t.new
  /-- The last transition ends at `final`. -/
  ends : (ts.getLast?.map StateTransition.new).getD start = final

/-- **The transitions of a session form a path.** In every run of a new engine and for
    every session id, the emitted transitions lead from `idle` to the state of the session,
    `idle` when there is no such session. -/
theorem transitions_connected (ops : List EngineOp) (h : EngineRun StateEngine.new ops)
    (id : String) :
    ConnectedTransitions .idle (transitionsOf id (trace engineStep StateEngine.new ops))
      (((exec engineStep StateEngine.new ops).getState id).getD .idle) := by
  have hpath := engineRun_path StateEngine.new ops h id
  have hnew : StateEngine.new.shown id = .idle := by simp [shown, getState, StateEngine.new]
  rw [hnew, connectedPath_iff] at hpath
  obtain ⟨hhead, hchain, hne, hlast⟩ := hpath
  refine ⟨?_, ?_, ?_, ?_⟩
  · intro t ht
    refine hhead (t.previous, t.new) ?_
    rw [edgesOf, List.head?_map]
    exact Option.mem_map_of_mem _ ht
  · exact (List.isChain_map _).mp hchain
  · intro t ht
    exact hne (t.previous, t.new) (List.mem_map_of_mem ht)
  · rw [edgesOf, List.getLast?_map, Option.map_map] at hlast
    exact hlast

/-- The path goes on through a session that was forgotten and created again. -/
theorem transitions_connected_lostSession :
    ConnectedTransitions .idle
      [⟨"s", .idle, .working⟩, ⟨"s", .working, .unknown⟩, ⟨"s", .unknown, .idle⟩,
        ⟨"s", .idle, .working⟩] .working := by
  let ops := lostSessionRun ++ [.ingest lostSessionStart (Duration.minutes 32)]
  have hpath := transitions_connected ops (by decide) "s"
  have htrace : transitionsOf "s" (trace engineStep StateEngine.new ops)
      = [⟨"s", .idle, .working⟩, ⟨"s", .working, .unknown⟩, ⟨"s", .unknown, .idle⟩,
          ⟨"s", .idle, .working⟩] := by decide
  have hstate : ((exec engineStep StateEngine.new ops).getState "s").getD .idle = .working := by
    decide
  rwa [htrace, hstate] at hpath

end AgentTermStatus
