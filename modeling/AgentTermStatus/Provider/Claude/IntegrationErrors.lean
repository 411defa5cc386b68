import AgentTermStatus.Provider.Claude.TurnBoundary

namespace AgentTermStatus

open Lib StateEngine ClaudeAdapter

/-!
# Errors of the provider integration

Two events report that the integration with a provider has failed, not the agent itself:
`providerDisconnected` and `providerSchemaError`, which the adapter emits for every hook it
does not know.  Both propose `error`, below `attention` and `risk`.
The first is a raise, so a pending request stays; the second is forced, and replaces it.

`pending_request_stays_iff` — a pending request survives a sequence of such errors exactly if
none of them is a schema error; `pending_request_hidden` is one that an unknown hook replaces.
-/

/-- The event reports an error of the provider integration. -/
def IsIntegrationError (ev : NormalizedEvent) : Prop :=
  ev.eventType = .providerDisconnected ∨ ev.eventType = .providerSchemaError

instance (ev : NormalizedEvent) : Decidable (IsIntegrationError ev) :=
  inferInstanceAs (Decidable (_ ∨ _))

/-- The state shows a request of the agent that is not answered yet. -/
def IsPending (s : AgentState) : Prop := s = .attention ∨ s = .risk

instance (s : AgentState) : Decidable (IsPending s) := inferInstanceAs (Decidable (_ ∨ _))

/-- A pending request is shown above an error. -/
theorem error_lt_of_isPending {s : AgentState} (h : IsPending s) : .error < s := by
  rcases h with rfl | rfl <;> decide

/-- What an integration error writes. -/
theorem eventWrite_of_isIntegrationError {ev : NormalizedEvent} (h : IsIntegrationError ev) :
    (eventWrite ev).value = .error ∧
      ((eventWrite ev).isSet = false ↔ ev.eventType ≠ .providerSchemaError) := by
  rw [eventWrite_value, eventWrite_isSet, proposedBy, isForced]
  rcases h with h | h
  · rw [h]
    exact ⟨rfl, by decide⟩
  · rw [h]
    exact ⟨rfl, by decide⟩

/-- The errors of a sequence leave a pending request alone exactly if none of them is a schema
    error. -/
theorem foldl_eventWrite_eq_iff {s : AgentState} (hpending : IsPending s)
    {evs : List (NormalizedEvent × DateTime)} (herr : ∀ i ∈ evs, IsIntegrationError i.1) :
    (evs.map fun i => eventWrite i.1).foldl Write.apply s = s ↔
      ∀ i ∈ evs, i.1.eventType ≠ .providerSchemaError := by
  have hvalue : ∀ w ∈ evs.map fun i => eventWrite i.1, w.value = .error := by
    rw [List.forall_mem_map]
    exact fun i hi => (eventWrite_of_isIntegrationError (herr i hi)).1
  rw [foldl_write_eq_iff (error_lt_of_isPending hpending) hvalue, List.forall_mem_map]
  exact forall₂_congr fun i hi => (eventWrite_of_isIntegrationError (herr i hi)).2

/-- **When a pending request stays.** A session in `attention` or `risk` is in the same state after
    any sequence of fresh integration errors exactly if none of them is a schema error. -/
theorem pending_request_stays_iff (e : StateEngine) (id : String) (s : SessionState)
    (hs : e.sessions[id]? = some s) (hpending : IsPending s.state)
    (evs : List (NormalizedEvent × DateTime)) (hid : ∀ i ∈ evs, i.1.session.id = id)
    (hfresh : AllFresh s.seenEventIds (evs.map Prod.fst))
    (herr : ∀ i ∈ evs, IsIntegrationError i.1) :
    (exec engineStep e (evs.map fun i => .ingest i.1 i.2)).getState id = some s.state ↔
      ∀ i ∈ evs, i.1.eventType ≠ .providerSchemaError := by
  obtain ⟨hstate, hseen⟩ := view_of_session hs
  rw [getState_exec_ingests e id evs hid (by rwa [hseen]) (Or.inl (by simp [hs])), hstate,
    Option.some.injEq]
  exact foldl_eventWrite_eq_iff hpending herr

/-- The agent waits for an approval. -/
def approvalWait : List EngineOp := [.ingest (.bare 1 .userApprovalRequired "s" 0) 0]

/-- A hook the adapter does not know yet replaces the pending request by an error. -/
theorem pending_request_hidden :
    ¬ ∀ (ops : List EngineOp) (id : String) (s : SessionState)
        (evs : List (NormalizedEvent × DateTime)),
      EngineRun StateEngine.new ops →
      (exec engineStep StateEngine.new ops).sessions[id]? = some s → IsPending s.state →
      (∀ i ∈ evs, i.1.session.id = id) → AllFresh s.seenEventIds (evs.map Prod.fst) →
      (∀ i ∈ evs, IsIntegrationError i.1) →
      (exec engineStep (exec engineStep StateEngine.new ops)
        (evs.map fun i => .ingest i.1 i.2)).getState id = some s.state := by
  intro hall
  have hstays := hall approvalWait "s" _ (hookEvents [.simple "PreCompact" 2]) (by decide) rfl
    (by decide) (by decide) (by decide) (by decide)
  exact absurd hstays (by decide)

/-- Disconnections alone leave it alone. -/
theorem pending_request_stays_disconnected :
    (exec engineStep (exec engineStep StateEngine.new approvalWait)
      [.ingest (.bare 2 .providerDisconnected "s" 1) 1,
        .ingest (.bare 3 .providerDisconnected "s" 2) 2]).getState "s" = some .attention :=
  (pending_request_stays_iff (exec engineStep StateEngine.new approvalWait) "s"
    { state := .attention, errorType := none, updatedAt := 0, ttl := Duration.hours 4
      seenEventIds := {1} } rfl (by decide)
    [(.bare 2 .providerDisconnected "s" 1, 1), (.bare 3 .providerDisconnected "s" 2, 2)]
    (by decide) (by decide) (by decide)).mpr (by decide)

end AgentTermStatus
