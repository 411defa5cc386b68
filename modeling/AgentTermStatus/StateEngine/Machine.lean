import AgentTermStatus.Core
import AgentTermStatus.Lib.JoinRegister
import Mathlib.Data.Finset.Insert
import Mathlib.Order.Lattice

namespace AgentTermStatus

open Lib

/-!
# The state machine of one session

`SessionState.apply` takes one event, `SessionState.checkTtl` one clock reading and
`SessionState.extendHeartbeat` one heartbeat.

The effective state of a fresh event is a write to a join register over the priority
order (`resolveEffectiveState_eq_write`): a forced event sets it, any other event raises
it.  The special case for `providerDisconnected` never shows, since the state it proposes
has a lower priority than the one it protects.
-/

/-! ### Priorities and time-to-live -/

/-- Display priority of a state; higher wins. -/
def priority : AgentState → Nat
  | .risk      => 7
  | .attention => 6
  | .error     => 5
  | .result    => 4
  | .working   => 3
  | .idle      => 2
  | .unknown   => 1

/-- How long a state is displayed without new evidence. -/
def ttlDuration : AgentState → Duration
  | .working   => Duration.minutes 30
  | .attention => Duration.hours 4
  | .risk      => Duration.minutes 30
  | .result    => Duration.seconds 8
  | .error     => Duration.seconds 60
  | .unknown   => Duration.seconds 30
  | .idle      => 0

/-- The state an event proposes. -/
def stateFromEvent (eventType : EventType) (isRisk : Bool) : AgentState :=
  match eventType with
  | .agentStarted         => .working
  | .agentWorking         => .working
  | .agentWaiting         => .working
  | .agentCompleted       => .result
  | .agentFailed          => .error
  | .sessionStarted       => .idle
  | .sessionStopped       => .idle
  | .sessionFailed        => .error
  | .sessionHeartbeat     => .working
  | .sessionTimeout       => .unknown
  | .toolStarted          => .working
  | .toolCompleted        => .working
  | .toolFailed           => .error
  | .userInputRequired    => .attention
  | .userApprovalRequired => if isRisk then .risk else .attention
  | .userInputReceived    => .working
  | .providerDisconnected => .error
  | .providerSchemaError  => .error
  | .rendererFailed       => .error

/-- Different states have different priorities. -/
theorem priority_injective : Function.Injective priority := by
  intro a b h
  cases a <;> cases b <;> first | rfl | simp [priority] at h

/-- Only `idle` has no time-to-live. -/
theorem ttlDuration_eq_zero_iff (s : AgentState) : ttlDuration s = 0 ↔ s = .idle := by
  cases s <;> decide

/-- States are ordered by display priority. -/
instance : LinearOrder AgentState := LinearOrder.lift' priority priority_injective

theorem le_iff_priority (a b : AgentState) : a ≤ b ↔ priority a ≤ priority b := Iff.rfl

/-! ### Sessions -/

/-- State machine of one session. -/
structure SessionState where
  state : AgentState
  errorType : Option EventType
  updatedAt : DateTime
  ttl : Duration
  seenEventIds : Finset Uuid

/-- Outcome of applying an event. -/
inductive TransitionResult
  | changed (previous new : AgentState)
  | unchanged
  | idempotent
  deriving DecidableEq

/-- A session nothing has happened to yet. -/
def SessionState.new (now : DateTime) : SessionState where
  state := .idle
  errorType := none
  updatedAt := now
  ttl := 0
  seenEventIds := ∅

/-- Events whose proposed state replaces the current one whatever its priority. -/
def forcedTransition : EventType → Bool
  | .sessionTimeout
  | .agentFailed
  | .sessionFailed
  | .toolFailed
  | .providerSchemaError
  | .rendererFailed
  | .userInputReceived => true
  | _ => false

/-- The state after an event proposed `proposed`. -/
def resolveEffectiveState (current proposed : AgentState) (_currentErrorType : Option EventType)
    (proposedEvent : EventType) : AgentState :=
  if proposedEvent = .providerDisconnected ∧ current = .attention then .attention
  else if forcedTransition proposedEvent then proposed
  else if priority proposed > priority current then proposed
  else if proposed = current then current
  else current

namespace SessionState

/-- Applies one event. -/
def apply (s : SessionState) (eventId : Uuid) (eventType : EventType) (isRisk : Bool)
    (timestamp : DateTime) : SessionState × TransitionResult :=
  if eventId ∈ s.seenEventIds then (s, .idempotent)
  else
    let s := { s with seenEventIds := insert eventId s.seenEventIds }
    let proposed := stateFromEvent eventType isRisk
    let previous := s.state
    let effective := resolveEffectiveState s.state proposed s.errorType eventType
    if effective = previous then
      ({ s with updatedAt := timestamp, ttl := ttlDuration effective }, .unchanged)
    else
      ({ s with
          state := effective
          updatedAt := timestamp
          ttl := ttlDuration effective
          errorType := if effective = .error then some eventType else none },
        .changed previous effective)

/-- Leaves a state whose time-to-live has elapsed: first to `unknown`, then to `idle`. -/
def checkTtl (s : SessionState) (now : DateTime) : SessionState × Option AgentState :=
  if s.state = .idle then (s, none)
  else if s.ttl = 0 then (s, none)
  else if now - s.updatedAt < s.ttl then (s, none)
  else if s.state = .unknown then
    ({ s with state := .idle, ttl := 0, updatedAt := now, errorType := none }, some .idle)
  else
    ({ s with
        state := .unknown
        ttl := ttlDuration .unknown
        updatedAt := now
        errorType := none }, some .unknown)

/-- Keeps the present state alive. -/
def extendHeartbeat (s : SessionState) (now : DateTime) : SessionState :=
  if s.state ≠ .idle ∧ s.state ≠ .unknown then
    { s with updatedAt := now, ttl := ttlDuration s.state }
  else s

end SessionState

/-! ### The machine as a join register -/

/-- What a fresh event does to the state: a forced event sets it, any other raises it. -/
def writeOf (eventType : EventType) (isRisk : Bool) : Write AgentState :=
  if forcedTransition eventType then .set (stateFromEvent eventType isRisk)
  else .raise (stateFromEvent eventType isRisk)

@[simp] theorem writeOf_isSet (t : EventType) (r : Bool) :
    (writeOf t r).isSet = forcedTransition t := by
  unfold writeOf
  split <;> simp_all [Write.isSet]

@[simp] theorem writeOf_value (t : EventType) (r : Bool) :
    (writeOf t r).value = stateFromEvent t r := by
  unfold writeOf
  split <;> rfl

/-- **Refinement.** The effective state is the register after the event's write. -/
theorem resolveEffectiveState_eq_write (current : AgentState) (et : Option EventType)
    (t : EventType) (r : Bool) :
    resolveEffectiveState current (stateFromEvent t r) et t
      = Write.apply current (writeOf t r) := by
  unfold resolveEffectiveState writeOf
  by_cases hpd : t = .providerDisconnected ∧ current = .attention
  · -- the protected state is above what the event proposes, so raising keeps it
    obtain ⟨rfl, rfl⟩ := hpd
    rfl
  · rw [if_neg hpd]
    by_cases hforced : forcedTransition t = true
    · rw [if_pos hforced, if_pos hforced]; rfl
    · rw [if_neg hforced, if_neg hforced]
      show _ = max current (stateFromEvent t r)
      by_cases hprio : priority (stateFromEvent t r) > priority current
      · rw [if_pos hprio, max_eq_right ((le_iff_priority _ _).mpr (le_of_lt hprio))]
      · rw [if_neg hprio, max_eq_left ((le_iff_priority _ _).mpr (not_lt.mp hprio)), ite_self]

namespace SessionState
variable (s : SessionState) (eventId : Uuid) (t : EventType) (r : Bool) (ts : DateTime)

/-- The state a fresh event leads to. -/
def nextState : AgentState := Write.apply s.state (writeOf t r)

/-- A duplicate changes nothing. -/
theorem apply_of_seen (h : eventId ∈ s.seenEventIds) :
    s.apply eventId t r ts = (s, .idempotent) := if_pos h

/-- **What a fresh event does.** It moves the state by its write, restarts the
    time-to-live at its own timestamp, and reports a change exactly if there is one. -/
theorem apply_of_fresh (h : eventId ∉ s.seenEventIds) :
    (s.apply eventId t r ts).1.state = s.nextState t r ∧
    (s.apply eventId t r ts).1.updatedAt = ts ∧
    (s.apply eventId t r ts).1.ttl = ttlDuration (s.nextState t r) ∧
    (s.apply eventId t r ts).1.seenEventIds = insert eventId s.seenEventIds ∧
    (s.apply eventId t r ts).2 =
      if s.nextState t r = s.state then .unchanged else .changed s.state (s.nextState t r) := by
  unfold apply
  rw [if_neg h]
  simp only [resolveEffectiveState_eq_write]
  by_cases heq : Write.apply s.state (writeOf t r) = s.state
  · rw [if_pos heq, nextState, if_pos heq]
    exact ⟨heq.symm, rfl, rfl, rfl, rfl⟩
  · rw [if_neg heq, nextState, if_neg heq]
    exact ⟨rfl, rfl, rfl, rfl, rfl⟩

/-- Applying an event records its id and forgets none. -/
theorem apply_seenEventIds :
    (s.apply eventId t r ts).1.seenEventIds = insert eventId s.seenEventIds := by
  by_cases h : eventId ∈ s.seenEventIds
  · rw [apply_of_seen s eventId t r ts h, Finset.insert_eq_of_mem h]
  · exact (apply_of_fresh s eventId t r ts h).2.2.2.1

/-- A reported change names the states before and after, and they differ. -/
theorem apply_result :
    (s.apply eventId t r ts).2 = .changed s.state (s.apply eventId t r ts).1.state ∧
        s.state ≠ (s.apply eventId t r ts).1.state ∨
      (∀ p n, (s.apply eventId t r ts).2 ≠ .changed p n) ∧
        (s.apply eventId t r ts).1.state = s.state := by
  by_cases h : eventId ∈ s.seenEventIds
  · rw [apply_of_seen s eventId t r ts h]
    exact Or.inr ⟨by simp, rfl⟩
  · obtain ⟨hstate, -, -, -, hres⟩ := apply_of_fresh s eventId t r ts h
    by_cases heq : s.nextState t r = s.state
    · rw [if_pos heq] at hres
      exact Or.inr ⟨by simp [hres], hstate.trans heq⟩
    · rw [if_neg heq] at hres
      exact Or.inl ⟨by rw [hres, hstate], by rw [hstate]; exact Ne.symm heq⟩

/-! ### Expiry and heartbeats -/

/-- A state with a time-to-live that has elapsed at `now`. -/
def Expired (now : DateTime) : Prop := s.state ≠ .idle ∧ s.ttl ≠ 0 ∧ s.ttl ≤ now - s.updatedAt

instance (now : DateTime) : Decidable (s.Expired now) :=
  inferInstanceAs (Decidable (_ ∧ _ ∧ _))

/-- A session that is not expired is left alone. -/
theorem checkTtl_of_not_expired {now : DateTime} (h : ¬ s.Expired now) :
    s.checkTtl now = (s, none) := by
  unfold checkTtl
  by_cases hidle : s.state = .idle
  · rw [if_pos hidle]
  · rw [if_neg hidle]
    by_cases httl : s.ttl = 0
    · rw [if_pos httl]
    · have hlt : now - s.updatedAt < s.ttl := not_le.mp fun hle => h ⟨hidle, httl, hle⟩
      rw [if_neg httl, if_pos hlt]

/-- An expired session moves to `idle` from `unknown` and to `unknown` from any other
    state, and its clock restarts. -/
theorem checkTtl_of_expired {now : DateTime} (h : s.Expired now) :
    s.checkTtl now =
      ({ s with
          state := if s.state = .unknown then .idle else .unknown
          ttl := ttlDuration (if s.state = .unknown then .idle else .unknown)
          updatedAt := now
          errorType := none },
        some (if s.state = .unknown then .idle else .unknown)) := by
  obtain ⟨hidle, httl, hle⟩ := h
  unfold checkTtl
  rw [if_neg hidle, if_neg httl, if_neg (not_lt.mpr hle)]
  by_cases hunk : s.state = .unknown
  · simp only [if_pos hunk, ttlDuration]
  · simp only [if_neg hunk]

/-- Expiry forgets no event id. -/
theorem checkTtl_seenEventIds (now : DateTime) :
    (s.checkTtl now).1.seenEventIds = s.seenEventIds := by
  by_cases h : s.Expired now
  · rw [checkTtl_of_expired s h]
  · rw [checkTtl_of_not_expired s h]

/-- A heartbeat changes neither the state nor the recorded ids. -/
theorem extendHeartbeat_state (now : DateTime) :
    (s.extendHeartbeat now).state = s.state ∧
      (s.extendHeartbeat now).seenEventIds = s.seenEventIds := by
  unfold extendHeartbeat
  split <;> exact ⟨rfl, rfl⟩

end SessionState

end AgentTermStatus
