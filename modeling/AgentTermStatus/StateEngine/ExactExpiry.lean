import AgentTermStatus.StateEngine.Engine

namespace AgentTermStatus

open Lib StateEngine

/-!
# What one expiry call does

`expireTtls` walks the sessions and removes some of them afterwards, judging the removals by the
links it found when it was called.  Its result is therefore a function of the engine and the
clock: `ExactExpiry` says which, session by session and link by link.

* `expireTtls_exactExpiry` — what a call does, for every engine and every order of the walk;
* `ExactExpiry.unique`, `ExactExpiry.perm` — this fixes the engine after the call, and the
  transitions up to their order.
-/

/-- The state that an expired session moves to. -/
def expiryState (s : SessionState) : AgentState := if s.state = .unknown then .idle else .unknown

/-- An expired session after the call that moves it. -/
def movedByExpiry (s : SessionState) (now : DateTime) : SessionState :=
  { s with
    state := expiryState s
    ttl := ttlDuration (expiryState s)
    updatedAt := now
    errorType := none }

/-- The call moves the session to `idle`, and no entry of the parent map names it. -/
def Removable (e : StateEngine) (id : String) (s : SessionState) (now : DateTime) : Prop :=
  s.Expired now ∧ expiryState s = .idle ∧ ∀ c : String, e.parentMap[c]? ≠ some id

/-- What an expiry call at `now` makes of the engine `e`: the engine after it, and the
    transitions it emits. -/
structure ExactExpiry (e : StateEngine) (now : DateTime)
    (result : StateEngine × List StateTransition) : Prop where
  /-- An expired session emits its transition, once. -/
  emits : ∀ (id : String) (s : SessionState), e.sessions[id]? = some s → s.Expired now →
    transitionsOf id result.2 =
      [{ sessionId := id, previous := s.state, new := expiryState s }]
  /-- Nothing else is emitted. -/
  quiet : ∀ id : String, (∀ s, e.sessions[id]? = some s → ¬ s.Expired now) →
    transitionsOf id result.2 = []
  /-- The removed sessions. -/
  removes : ∀ (id : String) (s : SessionState), e.sessions[id]? = some s →
    (result.1.sessions[id]? = none ↔ Removable e id s now)
  /-- The other expired sessions are moved. -/
  moves : ∀ (id : String) (s : SessionState), e.sessions[id]? = some s → s.Expired now →
    ¬ Removable e id s now → result.1.sessions[id]? = some (movedByExpiry s now)
  /-- A session that is not expired stays as it is. -/
  keeps : ∀ (id : String) (s : SessionState), e.sessions[id]? = some s → ¬ s.Expired now →
    result.1.sessions[id]? = some s
  /-- No session is created. -/
  creates : ∀ id : String, e.sessions[id]? = none → result.1.sessions[id]? = none
  /-- The link of a removed session is dropped. -/
  unlinks : ∀ (id : String) (s : SessionState), e.sessions[id]? = some s → Removable e id s now →
    result.1.parentMap[id]? = none
  /-- The other links stay as they are. -/
  links : ∀ id : String, (∀ s, e.sessions[id]? = some s → ¬ Removable e id s now) →
    result.1.parentMap[id]? = e.parentMap[id]?

/-! ### A call meets it -/

/-- A session to remove is one that the expiry reclaims. -/
theorem removable_iff_reclaimed (e : StateEngine) (id : String) (s : SessionState)
    (now : DateTime) : Removable e id s now ↔ Reclaimed e.parentMap id s now := by
  have hidle : expiryState s = .idle ↔ s.state = .unknown := by
    unfold expiryState
    split <;> simp_all
  have hparent : (∀ c : String, e.parentMap[c]? ≠ some id) ↔ isParent e.parentMap id = false := by
    rw [← Bool.not_eq_true, isParent_iff, not_exists]
  rw [Removable, Reclaimed, hidle, hparent]

/-- An expired session, checked against the clock. -/
theorem checkTtl_eq_moved {s : SessionState} {now : DateTime} (h : s.Expired now) :
    (s.checkTtl now).1 = movedByExpiry s now := by
  rw [s.checkTtl_of_expired h]
  rfl

/-- What a call does, for every engine and every order in which it meets the sessions. -/
theorem expireTtls_exactExpiry (e : StateEngine) (now : DateTime) {order : List String}
    (h : Enumerates order e.sessions) : ExactExpiry e now (e.expireTtls now order) where
  emits id s hs hexp := by
    rw [expireTtls_transitions e now h, hs, Option.elim_some, expiryOf, if_pos hexp,
      checkTtl_eq_moved hexp]
    rfl
  quiet id hnone := by
    rw [expireTtls_transitions e now h]
    cases hs : e.sessions[id]? with
    | none => rfl
    | some s => rw [Option.elim_some, expiryOf, if_neg (hnone s hs)]
  removes id s hs := by
    rw [expireTtls_session e now h, hs, Option.bind_some, removable_iff_reclaimed]
    split <;> simp_all
  moves id s hs hexp hrem := by
    rw [removable_iff_reclaimed] at hrem
    rw [expireTtls_session e now h, hs, Option.bind_some, if_neg hrem, checkTtl_eq_moved hexp]
  keeps id s hs hexp := by
    have hrec : ¬ Reclaimed e.parentMap id s now := fun hrec => hexp hrec.1
    rw [expireTtls_session e now h, hs, Option.bind_some, if_neg hrec,
      s.checkTtl_of_not_expired hexp]
  creates id hs := by rw [expireTtls_session e now h, hs, Option.bind_none]
  unlinks id s hs hrem := by
    rw [removable_iff_reclaimed] at hrem
    rw [expireTtls_parentMap e now h, if_pos ⟨s, hs, hrem⟩]
  links id hnone := by
    rw [expireTtls_parentMap e now h, if_neg]
    rintro ⟨s, hs, hrec⟩
    exact hnone s hs ((removable_iff_reclaimed e id s now).mpr hrec)

/-! ### It fixes the result -/

/-- Transitions that agree session by session agree up to their order. -/
theorem perm_of_transitionsOf {xs ys : List StateTransition}
    (h : ∀ id, transitionsOf id xs = transitionsOf id ys) : xs.Perm ys := by
  rw [List.perm_iff_count]
  intro t
  have hcount : ∀ ts : List StateTransition,
      (transitionsOf t.sessionId ts).count t = ts.count t := by
    intro ts
    exact List.count_filter (by simp)
  rw [← hcount xs, ← hcount ys, h]

namespace ExactExpiry
variable {e : StateEngine} {now : DateTime} {r r' : StateEngine × List StateTransition}

/-- The engine after the call is determined. -/
theorem unique (h : ExactExpiry e now r) (h' : ExactExpiry e now r') : r.1 = r'.1 := by
  have hsessions : r.1.sessions = r'.1.sessions := by
    refine FiniteMap.ext fun id => ?_
    cases hs : e.sessions[id]? with
    | none => rw [h.creates id hs, h'.creates id hs]
    | some s =>
      by_cases hexp : s.Expired now
      · by_cases hrem : Removable e id s now
        · rw [(h.removes id s hs).mpr hrem, (h'.removes id s hs).mpr hrem]
        · rw [h.moves id s hs hexp hrem, h'.moves id s hs hexp hrem]
      · rw [h.keeps id s hs hexp, h'.keeps id s hs hexp]
  have hlinks : r.1.parentMap = r'.1.parentMap := by
    refine FiniteMap.ext fun id => ?_
    by_cases hrem : ∃ s, e.sessions[id]? = some s ∧ Removable e id s now
    · obtain ⟨s, hs, hrem⟩ := hrem
      rw [h.unlinks id s hs hrem, h'.unlinks id s hs hrem]
    · have hnone : ∀ s, e.sessions[id]? = some s → ¬ Removable e id s now :=
        fun s hs hr => hrem ⟨s, hs, hr⟩
      rw [h.links id hnone, h'.links id hnone]
  show StateEngine.mk r.1.sessions r.1.parentMap = StateEngine.mk r'.1.sessions r'.1.parentMap
  rw [hsessions, hlinks]

/-- The transitions are determined up to their order. -/
theorem perm (h : ExactExpiry e now r) (h' : ExactExpiry e now r') : r.2.Perm r'.2 := by
  refine perm_of_transitionsOf fun id => ?_
  by_cases hexp : ∃ s, e.sessions[id]? = some s ∧ s.Expired now
  · obtain ⟨s, hs, hexp⟩ := hexp
    rw [h.emits id s hs hexp, h'.emits id s hs hexp]
  · have hnone : ∀ s, e.sessions[id]? = some s → ¬ s.Expired now :=
      fun s hs he => hexp ⟨s, hs, he⟩
    rw [h.quiet id hnone, h'.quiet id hnone]

end ExactExpiry

/-- **Expiry is exact and independent of the order.** Whatever the engine, the clock and the
    order of the walk, a call does what `ExactExpiry` says, and another order gives the same
    engine and the same transitions. -/
theorem expireTtls_exact (e : StateEngine) (now : DateTime) {order order' : List String}
    (h : Enumerates order e.sessions) (h' : Enumerates order' e.sessions) :
    ExactExpiry e now (e.expireTtls now order) ∧
      (e.expireTtls now order).1 = (e.expireTtls now order').1 ∧
      (e.expireTtls now order).2.Perm (e.expireTtls now order').2 := by
  have hexact := expireTtls_exactExpiry e now h
  have hexact' := expireTtls_exactExpiry e now h'
  exact ⟨hexact, hexact.unique hexact', hexact.perm hexact'⟩

/-! ### A family that expires together -/

/-- A parent `p` and its child `c`, both `unknown` since time 0. -/
def unknownFamily : StateEngine where
  sessions := mapOfMembers [
    ("c", ⟨.unknown, none, 0, Duration.seconds 30, {2}⟩),
    ("p", ⟨.unknown, none, 0, Duration.seconds 30, {1}⟩)]
  parentMap := mapOfMembers [("c", "p")]

/-- Parent first or child first: the child goes and the parent stays. -/
theorem expireTtls_exact_unknownFamily :
    ExactExpiry unknownFamily (Duration.minutes 1)
        (unknownFamily.expireTtls (Duration.minutes 1) ["p", "c"]) ∧
      (unknownFamily.expireTtls (Duration.minutes 1) ["p", "c"]).1 =
        (unknownFamily.expireTtls (Duration.minutes 1) ["c", "p"]).1 ∧
      (unknownFamily.expireTtls (Duration.minutes 1) ["p", "c"]).2.Perm
        (unknownFamily.expireTtls (Duration.minutes 1) ["c", "p"]).2 :=
  expireTtls_exact unknownFamily (Duration.minutes 1) (by decide) (by decide)

end AgentTermStatus
