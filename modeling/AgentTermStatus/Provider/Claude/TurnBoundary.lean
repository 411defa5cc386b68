import AgentTermStatus.Provider.Claude.Adapter
import AgentTermStatus.StateEngine.ClosedForm

namespace AgentTermStatus

open Lib StateEngine ClaudeAdapter

/-!
# Turn boundaries

The adapter and the state engine, one after the other: the events of the hook calls of one
session are ingested in order (`ingestHooks`).  A turn begins with `UserPromptSubmit` and
ends with `Stop`; it is visible when these leave the session in `working` and `result`
(`BoundaryShown`).

Neither hook is forced, so it shows only in a state it is not below.  No hook the adapter
forces leads to a state as low as `result`, hence what one hook has raised above it stays
above, and the boundary shows exactly if every call before it was of a quiet hook
(`boundaryShown_iff`).
-/

/-- One hook call. -/
structure HookCall where
  /-- The payload. -/
  payload : Json
  /-- What parsing it reads besides. -/
  env : ParseEnv
  /-- The clock of the engine that ingests its events. -/
  now : DateTime

namespace HookCall

/-- The hook called. -/
def hook (c : HookCall) : Option String := hookName c.payload

/-- The session called for. -/
def sessionId (c : HookCall) : String := (deriveSession c.env c.payload).id

/-- The adapter accepts the payload. -/
def Accepted (c : HookCall) : Prop := ∃ events, parse c.env c.payload = .ok events

instance (c : HookCall) : Decidable c.Accepted :=
  match h : parse c.env c.payload with
  | .ok events => isTrue ⟨events, h⟩
  | .err _     => isFalse fun ⟨_, hok⟩ => by simp [h] at hok
  | .panicked  => isFalse fun ⟨_, hok⟩ => by simp [h] at hok

/-- The events of the call: none when the adapter does not accept it. -/
def events (c : HookCall) : List NormalizedEvent :=
  match parse c.env c.payload with
  | .ok events => events
  | _          => []

/-- The hook is one of some hooks. -/
def IsOneOf (hooks : List String) (c : HookCall) : Prop := ∃ hook ∈ hooks, c.hook = some hook

instance (hooks : List String) (c : HookCall) : Decidable (c.IsOneOf hooks) :=
  inferInstanceAs (Decidable (∃ hook ∈ hooks, _))

/-- An accepted call gives one event, of its own session, id and hook. -/
theorem events_of_accepted {c : HookCall} (h : c.Accepted) :
    ∃ hook ev, c.hook = some hook ∧ c.events = [ev] ∧ ev.session.id = c.sessionId ∧
      ev.eventId = c.env.eventId ∧
      ev.eventType = hookEventType hook (notificationMessage c.payload) := by
  obtain ⟨events, hparse⟩ := h
  obtain ⟨hook, ev, hname, rfl, htype, hid, -, hsession⟩ := parse_eq_ok hparse
  refine ⟨hook, ev, hname, ?_, ?_, hid, htype⟩
  · rw [HookCall.events, hparse]
  · rw [hsession, sessionId]

end HookCall

/-- The engine after the events of the calls. -/
def ingestHooks (e : StateEngine) (calls : List HookCall) : StateEngine :=
  exec engineStep e (calls.flatMap fun c => c.events.map fun ev => .ingest ev c.now)

/-- A turn boundary that comes last is visible: `UserPromptSubmit` as `working`, `Stop` as
    `result`. -/
def BoundaryShown (calls : List HookCall) (state : Option AgentState) : Prop :=
  ∀ last ∈ calls.getLast?,
    (last.hook = some "UserPromptSubmit" → state = some .working) ∧
    (last.hook = some "Stop" → state = some .result)

/-- The hooks that ask for nothing above `working`. -/
def quietHooks : List String :=
  ["SessionStart", "UserPromptSubmit", "PreToolUse", "PostToolUse", "SessionEnd"]

/-- Before a turn begins only quiet hooks were called, and before it ends only those and
    `Stop`. -/
def QuietBefore (calls : List HookCall) : Prop :=
  ∀ last ∈ calls.getLast?,
    (last.hook = some "UserPromptSubmit" → ∀ c ∈ calls.dropLast, c.IsOneOf quietHooks) ∧
    (last.hook = some "Stop" → ∀ c ∈ calls.dropLast, c.IsOneOf ("Stop" :: quietHooks))

/-! ### What a hook writes -/

/-- A notification asks for attention, or more. -/
theorem attention_le_classifyNotification (message : String) (r : Bool) :
    .attention ≤ stateFromEvent (classifyNotification message) r := by
  unfold classifyNotification
  simp only
  split <;> cases r <;> decide

/-- **What a hook writes.** A quiet hook raises to `working` at most, `Stop` raises to
    `result`, and any other hook proposes more than that. -/
theorem hookEventType_cases (hook message : String) (r : Bool) :
    hook ∈ quietHooks ∧ stateFromEvent (hookEventType hook message) r ≤ .working ∧
        forcedTransition (hookEventType hook message) = false ∨
      hook = "Stop" ∧ hookEventType hook message = .agentCompleted ∨
      hook ∉ "Stop" :: quietHooks ∧ .result < stateFromEvent (hookEventType hook message) r := by
  have hnotification := attention_le_classifyNotification message r
  unfold hookEventType
  split
  -- a failed tool call
  case h_5 => exact Or.inr (Or.inr ⟨by decide, by cases r <;> decide⟩)
  -- a notification
  case h_6 => exact Or.inr (Or.inr ⟨by decide, lt_of_lt_of_le (by decide) hnotification⟩)
  -- the end of a turn
  case h_7 => exact Or.inr (Or.inl ⟨rfl, rfl⟩)
  -- an unknown hook
  case h_9 => exact Or.inr (Or.inr ⟨by simp_all [quietHooks], by cases r <;> decide⟩)
  all_goals exact Or.inl ⟨by decide, by cases r <;> decide, by decide⟩

/-- The hooks that propose nothing above `working` are the quiet ones. -/
theorem proposed_le_working_iff (hook message : String) (r : Bool) :
    stateFromEvent (hookEventType hook message) r ≤ .working ↔ hook ∈ quietHooks := by
  obtain ⟨hquiet, hle, -⟩ | ⟨rfl, ht⟩ | ⟨hother, hlt⟩ := hookEventType_cases hook message r
  · exact iff_of_true hle hquiet
  · rw [ht]
    exact iff_of_false (by decide +revert) (by decide)
  · refine iff_of_false (not_le.mpr (lt_trans (by decide) hlt)) fun hmem => ?_
    exact hother (List.mem_cons_of_mem _ hmem)

/-- The hooks that propose nothing above `result` are those and `Stop`. -/
theorem proposed_le_result_iff (hook message : String) (r : Bool) :
    stateFromEvent (hookEventType hook message) r ≤ .result ↔ hook ∈ "Stop" :: quietHooks := by
  obtain ⟨hquiet, hle, -⟩ | ⟨rfl, ht⟩ | ⟨hother, hlt⟩ := hookEventType_cases hook message r
  · exact iff_of_true (le_trans hle (by decide)) (List.mem_cons_of_mem _ hquiet)
  · rw [ht]
    exact iff_of_true le_rfl List.mem_cons_self
  · exact iff_of_false (not_le.mpr hlt) hother

/-- What the adapter forces is above `result`. -/
theorem result_lt_of_forced (hook message : String) (r : Bool)
    (h : forcedTransition (hookEventType hook message) = true) :
    .result < stateFromEvent (hookEventType hook message) r := by
  obtain ⟨-, -, hraise⟩ | ⟨-, ht⟩ | ⟨-, hlt⟩ := hookEventType_cases hook message r
  · exact absurd h (by simp [hraise])
  · exact absurd h (by simp [ht, forcedTransition])
  · exact hlt

/-! ### Runs of hook calls -/

/-- The events of some calls, with the clock readings they are ingested at. -/
def hookEvents (calls : List HookCall) : List (NormalizedEvent × DateTime) :=
  calls.flatMap fun c => c.events.map fun ev => (ev, c.now)

/-- The events of accepted calls of one session are its own, and as fresh as their ids. -/
theorem hookEvents_own {calls : List HookCall} {sid : String}
    (hsid : ∀ c ∈ calls, c.sessionId = sid) (hok : ∀ c ∈ calls, c.Accepted) :
    (∀ i ∈ hookEvents calls, i.1.session.id = sid) ∧
      (hookEvents calls).map (fun i => i.1.eventId) = calls.map fun c => c.env.eventId := by
  induction calls with
  | nil => simp [hookEvents]
  | cons c calls ih =>
    rw [List.forall_mem_cons] at hsid hok
    obtain ⟨-, ev, -, hevents, hsession, hid, -⟩ := HookCall.events_of_accepted hok.1
    obtain ⟨hown, hids⟩ := ih hsid.2 hok.2
    rw [hookEvents, List.flatMap_cons, hevents, ← hookEvents]
    refine ⟨?_, ?_⟩
    · simpa [hsession, hsid.1] using hown
    · simpa [hid] using hids

/-- Every event of accepted calls has the type of some hook. -/
theorem eventType_of_mem_hookEvents {calls : List HookCall} (hok : ∀ c ∈ calls, c.Accepted)
    {i : NormalizedEvent × DateTime} (hi : i ∈ hookEvents calls) :
    ∃ hook message, i.1.eventType = hookEventType hook message := by
  obtain ⟨c, hc, hi⟩ := List.mem_flatMap.mp hi
  obtain ⟨hook, ev, -, hevents, -, -, htype⟩ := HookCall.events_of_accepted (hok c hc)
  rw [hevents, List.map_singleton, List.mem_singleton] at hi
  exact ⟨hook, _, by rw [hi, htype]⟩

/-- What the events of accepted calls propose, bounded by a state that only some hooks stay
    below. -/
theorem hookEvents_le_iff {bound : AgentState} {hooks : List String}
    (hbound : ∀ hook message r,
      stateFromEvent (hookEventType hook message) r ≤ bound ↔ hook ∈ hooks)
    {calls : List HookCall} (hok : ∀ c ∈ calls, c.Accepted) :
    (∀ i ∈ hookEvents calls, proposedBy i.1 ≤ bound) ↔ ∀ c ∈ calls, c.IsOneOf hooks := by
  induction calls with
  | nil => simp [hookEvents]
  | cons c calls ih =>
    rw [List.forall_mem_cons] at hok ⊢
    obtain ⟨hook, ev, hhook, hevents, -, -, htype⟩ := HookCall.events_of_accepted hok.1
    have hfirst : proposedBy ev ≤ bound ↔ c.IsOneOf hooks := by
      rw [proposedBy, htype, hbound, HookCall.IsOneOf, hhook]
      simp
    rw [hookEvents, List.flatMap_cons, hevents, ← hookEvents, ← hfirst, ← ih hok.2]
    simp

/-- The engine after some calls has ingested their events. -/
theorem ingestHooks_eq (e : StateEngine) (calls : List HookCall) :
    ingestHooks e calls =
      exec engineStep e ((hookEvents calls).map fun i => .ingest i.1 i.2) := by
  rw [ingestHooks, hookEvents, List.map_flatMap]
  simp only [List.map_map, Function.comp_def]

/-- **Run lemma.** The calls of a new session write to its state one after the other. -/
theorem getState_ingestHooks {e : StateEngine} {sid : String} (hnew : e.sessions[sid]? = none)
    {calls : List HookCall} (hsid : ∀ c ∈ calls, c.sessionId = sid)
    (hok : ∀ c ∈ calls, c.Accepted) (hids : (calls.map fun c => c.env.eventId).Nodup)
    (hne : hookEvents calls ≠ []) :
    (ingestHooks e calls).getState sid =
      some (((hookEvents calls).map fun i => eventWrite i.1).foldl Write.apply .idle) := by
  obtain ⟨hown, hevents⟩ := hookEvents_own hsid hok
  have hview : (e.view sid).session = none := hnew
  have hseen : (e.view sid).seen = ∅ := by simp [SessionView.seen, hview]
  have hstate : (e.view sid).state = .idle := by simp [SessionView.state, hview]
  have hfresh : AllFresh (e.view sid).seen ((hookEvents calls).map Prod.fst) := by
    refine ⟨?_, by simp [hseen]⟩
    rw [List.map_map]
    exact hevents ▸ hids
  rw [ingestHooks_eq, getState_exec_ingests e sid _ hown hfresh (Or.inr hne), hstate]

/-- A last call that raises to a bound shows exactly if the calls before it stayed below. -/
theorem getState_concat_iff {bound : AgentState} {hooks : List String}
    (hidle : .idle ≤ bound) (hresult : bound ≤ .result)
    (hbound : ∀ hook message r,
      stateFromEvent (hookEventType hook message) r ≤ bound ↔ hook ∈ hooks)
    {e : StateEngine} {sid : String} (hnew : e.sessions[sid]? = none)
    {calls : List HookCall} {last : HookCall} {hook : String} (hhook : last.hook = some hook)
    (hlast : ∀ message r, writeOf (hookEventType hook message) r = .raise bound)
    (hsid : ∀ c ∈ calls ++ [last], c.sessionId = sid)
    (hok : ∀ c ∈ calls ++ [last], c.Accepted)
    (hids : ((calls ++ [last]).map fun c => c.env.eventId).Nodup) :
    (ingestHooks e (calls ++ [last])).getState sid = some bound ↔
      ∀ c ∈ calls, c.IsOneOf hooks := by
  have hokCalls : ∀ c ∈ calls, c.Accepted := fun c hc => hok c (List.mem_append_left _ hc)
  obtain ⟨hook', ev, hhook', hev, -, -, htype⟩ := HookCall.events_of_accepted (hok last (by simp))
  obtain rfl : hook = hook' := Option.some.inj (hhook.symm.trans hhook')
  have hevents : hookEvents (calls ++ [last]) = hookEvents calls ++ [(ev, last.now)] := by
    rw [hookEvents, List.flatMap_append, ← hookEvents]
    simp [hev]
  have hwrite : eventWrite ev = .raise bound := by rw [eventWrite, htype, hlast]
  -- the last raise shows exactly if the register is not above it before
  rw [getState_ingestHooks hnew hsid hok hids (by simp [hevents]), hevents, List.map_append,
    List.foldl_append, Option.some.injEq, List.map_singleton, List.foldl_cons, List.foldl_nil,
    hwrite]
  show max _ bound = bound ↔ _
  rw [max_eq_right_iff, foldl_write_le_iff hidle, ← hookEvents_le_iff hbound hokCalls,
    List.forall_mem_map]
  · simp only [eventWrite_value]
  · -- a forced event is above `result`, so above the bound
    intro w hw hset
    obtain ⟨i, hi, rfl⟩ := List.mem_map.mp hw
    obtain ⟨hook, message, htype⟩ := eventType_of_mem_hookEvents hokCalls hi
    rw [eventWrite_isSet, isForced, htype] at hset
    rw [eventWrite_value, proposedBy, htype]
    exact lt_of_le_of_lt hresult (result_lt_of_forced hook message _ hset)

/-- **When turn boundaries show.** For every sequence of hook calls of a new session that
    the adapter accepts, with ids of their own, ingested in order: a final `UserPromptSubmit`
    leaves the session in `working` and a final `Stop` leaves it in `result` if and only if
    the calls before it were quiet. -/
theorem boundaryShown_iff (e : StateEngine) (sid : String) (hnew : e.sessions[sid]? = none)
    (calls : List HookCall) (hsid : ∀ c ∈ calls, c.sessionId = sid)
    (hok : ∀ c ∈ calls, c.Accepted) (hids : (calls.map fun c => c.env.eventId).Nodup) :
    BoundaryShown calls ((ingestHooks e calls).getState sid) ↔ QuietBefore calls := by
  rcases List.eq_nil_or_concat' calls with rfl | ⟨before, last, rfl⟩
  · simp [BoundaryShown, QuietBefore]
  · have hlast : (before ++ [last]).getLast? = some last := List.getLast?_concat
    have hbegin : last.hook = some "UserPromptSubmit" →
        ((ingestHooks e (before ++ [last])).getState sid = some .working ↔
          ∀ c ∈ before, c.IsOneOf quietHooks) := fun hhook =>
      getState_concat_iff (by decide) (by decide) proposed_le_working_iff hnew hhook
        (fun _ _ => rfl) hsid hok hids
    have hend : last.hook = some "Stop" →
        ((ingestHooks e (before ++ [last])).getState sid = some .result ↔
          ∀ c ∈ before, c.IsOneOf ("Stop" :: quietHooks)) := fun hhook =>
      getState_concat_iff (by decide) le_rfl proposed_le_result_iff hnew hhook
        (fun _ _ => rfl) hsid hok hids
    unfold BoundaryShown QuietBefore
    rw [hlast, List.dropLast_concat]
    simp only [Option.mem_def, Option.some.injEq, forall_eq']
    exact and_congr (imp_congr_right hbegin) (imp_congr_right hend)

/-- The call of a hook in session `s`, with an id and a time of its own. -/
def HookCall.simple (hook : String) (n : Nat) : HookCall where
  payload := .object [("session_id", .string "s"), ("hook_event_name", .string hook)]
  env :=
    { eventId := n, fallbackId := 0, timestamp := n
      tmuxPane := none, tty := none, sshTty := none, termProgram := none }
  now := n

/-- A whole turn, from its beginning to its end. -/
theorem boundaryShown_turn :
    (ingestHooks .new [.simple "UserPromptSubmit" 1, .simple "PreToolUse" 2,
      .simple "PostToolUse" 3, .simple "Stop" 4]).getState "s" = some .result := by
  have h := boundaryShown_iff .new "s" (by decide) [.simple "UserPromptSubmit" 1,
    .simple "PreToolUse" 2, .simple "PostToolUse" 3, .simple "Stop" 4] (by decide)
    (by decide) (by decide)
  have hquiet : QuietBefore [.simple "UserPromptSubmit" 1, .simple "PreToolUse" 2,
      .simple "PostToolUse" 3, .simple "Stop" 4] := by
    unfold QuietBefore
    decide
  exact (h.mpr hquiet (.simple "Stop" 4) rfl).2 rfl

/-- A prompt after a finished turn does not show: the session stays in `result`. -/
theorem not_boundaryShown_secondTurn :
    let calls : List HookCall := [.simple "Stop" 1, .simple "UserPromptSubmit" 2]
    (∀ c ∈ calls, c.sessionId = "s") ∧ (∀ c ∈ calls, c.Accepted) ∧
      (calls.map fun c => c.env.eventId).Nodup ∧
      (ingestHooks .new calls).getState "s" = some .result ∧
      ¬ BoundaryShown calls ((ingestHooks .new calls).getState "s") := by
  unfold BoundaryShown
  decide

end AgentTermStatus
