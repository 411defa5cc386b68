import AgentTermStatus.Cli.HookCommands
import AgentTermStatus.StateEngine.Evidence
import AgentTermStatus.Wire.RoundTrip

namespace AgentTermStatus

open Lib StateEngine

/-!
# Manual events and resets

`ats event STATE` and `ats reset` each send the daemon one event, as any provider would.  So what
they do is what the state machine does with that event, in that session and in no other.

* `manual_event_iff` — when a manual event leaves its session in the state it asks for: the state
  machine has rules of its own, and for some states the command picks an event that proposes
  another one;
* `reset_all_iff` — when `ats reset --all` leaves no session active: the event it sends is one of
  the session named `all`.
-/

/-! ### The events the commands send -/

/-- What a command reads besides its arguments. -/
structure CliEnv where
  /-- The id generated for the event. -/
  eventId : Uuid
  /-- The clock reading. -/
  timestamp : DateTime
  /-- The variable `TTY`. -/
  tty : Option String
  /-- The variable `TERM_PROGRAM`. -/
  termProgram : Option String
  /-- The variable `TMUX_PANE`. -/
  tmuxPane : Option String

/-- The event type sent for a state. -/
def stateToEventType : AgentState → EventType
  | .working   => .agentWorking
  | .attention => .agentWaiting
  | .risk      => .agentFailed
  | .result    => .agentCompleted
  | .error     => .agentFailed
  | .unknown   => .agentFailed
  | .idle      => .sessionStopped

/-- The event of `ats event`. -/
def buildManualEvent (env : CliEnv) (state : AgentState) (activityLabel sessionId : Option String) :
    NormalizedEvent where
  schemaVersion := "1.0"
  eventId := env.eventId
  timestamp := env.timestamp
  provider := "cli"
  providerVersion := none
  eventType := stateToEventType state
  session :=
    { id := sessionId.getD "default"
      parentId := none
      workspace := none
      terminal := some
        { tty := env.tty, termProgram := env.termProgram, tmuxPane := env.tmuxPane } }
  activity := activityLabel.map fun label =>
    { category := .unknown, label := some (ActivityLabel.new label), toolName := none
      risk := none }
  metadata := ∅

/-- The session `ats reset` is about. -/
def resetTarget (all : Bool) (sessionId : Option String) : Option String :=
  if all then some "all" else sessionId

/-- The event of `ats reset`. -/
def resetEvent (env : CliEnv) (target : String) : NormalizedEvent where
  schemaVersion := "1.0"
  eventId := env.eventId
  timestamp := env.timestamp
  provider := "cli"
  providerVersion := none
  eventType := .sessionTimeout
  session := { id := target, parentId := none, workspace := none, terminal := none }
  activity := some
    { category := .unknown, label := some (ActivityLabel.new "reset"), toolName := none
      risk := none }
  metadata := ∅

/-- Does the daemon take the payload? -/
def frameSent {ω : Type} (W : Writer ω) (daemon : Option ω) (payload : List UInt8) : Bool :=
  (daemon.map fun w => (writeFrameSync W w payload).2.isOk).getD false

/-- Runs `ats reset`: the daemon after it, and the message. -/
def runReset {ω : Type} (F : TextForms) (W : Writer ω) (env : CliEnv) (all : Bool)
    (sessionId : Option String) (daemon : Option ω) : Option ω × String :=
  match resetTarget all sessionId with
  | none => (daemon, "Specify --all or --session <id>")
  | some target =>
    let payload := encodePayload F (resetEvent env target)
    (sendFrameToDaemon W daemon payload,
      if frameSent W daemon payload then "Reset sent: " ++ target
      else "Daemon not reachable. Nothing to reset.")

/-- `ats reset --all` sends the frame of one event, whatever session is named besides. -/
theorem runReset_all {ω : Type} (F : TextForms) (W : Writer ω) (env : CliEnv)
    (sessionId : Option String) (daemon : Option ω) :
    (runReset F W env true sessionId daemon).1 =
      sendFrameToDaemon W daemon (encodePayload F (resetEvent env "all")) := rfl

/-! ### Delivering an event -/

/-- The broker after it received the payload of an event. -/
def deliver (F : TextForms) (b : Broker) (event : NormalizedEvent) : Broker :=
  (b.bufferEvent (decodePayload F) (encodePayload F event)).1

/-- An event without metadata is delivered as it is. -/
theorem deliver_eq_push {F : TextForms} {event : NormalizedEvent} (hF : F.ReadsBack event)
    (hmetadata : event.metadata = ∅) (b : Broker) : deliver F b event = b.push event := by
  have hshallow : Shallow event := by
    intro k v hk
    rw [hmetadata] at hk
    exact absurd hk (by simp)
  rw [deliver, Broker.bufferEvent, decodePayload_encodePayload hF hshallow]

/-! ### Manual events -/

/-- A manual event for the state `s` takes effect in a session that is in the state `current`. -/
def TakesEffect (s current : AgentState) : Prop :=
  match s with
  -- these compete with the current state by priority
  | .working   => current ≤ .working
  | .result    => current ≤ .result
  | .idle      => current ≤ .idle
  -- this one is forced
  | .error     => True
  -- for these the command sends events that propose `working` and `error`
  | .attention => current = .attention
  | .risk      => False
  | .unknown   => False

instance (current : AgentState) : (s : AgentState) → Decidable (TakesEffect s current)
  | .working   => inferInstanceAs (Decidable (current ≤ .working))
  | .result    => inferInstanceAs (Decidable (current ≤ .result))
  | .idle      => inferInstanceAs (Decidable (current ≤ .idle))
  | .error     => inferInstanceAs (Decidable True)
  | .attention => inferInstanceAs (Decidable (current = .attention))
  | .risk      => inferInstanceAs (Decidable False)
  | .unknown   => inferInstanceAs (Decidable False)

/-- The command's map from states to events, after the machine's map from events to states. -/
theorem apply_stateToEventType_eq_iff (s current : AgentState) :
    Write.apply current (writeOf (stateToEventType s) false) = s ↔ TakesEffect s current := by
  cases s <;> cases current <;> decide

/-- **When a manual event takes effect.** Let the broker hold no event of the session that is later
    than the manual event, and the id of that be new.  Once it is delivered and drained, the
    session is in the state it asks for if and only if it takes effect in the state the session
    was in. -/
theorem manual_event_iff (F : TextForms) (env : CliEnv) (s : AgentState)
    (activityLabel sessionId : Option String)
    (hF : F.ReadsBack (buildManualEvent env s activityLabel sessionId)) {b : Broker}
    {waiting : List NormalizedEvent} (hb : b.Holds waiting)
    (hlast : ∀ ev ∈ Broker.eventsOf (sessionId.getD "default") waiting,
      ev.timestamp ≤ env.timestamp)
    (hfresh : env.eventId ∉ (b.settled (sessionId.getD "default")).seen)
    (now : DateTime) {sessions : List String}
    (hsessions : Enumerates sessions
      (deliver F b (buildManualEvent env s activityLabel sessionId)).pending) :
    ((deliver F b (buildManualEvent env s activityLabel sessionId)).drainAndProcess now
        sessions).1.stateEngine.getState (sessionId.getD "default") = some s ↔
      TakesEffect s (b.settled (sessionId.getD "default")).state := by
  have hrisk : isRiskEvent (buildManualEvent env s activityLabel sessionId) = false := by
    cases activityLabel <;> rfl
  have hwrite : eventWrite (buildManualEvent env s activityLabel sessionId) =
      writeOf (stateToEventType s) false := by rw [eventWrite, hrisk]; rfl
  obtain ⟨hstate, -, -⟩ := sessionStep_fresh (b.settled (sessionId.getD "default"))
    (buildManualEvent env s activityLabel sessionId) hfresh
  rw [hwrite] at hstate
  rw [deliver_eq_push hF rfl] at hsessions ⊢
  rw [← apply_stateToEventType_eq_iff, ← hstate]
  -- the manual event is the last one its session ingests
  have hview := (hb.push _).view_drain now hsessions (sessionId.getD "default")
  have hsettled := hb.settled_push_self (buildManualEvent env s activityLabel sessionId)
    hlast
  show (StateEngine.view _ _).session.map SessionState.state = some s ↔ _
  rw [hview.trans hsettled]
  exact Option.some_inj

/-- A session starts working. -/
def startedRun : List EngineOp := [.ingest (.bare 1 .agentStarted "s" 0) 0]

/-- The broker over it, with nothing buffered. -/
def startedBroker : Broker := .new (exec engineStep StateEngine.new startedRun)

/-- A call of a command outside any terminal. -/
def plainEnv : CliEnv where
  eventId := 2
  timestamp := 0
  tty := none
  termProgram := none
  tmuxPane := none

/-- The manual event for a state of the session. -/
def manualEvent (s : AgentState) : NormalizedEvent := buildManualEvent plainEnv s none (some "s")

/-- Its text. -/
def manualEventText (s : AgentState) : String :=
  "\x7b\"schema_version\":\"1.0\",\"event_id\":\"00000000-0000-0000-0000-000000000002\"," ++
    "\"timestamp\":\"1970-01-01T00:00:00Z\",\"provider\":\"cli\",\"provider_version\":null," ++
    "\"event_type\":\"" ++ eventTypeName (stateToEventType s) ++ "\"," ++
    "\"session\":\x7b\"id\":\"s\",\"parent_id\":null,\"workspace\":null," ++
    "\"terminal\":\x7b\"tty\":null,\"term_program\":null,\"tmux_pane\":null\x7d\x7d," ++
    "\"activity\":null,\"metadata\":\x7b\x7d\x7d"

/-- Text forms that know this event. -/
def manualForms (s : AgentState) : TextForms :=
  oneEventForms (manualEvent s) "1970-01-01T00:00:00Z" (textBytes (manualEventText s))

theorem manualForms_readsBack (s : AgentState) : (manualForms s).ReadsBack (manualEvent s) :=
  oneEventForms_readsBack _ _ _

/-- A manual `attention` leaves a working session working. -/
theorem manual_attention_shows_working :
    ¬ ∀ (F : TextForms) (env : CliEnv) (s : AgentState) (activityLabel sessionId : Option String)
        (ops : List EngineOp) (now : DateTime) (sessions : List String),
      F.ReadsBack (buildManualEvent env s activityLabel sessionId) →
      EngineRun StateEngine.new ops →
      Fresh (exec engineStep StateEngine.new ops)
        (buildManualEvent env s activityLabel sessionId) →
      Enumerates sessions (deliver F (.new (exec engineStep StateEngine.new ops))
        (buildManualEvent env s activityLabel sessionId)).pending →
      ((deliver F (.new (exec engineStep StateEngine.new ops))
        (buildManualEvent env s activityLabel sessionId)).drainAndProcess now
          sessions).1.stateEngine.getState (sessionId.getD "default") = some s := by
  intro hall
  -- of the text it counts only that the event is read back from it
  have hforms := manualForms_readsBack .attention
  generalize manualForms .attention = F at hforms
  have hdelivered : deliver F startedBroker (manualEvent .attention) =
      startedBroker.push (manualEvent .attention) := deliver_eq_push hforms rfl startedBroker
  have hpending : Enumerates ["s"]
      (deliver F startedBroker (manualEvent .attention)).pending := by
    rw [hdelivered]
    decide
  have hshown : ((deliver F startedBroker (manualEvent .attention)).drainAndProcess 1
      ["s"]).1.stateEngine.getState "s" = some .attention :=
    hall F plainEnv .attention none (some "s") startedRun 1 ["s"] hforms (by decide) (by decide)
      hpending
  rw [hdelivered] at hshown
  exact absurd hshown (by decide)

/-- A manual `result` shows over a working session. -/
theorem manual_event_iff_result :
    ((deliver (manualForms .result) startedBroker (manualEvent .result)).drainAndProcess 1
      ["s"]).1.stateEngine.getState "s" = some .result := by
  have hforms := manualForms_readsBack .result
  generalize manualForms .result = F at hforms ⊢
  have hpending : Enumerates ["s"]
      (deliver F startedBroker (manualEvent .result)).pending := by
    rw [deliver_eq_push hforms rfl]
    decide
  exact (manual_event_iff F plainEnv .result none (some "s") hforms (Broker.holds_new _) (by simp)
    (by decide) 1 hpending).mpr (by decide)

/-! ### Resets -/

/-- The state is one that a reset clears away. -/
def IsActive (st : AgentState) : Prop := st ≠ .idle ∧ st ≠ .unknown

instance (st : AgentState) : Decidable (IsActive st) := inferInstanceAs (Decidable (_ ∧ _))

/-- A reset of all sessions is done: none is active, and there is none that was not there
    before. -/
structure AllReset (before after : StateEngine) : Prop where
  inactive : ∀ id : String, ∀ st ∈ after.getState id, ¬ IsActive st
  none_created : ∀ id : String, before.getState id = none → after.getState id = none

/-- The event is fresh and takes an active session out of its state: only a time-out does. -/
def Clears (v : SessionView) (ev : NormalizedEvent) : Prop :=
  ev.eventId ∉ v.seen ∧ ev.eventType = .sessionTimeout

/-- The event is a duplicate, or proposes no active state. -/
def StaysQuiet (v : SessionView) (ev : NormalizedEvent) : Prop :=
  ev.eventId ∉ v.seen → ¬ IsActive (proposedBy ev)

/-- Of the events that wait for a session no fresh one proposes an active state after the last
    time-out, or at all if there is none and the session is not active. -/
def EndsQuiet (v : SessionView) (evs : List NormalizedEvent) : Prop :=
  Since sessionStep Clears StaysQuiet v evs ∨
    ¬ IsActive v.state ∧ Along sessionStep StaysQuiet v evs

/-- Where the event of `ats reset --all` is all that is needed. -/
structure ResetReaches (b : Broker) (reset : NormalizedEvent) : Prop where
  /-- Every other session is not active, or what waits for it clears it. -/
  others : ∀ id ≠ "all", EndsQuiet (b.stateEngine.view id) (b.batch id)
  /-- Nothing waits for a session that is not there. -/
  known : ∀ id : String, b.stateEngine.getState id = none → (b.pending[id]?).getD [] = []
  /-- A session named `all` is there. -/
  all_known : b.stateEngine.getState "all" ≠ none
  /-- Nothing that waits for it makes it active again after the reset. -/
  all_quiet : EndsQuiet (b.stateEngine.view "all") ((b.push reset).batch "all")

/-! ### When a session ends up inactive -/

/-- Only a time-out takes a session out of the active states, and an event that proposes an active
    state takes it there. -/
theorem apply_inactive_iff (s : AgentState) (ev : NormalizedEvent) :
    ¬ IsActive (Write.apply s (eventWrite ev)) ↔
      ev.eventType = .sessionTimeout ∨ ¬ IsActive s ∧ ¬ IsActive (proposedBy ev) := by
  by_cases h : isForced ev = true
  · have hp := proposedBy_ne_idle_of_forced h
    have hunknown : ¬ IsActive (proposedBy ev) ↔ proposedBy ev = .unknown := by
      rw [IsActive, not_and, not_not]
      exact ⟨fun himp => himp hp, fun heq _ => heq⟩
    rw [apply_eventWrite_of_forced s h, hunknown, proposedBy_eq_unknown_iff]
    exact ⟨Or.inl, fun hor => hor.elim id And.right⟩
  · have hp := proposedBy_ne_unknown_of_not_forced h
    rw [apply_eventWrite_of_not_forced s h, ← proposedBy_eq_unknown_iff, or_iff_right hp]
    generalize proposedBy ev = p at hp
    cases s <;> cases p <;> revert hp <;> decide

/-- **Step lemma.** When a session is not active after one of its events. -/
theorem sessionStep_inactive_iff (v : SessionView) (ev : NormalizedEvent) :
    ¬ IsActive (sessionStep v ev).1.state ↔
      Clears v ev ∨ ¬ IsActive v.state ∧ StaysQuiet v ev := by
  rw [Clears, StaysQuiet]
  by_cases hseen : ev.eventId ∈ v.seen
  · have hsame : (sessionStep v ev).1.state = v.state := by
      obtain ⟨hstate, hids⟩ := v.current_state ev
      show (v.after ev).state = v.state
      rw [SessionView.after, SessionState.apply_of_seen _ _ _ _ _ (by rwa [hids]), hstate]
    simp [hsame, hseen]
  · rw [(sessionStep_fresh v ev hseen).1, apply_inactive_iff]
    simp [hseen]

/-- **Run lemma.** When a session is not active after some of its events. -/
theorem endsQuiet_iff (v : SessionView) (evs : List NormalizedEvent) :
    ¬ IsActive (exec sessionStep v evs).state ↔ EndsQuiet v evs := by
  refine (along_of_forall (fun _ _ => trivial) v evs).since_or_iff
    (fun evs => ¬ IsActive (exec sessionStep v evs).state) fun evs ev _ _ => ?_
  rw [exec_append]
  exact sessionStep_inactive_iff _ ev

/-- The state shown for a session is not active. -/
theorem forall_state_iff (v : SessionView) :
    (∀ st ∈ v.session.map SessionState.state, ¬ IsActive st) ↔ ¬ IsActive v.state := by
  unfold SessionView.state
  cases v.session with
  | none   => simp [IsActive]
  | some s => simp

/-- A session is there once its buffer is drained exactly if it was there before, or something
    waited for it. -/
theorem settled_session_eq_none_iff (b : Broker) (id : String) :
    (b.settled id).session = none ↔
      b.stateEngine.getState id = none ∧ (b.pending[id]?).getD [] = [] := by
  have hview : (b.stateEngine.view id).session = none ↔ b.stateEngine.getState id = none := by
    rw [getState, Option.map_eq_none_iff]
    rfl
  have hbatch : b.batch id = [] ↔ (b.pending[id]?).getD [] = [] := by
    rw [Broker.batch, List.map_eq_nil_iff, ← List.length_eq_zero_iff,
      (sortByKey_perm _ _).length_eq, List.length_eq_zero_iff]
  rw [← hview, ← hbatch, Broker.settled]
  refine ⟨fun hnone => ?_, ?_⟩
  · -- a session that is there, or an event of it, leaves a session
    by_contra hsome
    have hstate := exec_sessionStep_session (b.stateEngine.view id) (b.batch id) (by
      rw [← Option.not_isSome_iff_eq_none] at hsome
      tauto)
    simp [hnone] at hstate
  · rintro ⟨hnone, hempty⟩
    rw [hempty]
    exact hnone

/-- **When `ats reset --all` resets all sessions.** Once its event is delivered and drained, no
    session is active and none is new if and only if a session named `all` is there, which nothing
    that waits makes active again after the reset, every other session is inactive or cleared by
    what waits for it, and nothing waits for one that is not there. -/
theorem reset_all_iff (F : TextForms) (env : CliEnv) (hF : F.ReadsBack (resetEvent env "all"))
    {b : Broker} {waiting : List NormalizedEvent} (hb : b.Holds waiting) (now : DateTime)
    {sessions : List String}
    (hsessions : Enumerates sessions (deliver F b (resetEvent env "all")).pending) :
    AllReset b.stateEngine ((deliver F b (resetEvent env "all")).drainAndProcess now
        sessions).1.stateEngine ↔
      ResetReaches b (resetEvent env "all") := by
  rw [deliver_eq_push hF rfl] at hsessions ⊢
  have hstate : ∀ id, ((b.push (resetEvent env "all")).drainAndProcess now
      sessions).1.stateEngine.getState id =
        ((b.push (resetEvent env "all")).settled id).session.map SessionState.state := by
    intro id
    rw [← (hb.push _).view_drain now hsessions id]
    rfl
  -- the reset is an event of the session `all`, and of no other
  have hother : ∀ id ≠ "all", (b.push (resetEvent env "all")).settled id = b.settled id :=
    fun id hid => hb.settled_push_ne (Ne.symm hid)
  have hall : ((b.push (resetEvent env "all")).settled "all").session ≠ none := by
    rw [ne_eq, settled_session_eq_none_iff, push_pending]
    simp [resetEvent]
  have hquiet : ∀ id, (∀ st ∈ ((b.push (resetEvent env "all")).drainAndProcess now
      sessions).1.stateEngine.getState id, ¬ IsActive st) ↔
        EndsQuiet (b.stateEngine.view id) ((b.push (resetEvent env "all")).batch id) := by
    intro id
    rw [hstate, forall_state_iff, ← endsQuiet_iff]
    rfl
  have hquietOther : ∀ id ≠ "all",
      EndsQuiet (b.stateEngine.view id) ((b.push (resetEvent env "all")).batch id) ↔
        EndsQuiet (b.stateEngine.view id) (b.batch id) := by
    intro id hid
    rw [← endsQuiet_iff, ← endsQuiet_iff]
    show ¬ IsActive ((b.push (resetEvent env "all")).settled id).state ↔
      ¬ IsActive (b.settled id).state
    rw [hother id hid]
  refine ⟨?_, fun h => ⟨fun id => (hquiet id).mpr ?_, fun id hnone => ?_⟩⟩
  · rintro ⟨hinactive, hcreated⟩
    simp only [hstate, Option.map_eq_none_iff] at hcreated
    refine ⟨fun id hid => ?_, fun id hnone => ?_, fun hnone => hall (hcreated _ hnone), ?_⟩
    · exact (hquietOther id hid).mp ((hquiet id).mp (hinactive id))
    · by_cases hid : id = "all"
      · exact absurd (hcreated id hnone) (hid ▸ hall)
      · have hsettled := hcreated id hnone
        rw [hother id hid, settled_session_eq_none_iff] at hsettled
        exact hsettled.2
    · exact (hquiet "all").mp (hinactive "all")
  · by_cases hid : id = "all"
    · rw [hid]
      exact h.all_quiet
    · exact (hquietOther id hid).mpr (h.others id hid)
  · have hid : id ≠ "all" := fun heq => h.all_known (heq ▸ hnone)
    rw [hstate, hother id hid, Option.map_eq_none_iff, settled_session_eq_none_iff]
    exact ⟨hnone, h.known id hnone⟩

/-- A new reset that is not older than what waits for the session named `all` quiets it. -/
theorem reset_quiets_all (env : CliEnv) {b : Broker} {waiting : List NormalizedEvent}
    (hb : b.Holds waiting)
    (hlast : ∀ ev ∈ Broker.eventsOf "all" waiting, ev.timestamp ≤ env.timestamp)
    (hfresh : env.eventId ∉ (b.settled "all").seen) :
    EndsQuiet (b.stateEngine.view "all") ((b.push (resetEvent env "all")).batch "all") := by
  have hbatch : (b.push (resetEvent env "all")).batch "all" =
      b.batch "all" ++ [resetEvent env "all"] := hb.batch_push_self _ hlast
  rw [hbatch]
  exact Or.inl ((since_concat ..).mpr (Or.inl ⟨hfresh, rfl⟩))

/-- The event of `ats reset --all`. -/
def plainReset : NormalizedEvent := resetEvent plainEnv "all"

/-- Its text. -/
def plainResetText : String :=
  "\x7b\"schema_version\":\"1.0\",\"event_id\":\"00000000-0000-0000-0000-000000000002\"," ++
    "\"timestamp\":\"1970-01-01T00:00:00Z\",\"provider\":\"cli\",\"provider_version\":null," ++
    "\"event_type\":\"session.timeout\",\"session\":\x7b\"id\":\"all\",\"parent_id\":null," ++
    "\"workspace\":null\x7d,\"activity\":\x7b\"category\":\"unknown\",\"label\":\"reset\"," ++
    "\"tool_name\":null,\"risk\":null\x7d,\"metadata\":\x7b\x7d\x7d"

/-- Text forms that know this event. -/
def resetForms : TextForms :=
  oneEventForms plainReset "1970-01-01T00:00:00Z" (textBytes plainResetText)

theorem resetForms_readsBack : resetForms.ReadsBack plainReset := oneEventForms_readsBack _ _ _

/-- `ats reset --all` leaves a working session working, and creates a session named `all`. -/
theorem reset_all_misses_session :
    ¬ ∀ (F : TextForms) (env : CliEnv) (b : Broker) (waiting : List NormalizedEvent)
        (now : DateTime) (sessions : List String),
      F.ReadsBack (resetEvent env "all") → b.Holds waiting →
      Enumerates sessions (deliver F b (resetEvent env "all")).pending →
      AllReset b.stateEngine ((deliver F b (resetEvent env "all")).drainAndProcess now
        sessions).1.stateEngine := by
  intro hall
  have hforms := resetForms_readsBack
  generalize resetForms = F at hforms
  have hdelivered : deliver F startedBroker plainReset = startedBroker.push plainReset :=
    deliver_eq_push hforms rfl startedBroker
  have hpending : Enumerates ["all"] (deliver F startedBroker plainReset).pending := by
    rw [hdelivered]
    decide
  have hreset : AllReset startedBroker.stateEngine
      ((deliver F startedBroker plainReset).drainAndProcess 1 ["all"]).1.stateEngine :=
    hall F plainEnv startedBroker [] 1 ["all"] hforms (Broker.holds_new _) hpending
  rw [hdelivered] at hreset
  exact hreset.inactive "s" .working (by decide) (by decide)

/-- It does reset a session that is named `all`. -/
theorem reset_all_iff_named_all :
    let b : Broker := .new (StateEngine.new.ingest (.bare 1 .agentStarted "all" 0) 0).1
    AllReset b.stateEngine
      ((deliver resetForms b plainReset).drainAndProcess 1 ["all"]).1.stateEngine := by
  intro b
  have hb : b.Holds [] := Broker.holds_new _
  have hforms := resetForms_readsBack
  generalize resetForms = F at hforms ⊢
  have hpending : Enumerates ["all"] (deliver F b plainReset).pending := by
    rw [deliver_eq_push hforms rfl]
    decide
  refine (reset_all_iff F plainEnv hforms hb 1 hpending).mpr ?_
  refine ⟨fun id hid => ?_, fun id _ => by simp [b, Broker.new], by decide,
    reset_quiets_all plainEnv hb (by simp) (by decide)⟩
  -- there is no other session, and nothing waits
  have hengine : b.stateEngine.sessions[id]? = none :=
    ingest_session_ne .new (.bare 1 .agentStarted "all" 0) 0 (Ne.symm hid)
  have hidle : (b.stateEngine.view id).state = .idle := by
    rw [SessionView.state, StateEngine.view, hengine]
    rfl
  exact Or.inr ⟨by simp [hidle, IsActive], trivial⟩

end AgentTermStatus
