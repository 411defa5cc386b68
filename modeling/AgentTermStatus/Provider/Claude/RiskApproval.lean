import AgentTermStatus.Provider.Claude.TurnBoundary
import AgentTermStatus.StateEngine.Evidence

namespace AgentTermStatus

open Lib StateEngine ClaudeAdapter

/-!
# High-risk approvals

A high-risk command is met by two hooks.  `PreToolUse` sees the command and puts its risk on a
`toolStarted` event, which proposes `working` whatever its risk; the notification that asks for
the approval proposes `attention`, or `risk` if its own activity is marked, and the adapter
marks no notification.  So no event of the adapter proposes `risk` (`proposedBy_ne_risk`).

* `never_risk` — no sequence of hook calls takes a session to `risk`;
* `risky_approval_not_shown` — one that ends with a high-risk command and the request to approve
  it does not either: it ends in `attention` if the request is accepted and new.
-/

namespace HookCall

/-- The tool a call is about. -/
def toolName (c : HookCall) : Option String := (c.payload.get "tool_name").bind Json.asStr

/-- The command a call is about. -/
def command (c : HookCall) : Option String := c.payload.asObject.bind toolInputCommand

/-- The call announces a command of `Bash` that the classifier rates high or critical. -/
def AnnouncesRisk (c : HookCall) : Prop :=
  c.hook = some "PreToolUse" ∧ c.toolName = some "Bash" ∧
    ∃ command ∈ c.command, ∃ level ∈ riskClassifier.classify command,
      level = .high ∨ level = .critical

/-- The call is a notification that asks for an approval. -/
def AsksApproval (c : HookCall) : Prop :=
  c.hook = some "Notification" ∧
    classifyNotification (notificationMessage c.payload) = .userApprovalRequired

end HookCall

/-- The calls end with the announcement of a high-risk command and the request to approve it. -/
def EndsInRiskyApproval (calls : List HookCall) : Prop :=
  ∃ before announcement request, calls = before ++ [announcement, request] ∧
    announcement.AnnouncesRisk ∧ request.AsksApproval

/-! ### What the adapter proposes -/

/-- Only an approval request marked as high-risk proposes `risk`. -/
theorem stateFromEvent_eq_risk_iff (t : EventType) (r : Bool) :
    stateFromEvent t r = .risk ↔ t = .userApprovalRequired ∧ r = true := by
  cases t <;> cases r <;> decide

/-- The adapter marks no approval request as high-risk. -/
theorem isRiskEvent_of_approval {env : ParseEnv} {input : Json} {events : List NormalizedEvent}
    (h : parse env input = .ok events) :
    ∀ ev ∈ events, ev.eventType = .userApprovalRequired → isRiskEvent ev = false := by
  unfold parse at h
  cases hobj : input.asObject with
  | none => simp [hobj] at h
  | some obj =>
    simp only [hobj] at h
    cases hhook : strField obj "hook_event_name" with
    | none => simp [hhook] at h
    | some hook =>
      simp only [hhook] at h
      split at h
      case h_6 =>
        -- the activity of a notification has no risk
        split at h
        · exact absurd h (by simp)
        · obtain rfl := ParseOutcome.ok.inj h
          intro ev hev _
          rw [List.mem_singleton.mp hev]
          rfl
      all_goals
        -- the other hooks give events of other types
        obtain rfl := ParseOutcome.ok.inj h
        intro ev hev htype
        rw [List.mem_singleton.mp hev] at htype
        exact absurd htype (by simp)

/-- **No event of the adapter proposes `risk`.** -/
theorem proposedBy_ne_risk (c : HookCall) : ∀ ev ∈ c.events, proposedBy ev ≠ .risk := by
  intro ev hev hrisk
  rw [proposedBy, stateFromEvent_eq_risk_iff] at hrisk
  unfold HookCall.events at hev
  split at hev
  · next events hparse =>
    exact absurd hrisk.2 (by simp [isRiskEvent_of_approval hparse ev hev hrisk.1])
  · exact absurd hev List.not_mem_nil

/-! ### Runs of hook calls -/

/-- **Step lemma.** An event that does not propose `risk` takes no session there. -/
theorem ingest_ne_risk {e : StateEngine} {sid : String} (h : e.getState sid ≠ some .risk)
    {ev : NormalizedEvent} (hev : proposedBy ev ≠ .risk) (now : DateTime) :
    (e.ingest ev now).1.getState sid ≠ some .risk := by
  by_cases hid : ev.session.id = sid
  · subst hid
    have hfor : (e.sessionFor ev now).state ≠ .risk := by
      rw [(sessionFor_view e ev now).1, (SessionView.current_state _ ev).1]
      exact view_state_ne h (by decide)
    rw [getState, ingest_session_self, Option.map_some, ne_eq, Option.some.injEq, sessionAfter]
    by_cases hseen : ev.eventId ∈ (e.sessionFor ev now).seenEventIds
    · rwa [SessionState.apply_of_seen _ _ _ _ _ hseen]
    · -- what a fresh event writes is the old state, or what it proposes
      rw [(SessionState.apply_of_fresh _ _ _ _ _ hseen).1, SessionState.nextState]
      rcases Write.apply_eq_or (e.sessionFor ev now).state
        (writeOf ev.eventType (isRiskEvent ev)) with hwrite | hwrite
      · rwa [hwrite]
      · rw [hwrite, writeOf_value]
        exact hev
  · rwa [getState, ingest_session_ne e ev now hid]

/-- **Run lemma.** No sequence of hook calls takes a session to `risk`. -/
theorem never_risk {e : StateEngine} {sid : String} (h : e.getState sid ≠ some .risk)
    (calls : List HookCall) : (ingestHooks e calls).getState sid ≠ some .risk := by
  have hops : ∀ op ∈ calls.flatMap fun c => c.events.map fun ev => EngineOp.ingest ev c.now,
      ∃ ev now, op = .ingest ev now ∧ proposedBy ev ≠ .risk := by
    intro op hop
    obtain ⟨c, -, hop⟩ := List.mem_flatMap.mp hop
    obtain ⟨ev, hev, rfl⟩ := List.mem_map.mp hop
    exact ⟨ev, c.now, rfl, proposedBy_ne_risk c ev hev⟩
  refine ((along_of_forall (fun _ _ => trivial) e _).and_of_mem hops).exec_inv
    (fun e => e.getState sid ≠ some .risk) ?_ h
  rintro e op ⟨-, ev, now, rfl, hev⟩ he
  exact ingest_ne_risk he hev now

/-- The calls before the last one, and then the events of the last one. -/
theorem ingestHooks_concat (e : StateEngine) (calls : List HookCall) (c : HookCall) :
    ingestHooks e (calls ++ [c]) =
      exec engineStep (ingestHooks e calls) (c.events.map fun ev => .ingest ev c.now) := by
  rw [ingestHooks, List.flatMap_append, exec_append, List.flatMap_singleton, ← ingestHooks]

/-- **A new approval request shows as `attention`**, in a session that is not in `risk`. -/
theorem approval_shows_attention {e : StateEngine} {sid : String}
    (hrisk : e.getState sid ≠ some .risk) {request : HookCall} (hsid : request.sessionId = sid)
    (hasks : request.AsksApproval) (hok : request.Accepted)
    (hfresh : ∀ ev ∈ request.events, Fresh e ev) :
    (exec engineStep e (request.events.map fun ev => .ingest ev request.now)).getState sid
      = some .attention := by
  obtain ⟨hook, ev, hhook, hevents, hsession, -, htype⟩ := HookCall.events_of_accepted hok
  obtain rfl : hook = "Notification" := Option.some.inj (hhook.symm.trans hasks.1)
  have happroval : ev.eventType = .userApprovalRequired := htype.trans hasks.2
  obtain ⟨events, hparse⟩ := hok
  have hunmarked : isRiskEvent ev = false := by
    refine isRiskEvent_of_approval hparse ev ?_ happroval
    have hsame : request.events = events := by rw [HookCall.events, hparse]
    rw [← hsame, hevents]
    exact List.mem_singleton_self ev
  have hwrite : eventWrite ev = .raise .attention := by rw [eventWrite, happroval, hunmarked]; rfl
  have hown : ev.session.id = sid := hsession.trans hsid
  have hone : (exec engineStep e [.ingest ev request.now]).getState sid =
      some (Write.apply (e.view sid).state (eventWrite ev)) :=
    getState_exec_ingests e sid [(ev, request.now)] (by simpa using hown)
      ⟨by simp, by simpa [Fresh, hown] using hfresh ev (by simp [hevents])⟩ (Or.inr (by simp))
  rw [hevents, List.map_singleton, hone, hwrite]
  -- every state but `risk` is raised to `attention`
  have hbelow : (e.view sid).state ≠ .risk := view_state_ne hrisk (by decide)
  generalize (e.view sid).state = st at hbelow ⊢
  cases st <;> first | rfl | exact absurd rfl hbelow

/-- **High-risk approvals are never shown as `risk`.** For every sequence of hook calls of one
    session that was not in `risk` before, which ends with the announcement of a high-risk command
    and the request to approve it, ingested in order: the session is not in `risk`.  If the
    adapter accepts the request and its event is fresh, the session is in `attention`. -/
theorem risky_approval_not_shown (e : StateEngine) (sid : String)
    (hrisk : e.getState sid ≠ some .risk) (calls : List HookCall)
    (hsid : ∀ c ∈ calls, c.sessionId = sid) (hend : EndsInRiskyApproval calls) :
    (ingestHooks e calls).getState sid ≠ some .risk ∧
      ∀ request ∈ calls.getLast?, request.Accepted →
        (∀ ev ∈ request.events, Fresh (ingestHooks e calls.dropLast) ev) →
        (ingestHooks e calls).getState sid = some .attention := by
  refine ⟨never_risk hrisk calls, ?_⟩
  obtain ⟨before, announcement, request, rfl, -, hasks⟩ := hend
  intro last hlast hok hfresh
  rw [List.append_cons before announcement] at hlast hfresh ⊢
  rw [List.getLast?_concat] at hlast
  rw [List.dropLast_concat] at hfresh
  obtain rfl : request = last := Option.some.inj hlast
  rw [ingestHooks_concat]
  exact approval_shows_attention (never_risk hrisk _) (hsid request (by simp)) hasks hok hfresh

/-- A high-risk command, and the request to approve it. -/
def riskyCalls : List HookCall :=
  [{ HookCall.simple "PreToolUse" 1 with
      payload := .object [("session_id", .string "s"), ("hook_event_name", .string "PreToolUse"),
        ("tool_name", .string "Bash"),
        ("tool_input", .object [("command", .string "rm -rf /srv")])] },
    { HookCall.simple "Notification" 2 with
      payload := .object [("session_id", .string "s"), ("hook_event_name", .string "Notification"),
        ("message", .string "Claude needs your permission")] }]

/-- The command is rated high, and the message asks for a permission. -/
theorem riskyCalls_end : EndsInRiskyApproval riskyCalls :=
  ⟨[], _, _, rfl,
    ⟨by decide, by decide, "rm -rf /srv", by decide, .high, by decide +kernel, Or.inl rfl⟩,
    by decide, by decide +kernel⟩

/-- The request to approve the high-risk command leaves the session in `attention`. -/
theorem risky_approval_shown_as_attention :
    ¬ ∀ (e : StateEngine) (sid : String) (calls : List HookCall), e.sessions[sid]? = none →
      (∀ c ∈ calls, c.sessionId = sid) → EndsInRiskyApproval calls →
      (ingestHooks e calls).getState sid = some .risk := by
  intro hall
  have hshown := hall .new "s" riskyCalls (by decide) (by decide) riskyCalls_end
  exact absurd hshown (never_risk (by decide) riskyCalls)

/-- The calls, one after the other, in a new session. -/
theorem risky_approval_not_shown_riskyCalls :
    (ingestHooks .new riskyCalls).getState "s" = some .attention :=
  (risky_approval_not_shown .new "s" (by decide) riskyCalls (by decide) riskyCalls_end).2 _ rfl
    (by decide +kernel) (by decide +kernel)

end AgentTermStatus
