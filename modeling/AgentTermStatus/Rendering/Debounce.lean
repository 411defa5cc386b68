import AgentTermStatus.Daemon.Broker

namespace AgentTermStatus

open Lib

/-!
# Does rate limiting only suppress repeats?

Rate limiting is meant to drop a repeat of what is displayed.  The limiter asks instead
whether the same state of the same session was let through recently, whatever was displayed
since.  So the display falls behind exactly when a state comes back within its cooldown
after another state of its session was asked for (`displayed_eq_requested_iff`).
-/

/-- Every session displays the latest state requested for it. -/
def UpToDate (d : Display) : Prop := ∀ id, d.displayed id = d.requested id

/-- If the limiter suppresses the call, it asks for the state its session asked for last. -/
def RepeatsIfLimited (d : Display) (call : RenderCall) : Prop :=
  d.engine.Limited call → d.requested call.sessionId = some call.view.state

instance (d : Display) (call : RenderCall) : Decidable (RepeatsIfLimited d call) :=
  inferInstanceAs (Decidable (_ → _))

/-- What a call displays and what it asks for. -/
theorem renderStep_display (d : Display) (call : RenderCall) :
    (renderStep d call).1.displayed =
        (if d.engine.Limited call then d.displayed
          else Function.update d.displayed call.sessionId (some call.view.state)) ∧
      (renderStep d call).1.requested =
        Function.update d.requested call.sessionId (some call.view.state) := by
  refine ⟨?_, rfl⟩
  unfold renderStep
  rw [RenderingEngine.isRateLimited_eq]
  by_cases h : d.engine.Limited call
  · simp only [if_pos h, if_true]
  · simp only [if_neg h, Bool.false_eq_true, if_false]

/-- **Step lemma.** A call that is let through or repeats keeps the display up to date. -/
theorem upToDate_step {d : Display} {call : RenderCall} (h : UpToDate d)
    (hcall : RepeatsIfLimited d call) : UpToDate (renderStep d call).1 := by
  obtain ⟨hdisplayed, hrequested⟩ := renderStep_display d call
  intro id
  rw [hdisplayed, hrequested]
  by_cases hlim : d.engine.Limited call
  · -- suppressed: the session goes on showing what is asked for again
    rw [if_pos hlim]
    by_cases hid : id = call.sessionId
    · subst hid
      rw [Function.update_self, h, hcall hlim]
    · rw [Function.update_of_ne hid, h]
  · rw [if_neg hlim]
    by_cases hid : id = call.sessionId
    · subst hid
      rw [Function.update_self, Function.update_self]
    · rw [Function.update_of_ne hid, Function.update_of_ne hid, h]

/-- A call that is suppressed and asks for something new leaves the display behind. -/
theorem not_upToDate_step {d : Display} {call : RenderCall} (h : UpToDate d)
    (hcall : ¬ RepeatsIfLimited d call) : ¬ UpToDate (renderStep d call).1 := by
  obtain ⟨hlim, hnew⟩ := Classical.not_imp.mp hcall
  obtain ⟨hdisplayed, hrequested⟩ := renderStep_display d call
  intro hup
  have heq := hup call.sessionId
  rw [hdisplayed, hrequested, if_pos hlim, Function.update_self, h] at heq
  exact hnew heq

/-- Rendering transitions renders the views of the transitions. -/
theorem dispatchRender_eq_exec (info : SessionTerminal) (d : Display)
    (ts : List (StateTransition × RenderEnv)) :
    dispatchRender info d ts = exec renderStep d (dispatchCalls info ts) := by
  unfold dispatchRender
  induction dispatchCalls info ts generalizing d with
  | nil => rfl
  | cons call calls ih => exact ih _

/-- The calls for transitions of one session ask last for the last new state. -/
theorem requested_dispatchCalls (info : SessionTerminal) (d : Display) (id : String)
    (ts : List (StateTransition × RenderEnv)) (hid : ∀ t ∈ ts, t.1.sessionId = id)
    {last : StateTransition × RenderEnv} (hlast : last ∈ ts.getLast?) :
    (exec renderStep d (dispatchCalls info ts)).requested id = some last.1.new := by
  induction ts generalizing d with
  | nil => simp at hlast
  | cons t ts ih =>
    cases ts with
    | nil =>
      have heq : t = last := by simpa using hlast
      subst heq
      have hsession : t.1.sessionId = id := hid t List.mem_cons_self
      show Function.update d.requested t.1.sessionId (some t.1.new) id = _
      rw [hsession, Function.update_self]
    | cons t' ts =>
      rw [List.getLast?_cons_cons] at hlast
      exact ih _ (fun t ht => hid t (List.mem_cons_of_mem _ ht)) hlast

/-- **When the display keeps up.** Whatever the clock says and the renderers answer: after
    each call the state displayed for every session is the latest one requested for it,
    exactly when every call that the limiter suppresses asks for the state its session
    asked for last.  If so, some transitions of a session, rendered after those calls, end
    with the last new state displayed, provided their calls are of that kind too. -/
theorem displayed_eq_requested_iff (engine : RenderingEngine) (calls : List RenderCall) :
    ((∀ p, p <+: calls → UpToDate (exec renderStep (Display.start engine) p)) ↔
      Along renderStep RepeatsIfLimited (Display.start engine) calls) ∧
    (Along renderStep RepeatsIfLimited (Display.start engine) calls →
      ∀ (info : SessionTerminal) (id : String) (ts : List (StateTransition × RenderEnv)),
        (∀ t ∈ ts, t.1.sessionId = id) →
        Along renderStep RepeatsIfLimited (exec renderStep (Display.start engine) calls)
          (dispatchCalls info ts) →
        ∀ last ∈ ts.getLast?,
          (dispatchRender info (exec renderStep (Display.start engine) calls) ts).displayed id
            = some last.1.new) := by
  have hstart : UpToDate (Display.start engine) := fun _ => rfl
  have hkeep : ∀ d call, RepeatsIfLimited d call → UpToDate d → UpToDate (renderStep d call).1 :=
    fun d call hcall h => upToDate_step h hcall
  refine ⟨?_, ?_⟩
  · exact forall_prefix_iff_along (E := fun _ _ => True) (I := UpToDate)
      (fun d call _ h hcall => hkeep d call hcall h) (fun d h => h)
      (fun d call _ h hcall => not_upToDate_step h hcall)
      (along_of_forall (fun _ _ => trivial) _ _) hstart
  · intro hcalls info id ts hid hts last hlast
    have hup := Along.exec_inv UpToDate hkeep hts (Along.exec_inv UpToDate hkeep hcalls hstart)
    rw [dispatchRender_eq_exec, hup id]
    exact requested_dispatchCalls info _ id ts hid hlast

/-- The clock readings of the calls, in the order they are made, never go back. -/
def ClocksNonDecreasing (calls : List RenderCall) : Prop :=
  (calls.flatMap fun call => [call.checkedAt, call.recordedAt]).Pairwise (· ≤ ·)

instance (calls : List RenderCall) : Decidable (ClocksNonDecreasing calls) :=
  inferInstanceAs (Decidable (List.Pairwise _ _))

/-- A call at a clock reading, for one session. -/
def callAt (state : AgentState) (ms : Int) : RenderCall where
  view := { state := state, label := none, target := ⟨"s", .default⟩ }
  checkedAt := Duration.milliseconds ms
  recordedAt := Duration.milliseconds ms
  answer := fun _ => none

/-- A state that comes back within its cooldown is asked for and not displayed. -/
theorem not_upToDate_comeback :
    ¬ ∀ (engine : RenderingEngine) (calls : List RenderCall),
      engine.lastRender = (fun _ => none) → ClocksNonDecreasing calls →
      ∀ p, p <+: calls → UpToDate (exec renderStep (Display.start engine) p) := by
  intro hall
  let calls := [callAt .attention 0, callAt .working 100, callAt .attention 200]
  have hup := hall ((RenderingEngine.new .default).addRenderer "tmux") calls rfl (by decide)
    calls (List.prefix_refl _) "s"
  exact absurd hup (by decide)

/-- The same calls with more time between them are all displayed. -/
theorem displayed_eq_requested_comeback_late :
    UpToDate (exec renderStep (Display.start ((RenderingEngine.new .default).addRenderer "tmux"))
      [callAt .attention 0, callAt .working 100, callAt .attention 250]) :=
  (displayed_eq_requested_iff _ _).1.mpr (by decide) _ (List.prefix_refl _)

end AgentTermStatus
