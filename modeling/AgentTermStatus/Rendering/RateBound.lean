import AgentTermStatus.Lib.Cooldown
import AgentTermStatus.Renderer.Notification
import AgentTermStatus.Rendering.Engine

namespace AgentTermStatus

open Lib

/-!
# How often views are dispatched and notifications made

The rate limiter of the rendering engine and the debouncing of notifications are the same design: a
table of timestamps, judged by one reading of the clock and written by another.  Both are instances
of a cooldown, so in every window of time only so many calls of one session and state come through,
whatever else is asked for in between, and also where the clock is set back between calls.

* `dispatches_bounded` — of the rendering engine;
* `NotificationRenderer.attempts_bounded` — of the notification renderer.
-/

/-! ### The rendering engine -/

/-- One call of `render`, which emits the call if it is let through to the renderers. -/
def dispatchStep (e : RenderingEngine) (call : RenderCall) : RenderingEngine × List RenderCall :=
  ((e.render call).1,
    if (e.isRateLimited call.key call.checkedAt call.recordedAt).1 then [] else [call])

/-- The cooldown of an engine, in nanoseconds. -/
def renderCooldown (config : EngineConfig) : Cooldown RateLimitKey where
  unit := Duration.milliseconds 1
  limit := fun _ => config.renderCooldownMs

/-- What a call is to the cooldown. -/
def RenderCall.toCooldown (call : RenderCall) : CooldownCall RateLimitKey :=
  ⟨call.key, call.checkedAt, call.recordedAt⟩

/-- The limiter is a cooldown. -/
theorem dispatchStep_governs (config : EngineConfig) :
    (renderCooldown config).Governs dispatchStep (fun e => e.config = config)
      RenderingEngine.lastRender (fun call => some call.toCooldown)
      fun call => (call.key, call.recordedAt) := by
  refine ⟨fun e call he => ?_, fun e call _ hpick => absurd hpick (by simp), ?_⟩
  · show (e.render call).1.config = config
    rw [RenderingEngine.render, RenderingEngine.isRateLimited_eq]
    by_cases hl : e.Limited call
    · rw [if_pos hl]
      exact he
    · rw [if_neg hl]
      exact he
  · rintro e call a rfl hpick
    obtain rfl := Option.some.inj hpick
    have hheld : (renderCooldown e.config).Held e.lastRender call.toCooldown ↔ e.Limited call :=
      Iff.rfl
    rw [dispatchStep, RenderingEngine.render, RenderingEngine.isRateLimited_eq]
    by_cases hl : e.Limited call
    · rw [if_pos hl, Cooldown.step_of_held _ (hheld.mpr hl)]
      exact ⟨rfl, rfl⟩
    · rw [if_neg hl, Cooldown.step_of_not_held _ (mt hheld.mp hl)]
      exact ⟨rfl, rfl⟩

/-- **Dispatches are bounded.** In every run of an engine, from any state of it, in every window of
    time there are at most as many cooldowns between the dispatches of views of one session and
    state as fit into it. -/
theorem dispatches_bounded (e : RenderingEngine) (calls : List RenderCall)
    (hclock : ∀ call ∈ calls, call.checkedAt ≤ call.recordedAt) (key : RateLimitKey)
    (lo hi : DateTime) (hwindow : lo ≤ hi) :
    ((((trace dispatchStep e calls).filter fun call => call.key = key ∧ lo ≤ call.recordedAt ∧
      call.recordedAt ≤ hi).length - 1 : ℕ) : Int) *
        Duration.milliseconds e.config.renderCooldownMs ≤ hi - lo := by
  have hgap : (renderCooldown e.config).gap key =
      Duration.milliseconds e.config.renderCooldownMs := mul_comm _ _
  have hunit : 0 < (renderCooldown e.config).unit := Int.natCast_pos.mpr (by decide : 0 < 1000000)
  rw [← hgap]
  refine (dispatchStep_governs e.config).count_le hunit rfl ?_ key hwindow
  intro call hcall a ha
  obtain rfl := Option.some.inj ha
  exact hclock call hcall

/-- A call for one session that needs input, at a millisecond of the clock. -/
def rateProbe (ms : Int) : RenderCall where
  view := { state := .attention, label := none, target := ⟨"s", .default⟩ }
  checkedAt := Duration.milliseconds ms
  recordedAt := Duration.milliseconds ms
  answer := fun _ => none

/-- Six calls within a second, of which four are let through. -/
def rateProbes : List RenderCall := [0, 100, 250, 400, 510, 900].map rateProbe

/-- In one second a renderer is given one state of a session at most five times. -/
theorem dispatches_bounded_second :
    let dispatched :=
      (trace dispatchStep ((RenderingEngine.new .default).addRenderer "tmux") rateProbes).filter
        fun call => call.key = ⟨"s", .attention⟩ ∧ 0 ≤ call.recordedAt ∧
          call.recordedAt ≤ Duration.seconds 1
    dispatched.length = 4 ∧
      ((dispatched.length - 1 : ℕ) : Int) * Duration.milliseconds defaultRenderCooldownMs ≤
        Duration.seconds 1 - 0 :=
  ⟨by decide, dispatches_bounded ((RenderingEngine.new .default).addRenderer "tmux") rateProbes
    (by decide) ⟨"s", .attention⟩ 0 (Duration.seconds 1) (by decide)⟩

/-! ### The notification renderer -/

namespace NotificationRenderer

/-- For how long notifications are debounced, in nanoseconds. -/
def debounceCooldown : Cooldown NotificationKey where
  unit := Duration.seconds 1
  limit := fun key => threshold key.state

/-- What a call is to the cooldown: nothing, if it is not for a state that draws attention, or quiet
    hours do not allow it. -/
def toCooldown (r : NotificationRenderer) (call : NotifyCall) :
    Option (CooldownCall NotificationKey) :=
  if shouldNotify call.view.state && r.quietHoursAllows call.localTime call.view.state then
    some ⟨call.key, call.checkedAt, call.recordedAt⟩
  else none

/-- The renderers that differ in their timestamps only. -/
def SameSetup (r₀ r : NotificationRenderer) : Prop := { r with lastNotify := r₀.lastNotify } = r₀

theorem toCooldown_eq_some_iff {r : NotificationRenderer} {call : NotifyCall}
    {a : CooldownCall NotificationKey} :
    r.toCooldown call = some a ↔
      r.Allows call ∧ ⟨call.key, call.checkedAt, call.recordedAt⟩ = a := by
  simp [toCooldown, Allows]

theorem toCooldown_eq_none_iff {r : NotificationRenderer} {call : NotifyCall} :
    r.toCooldown call = none ↔ ¬ r.Allows call := by
  simp [toCooldown, Allows]

/-- What calls are to the cooldown does not depend on the timestamps. -/
theorem SameSetup.toCooldown_eq {r₀ r : NotificationRenderer} (h : SameSetup r₀ r)
    (call : NotifyCall) : r₀.toCooldown call = r.toCooldown call := by
  rw [← h]
  rfl

/-- Debouncing is a cooldown. -/
theorem render_governs (r₀ : NotificationRenderer) :
    debounceCooldown.Governs render (SameSetup r₀) lastNotify r₀.toCooldown
      fun a => (a.key, a.sentAt) := by
  refine ⟨fun r call hr => ?_, fun r call hr hnone => ?_, fun r call a hr hsome => ?_⟩
  · rcases render_cases r call with ⟨heq, -⟩ | ⟨-, -, heq⟩
    · rw [heq]
      exact hr
    · rw [heq]
      exact hr
  · rcases render_cases r call with ⟨heq, -⟩ | ⟨hallows, -, -⟩
    · rw [heq]
      exact ⟨rfl, rfl⟩
    · rw [hr.toCooldown_eq, toCooldown_eq_none_iff] at hnone
      exact absurd hallows hnone
  · rw [hr.toCooldown_eq, toCooldown_eq_some_iff] at hsome
    obtain ⟨hallows, rfl⟩ := hsome
    have hheld : debounceCooldown.Held r.lastNotify ⟨call.key, call.checkedAt, call.recordedAt⟩ ↔
        r.Debounced call := Iff.rfl
    rcases render_cases r call with ⟨heq, hdebounced⟩ | ⟨-, hdebounced, heq⟩
    · rw [heq, Cooldown.step_of_held _ (hheld.mpr (hdebounced hallows))]
      exact ⟨rfl, rfl⟩
    · rw [heq, Cooldown.step_of_not_held _ (mt hheld.mp hdebounced)]
      exact ⟨rfl, rfl⟩

/-- **Notifications are bounded.** In every run of a notification renderer, from any state of it,
    whatever becomes of the notifications, in every window of time there are at most as many
    thresholds between the attempts for one session and state as fit into it. -/
theorem attempts_bounded (r : NotificationRenderer) (calls : List NotifyCall)
    (hclock : ∀ call ∈ calls, call.checkedAt ≤ call.recordedAt) (key : NotificationKey)
    (lo hi : DateTime) (hwindow : lo ≤ hi) :
    ((((trace render r calls).filter fun a => a.key = key ∧ lo ≤ a.sentAt ∧ a.sentAt ≤ hi).length -
      1 : ℕ) : Int) * Duration.seconds (threshold key.state) ≤ hi - lo := by
  have hgap : debounceCooldown.gap key = Duration.seconds (threshold key.state) := mul_comm _ _
  rw [← hgap]
  refine (render_governs r).count_le (by decide) rfl ?_ key hwindow
  intro call hcall a ha
  obtain ⟨-, rfl⟩ := toCooldown_eq_some_iff.mp ha
  exact hclock call hcall

/-- A call for one session that has a result, at a second of the clock. -/
def resultProbe (second : Int) (output : NotifierOutput) : NotifyCall where
  view := { state := .result, label := none, target := ⟨"s", .default⟩ }
  localTime := 0
  checkedAt := Duration.seconds second
  recordedAt := Duration.seconds second
  output := output

/-- Five calls within a minute, of which three make attempts, and one of these fails. -/
def resultProbes : List NotifyCall :=
  [resultProbe 0 (.exited true ""), resultProbe 10 (.exited true ""),
    resultProbe 30 (.exited false "lost"), resultProbe 45 (.exited true ""),
    resultProbe 60 (.exited true "")]

/-- In a minute there are at most three notifications of a result of a session. -/
theorem attempts_bounded_minute :
    let attempts := (trace render (new none none none none []) resultProbes).filter
      fun a => a.key = ⟨.result, "s"⟩ ∧ 0 ≤ a.sentAt ∧ a.sentAt ≤ Duration.minutes 1
    attempts.length = 3 ∧
      ((attempts.length - 1 : ℕ) : Int) * Duration.seconds resultDebounceS ≤
        Duration.minutes 1 - 0 :=
  ⟨by decide, attempts_bounded (new none none none none []) resultProbes (by decide)
    ⟨.result, "s"⟩ 0 (Duration.minutes 1) (by decide)⟩

end NotificationRenderer

end AgentTermStatus
