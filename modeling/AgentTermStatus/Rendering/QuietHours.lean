import AgentTermStatus.Renderer.Notification

namespace AgentTermStatus

open Lib

/-!
# Quiet hours

Quiet hours are judged twice: by the notification renderer (`Renderer.Notification`) and by the
notification policy of the rendering engine.  Both take the hours for a window on the clock: when
the start is later than the end, the window goes past midnight.

* `isQuietHours_eq_window`, `NotificationPolicy.isQuietHours_eq_window` — both are the same window;
* `inWindow_empty_iff` — the window is empty exactly if it starts when it ends.
-/

/-- The notification policy of the rendering engine. -/
structure NotificationPolicy where
  /-- States that may be notified. -/
  notifyStates : List AgentState
  /-- When quiet hours start. -/
  quietHoursStart : Option NaiveTime
  /-- When quiet hours end. -/
  quietHoursEnd : Option NaiveTime
  /-- States that quiet hours allow. -/
  quietHoursAllow : List AgentState

namespace NotificationPolicy

/-- The default policy: there are no quiet hours. -/
def default : NotificationPolicy where
  notifyStates := [.attention, .risk, .result, .error]
  quietHoursStart := none
  quietHoursEnd := none
  quietHoursAllow := [.risk]

/-- May the state be notified? -/
def shouldNotify (p : NotificationPolicy) (state : AgentState) : Bool :=
  p.notifyStates.contains state

/-- Is it quiet? -/
def isQuietHours (p : NotificationPolicy) (now : NaiveTime) : Bool :=
  match p.quietHoursStart, p.quietHoursEnd with
  | some start, some stop =>
      if start ≤ stop then now ≥ start && now < stop else now ≥ start || now < stop
  | _, _ => false

/-- Do quiet hours allow the state? -/
def quietHoursAllows (p : NotificationPolicy) (now : NaiveTime) (state : AgentState) : Bool :=
  if !p.isQuietHours now then true else p.quietHoursAllow.contains state

end NotificationPolicy

/-! ### Windows on the clock -/

/-- The times from `start` until `stop`, past midnight if `start` is later. -/
def inWindow (start stop now : NaiveTime) : Bool :=
  if start ≤ stop then now ≥ start && now < stop else now ≥ start || now < stop

/-- The hours of the renderer are a window. -/
theorem isQuietHours_eq_window {r : NotificationRenderer} {start stop : NaiveTime}
    (hstart : r.quietHoursStart = some start) (hstop : r.quietHoursEnd = some stop)
    (now : NaiveTime) : r.isQuietHours now = inWindow start stop now := by
  unfold NotificationRenderer.isQuietHours
  rw [hstart, hstop]
  rfl

/-- The hours of the policy are a window. -/
theorem NotificationPolicy.isQuietHours_eq_window {p : NotificationPolicy} {start stop : NaiveTime}
    (hstart : p.quietHoursStart = some start) (hstop : p.quietHoursEnd = some stop)
    (now : NaiveTime) : p.isQuietHours now = inWindow start stop now := by
  unfold NotificationPolicy.isQuietHours
  rw [hstart, hstop]
  rfl

/-- A window is empty exactly if it starts when it ends. -/
theorem inWindow_empty_iff {day start stop : NaiveTime} (hstart : start < day) :
    (∀ now < day, inWindow start stop now = false) ↔ start = stop := by
  refine ⟨fun hempty => ?_, ?_⟩
  · by_contra hne
    -- otherwise its start lies in it
    have hin : inWindow start stop start = true := by
      unfold inWindow
      split
      · next hle =>
        have hlt : start < stop := lt_of_le_of_ne hle hne
        simp [hlt]
      · simp
    exact absurd (hempty start hstart) (by rw [hin]; decide)
  · rintro rfl now -
    simp [inWindow]

end AgentTermStatus
