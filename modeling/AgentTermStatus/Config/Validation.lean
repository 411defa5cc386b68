import AgentTermStatus.Config.Config
import AgentTermStatus.Rendering.QuietHours

namespace AgentTermStatus

open Lib

/-!
# Validation of the configuration

`Config.validate` collects an error for each of three mistakes.  For quiet hours it compares the
texts of the two hours and wants the start before the end, while the hours are a window on the
clock that may go past midnight (`Rendering.QuietHours`).

* `ClockText` — the ways a clock time is written, with or without a zero before a single digit;
* `text_lt_iff` — when one of them comes before another as a text;
* `quietHours_error_iff` — when validation complains of quiet hours only if they are empty;
* `default_quietHours_rejected` — it complains of those in the default configuration.
-/

namespace Config

/-- The complaint about quiet hours, if there is one. -/
def quietHoursErrors (c : Config) : List String :=
  match c.renderers.notifications.quietHours.start with
  | some start =>
      match c.renderers.notifications.quietHours.end with
      | some stop =>
          if start ≥ stop then
            ["quiet_hours.start (" ++ start ++ ") must be before quiet_hours.end (" ++ stop ++ ")"]
          else []
      | none => []
  | none => []

/-- The complaint about the socket path, if there is one. -/
def socketPathErrors (c : Config) : List String :=
  match c.daemon.socketPath with
  | some socketPath =>
      if socketPath.isEmpty then ["daemon.socket_path must not be empty"] else []
  | none => []

/-- The complaints about the colours of the states, met in the order `order`. -/
def colorErrors (c : Config) (order : List String) : List String :=
  order.filterMap fun state =>
    (c.states.states[state]?).bind fun entry =>
      if entry.color = some "" then
        some ("states." ++ state ++ ".color must not be empty; use null to disable")
      else none

/-- Validates the configuration, with the overrides met in the order `order`. -/
def validate (c : Config) (order : List String) : Except (List String) Unit :=
  let errors := c.quietHoursErrors ++ c.socketPathErrors ++ c.colorErrors order
  if errors.isEmpty then .ok () else .error errors

/-- Validation raises an error about quiet hours. -/
def RaisesQuietHours (c : Config) (order : List String) : Prop :=
  ∃ errors, c.validate order = .error errors ∧
    ∃ e ∈ errors, "quiet_hours".toList <+: e.toList

/-- The other errors are about something else. -/
theorem other_errors (c : Config) (order : List String) {e : String}
    (h : e ∈ c.socketPathErrors ∨ e ∈ c.colorErrors order) :
    ¬ "quiet_hours".toList <+: e.toList := by
  rcases h with h | h
  · unfold socketPathErrors at h
    split at h
    · split at h
      · obtain rfl := List.mem_singleton.mp h
        decide
      · exact absurd h (by simp)
    · exact absurd h (by simp)
  · obtain ⟨state, -, hentry⟩ := List.mem_filterMap.mp h
    obtain ⟨entry, -, he⟩ := Option.bind_eq_some_iff.mp hentry
    split at he
    · obtain rfl := Option.some.inj he
      -- it begins with another letter
      rintro ⟨rest, hrest⟩
      have hhead := congrArg List.head? hrest
      rw [String.toList_append, String.toList_append, List.append_assoc] at hhead
      simp at hhead
    · exact absurd he (by simp)

/-- Validation raises an error about quiet hours exactly if the start does not come before the end
    as a text. -/
theorem raisesQuietHours_iff (c : Config) (order : List String) {start stop : String}
    (hstart : c.renderers.notifications.quietHours.start = some start)
    (hstop : c.renderers.notifications.quietHours.end = some stop) :
    c.RaisesQuietHours order ↔ ¬ start < stop := by
  have herrors : c.quietHoursErrors = if ¬ start < stop then
      ["quiet_hours.start (" ++ start ++ ") must be before quiet_hours.end (" ++ stop ++ ")"]
      else [] := by
    unfold quietHoursErrors
    rw [hstart, hstop]
    rfl
  refine ⟨?_, fun hge => ?_⟩
  · rintro ⟨errors, hvalidate, e, he, hprefix⟩ hlt
    rw [if_neg (not_not.mpr hlt)] at herrors
    unfold validate at hvalidate
    simp only [herrors, List.nil_append] at hvalidate
    split at hvalidate
    · exact absurd hvalidate (by simp)
    · obtain rfl := Except.error.inj hvalidate
      exact other_errors c order (List.mem_append.mp he) hprefix
  · rw [if_pos hge] at herrors
    refine ⟨c.quietHoursErrors ++ c.socketPathErrors ++ c.colorErrors order, ?_,
      "quiet_hours.start (" ++ start ++ ") must be before quiet_hours.end (" ++ stop ++ ")", ?_, ?_⟩
    · unfold validate
      rw [herrors]
      rfl
    · rw [herrors]
      exact List.mem_cons_self
    · simp only [String.toList_append, List.append_assoc]
      exact ⟨".start (".toList ++ (start.toList ++ (") must be before quiet_hours.end (".toList ++
        (stop.toList ++ ")".toList))), rfl⟩

end Config

/-! ### Clock times as texts -/

/-- A way to write a clock time. -/
structure ClockText where
  hour : Nat
  minute : Nat
  /-- Is there a zero before a single digit of the hour? -/
  padded : Bool
  hour_lt : hour < 24
  minute_lt : minute < 60

namespace ClockText

/-- The hour is written as a single digit. -/
def Short (t : ClockText) : Prop := t.hour < 10 ∧ t.padded = false

instance (t : ClockText) : Decidable t.Short := inferInstanceAs (Decidable (_ ∧ _))

/-- The characters of the hour. -/
def hourChars (t : ClockText) : List Char :=
  if t.Short then [Nat.digitChar t.hour]
  else [Nat.digitChar (t.hour / 10), Nat.digitChar (t.hour % 10)]

/-- The text, like `7:30` or `07:30`. -/
def text (t : ClockText) : String :=
  String.ofList (t.hourChars ++ [':', Nat.digitChar (t.minute / 10), Nat.digitChar (t.minute % 10)])

/-- The clock time, in minutes since midnight. -/
def time (t : ClockText) : Nat := t.hour * 60 + t.minute

/-- Nanoseconds in a minute. -/
def nanosPerMinute : Nat := 60 * 1000000000

/-- Nanoseconds in a day. -/
def nanosPerDay : Nat := 24 * 60 * nanosPerMinute

/-- The clock time, as a time of day. -/
def naiveTime (t : ClockText) : NaiveTime := t.time * nanosPerMinute

/-- The text comes before the other one: single digits compare as digits, and so do hours of two
    digits; a single digit comes after every hour of two digits that does not begin with a larger
    one. -/
def WrittenBefore (a b : ClockText) : Prop :=
  if a.Short then if b.Short then a.time < b.time else a.hour < b.hour / 10
  else if b.Short then a.hour / 10 ≤ b.hour else a.time < b.time

instance (a b : ClockText) : Decidable (a.WrittenBefore b) := by
  unfold WrittenBefore
  infer_instance

/-- Digits compare as characters as they do as numbers, and come before the colon. -/
theorem digitChar_facts {m n : Nat} (hm : m < 10) (hn : n < 10) :
    (Nat.digitChar m < Nat.digitChar n ↔ m < n) ∧ (Nat.digitChar m = Nat.digitChar n ↔ m = n) ∧
      Nat.digitChar m < ':' ∧ ¬ ':' < Nat.digitChar m ∧ Nat.digitChar m ≠ ':' := by
  have hall : ∀ m n : Fin 10,
      (Nat.digitChar m.val < Nat.digitChar n.val ↔ m.val < n.val) ∧
        (Nat.digitChar m.val = Nat.digitChar n.val ↔ m.val = n.val) ∧
        Nat.digitChar m.val < ':' ∧ ¬ ':' < Nat.digitChar m.val ∧ Nat.digitChar m.val ≠ ':' := by
    decide
  exact hall ⟨m, hm⟩ ⟨n, hn⟩

/-- When one text comes before another. -/
theorem text_lt_iff (a b : ClockText) : a.text < b.text ↔ a.WrittenBefore b := by
  have ha := a.hour_lt
  have hb := b.hour_lt
  have ham := a.minute_lt
  have hbm := b.minute_lt
  -- the digits of the minutes
  obtain ⟨hm1, hm2, -⟩ := digitChar_facts (m := a.minute / 10) (n := b.minute / 10) (by omega)
    (by omega)
  obtain ⟨hn1, -⟩ := digitChar_facts (m := a.minute % 10) (n := b.minute % 10) (by omega)
    (by omega)
  have hcolon : ¬ (':' : Char) < ':' := by decide
  show (String.ofList _).toList < (String.ofList _).toList ↔ _
  rw [String.toList_ofList, String.toList_ofList, hourChars, hourChars, WrittenBefore]
  by_cases hsa : a.Short <;> by_cases hsb : b.Short
  · obtain ⟨hh1, hh2, -⟩ := digitChar_facts hsa.1 hsb.1
    simp only [if_pos hsa, if_pos hsb, List.cons_append, List.nil_append, List.cons_lt_cons_iff,
      hh1, hh2, hm1, hm2, hn1, time, List.not_lt_nil, hcolon,
      and_false, or_false, false_or, true_and]
    omega
  · -- the colon meets the second digit of the other hour, and comes after it
    obtain ⟨hh1, hh2, -⟩ := digitChar_facts hsa.1 (n := b.hour / 10) (by omega)
    obtain ⟨-, -, -, hdigit, hne⟩ :=
      digitChar_facts (m := b.hour % 10) (n := 0) (by omega) (by omega)
    simp only [if_pos hsa, if_neg hsb, List.cons_append, List.nil_append, List.cons_lt_cons_iff,
      hh1, hh2, hdigit, hne.symm, false_and, or_false, and_false]
  · -- the second digit meets the colon, and comes before it
    obtain ⟨hh1, hh2, -⟩ := digitChar_facts (m := a.hour / 10) (by omega) hsb.1
    obtain ⟨-, -, hdigit, -⟩ := digitChar_facts (m := a.hour % 10) (n := 0) (by omega) (by omega)
    simp only [if_neg hsa, if_pos hsb, List.cons_append, List.nil_append, List.cons_lt_cons_iff,
      hh1, hh2, hdigit, true_or, and_true]
    omega
  · obtain ⟨hh1, hh2, -⟩ := digitChar_facts (m := a.hour / 10) (n := b.hour / 10) (by omega)
      (by omega)
    obtain ⟨hi1, hi2, -⟩ := digitChar_facts (m := a.hour % 10) (n := b.hour % 10) (by omega)
      (by omega)
    simp only [if_neg hsa, if_neg hsb, List.cons_append, List.nil_append, List.cons_lt_cons_iff,
      hh1, hh2, hi1, hi2, hm1, hm2, hn1, time, List.not_lt_nil, hcolon,
      and_false, or_false, false_or, true_and]
    omega

end ClockText

/-! ### Validation against the clock -/

/-- Between the two hours it is never quiet, for the renderer and for the policy. -/
def QuietWindowEmpty (a b : ClockText) : Prop :=
  ∀ now < ClockText.nanosPerDay,
    (∀ r : NotificationRenderer, r.quietHoursStart = some a.naiveTime →
      r.quietHoursEnd = some b.naiveTime → r.isQuietHours now = false) ∧
    ∀ p : NotificationPolicy, p.quietHoursStart = some a.naiveTime →
      p.quietHoursEnd = some b.naiveTime → p.isQuietHours now = false

/-- It is never quiet exactly if both texts denote the same clock time. -/
theorem quietWindowEmpty_iff (a b : ClockText) : QuietWindowEmpty a b ↔ a.time = b.time := by
  have hday : a.naiveTime < ClockText.nanosPerDay := by
    have ha := a.hour_lt
    have ham := a.minute_lt
    unfold ClockText.naiveTime ClockText.nanosPerDay ClockText.time
    refine Nat.mul_lt_mul_of_pos_right ?_ (by decide)
    omega
  have hnaive : a.naiveTime = b.naiveTime ↔ a.time = b.time := by
    unfold ClockText.naiveTime
    exact Nat.mul_right_cancel_iff (by decide)
  rw [← hnaive, ← inWindow_empty_iff hday]
  refine ⟨fun hempty now hnow => ?_, fun hempty now hnow => ⟨?_, ?_⟩⟩
  · rw [← isQuietHours_eq_window
      (r := .new none none (some a.naiveTime) (some b.naiveTime) []) rfl rfl]
    exact (hempty now hnow).1 _ rfl rfl
  · intro r hstart hstop
    rw [isQuietHours_eq_window hstart hstop, hempty now hnow]
  · intro p hstart hstop
    rw [NotificationPolicy.isQuietHours_eq_window hstart hstop, hempty now hnow]

/-- **When validation matches the clock.** For all hours, however they are written, validation
    raises an error about quiet hours only if they are empty exactly if the start comes before the
    end as a text or both denote the same clock time. -/
theorem quietHours_error_iff (c : Config) (order : List String) (a b : ClockText)
    (hstart : c.renderers.notifications.quietHours.start = some a.text)
    (hend : c.renderers.notifications.quietHours.end = some b.text) :
    ((c.RaisesQuietHours order → QuietWindowEmpty a b) ↔ a.WrittenBefore b ∨ a.time = b.time) ∧
      (QuietWindowEmpty a b ↔ a.time = b.time) := by
  rw [c.raisesQuietHours_iff order hstart hend, ClockText.text_lt_iff, quietWindowEmpty_iff]
  refine ⟨⟨fun h => ?_, ?_⟩, Iff.rfl⟩
  · by_cases hbefore : a.WrittenBefore b
    · exact Or.inl hbefore
    · exact Or.inr (h hbefore)
  · rintro (hbefore | hsame) hnot
    · exact absurd hbefore hnot
    · exact hsame

/-- Ten in the evening. -/
def tenPm : ClockText := ⟨22, 0, true, by decide, by decide⟩

/-- Seven in the morning. -/
def sevenAm : ClockText := ⟨7, 0, true, by decide, by decide⟩

/-- The default hours are those of the night. -/
theorem default_quietHours_texts :
    QuietHoursConfig.default.start = some tenPm.text ∧
      QuietHoursConfig.default.end = some sevenAm.text := by decide

/-- Validation complains of the default hours. -/
theorem raisesQuietHours_of_default {c : Config}
    (h : c.renderers.notifications.quietHours = .default) (order : List String) :
    c.RaisesQuietHours order := by
  obtain ⟨hstart, hend⟩ := default_quietHours_texts
  rw [← h] at hstart hend
  rw [c.raisesQuietHours_iff order hstart hend, ClockText.text_lt_iff]
  decide

/-- No configuration with the default hours is valid. -/
theorem validate_ne_ok_of_default {c : Config}
    (h : c.renderers.notifications.quietHours = .default) (order : List String) :
    c.validate order ≠ .ok () := by
  obtain ⟨errors, herrors, -⟩ := raisesQuietHours_of_default h order
  rw [herrors]
  simp

/-- Validation complains of the default configuration, whose quiet hours are those of the night. -/
theorem default_quietHours_rejected :
    Config.defaultConfig.validate Config.defaultConfig.states.states.keys =
        .error ["quiet_hours.start (22:00) must be before quiet_hours.end (07:00)"] ∧
      ¬ ∀ (c : Config) (order : List String) (a b : ClockText),
        c.renderers.notifications.quietHours.start = some a.text →
        c.renderers.notifications.quietHours.end = some b.text →
        c.RaisesQuietHours order → QuietWindowEmpty a b := by
  refine ⟨by decide +kernel, fun hall => ?_⟩
  have hempty := hall Config.defaultConfig [] tenPm sevenAm default_quietHours_texts.1
    default_quietHours_texts.2 (raisesQuietHours_of_default rfl [])
  exact absurd ((quietWindowEmpty_iff _ _).mp hempty) (by decide)

/-- The default configuration does not match the clock. -/
theorem quietHours_error_iff_default :
    ¬ (Config.defaultConfig.RaisesQuietHours [] → QuietWindowEmpty tenPm sevenAm) := fun h =>
  absurd ((quietHours_error_iff Config.defaultConfig [] tenPm sevenAm default_quietHours_texts.1
    default_quietHours_texts.2).1.mp h) (by decide)

end AgentTermStatus
