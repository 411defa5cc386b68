import AgentTermStatus.Provider.Claude.Adapter

namespace AgentTermStatus

open Lib ClaudeAdapter

/-!
# The label of a notification

The adapter labels a notification with its message and cuts a message of more than 40 bytes
before it sanitizes it, in bytes, where `ActivityLabel.new` counts characters without the
controls among them.  A cut inside a character is a panic; any other cut shows unless nothing
that could be shown comes after it.

`parse_labels_iff` — parsing a payload does not panic and labels a notification with its message
exactly if the message is not cut where it shows (`CutUnseen`).
-/

/-- The message has at most 40 bytes, or begins with 40 characters of one byte none of which is a
    control, or with 40 bytes after which there are only controls. -/
def CutUnseen (message : String) : Prop :=
  message.utf8ByteSize ≤ 40 ∨
    ∃ front rest : List Char, message.toList = front ++ rest ∧ byteLength front = 40 ∧
      ((∀ c ∈ front, c.utf8Size = 1 ∧ isControl c = false) ∨ ∀ c ∈ rest, isControl c = true)

/-- The label of the beginning of a message is the label of the message exactly if nothing that
    would be shown comes after it. -/
theorem new_front_eq_iff {message : String} {front rest : List Char}
    (hmessage : message.toList = front ++ rest) (hlen : byteLength front = 40) :
    ActivityLabel.new (String.ofList front) = ActivityLabel.new message ↔
      (∀ c ∈ front, c.utf8Size = 1 ∧ isControl c = false) ∨ ∀ c ∈ rest, isControl c = true := by
  have hshort : front.length ≤ ActivityLabel.maxChars := by
    rw [ActivityLabel.maxChars, ← hlen]
    exact length_le_byteLength front
  have hsizes : front.length = ActivityLabel.maxChars ↔ ∀ c ∈ front, c.utf8Size = 1 := by
    rw [← byteLength_eq_length_iff, hlen]
    exact eq_comm
  rw [ActivityLabel.new_eq_new_iff, String.toList_ofList, hmessage, eq_comm,
    take_filter_append_iff _ hshort, hsizes]
  simp only [Bool.not_eq_true', Bool.not_eq_false']
  refine or_congr_left ⟨fun h c hc => ⟨h.1 c hc, h.2 c hc⟩, fun h => ?_⟩
  exact ⟨fun c hc => (h c hc).1, fun c hc => (h c hc).2⟩

/-- A notification is labelled with its message exactly if the cut is not seen. -/
theorem notificationLabel_eq_new_iff (message : String) :
    notificationLabel message = some (ActivityLabel.new message) ↔ CutUnseen message := by
  unfold notificationLabel CutUnseen
  by_cases hsize : message.utf8ByteSize ≤ 40
  · rw [if_pos hsize]
    exact iff_of_true rfl (Or.inl hsize)
  · rw [if_neg hsize, Option.map_eq_some_iff]
    refine ⟨?_, ?_⟩
    · rintro ⟨front, hfront, hnew⟩
      obtain ⟨⟨rest, hmessage⟩, hlen⟩ := (takeBytes_eq_some_iff 40 message front).mp hfront
      rw [← String.ofList_toList (s := front), new_front_eq_iff hmessage.symm hlen] at hnew
      exact Or.inr ⟨_, rest, hmessage.symm, hlen, hnew⟩
    · rintro (hle | ⟨front, rest, hmessage, hlen, hunseen⟩)
      · exact absurd hle hsize
      · refine ⟨String.ofList front, ?_, (new_front_eq_iff hmessage hlen).mpr hunseen⟩
        rw [takeBytes_eq_some_iff, String.toList_ofList]
        exact ⟨⟨rest, hmessage.symm⟩, hlen⟩

/-- A notification with a label gives one event, which carries the label. -/
theorem parse_notification (env : ParseEnv) {input : Json} {l : ActivityLabel}
    (hhook : hookName input = some "Notification")
    (hlabel : notificationLabel (notificationMessage input) = some l) :
    ∃ ev, parse env input = .ok [ev] ∧ ev.activity.bind Activity.label = some l := by
  unfold hookName notificationMessage at *
  unfold parse
  cases hobj : input.asObject with
  | none => simp [Json.get, hobj] at hhook
  | some obj =>
    rw [get_of_asObject hobj] at hhook hlabel
    simp only [hhook, hlabel]
    exact ⟨_, rfl, rfl⟩

/-- **When parsing is safe and labels notifications with their message.** For every payload:
    parsing does not panic, and labels the event of a notification with its message, if and only
    if the payload is no notification or the cut of its message is not seen. -/
theorem parse_labels_iff (env : ParseEnv) (input : Json) :
    (parse env input ≠ .panicked ∧
        ∀ events, parse env input = .ok events → hookName input = some "Notification" →
          ∀ ev ∈ events, ev.activity.bind Activity.label =
            some (ActivityLabel.new (notificationMessage input))) ↔
      (hookName input = some "Notification" → CutUnseen (notificationMessage input)) := by
  rw [ne_eq, parse_eq_panicked_iff, not_and]
  by_cases hhook : hookName input = some "Notification"
  · simp only [hhook, true_imp_iff]
    rw [← notificationLabel_eq_new_iff]
    cases hlabel : notificationLabel (notificationMessage input) with
    | none => simp
    | some l =>
      obtain ⟨ev, hparse, hactivity⟩ := parse_notification env hhook hlabel
      simp only [hparse, ParseOutcome.ok.injEq, forall_eq', List.mem_singleton, forall_eq,
        hactivity]
      simp
  · exact iff_of_true ⟨fun h => absurd h hhook, fun _ _ h => absurd h hhook⟩
      fun h => absurd h hhook

/-- A notification with a message in characters of three bytes. -/
def wideNotification : Json :=
  .object [("session_id", .string "s"), ("hook_event_name", .string "Notification"),
    ("message", .string "承認が必要です。続行してよろしいですか。")]

/-- Its fortieth byte is inside a character, so parsing it panics. -/
theorem parse_wideNotification_panics :
    ¬ ∀ (env : ParseEnv) (input : Json), parse env input ≠ .panicked ∧
      ∀ events, parse env input = .ok events → hookName input = some "Notification" →
        ∀ ev ∈ events, ev.activity.bind Activity.label =
          some (ActivityLabel.new (notificationMessage input)) := by
  intro hall
  let env : ParseEnv :=
    { eventId := 1, fallbackId := 0, timestamp := 0
      tmuxPane := none, tty := none, sshTty := none, termProgram := none }
  refine (hall env wideNotification).1 ((parse_eq_panicked_iff env wideNotification).mpr ?_)
  decide +kernel

end AgentTermStatus
