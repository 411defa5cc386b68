import AgentTermStatus.Lib.Json

namespace AgentTermStatus

open Lib

/-!
# The data model shared by every component

States, event types and the normalized event exchanged between provider adapters, the
daemon and the renderers, with the fields the source gives them.  Two types are modelled
by simpler ones: an instant (`DateTime`) and a span (`Duration`) are integers counting
nanoseconds, and an event id is a 128-bit vector.

An `ActivityLabel` carries the proof that it is sanitized, so no other label exists.
-/

/-- An instant, in nanoseconds since an epoch. -/
abbrev DateTime := Int

/-- A signed span of time, in nanoseconds. -/
abbrev Duration := Int

namespace Duration

/-- A span of `n` milliseconds. -/
def milliseconds (n : Int) : Duration := n * 1000000

/-- A span of `n` seconds. -/
def seconds (n : Int) : Duration := n * 1000000000

/-- A span of `n` minutes. -/
def minutes (n : Int) : Duration := seconds (n * 60)

/-- A span of `n` hours. -/
def hours (n : Int) : Duration := minutes (n * 60)

end Duration

/-- An event id. -/
abbrev Uuid := BitVec 128

/-- The hyphenated form of an id. -/
def Uuid.toString (id : Uuid) : String :=
  let digits := (Nat.toDigits 16 id.toNat).leftpad 32 '0'
  let part := fun start stop => String.ofList ((digits.take stop).drop start)
  part 0 8 ++ "-" ++ part 8 12 ++ "-" ++ part 12 16 ++ "-" ++ part 16 20 ++ "-" ++ part 20 32

/-- Arrays and objects nested this deep are rejected by the decoder of JSON texts. -/
def recursionLimit : Nat := 128

/-- Current Normalized Event schema version. -/
def schemaVersion : String := "1.0"

/-! ### States -/

/-- Normalized agent state shown to the user. -/
inductive AgentState
  /-- Session is waiting; no user action needed. -/
  | idle
  /-- AI is processing; no user action needed. -/
  | working
  /-- Waiting for user input or approval. -/
  | attention
  /-- High-risk operation pending approval. -/
  | risk
  /-- Completed successfully. -/
  | result
  /-- Failure or integration issue. -/
  | error
  /-- State cannot be determined. -/
  | unknown
  deriving DecidableEq, Repr

/-- Event type taxonomy. -/
inductive EventType
  | sessionStarted
  | sessionStopped
  | sessionFailed
  | sessionHeartbeat
  | agentStarted
  | agentWorking
  | agentWaiting
  | agentCompleted
  | agentFailed
  | toolStarted
  | toolCompleted
  | toolFailed
  | userInputRequired
  | userApprovalRequired
  | userInputReceived
  | providerDisconnected
  | providerSchemaError
  | rendererFailed
  | sessionTimeout
  deriving DecidableEq, Repr

/-! ### Activities -/

/-- Activity category taxonomy. -/
inductive ActivityCategory
  | thinking
  | reading
  | searching
  | editing
  | shell
  | testing
  | network
  | versionControl
  | deployment
  | unknown
  deriving DecidableEq, Repr

/-- Risk level of a pending operation. -/
inductive RiskLevel
  | low
  | medium
  | high
  | critical
  | unknown
  deriving DecidableEq, Repr

/-- Unicode `Cc`: the C0 controls, DEL and the C1 controls. -/
def isControl (c : Char) : Bool := c.toNat ≤ 0x1f || (0x7f ≤ c.toNat && c.toNat ≤ 0x9f)

/-- Maximum label length in characters. -/
def ActivityLabel.maxChars : Nat := 40

/-- Display label: no control characters, at most `maxChars` characters. -/
structure ActivityLabel where
  /-- The sanitized label text. -/
  asStr : String
  /-- No control character is left. -/
  noControl : ∀ c ∈ asStr.toList, isControl c = false
  /-- The text is short. -/
  short : asStr.toList.length ≤ ActivityLabel.maxChars
  deriving DecidableEq

namespace ActivityLabel

/-- Builds a label from an untrusted string, sanitizing it. -/
def new (raw : String) : ActivityLabel where
  asStr := String.ofList ((raw.toList.filter fun c => !isControl c).take maxChars)
  noControl := by
    intro c hc
    rw [String.toList_ofList] at hc
    simpa using (List.mem_filter.mp (List.mem_of_mem_take hc)).2
  short := by
    rw [String.toList_ofList]
    exact List.length_take_le _ _

/-- Two labels with the same text are equal. -/
theorem ext {a b : ActivityLabel} (h : a.asStr = b.asStr) : a = b := by
  cases a; cases b; simpa using h

/-- Two texts give the same label exactly if they begin alike, control characters aside. -/
theorem new_eq_new_iff (a b : String) :
    new a = new b ↔
      (a.toList.filter fun c => !isControl c).take maxChars =
        (b.toList.filter fun c => !isControl c).take maxChars := by
  refine ⟨fun h => ?_, fun h => ext ?_⟩
  · have htext := congrArg (fun l => l.asStr.toList) h
    simpa only [new, String.toList_ofList] using htext
  · simp only [new]
    rw [h]

/-- Sanitizing a sanitized text changes nothing. -/
@[simp] theorem new_asStr (l : ActivityLabel) : new l.asStr = l := by
  apply ext
  have hkeep : l.asStr.toList.filter (fun c => !isControl c) = l.asStr.toList :=
    List.filter_eq_self.mpr fun c hc => by simp [l.noControl c hc]
  show String.ofList _ = _
  rw [hkeep, List.take_of_length_le l.short, String.ofList_toList]

end ActivityLabel

/-- Activity attached to a state. -/
structure Activity where
  /-- Coarse category. -/
  category : ActivityCategory
  /-- Short sanitized label. -/
  label : Option ActivityLabel
  /-- Provider tool name. -/
  toolName : Option String
  /-- Risk classification result. -/
  risk : Option RiskLevel
  deriving DecidableEq

/-! ### Sessions and events -/

/-- Terminal identification captured at event time. -/
structure TerminalContext where
  /-- TTY device path. -/
  tty : Option String
  /-- Terminal program. -/
  termProgram : Option String
  /-- tmux pane ID. -/
  tmuxPane : Option String
  deriving DecidableEq

/-- The empty terminal context. -/
def TerminalContext.default : TerminalContext := ⟨none, none, none⟩

/-- Session identity for routing state to the right terminal target. -/
structure SessionIdentity where
  /-- Provider-supplied session ID. -/
  id : String
  /-- Parent session ID when this session is a subagent. -/
  parentId : Option String
  /-- Workspace path. -/
  workspace : Option String
  /-- Terminal context used for pane/tab targeting. -/
  terminal : Option TerminalContext
  deriving DecidableEq

/-- The identity with an empty id and nothing else. -/
def SessionIdentity.default : SessionIdentity := ⟨"", none, none, none⟩

/-- Normalized event exchanged between providers, daemon, and renderers. -/
structure NormalizedEvent where
  /-- Schema version. -/
  schemaVersion : String
  /-- Event ID. -/
  eventId : Uuid
  /-- When the event happened. -/
  timestamp : DateTime
  /-- Provider name. -/
  provider : String
  /-- Provider schema/CLI version. -/
  providerVersion : Option String
  /-- Strongly-typed event type. -/
  eventType : EventType
  /-- Session identity for terminal targeting. -/
  session : SessionIdentity
  /-- Optional activity detail. -/
  activity : Option Activity
  /-- Free-form extension point. -/
  metadata : FiniteMap String Json.Value

/-- An event with nothing but an id, a type, a session and a timestamp. -/
def NormalizedEvent.bare (eventId : Uuid) (eventType : EventType) (sessionId : String)
    (timestamp : DateTime) : NormalizedEvent where
  schemaVersion := AgentTermStatus.schemaVersion
  eventId := eventId
  timestamp := timestamp
  provider := "test"
  providerVersion := none
  eventType := eventType
  session := { SessionIdentity.default with id := sessionId }
  activity := none
  metadata := ∅

end AgentTermStatus
