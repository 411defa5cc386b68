import AgentTermStatus.Core

namespace AgentTermStatus

open Lib

/-!
# What renderers are given, and themes

The view of one session handed to a renderer, the ways a renderer fails, what it can do, and the
theme that gives every state a colour, a label and a symbol.
-/

/-- Addressing information for one terminal surface. -/
structure RenderTarget where
  /-- Session the state belongs to. -/
  sessionId : String
  /-- Terminal identification. -/
  terminal : TerminalContext
  deriving DecidableEq

/-- Resolved, render-ready state for one session. -/
structure StateView where
  /-- State to visualize. -/
  state : AgentState
  /-- Optional sanitized activity label. -/
  label : Option ActivityLabel
  /-- Where to render. -/
  target : RenderTarget
  deriving DecidableEq

/-- Renderer failure. -/
inductive RendererError
  /-- The renderer cannot serve this terminal context at all. -/
  | unsupported (detail : String)
  /-- The renderer attempted to draw and failed. -/
  | failed (detail : String)
  deriving DecidableEq

/-- Capability flags per renderer.  Defaults to all-off. -/
structure RendererCapabilities where
  background : Bool := false
  tabTitle : Bool := false
  tabColor : Bool := false
  badge : Bool := false
  cursorColor : Bool := false
  paneBorder : Bool := false
  notification : Bool := false
  flash : Bool := false
  /-- Reset is guaranteed to restore the default appearance. -/
  resetReliable : Bool := false
  deriving DecidableEq

/-- How a theme shows one state. -/
structure ThemeEntry where
  color : Option String
  label : String
  symbol : String
  notification : Bool
  deriving DecidableEq

/-- A theme: an entry for some of the states, by key. -/
structure Theme where
  name : String
  states : FiniteMap String ThemeEntry

/-- The key of a state in a theme. -/
def agentStateToThemeKey : AgentState → String
  | .idle      => "idle"
  | .working   => "working"
  | .attention => "attention"
  | .risk      => "risk"
  | .result    => "result"
  | .error     => "error"
  | .unknown   => "unknown"

/-- The entry of a state, if the theme has one. -/
def Theme.resolve (t : Theme) (state : AgentState) : Option ThemeEntry :=
  t.states[agentStateToThemeKey state]?

/-- The bundled theme named `default`. -/
def defaultTheme : Theme where
  name := "default"
  states := (∅ : FiniteMap String ThemeEntry).insertMany [
    ("idle", { color := none, label := "Idle", symbol := "○", notification := false }),
    ("working",
      { color := some "#2457A6", label := "Working", symbol := "●", notification := false }),
    ("attention",
      { color := some "#D97706", label := "Needs input", symbol := "!", notification := true }),
    ("risk", { color := some "#B91C1C", label := "Risk", symbol := "!!", notification := true }),
    ("result",
      { color := some "#15803D", label := "Completed", symbol := "+", notification := false }),
    ("error", { color := some "#9333EA", label := "Error", symbol := "×", notification := true }),
    ("unknown",
      { color := some "#6B7280", label := "Unknown", symbol := "?", notification := false })]

end AgentTermStatus
