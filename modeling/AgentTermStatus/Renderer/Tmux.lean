import AgentTermStatus.Renderer.View
import AgentTermStatus.Lib.Text

namespace AgentTermStatus

open Lib

/-!
# The tmux renderer

The renderer shows a state on a tmux pane by setting three options of the pane.  What tmux
does with a command line is an argument: a function from its state to the next state and
the result of the command (`Tmux`).  A render is a script of command lines that stops at
the first failure (`runScript`), and every command line that was sent is kept.
-/

/-- Characters `validateArg` rejects. -/
def forbiddenChars : List Char := [';', '$', '\x60', '|', '&', '>', '<', '\n', '\r', '\\']

/-- The options of a pane before the first render. -/
structure CapturedState where
  borderStyle : Option String
  borderFormat : Option String
  borderStatus : Option String
  deriving DecidableEq

/-- The renderer: its theme, and what it captured, by pane. -/
structure TmuxRenderer where
  theme : Option Theme
  prior : FiniteMap String CapturedState

/-- What became of a command. -/
inductive CommandResult
  /-- It could not be run. -/
  | cannotRun (error : String)
  /-- It exited with a failure. -/
  | failed (stderr : String)
  /-- It succeeded; its output, if it is UTF-8. -/
  | succeeded (stdout : Option String)
  deriving DecidableEq

/-- A tmux with states `τ`: what it does with the arguments of a command line. -/
abbrev Tmux (τ : Type) := τ → List String → τ × CommandResult

namespace TmuxRenderer

/-- A renderer that has captured nothing. -/
def new (theme : Option Theme) : TmuxRenderer where
  theme := theme
  prior := ∅

/-! ### What is displayed -/

/-- The theme's entry of a state. -/
def resolveEntry (theme : Option Theme) (state : AgentState) : Option ThemeEntry :=
  theme.bind fun t => t.resolve state

/-- The border style of a state. -/
def borderStyleFor (theme : Option Theme) (state : AgentState) : Option String :=
  if state = .idle then none
  else
    match resolveEntry theme state with
    | none       => none
    | some entry => entry.color.map fun color => "fg=" ++ color

/-- The parts of the border text that are not empty: the symbol, the label of the state, the
    label of the activity. -/
def borderParts (theme : Option Theme) (state : AgentState) (label : Option ActivityLabel) :
    List String :=
  let entry := resolveEntry theme state
  let symbol := (entry.map fun e => e.symbol).getD "?"
  let stateLabel := (entry.map fun e => e.label).getD ""
  (if symbol.isEmpty then [] else [symbol]) ++
    (if stateLabel.isEmpty then [] else [stateLabel]) ++
    (match label with
      | some l => if l.asStr.isEmpty then [] else [l.asStr]
      | none   => [])

/-- The border text of a state. -/
def borderFormatFor (theme : Option Theme) (state : AgentState) (label : Option ActivityLabel) :
    Option String :=
  if state = .idle then none
  else
    let parts := borderParts theme state label
    if parts.isEmpty then none
    else some (" " ++ String.intercalate " · " parts ++ " ")

/-! ### Validation -/

/-- Is it a pane identifier: `%` or `=`, and digits? -/
def validatePane (pane : String) : Bool :=
  if pane.utf8ByteSize < 2 then false
  else
    match pane.toList with
    | c :: cs => (c = '%' || c = '=') && cs.all Char.isDigit
    | []      => false

/-- May the text be an argument? -/
def validateArg (s : String) : Bool := s.toList.all fun c => c ∉ forbiddenChars

/-! ### Commands -/

section
variable {τ : Type} (tmux : Tmux τ)

/-- The command line of some arguments, with the pane after the first one. -/
def commandLine (args : List String) (pane : String) : List String :=
  match args with
  | first :: rest => first :: "-t" :: pane :: rest
  | []            => ["-t", pane]

/-- Runs one command for its effect. -/
def runTmux (t : τ) (args : List String) (pane : String) : τ × Except RendererError Unit :=
  match tmux t (commandLine args pane) with
  | (t, .cannotRun e)      => (t, .error (.failed ("cannot run tmux: " ++ e)))
  | (t, .failed stderr)    => (t, .error (.failed ("tmux command failed: " ++ trim stderr)))
  | (t, .succeeded _)      => (t, .ok ())

/-- Runs commands until one fails: the command lines sent, and the failure. -/
def runScript (pane : String) :
    List (List String) → τ → τ × List (List String) × Except RendererError Unit
  | [], t => (t, [], .ok ())
  | args :: script, t =>
    match runTmux tmux t args pane with
    | (t, .error e) => (t, [commandLine args pane], .error e)
    | (t, .ok ())   =>
      let (t, sent, result) := runScript pane script t
      (t, commandLine args pane :: sent, result)

/-- Runs one command for its output. -/
def tmuxOutput (t : τ) (args : List String) (pane : String) : τ × Option String :=
  match tmux t (args ++ ["-t", pane]) with
  | (t, .succeeded stdout) => (t, stdout.map trim)
  | (t, _)                 => (t, none)

/-- The arguments that ask for an option of a pane. -/
def captureArgs (option : String) : List String :=
  ["display-message", "-p", "-F", "#\x7b" ++ option ++ "\x7d"]

/-- Reads the three options of a pane. -/
def capturePaneState (t : τ) (pane : String) : τ × List (List String) × CapturedState :=
  let (t, borderStyle) := tmuxOutput tmux t (captureArgs "pane-border-style") pane
  let (t, borderFormat) := tmuxOutput tmux t (captureArgs "pane-border-format") pane
  let (t, borderStatus) := tmuxOutput tmux t (captureArgs "pane-border-status") pane
  (t, ["pane-border-style", "pane-border-format", "pane-border-status"].map fun option =>
      captureArgs option ++ ["-t", pane],
    { borderStyle, borderFormat, borderStatus })

/-- The arguments that set an option of a pane, or unset it. -/
def setOption (option : String) : Option String → List String
  | some value => ["set-option", "-p", option, value]
  | none       => ["set-option", "-p", "-u", option]

/-- The commands of a render. -/
def renderScript (theme : Option Theme) (view : StateView) : List (List String) :=
  if view.state = .idle then
    [setOption "pane-border-style" none, setOption "pane-border-format" none,
      setOption "pane-border-status" none]
  else
    (match borderStyleFor theme view.state with
      | some style => [setOption "pane-border-style" (some style)]
      | none       => []) ++
    (match borderFormatFor theme view.state view.label with
      | some format =>
          if validateArg format then
            [setOption "pane-border-status" (some "top"),
              setOption "pane-border-format" (some format)]
          else []
      | none => [])

/-- Captures the options of a pane if that has not been done before. -/
def captureOnce (r : TmuxRenderer) (t : τ) (pane : String) :
    TmuxRenderer × τ × List (List String) :=
  match r.prior[pane]? with
  | some _ => (r, t, [])
  | none   =>
    let (t, sent, captured) := capturePaneState tmux t pane
    ({ r with prior := r.prior.insert pane captured }, t, sent)

/-- Renders a view: the renderer and tmux after it, the command lines sent, and the
    failure. -/
def render (r : TmuxRenderer) (t : τ) (view : StateView) :
    TmuxRenderer × τ × List (List String) × Except RendererError Unit :=
  match view.target.terminal.tmuxPane with
  | none      => (r, t, [], .error (.unsupported "no tmux pane in render target"))
  | some pane =>
    if validatePane pane = false then
      (r, t, [], .error (.failed ("invalid tmux pane: " ++ pane)))
    else
      let (r, t, captures) := captureOnce tmux r t pane
      let (t, sent, result) := runScript tmux pane (renderScript r.theme view) t
      (r, t, captures ++ sent, result)

/-- The commands of a reset: each captured option is set again, each other one unset. -/
def resetScript (captured : Option CapturedState) : List (List String) :=
  [setOption "pane-border-style" (captured.bind CapturedState.borderStyle),
    setOption "pane-border-format" (captured.bind CapturedState.borderFormat),
    setOption "pane-border-status" (captured.bind CapturedState.borderStatus)]

/-- Resets a pane. -/
def reset (r : TmuxRenderer) (t : τ) (target : RenderTarget) :
    TmuxRenderer × τ × List (List String) × Except RendererError Unit :=
  match target.terminal.tmuxPane with
  | none      => (r, t, [], .error (.unsupported "no tmux pane in reset target"))
  | some pane =>
    if validatePane pane = false then
      (r, t, [], .error (.failed ("invalid tmux pane: " ++ pane)))
    else
      let captured := r.prior[pane]?
      let (t, sent, result) := runScript tmux pane (resetScript captured) t
      ({ r with prior := r.prior.erase pane }, t, sent, result)

/-- Only lines of the script are sent. -/
theorem mem_runScript {pane : String} {script : List (List String)} {t : τ} {line : List String}
    (h : line ∈ (runScript tmux pane script t).2.1) :
    ∃ args ∈ script, line = commandLine args pane := by
  induction script generalizing t with
  | nil => simp [runScript] at h
  | cons args script ih =>
    rw [runScript] at h
    split at h
    · exact ⟨args, List.mem_cons_self, List.mem_singleton.mp h⟩
    · rcases List.mem_cons.mp h with heq | hrest
      · exact ⟨args, List.mem_cons_self, heq⟩
      · obtain ⟨args', hmem, heq⟩ := ih hrest
        exact ⟨args', List.mem_cons_of_mem _ hmem, heq⟩

/-- If every command succeeds, the whole script is sent. -/
theorem runScript_of_succeeds (h : ∀ t args pane, (runTmux tmux t args pane).2 = .ok ())
    (pane : String) (script : List (List String)) (t : τ) :
    (runScript tmux pane script t).2.1 = script.map fun args => commandLine args pane := by
  induction script generalizing t with
  | nil => rfl
  | cons args script ih =>
    rw [runScript, List.map_cons]
    split
    · next heq =>
      have hok := h t args pane
      rw [heq] at hok
      exact absurd hok (by simp)
    · exact congrArg _ (ih _)

/-- The lines a capture sends. -/
theorem mem_captureOnce {r : TmuxRenderer} {t : τ} {pane : String} {line : List String}
    (h : line ∈ (captureOnce tmux r t pane).2.2) :
    ∃ option, line = captureArgs option ++ ["-t", pane] := by
  unfold captureOnce at h
  split at h
  · simp at h
  · obtain ⟨option, -, heq⟩ := List.mem_map.mp h
    exact ⟨option, heq.symm⟩

/-- A capture does not change the theme. -/
theorem captureOnce_theme (r : TmuxRenderer) (t : τ) (pane : String) :
    (captureOnce tmux r t pane).1.theme = r.theme := by
  unfold captureOnce
  split <;> rfl

end

end TmuxRenderer

end AgentTermStatus
