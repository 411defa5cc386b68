import AgentTermStatus.Renderer.TmuxOptions
import AgentTermStatus.Rendering.Engine

namespace AgentTermStatus

open Lib

/-!
# How the tmux renderer is reached

The rendering engine hands views and resets to its renderers, here a tmux renderer; the command
line renders and resets without a daemon, with a tmux renderer of its own (`standaloneRender`,
`standaloneReset`).  None of these paths asks `TmuxRenderer.detect` first.

Whatever the path, a request is an attempt to make some settings for a target, or none
(`Request.attempt`, `serve_tmux`).
-/

/-- A rendering engine with its tmux renderer, and tmux. -/
structure RenderState (τ : Type) where
  engine : RenderingEngine
  renderer : TmuxRenderer
  tmux : τ

/-- A call of one of the entry points. -/
inductive Request
  /-- `RenderingEngine::render`, with its clock readings. -/
  | render (view : StateView) (checkedAt recordedAt : DateTime)
  /-- `RenderingEngine::reset`. -/
  | reset (target : RenderTarget)
  /-- `standalone_render`, with the bundled theme it loads and the variable `TMUX_PANE`. -/
  | standaloneRender (theme : Theme) (tmuxPane : Option String) (state : AgentState)
      (label : Option String)
  /-- `standalone_reset`, with the variable `TMUX_PANE`. -/
  | standaloneReset (tmuxPane : Option String)

/-- The target of the standalone paths. -/
def standaloneTarget (tmuxPane : Option String) : RenderTarget where
  sessionId := "standalone"
  terminal := { TerminalContext.default with tmuxPane }

/-- The view of a standalone render. -/
def standaloneView (tmuxPane : Option String) (state : AgentState) (label : Option String) :
    StateView where
  state := state
  label := label.map ActivityLabel.new
  target := standaloneTarget tmuxPane

section
variable {τ : Type} (tmux : Tmux τ)

/-- Renders a state directly; a failure is only reported. -/
def standaloneRender (theme : Theme) (tmuxPane : Option String) (state : AgentState)
    (label : Option String) (t : τ) : τ :=
  match tmuxPane with
  | none   => t
  | some _ =>
    ((TmuxRenderer.new (some theme)).render tmux t (standaloneView tmuxPane state label)).2.1

/-- Resets the current terminal directly; a failure is only reported. -/
def standaloneReset (tmuxPane : Option String) (t : τ) : τ :=
  match tmuxPane with
  | none   => t
  | some _ => ((TmuxRenderer.new none).reset tmux t (standaloneTarget tmuxPane)).2.1

/-- Serves a request. -/
def serve (s : RenderState τ) : Request → RenderState τ
  | .render view checkedAt recordedAt =>
    -- a call for the same session and state within the window is suppressed
    match s.engine.isRateLimited ⟨view.target.sessionId, view.state⟩ checkedAt recordedAt with
    | (true, engine)  => { s with engine }
    | (false, engine) =>
      let (renderer, t, _) := s.renderer.render tmux s.tmux view
      { engine, renderer, tmux := t }
  | .reset target =>
    let (renderer, t, _) := s.renderer.reset tmux s.tmux target
    { s with renderer, tmux := t }
  | .standaloneRender theme tmuxPane state label =>
    { s with tmux := standaloneRender tmux theme tmuxPane state label s.tmux }
  | .standaloneReset tmuxPane => { s with tmux := standaloneReset tmux tmuxPane s.tmux }

/-- The pane a request is for. -/
def Request.target : Request → Option String
  | .render view _ _                  => view.target.terminal.tmuxPane
  | .reset target                     => target.terminal.tmuxPane
  | .standaloneRender _ tmuxPane _ _  => tmuxPane
  | .standaloneReset tmuxPane         => tmuxPane

/-! ### Requests as attempts -/

/-- An attempt to make some settings for a target, from a state of tmux on. -/
structure Attempt (τ : Type) where
  target : String
  changes : List Setting
  tmux : τ

/-- What a render attempts: the options are captured, and then set. -/
def TmuxRenderer.renderAttempt (r : TmuxRenderer) (t : τ) (view : StateView) :
    Option (Attempt τ) :=
  match view.target.terminal.tmuxPane with
  | none => none
  | some pane =>
    if validatePane pane = false then none
    else some ⟨pane, renderSettings r.theme view, (captureOnce tmux r t pane).2.1⟩

/-- What a reset attempts. -/
def TmuxRenderer.resetAttempt (r : TmuxRenderer) (t : τ) (target : RenderTarget) :
    Option (Attempt τ) :=
  match target.terminal.tmuxPane with
  | none => none
  | some pane =>
    if validatePane pane = false then none
    else some ⟨pane, resetSettings r.prior[pane]?, t⟩

/-- What a request attempts; a render that is suppressed attempts nothing. -/
def Request.attempt (s : RenderState τ) : Request → Option (Attempt τ)
  | .render view checkedAt recordedAt =>
    if (s.engine.isRateLimited ⟨view.target.sessionId, view.state⟩ checkedAt recordedAt).1 then none
    else s.renderer.renderAttempt tmux s.tmux view
  | .reset target => s.renderer.resetAttempt s.tmux target
  | .standaloneRender theme tmuxPane state label =>
    (TmuxRenderer.new (some theme)).renderAttempt tmux s.tmux (standaloneView tmuxPane state label)
  | .standaloneReset tmuxPane =>
    (TmuxRenderer.new none).resetAttempt s.tmux (standaloneTarget tmuxPane)

/-- What comes of an attempt. -/
def Attempt.run (a : Attempt τ) : τ :=
  (TmuxRenderer.runScript tmux a.target (a.changes.map TmuxRenderer.settingArgs) a.tmux).1

variable {tmux}

theorem render_tmux (r : TmuxRenderer) (t : τ) (view : StateView) :
    (r.render tmux t view).2.1 = ((r.renderAttempt tmux t view).map (Attempt.run tmux)).getD t := by
  unfold TmuxRenderer.render TmuxRenderer.renderAttempt
  cases view.target.terminal.tmuxPane with
  | none => rfl
  | some pane =>
    by_cases hvalid : TmuxRenderer.validatePane pane = false
    · simp only [if_pos hvalid]
      rfl
    · simp only [if_neg hvalid]
      rw [Option.map_some, Option.getD_some, Attempt.run]
      show (TmuxRenderer.runScript tmux pane (TmuxRenderer.renderScript _ view) _).1 = _
      rw [TmuxRenderer.captureOnce_theme, TmuxRenderer.renderScript_eq]

theorem reset_tmux (r : TmuxRenderer) (t : τ) (target : RenderTarget) :
    (r.reset tmux t target).2.1 = ((r.resetAttempt t target).map (Attempt.run tmux)).getD t := by
  unfold TmuxRenderer.reset TmuxRenderer.resetAttempt
  cases target.terminal.tmuxPane with
  | none => rfl
  | some pane =>
    by_cases hvalid : TmuxRenderer.validatePane pane = false
    · simp only [if_pos hvalid]
      rfl
    · simp only [if_neg hvalid]
      rw [Option.map_some, Option.getD_some, Attempt.run]
      show (TmuxRenderer.runScript tmux pane (TmuxRenderer.resetScript _) _).1 = _
      rw [TmuxRenderer.resetScript_eq]

/-- **What a request does to tmux**, it does by what it attempts. -/
theorem serve_tmux (s : RenderState τ) (req : Request) :
    (serve tmux s req).tmux = ((req.attempt tmux s).map (Attempt.run tmux)).getD s.tmux := by
  cases req with
  | render view checkedAt recordedAt =>
    simp only [serve, Request.attempt]
    split
    · next engine hlimited => simp [hlimited]
    · next engine hlimited =>
      rw [hlimited]
      exact render_tmux s.renderer s.tmux view
  | reset target => exact reset_tmux s.renderer s.tmux target
  | standaloneRender theme tmuxPane state label =>
    show standaloneRender tmux theme tmuxPane state label s.tmux = _
    cases tmuxPane with
    | none => rfl
    | some pane => exact render_tmux _ s.tmux _
  | standaloneReset tmuxPane =>
    show standaloneReset tmux tmuxPane s.tmux = _
    cases tmuxPane with
    | none => rfl
    | some pane => exact reset_tmux _ s.tmux _

variable {options : τ → TmuxOptions}

/-- Capturing changes no option. -/
theorem captureOnce_options (h : KeepsOptions tmux options) (r : TmuxRenderer) (t : τ)
    (pane : String) : options (r.captureOnce tmux t pane).2.1 = options t := by
  -- each of the three questions is a query
  have hask : ∀ (t : τ) (option : String),
      options (TmuxRenderer.tmuxOutput tmux t (TmuxRenderer.captureArgs option) pane).1 =
        options t := by
    intro t option
    rw [← h.query t pane option, TmuxRenderer.tmuxOutput]
    split <;> simp_all
  unfold TmuxRenderer.captureOnce
  split
  · rfl
  · show options (TmuxRenderer.capturePaneState tmux t pane).1 = options t
    unfold TmuxRenderer.capturePaneState
    simp only [hask]

/-- An attempt is made for the target, in a tmux with the same options, and sets each of the three
    options at most once. -/
structure Attempt.Fits (options : τ → TmuxOptions) (t : τ) (target : Option String)
    (a : Attempt τ) : Prop where
  target : target = some a.target
  options : options a.tmux = options t
  mem : ∀ c ∈ a.changes, c.1 ∈ borderOptions
  nodup : (a.changes.map Prod.fst).Nodup

theorem fits_renderAttempt (h : KeepsOptions tmux options) {r : TmuxRenderer} {t : τ}
    {view : StateView} {a : Attempt τ} (ha : r.renderAttempt tmux t view = some a) :
    a.Fits options t view.target.terminal.tmuxPane := by
  unfold TmuxRenderer.renderAttempt at ha
  split at ha
  · exact absurd ha (by simp)
  · next pane hpane =>
    obtain ⟨-, heq⟩ := Option.ite_none_left_eq_some.mp ha
    obtain rfl := Option.some.inj heq
    exact ⟨hpane, captureOnce_options h r t pane, TmuxRenderer.mem_renderSettings r.theme view,
      TmuxRenderer.nodup_renderSettings r.theme view⟩

theorem fits_resetAttempt {r : TmuxRenderer} {t : τ} {target : RenderTarget} {a : Attempt τ}
    (ha : r.resetAttempt t target = some a) : a.Fits options t target.terminal.tmuxPane := by
  unfold TmuxRenderer.resetAttempt at ha
  split at ha
  · exact absurd ha (by simp)
  · next pane hpane =>
    obtain ⟨-, heq⟩ := Option.ite_none_left_eq_some.mp ha
    obtain rfl := Option.some.inj heq
    exact ⟨hpane, rfl, TmuxRenderer.mem_resetSettings _, TmuxRenderer.nodup_resetSettings _⟩

/-- The attempt of a request is made for its target. -/
theorem fits_attempt (h : KeepsOptions tmux options) {s : RenderState τ} {req : Request}
    {a : Attempt τ} (ha : req.attempt tmux s = some a) : a.Fits options s.tmux req.target := by
  cases req with
  | render view checkedAt recordedAt =>
    exact fits_renderAttempt h (Option.ite_none_left_eq_some.mp ha).2
  | reset target => exact fits_resetAttempt ha
  | standaloneRender theme tmuxPane state label => exact fits_renderAttempt h ha
  | standaloneReset tmuxPane => exact fits_resetAttempt ha

end

end AgentTermStatus
