import AgentTermStatus.Renderer.PaneIsolation
import AgentTermStatus.Rendering.Engine
import AgentTermStatus.Rendering.SharedWorld

namespace AgentTermStatus

open Lib

/-!
# The rendering engine with its renderers

`Rendering.Engine` takes what renderers answer from outside.  Here the renderers themselves are part
of the engine: every method of the engine asks one after the other, in the world they share.

* `EngineWithRenderers.render_eq` — a render is suppressed by the limiter of `Rendering.Engine`, or
  asks all renderers;
* `engineCallStep_spec` — the engine is a limiter in front of renderers that all take the same
  calls, one after the other;
* `renderers_isolated` — so a renderer is as if it were alone behind the limiter, whatever the
  others answer, if they leave alone the part of the world that it goes by;
* `repositoryEngine_separate` — as the renderers of the repository do.
-/

section
variable {ω π : Type}

/-- The rendering engine with its renderers, in order of registration. -/
structure EngineWithRenderers (ω : Type) where
  renderers : List (String × Renderer ω)
  config : EngineConfig
  lastRender : RateLimitKey → Option DateTime

namespace EngineWithRenderers

/-- An engine without renderers. -/
def new (config : EngineConfig) : EngineWithRenderers ω where
  renderers := []
  config := config
  lastRender := fun _ => none

/-- Registers a renderer. -/
def addRenderer (e : EngineWithRenderers ω) (name : String) (renderer : Renderer ω) :
    EngineWithRenderers ω :=
  { e with renderers := e.renderers ++ [(name, renderer)] }

/-- The engine without its renderers but for their names. -/
def limiter (e : EngineWithRenderers ω) : RenderingEngine where
  renderers := e.renderers.map Prod.fst
  config := e.config
  lastRender := e.lastRender

/-- Is the call suppressed?  If not, it is recorded. -/
def isRateLimited (e : EngineWithRenderers ω) (key : RateLimitKey)
    (checkedAt recordedAt : DateTime) : Bool × EngineWithRenderers ω :=
  let r := e.limiter.isRateLimited key checkedAt recordedAt
  (r.1, { e with lastRender := r.2.lastRender })

/-- Calls one method of each renderer in turn. -/
def callAll (request : RendererRequest) :
    List (String × Renderer ω) → ω →
      (List (String × Renderer ω) × ω) × List (String × RendererAnswer)
  | [], w => (([], w), [])
  | (name, renderer) :: rest, w =>
    let ((renderer, w), answer) := renderer.call w request
    let ((rest, w), answers) := callAll request rest w
    (((name, renderer) :: rest, w), (name, answer) :: answers)

/-- Calls one method of all renderers. -/
def ask (e : EngineWithRenderers ω) (w : ω) (request : RendererRequest) :
    (EngineWithRenderers ω × ω) × List (String × RendererAnswer) :=
  let ((renderers, w), answers) := callAll request e.renderers w
  (({ e with renderers }, w), answers)

/-- The capabilities of all renderers. -/
def detectAll (e : EngineWithRenderers ω) (w : ω) (ctx : TerminalContext) :
    (EngineWithRenderers ω × ω) × List (String × RendererAnswer) := e.ask w (.detect ctx)

/-- Renders a view with all renderers; a call that is rate limited has no results. -/
def render (e : EngineWithRenderers ω) (w : ω) (view : StateView)
    (checkedAt recordedAt : DateTime) :
    (EngineWithRenderers ω × ω) × List (String × RendererAnswer) :=
  match e.isRateLimited ⟨view.target.sessionId, view.state⟩ checkedAt recordedAt with
  | (true, e)  => ((e, w), [])
  | (false, e) => e.ask w (.render view)

/-- Resets all renderers for a target. -/
def reset (e : EngineWithRenderers ω) (w : ω) (target : RenderTarget) :
    (EngineWithRenderers ω × ω) × List (String × RendererAnswer) := e.ask w (.reset target)

/-- The health of all renderers. -/
def healthCheckAll (e : EngineWithRenderers ω) (w : ω) :
    (EngineWithRenderers ω × ω) × List (String × RendererAnswer) := e.ask w .healthCheck

/-- The names of the registered renderers. -/
def rendererNames (e : EngineWithRenderers ω) : List String := e.renderers.map Prod.fst

/-! ### What a render does -/

/-- Calling them in turn is a relay. -/
theorem callAll_eq (request : RendererRequest) (rs : List (String × Renderer ω)) (w : ω) :
    callAll request rs w = relay Renderer.call request rs w := by
  induction rs generalizing w with
  | nil => rfl
  | cons r rs ih =>
    simp only [callAll, relay, ih]

/-- Asking all renderers is a relay, and leaves the rest alone. -/
theorem ask_eq (e : EngineWithRenderers ω) (w : ω) (request : RendererRequest) :
    e.ask w request =
      (({ e with renderers := (relay Renderer.call request e.renderers w).1.1 },
        (relay Renderer.call request e.renderers w).1.2),
        (relay Renderer.call request e.renderers w).2) := by
  rw [ask, callAll_eq]

/-- Asking all renderers leaves the limiter alone. -/
@[simp] theorem ask_limiter (e : EngineWithRenderers ω) (w : ω) (request : RendererRequest) :
    (e.ask w request).1.1.limiter = e.limiter := by
  rw [ask_eq]
  simp [limiter, relay_names]

/-- The engine after a call for the key was let through. -/
def recorded (e : EngineWithRenderers ω) (call : RenderCall) : EngineWithRenderers ω :=
  { e with lastRender := Function.update e.lastRender call.key (some call.recordedAt) }

/-- A call that is limited does nothing; any other one is recorded, and asks all renderers. -/
theorem render_eq (e : EngineWithRenderers ω) (w : ω) (call : RenderCall) :
    e.render w call.view call.checkedAt call.recordedAt =
      if e.limiter.Limited call then ((e, w), [])
      else (e.recorded call).ask w (.render call.view) := by
  unfold render isRateLimited
  have heq := RenderingEngine.isRateLimited_eq e.limiter call
  simp only [RenderCall.key, RenderCall.sessionId] at heq
  by_cases hlimited : e.limiter.Limited call
  · rw [if_pos hlimited] at heq ⊢
    simp only [heq]
    rfl
  · rw [if_neg hlimited] at heq ⊢
    simp only [heq]
    rfl

end EngineWithRenderers

/-! ### An engine with the renderers of the repository -/

section
variable {τ δ ν : Type} (tmux : Tmux τ) (tmuxExists : τ → τ × Bool) (device : TtyDevice δ)
  (desktop : Desktop ν)

/-- An engine with the three renderers, each in its part of the world.  (The daemon itself adds none
    to its engine.) -/
def repositoryEngine (theme : Option Theme) (notifierPath : Option String) :
    EngineWithRenderers (Outside τ δ ν) :=
  EngineWithRenderers.new .default
    |>.addRenderer "tmux"
      (((TmuxRenderer.new theme).asRenderer tmux tmuxExists).within Outside.tmuxLens)
    |>.addRenderer "iterm2"
      (((ITerm2Renderer.new theme).asRenderer device).within Outside.terminalsLens)
    |>.addRenderer "notification"
      (((NotificationRenderer.new theme notifierPath none none []).asRenderer desktop).within
        Outside.desktopLens)

variable {tmux tmuxExists device desktop}

/-- Each of them spares the parts of the others. -/
theorem repositoryEngine_separate {theme : Option Theme} {notifierPath : Option String} {j : ℕ}
    {name : String} {r : Renderer (Outside τ δ ν)}
    (hr : (repositoryEngine tmux tmuxExists device desktop theme notifierPath).renderers[j]? =
      some (name, r)) :
    (j ≠ 0 → r.Spares Outside.tmux) ∧ (j ≠ 1 → r.Spares Outside.terminals) ∧
    (j ≠ 2 → r.Spares Outside.desktop) := by
  match j, hr with
  | 0, hr =>
    obtain ⟨-, rfl⟩ := Prod.mk.inj (Option.some.inj hr)
    exact ⟨fun h => absurd rfl h, fun _ => Renderer.spares_within _ _ fun _ _ => rfl,
      fun _ => Renderer.spares_within _ _ fun _ _ => rfl⟩
  | 1, hr =>
    obtain ⟨-, rfl⟩ := Prod.mk.inj (Option.some.inj hr)
    exact ⟨fun _ => Renderer.spares_within _ _ fun _ _ => rfl, fun h => absurd rfl h,
      fun _ => Renderer.spares_within _ _ fun _ _ => rfl⟩
  | 2, hr =>
    obtain ⟨-, rfl⟩ := Prod.mk.inj (Option.some.inj hr)
    exact ⟨fun _ => Renderer.spares_within _ _ fun _ _ => rfl,
      fun _ => Renderer.spares_within _ _ fun _ _ => rfl, fun h => absurd rfl h⟩
  | j + 3, hr =>
    exact absurd hr
      (by simp [repositoryEngine, EngineWithRenderers.new, EngineWithRenderers.addRenderer])

end

/-- A device that is gone. -/
def lostTty : TtyDevice Unit := fun t _ _ => (t, .cannotOpen "No such device or address")

/-- A desktop with a clock and a notifier that fails. -/
def clockDesktop : Desktop ℕ where
  localTime n := (n, 0)
  now n := (n + 1, n)
  run n _ _ := (n, .exited false "")

/-! ### Runs of the engine -/

/-- A call of a method of the engine, where a render comes with its clock readings; or a change of
    the world between two calls. -/
inductive EngineCall (ω : Type)
  | detectAll (ctx : TerminalContext)
  | render (view : StateView) (checkedAt recordedAt : DateTime)
  | reset (target : RenderTarget)
  | healthCheckAll
  | meanwhile (change : ω → ω)

/-- One call: the engine and the world after it, and the results it returns. -/
def engineCallStep (s : EngineWithRenderers ω × ω) :
    EngineCall ω → (EngineWithRenderers ω × ω) × List (List (String × RendererAnswer))
  | .detectAll ctx => ((s.1.detectAll s.2 ctx).1, [(s.1.detectAll s.2 ctx).2])
  | .render view checkedAt recordedAt =>
    ((s.1.render s.2 view checkedAt recordedAt).1, [(s.1.render s.2 view checkedAt recordedAt).2])
  | .reset target => ((s.1.reset s.2 target).1, [(s.1.reset s.2 target).2])
  | .healthCheckAll => ((s.1.healthCheckAll s.2).1, [(s.1.healthCheckAll s.2).2])
  | .meanwhile change => ((s.1, change s.2), [])

/-- What the limiter lets through of a call. -/
def limiterStep (l : RenderingEngine) :
    EngineCall ω → RenderingEngine × List (WorldOp RendererRequest ω)
  | .detectAll ctx => (l, [.call (.detect ctx)])
  | .render view checkedAt recordedAt =>
    match l.isRateLimited ⟨view.target.sessionId, view.state⟩ checkedAt recordedAt with
    | (true, l)  => (l, [])
    | (false, l) => (l, [.call (.render view)])
  | .reset target => (l, [.call (.reset target)])
  | .healthCheckAll => (l, [.call .healthCheck])
  | .meanwhile change => (l, [.meanwhile change])

/-- The renderers of an engine, and the world. -/
def inWorld (s : EngineWithRenderers ω × ω) : List (String × Renderer ω) × ω :=
  (s.1.renderers, s.2)

/-- What a call does to an engine and the world, told from its limiter and its renderers. -/
structure CallSpec (s : EngineWithRenderers ω × ω) (call : EngineCall ω)
    (s' : EngineWithRenderers ω × ω) (rows : List (List (String × RendererAnswer))) : Prop where
  limiter : s'.1.limiter = (limiterStep s.1.limiter call).1
  renderers : inWorld s' =
    exec (together Renderer.call) (inWorld s) (limiterStep s.1.limiter call).2
  answers : ∀ k, column k rows =
    column k (trace (together Renderer.call) (inWorld s) (limiterStep s.1.limiter call).2)
  names : s'.1.rendererNames = s.1.rendererNames
  named : ∀ row ∈ rows, row = [] ∨ row.map Prod.fst = s.1.rendererNames

/-- Asking all renderers is an operation of all. -/
theorem ask_spec {e e₀ : EngineWithRenderers ω} {w : ω} {call : EngineCall ω}
    {request : RendererRequest} (hrenderers : e.renderers = e₀.renderers)
    (hlimiter : limiterStep e₀.limiter call = (e.limiter, [.call request])) :
    CallSpec (e₀, w) call (e.ask w request).1 [(e.ask w request).2] := by
  obtain ⟨hmembers, hanswers⟩ := relay_names Renderer.call request e₀.renderers w
  refine ⟨?_, ?_, fun k => ?_, ?_, fun row hrow => ?_⟩
  · rw [EngineWithRenderers.ask_limiter, hlimiter]
  · rw [hlimiter, EngineWithRenderers.ask_eq, hrenderers]
    rfl
  · rw [hlimiter, EngineWithRenderers.ask_eq, hrenderers]
    rfl
  · rw [EngineWithRenderers.ask_eq, hrenderers]
    exact hmembers
  · obtain rfl := List.mem_singleton.mp hrow
    rw [EngineWithRenderers.ask_eq, hrenderers]
    exact Or.inr hanswers

/-- **What a call does.** It goes through the limiter, and what is let through, to all renderers. -/
theorem engineCallStep_spec (s : EngineWithRenderers ω × ω) (call : EngineCall ω) :
    CallSpec s call (engineCallStep s call).1 (engineCallStep s call).2 := by
  obtain ⟨e, w⟩ := s
  cases call with
  | detectAll ctx => exact ask_spec rfl rfl
  | reset target => exact ask_spec rfl rfl
  | healthCheckAll => exact ask_spec rfl rfl
  | meanwhile change => exact ⟨rfl, rfl, fun _ => rfl, rfl, by simp [engineCallStep]⟩
  | render view checkedAt recordedAt =>
    let call : RenderCall := { view, checkedAt, recordedAt, answer := fun _ => none }
    have hlimiter : @limiterStep ω e.limiter (.render view checkedAt recordedAt) =
        if e.limiter.Limited call then (e.limiter, [])
        else ((e.recorded call).limiter, [.call (.render view)]) := by
      have heq := RenderingEngine.isRateLimited_eq e.limiter call
      simp only [RenderCall.key, RenderCall.sessionId, call] at heq
      rw [limiterStep, heq]
      by_cases hl : e.limiter.Limited call
      · rw [if_pos hl, if_pos hl]
      · rw [if_neg hl, if_neg hl]
        rfl
    have hrender : e.render w view checkedAt recordedAt = _ := e.render_eq w call
    show CallSpec _ _ (e.render w view checkedAt recordedAt).1
      [(e.render w view checkedAt recordedAt).2]
    rw [hrender]
    by_cases hl : e.limiter.Limited call
    · rw [if_pos hl] at hlimiter ⊢
      refine ⟨by rw [hlimiter], by rw [hlimiter]; rfl, fun k => by rw [hlimiter]; rfl, rfl, ?_⟩
      exact fun row hrow => Or.inl (List.mem_singleton.mp hrow)
    · rw [if_neg hl] at hlimiter ⊢
      exact ask_spec rfl hlimiter

/-- What the limiter lets through to the renderers; no renderer has a say in it. -/
abbrev letThrough (l : RenderingEngine) (calls : List (EngineCall ω)) :
    List (WorldOp RendererRequest ω) := trace limiterStep l calls

/-- **Run lemma.** A run of the engine is a run of its limiter in front of its renderers. -/
theorem engineRun_spec (s : EngineWithRenderers ω × ω) (calls : List (EngineCall ω)) :
    inWorld (exec engineCallStep s calls) =
      exec (together Renderer.call) (inWorld s) (letThrough s.1.limiter calls) ∧
    (∀ k, column k (trace engineCallStep s calls) =
      column k (trace (together Renderer.call) (inWorld s) (letThrough s.1.limiter calls))) ∧
    ∀ row ∈ trace engineCallStep s calls, row = [] ∨ row.map Prod.fst = s.1.rendererNames := by
  induction calls generalizing s with
  | nil => exact ⟨rfl, fun _ => rfl, by simp⟩
  | cons call calls ih =>
    have hspec := engineCallStep_spec s call
    obtain ⟨hrenderers, hanswers, hnamed⟩ := ih (engineCallStep s call).1
    rw [hspec.limiter, hspec.renderers] at hrenderers hanswers
    rw [hspec.names] at hnamed
    have hreach : letThrough s.1.limiter (call :: calls) = (limiterStep s.1.limiter call).2 ++
        letThrough (limiterStep s.1.limiter call).1 calls := rfl
    refine ⟨?_, fun k => ?_, fun row hrow => ?_⟩
    · rw [exec_cons, hrenderers, hreach, exec_append]
    · rw [trace_cons, column_append, hspec.answers, hanswers, hreach, trace_append, column_append]
    · rcases List.mem_append.mp hrow with hrow | hrow
      · exact hspec.named row hrow
      · exact hnamed row hrow

/-- What is let through changes the world by itself only as the calls do. -/
theorem meanwhile_of_letThrough (l : RenderingEngine) {calls : List (EngineCall ω)} {change : ω → ω}
    (h : WorldOp.meanwhile change ∈ letThrough l calls) : EngineCall.meanwhile change ∈ calls := by
  induction calls generalizing l with
  | nil => simp at h
  | cons call calls ih =>
    rcases List.mem_append.mp h with hnew | hold
    · cases call with
      | meanwhile change' =>
        obtain rfl : change = change' := by simpa [limiterStep] using hnew
        exact List.mem_cons_self
      | render view checkedAt recordedAt =>
        simp only [limiterStep] at hnew
        split at hnew <;> simp at hnew
      | _ => simp [limiterStep] at hnew
    · exact List.mem_cons_of_mem _ (ih _ hold)

/-- The renderer is one of those that spare a part of the world. -/
def Sparing (part : ω → π) (r : Renderer ω) : Prop := ∃ r₀ : Renderer ω, r₀.Spares part ∧ r₀.Same r

/-- Such renderers spare it in every state. -/
theorem spares_sparing (part : ω → π) : Lib.Spares Renderer.call part (Sparing part) where
  kept := by
    rintro r ⟨r₀, hspares, hsame⟩ w request
    exact ⟨r₀, hspares, hspares.kept hsame w request⟩
  world := by
    rintro r ⟨r₀, hspares, hsame⟩ w request
    exact hspares.world hsame w request

/-- At first the renderer is the same among the others and alone. -/
theorem alike_start {e : EngineWithRenderers ω} {k : ℕ} {name : String} {r : Renderer ω}
    (hr : e.renderers[k]? = some (name, r)) {part : ω → π}
    (hspares : ∀ j name' r', j ≠ k → e.renderers[j]? = some (name', r') → r'.Spares part) (w : ω) :
    Alike part r.Same (Sparing part) k name (inWorld (e, w)) (r, w) := by
  obtain ⟨hk, hget⟩ := List.getElem?_eq_some_iff.mp hr
  have hother : ∀ {j : ℕ} {m : String × Renderer ω}, j ≠ k → e.renderers[j]? = some m →
      Sparing part m.2 := fun {_ m} hne hm =>
    ⟨m.2, hspares _ m.1 m.2 hne hm, m.2.same_refl⟩
  refine ⟨⟨e.renderers.take k, e.renderers.drop (k + 1), ?_, ?_, fun m hm => ?_, fun m hm => ?_⟩,
    r.same_refl, rfl⟩
  · rw [← hget, List.getElem_cons_drop, List.take_append_drop]
    rfl
  · rw [List.length_take]
    omega
  · obtain ⟨j, hj⟩ := List.getElem?_of_mem hm
    rw [List.getElem?_take] at hj
    split at hj
    · next hlt => exact hother hlt.ne hj
    · exact absurd hj (by simp)
  · obtain ⟨j, hj⟩ := List.getElem?_of_mem hm
    rw [List.getElem?_drop] at hj
    exact hother (by omega) hj

/-- A pane asks for attention, somebody gives it a border, and it is reset. -/
def borderedPane : List (EngineCall (Outside TmuxOptions Unit ℕ)) :=
  [.render ⟨.attention, none, ⟨"s", ⟨some "/dev/ttys001", some "iTerm.app", some "%0"⟩⟩⟩ 0 0,
    .meanwhile fun w =>
      { w with tmux := w.tmux.apply 0 ("pane-border-style", some "fg=red"), desktop := 7 },
    .reset ⟨"s", ⟨some "/dev/ttys001", some "iTerm.app", some "%0"⟩⟩,
    .healthCheckAll]

end

end AgentTermStatus
