import AgentTermStatus.Lib.Compose
import AgentTermStatus.Renderer.ITerm2
import AgentTermStatus.Renderer.Notification
import AgentTermStatus.Renderer.TmuxVersion

namespace AgentTermStatus

open Lib

/-!
# Renderers and the world they share

A renderer is what stands behind the trait: methods that read and change a state of its own, and the
world, which it shares with other renderers.  The methods return: a renderer that panics is not
modelled.

* `Renderer.ConfinedTo`, `Renderer.Spares` — the part of the world a renderer goes by, and parts it
  leaves alone;
* `Renderer.within` — a renderer of a part of the world as one of the world; it is confined to that
  part (`confinedTo_within`) and spares the others (`spares_within`);
* `TmuxRenderer.asRenderer`, `ITerm2Renderer.asRenderer`, `NotificationRenderer.asRenderer` — the
  renderers of the repository: one meets tmux, one the terminals, one the desktop.
-/

/-- Liveness of a renderer. -/
inductive HealthStatus
  /-- Fully operational. -/
  | healthy
  /-- Usable but with reduced fidelity. -/
  | degraded (reason : String)
  /-- Not usable right now. -/
  | unavailable (reason : String)
  deriving DecidableEq

/-- A renderer in a world `ω`: its methods, and the state of its own that they read and change
    beside the world. -/
structure Renderer (ω : Type) where
  State : Type
  state : State
  detect : State → ω → TerminalContext → (State × ω) × Except RendererError RendererCapabilities
  render : State → ω → StateView → (State × ω) × Except RendererError Unit
  reset : State → ω → RenderTarget → (State × ω) × Except RendererError Unit
  healthCheck : State → ω → (State × ω) × HealthStatus

/-- A call of a method of a renderer. -/
inductive RendererRequest
  | detect (ctx : TerminalContext)
  | render (view : StateView)
  | reset (target : RenderTarget)
  | healthCheck

/-- What a method of a renderer returns. -/
inductive RendererAnswer
  | detected (capabilities : Except RendererError RendererCapabilities)
  /-- Of a render or a reset: the error, if it failed. -/
  | drawn (error : Option RendererError)
  | health (status : HealthStatus)
  deriving DecidableEq

/-- The error of a result. -/
def errorOf : Except RendererError Unit → Option RendererError
  | .ok ()   => none
  | .error e => some e

section
variable {ω π ρ : Type}

namespace Renderer

/-- The renderer in another state. -/
def withState (r : Renderer ω) (state : r.State) : Renderer ω := { r with state }

/-- One call of a method. -/
def call (r : Renderer ω) (w : ω) : RendererRequest → (Renderer ω × ω) × RendererAnswer
  | .detect ctx =>
    let ((state, w), capabilities) := r.detect r.state w ctx
    ((r.withState state, w), .detected capabilities)
  | .render view =>
    let ((state, w), result) := r.render r.state w view
    ((r.withState state, w), .drawn (errorOf result))
  | .reset target =>
    let ((state, w), result) := r.reset r.state w target
    ((r.withState state, w), .drawn (errorOf result))
  | .healthCheck =>
    let ((state, w), status) := r.healthCheck r.state w
    ((r.withState state, w), .health status)

/-- The same renderer, in whatever state. -/
def Same (r r' : Renderer ω) : Prop := ∃ state, r' = r.withState state

/-- What the renderer does depends on a part of the world alone, and so does what becomes of that
    part. -/
def ConfinedTo (part : ω → π) (r : Renderer ω) : Prop := Lib.ConfinedTo call part r.Same

/-- The renderer leaves a part of the world as it is. -/
def Spares (part : ω → π) (r : Renderer ω) : Prop := Lib.Spares call part r.Same

@[simp] theorem same_refl (r : Renderer ω) : r.Same r := ⟨r.state, rfl⟩

/-! ### A renderer of a part of the world -/

/-- A call leaves a renderer the same. -/
theorem same_call (r : Renderer ω) (w : ω) (request : RendererRequest) :
    r.Same (r.call w request).1.1 := by
  cases request <;> exact ⟨_, rfl⟩

/-- A renderer of a part of the world, in the world. -/
def within (L : Lens ω π) (r : Renderer π) : Renderer ω where
  State := r.State
  state := r.state
  detect s w ctx :=
    let ((s, p), capabilities) := r.detect s (L.get w) ctx
    ((s, L.set p w), capabilities)
  render s w view :=
    let ((s, p), result) := r.render s (L.get w) view
    ((s, L.set p w), result)
  reset s w target :=
    let ((s, p), result) := r.reset s (L.get w) target
    ((s, L.set p w), result)
  healthCheck s w :=
    let ((s, p), status) := r.healthCheck s (L.get w)
    ((s, L.set p w), status)

/-- A call of it, in whatever state, is one in its part. -/
theorem call_within (L : Lens ω π) (r : Renderer π) (state : r.State) (w : ω)
    (request : RendererRequest) :
    ((r.within L).withState state).call w request =
      ((((r.withState state).call (L.get w) request).1.1.within L,
          L.set ((r.withState state).call (L.get w) request).1.2 w),
        ((r.withState state).call (L.get w) request).2) := by
  cases request <;> rfl

/-- It stays the same. -/
theorem same_within (L : Lens ω π) (r : Renderer π) (state : r.State) (w : ω)
    (request : RendererRequest) :
    (r.within L).Same (((r.within L).withState state).call w request).1.1 := by
  obtain ⟨state', hstate⟩ := (r.withState state).same_call (L.get w) request
  rw [call_within, hstate]
  exact ⟨state', rfl⟩

/-- **A renderer of a part is confined to it.** -/
theorem confinedTo_within (L : Lens ω π) (r : Renderer π) : (r.within L).ConfinedTo L.get where
  kept := by
    rintro _ ⟨state, rfl⟩ w request
    exact same_within L r state w request
  member := by
    rintro _ w w' ⟨state, rfl⟩ hpart request
    rw [call_within L r state w, call_within L r state w', hpart]
  world := by
    rintro _ w w' ⟨state, rfl⟩ hpart request
    rw [call_within L r state w, call_within L r state w', hpart, L.get_set, L.get_set]
  answer := by
    rintro _ w w' ⟨state, rfl⟩ hpart request
    rw [call_within L r state w, call_within L r state w', hpart]

/-- **A renderer of a part spares** whatever does not change with this part. -/
theorem spares_within (L : Lens ω π) (r : Renderer π) {part : ω → ρ}
    (hpart : ∀ p w, part (L.set p w) = part w) : (r.within L).Spares part where
  kept := by
    rintro _ ⟨state, rfl⟩ w request
    exact same_within L r state w request
  world := by
    rintro _ ⟨state, rfl⟩ w request
    rw [call_within L r state w]
    exact hpart _ _

end Renderer

end

/-! ### The renderers of the repository -/

section
variable {τ δ ν : Type}

/-- Is tmux there, and new enough? -/
def TmuxRenderer.healthCheck (tmux : Tmux τ) (tmuxExists : τ → τ × Bool) (t : τ) :
    τ × HealthStatus :=
  match tmuxExists t with
  | (t, false) => (t, .unavailable "tmux not found")
  | (t, true)  =>
    match checkTmuxVersion tmux t with
    | (t, some version) =>
      if version.AtLeast minTmuxVersion then (t, .healthy)
      else
        (t, .degraded ("tmux < " ++ toString minTmuxVersion.major ++ "." ++
          toString minTmuxVersion.minor ++ " — pane border not isolated"))
    | (t, none) => (t, .degraded "cannot determine tmux version")

/-- The tmux renderer; `tmuxExists` is what `which` says of tmux. -/
def TmuxRenderer.asRenderer (tmux : Tmux τ) (tmuxExists : τ → τ × Bool) (r : TmuxRenderer) :
    Renderer τ where
  State := TmuxRenderer
  state := r
  detect r t ctx :=
    let (t, capabilities) := TmuxRenderer.detect tmux t ctx
    ((r, t), capabilities)
  render r t view :=
    let (r, t, _, result) := r.render tmux t view
    ((r, t), result)
  reset r t target :=
    let (r, t, _, result) := r.reset tmux t target
    ((r, t), result)
  healthCheck r t :=
    let (t, status) := TmuxRenderer.healthCheck tmux tmuxExists t
    ((r, t), status)

/-- The iTerm2 renderer. -/
def ITerm2Renderer.asRenderer (device : TtyDevice δ) (r : ITerm2Renderer) : Renderer δ where
  State := ITerm2Renderer
  state := r
  detect r t ctx := ((r, t), ITerm2Renderer.detect ctx)
  render r t view :=
    let (r, t, _, result) := r.render device t view
    ((r, t), result)
  reset r t target :=
    let (r, t, _, result) := r.reset device t target
    ((r, t), result)
  healthCheck r t := ((r, t), .healthy)

/-- A desktop with states `ν`: its clocks, and what a run of the notifier does. -/
structure Desktop (ν : Type) where
  localTime : ν → ν × NaiveTime
  now : ν → ν × DateTime
  run : ν → String → List String → ν × NotifierOutput

namespace NotificationRenderer

/-- The capabilities: notifications, if there is a notifier. -/
def detect (r : NotificationRenderer) : Except RendererError RendererCapabilities :=
  if r.notifierPath.isSome then .ok { notification := true }
  else .error (.unsupported (notifierBin ++ " not found — notifications unavailable"))

/-- Is there a notifier? -/
def healthCheck (r : NotificationRenderer) : HealthStatus :=
  if r.notifierPath.isSome then .healthy else .unavailable (notifierBin ++ " not found")

/-- A render on a desktop.  The clocks may be read once more than they are asked; the notifier is
    run if there is an attempt. -/
def renderOn (desktop : Desktop ν) (r : NotificationRenderer) (n : ν) (view : StateView) :
    NotificationRenderer × ν :=
  let (n, localTime) := desktop.localTime n
  let (n, checkedAt) := desktop.now n
  let (n, recordedAt) := desktop.now n
  let args := notifierArgs (r.buildTitle view.state) (r.buildBody view.state view.label)
    (buildSound view.state)
  let (ran, output) := desktop.run n (r.notifierPath.getD notifierBin) args
  let (r, attempts) := r.render { view, localTime, checkedAt, recordedAt, output }
  (r, if attempts.isEmpty then n else ran)

/-- The notification renderer; it never fails to render. -/
def asRenderer (desktop : Desktop ν) (r : NotificationRenderer) : Renderer ν where
  State := NotificationRenderer
  state := r
  detect r n _ := ((r, n), r.detect)
  render r n view := (r.renderOn desktop n view, .ok ())
  reset r n _ := ((r, n), .ok ())
  healthCheck r n := ((r, n), r.healthCheck)

end NotificationRenderer

/-- What the renderers of the repository meet. -/
structure Outside (τ δ ν : Type) where
  tmux : τ
  terminals : δ
  desktop : ν

namespace Outside

/-- The tmux server. -/
def tmuxLens : Lens (Outside τ δ ν) τ := ⟨tmux, fun t w => { w with tmux := t }, fun _ _ => rfl⟩

/-- The devices of the terminals. -/
def terminalsLens : Lens (Outside τ δ ν) δ :=
  ⟨terminals, fun t w => { w with terminals := t }, fun _ _ => rfl⟩

/-- The desktop. -/
def desktopLens : Lens (Outside τ δ ν) ν :=
  ⟨desktop, fun n w => { w with desktop := n }, fun _ _ => rfl⟩

end Outside

end

end AgentTermStatus
