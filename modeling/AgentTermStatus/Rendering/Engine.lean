import AgentTermStatus.Renderer.View
import AgentTermStatus.Lib.Run
import Mathlib.Logic.Function.Basic

namespace AgentTermStatus

open Lib

/-!
# The rendering engine and its rate limiter

`RenderingEngine.render` hands a view to every registered renderer unless the limiter
suppresses it.  The limiter remembers, for each pair of a session and a state, when that
pair was last let through; it does not remember which state a session shows.

A call comes with the two clock readings the limiter makes, one to judge the call and one
to record it, and with what each renderer answers.  `Display` adds to the engine what a
user sees and what was asked for, session by session.
-/

/-- Default cooldown between same-state renders on the same target, in milliseconds. -/
def defaultRenderCooldownMs : Int := 250

/-- What the limiter keeps a timestamp for. -/
structure RateLimitKey where
  sessionId : String
  state : AgentState
  deriving DecidableEq

/-- Configuration of the rendering engine. -/
structure EngineConfig where
  renderCooldownMs : Int

/-- The default configuration. -/
def EngineConfig.default : EngineConfig := ⟨defaultRenderCooldownMs⟩

/-- Result of a single renderer dispatch. -/
structure RenderResult where
  rendererName : String
  error : Option RendererError

/-- The rendering engine: the names of its renderers, and the limiter's timestamps. -/
structure RenderingEngine where
  renderers : List String
  config : EngineConfig
  lastRender : RateLimitKey → Option DateTime

/-- What a call of `render` meets. -/
structure RenderCall where
  view : StateView
  /-- The clock when the limiter judges the call. -/
  checkedAt : DateTime
  /-- The clock when the limiter records it. -/
  recordedAt : DateTime
  /-- What the renderer at each position answers. -/
  answer : Nat → Option RendererError

namespace RenderCall

/-- The session a call is about. -/
def sessionId (c : RenderCall) : String := c.view.target.sessionId

/-- What the limiter keeps a timestamp for, for this call. -/
def key (c : RenderCall) : RateLimitKey := ⟨c.sessionId, c.view.state⟩

end RenderCall

/-- Whole milliseconds of a span, rounded towards zero. -/
def numMilliseconds (d : Duration) : Int := d.tdiv 1000000

namespace RenderingEngine

/-- An engine without renderers. -/
def new (config : EngineConfig) : RenderingEngine where
  renderers := []
  config := config
  lastRender := fun _ => none

/-- Registers a renderer. -/
def addRenderer (e : RenderingEngine) (name : String) : RenderingEngine :=
  { e with renderers := e.renderers ++ [name] }

/-- Is the call suppressed?  If not, it is recorded. -/
def isRateLimited (e : RenderingEngine) (key : RateLimitKey) (checkedAt recordedAt : DateTime) :
    Bool × RenderingEngine :=
  let allow := { e with lastRender := Function.update e.lastRender key (some recordedAt) }
  match e.lastRender key with
  | some prev =>
      if numMilliseconds (checkedAt - prev) < e.config.renderCooldownMs then (true, e)
      else (false, allow)
  | none => (false, allow)

/-- Renders a view: the result of every renderer, none if the limiter suppresses the call. -/
def render (e : RenderingEngine) (call : RenderCall) : RenderingEngine × List RenderResult :=
  match e.isRateLimited call.key call.checkedAt call.recordedAt with
  | (true, e)  => (e, [])
  | (false, e) =>
      (e, e.renderers.zipIdx.map fun p => { rendererName := p.1, error := call.answer p.2 })

/-- The limiter let a call of this session and state through less than a cooldown ago. -/
def Limited (e : RenderingEngine) (call : RenderCall) : Prop :=
  ∃ prev, e.lastRender call.key = some prev ∧
    numMilliseconds (call.checkedAt - prev) < e.config.renderCooldownMs

instance (e : RenderingEngine) (call : RenderCall) : Decidable (e.Limited call) :=
  match h : e.lastRender call.key with
  | none => isFalse (by rintro ⟨prev, hp, -⟩; simp [h] at hp)
  | some prev =>
    if hlt : numMilliseconds (call.checkedAt - prev) < e.config.renderCooldownMs then
      isTrue ⟨prev, h, hlt⟩
    else isFalse (by
      rintro ⟨p, hp, hlt'⟩
      obtain rfl := Option.some.inj (h.symm.trans hp)
      exact hlt hlt')

/-- The limiter suppresses exactly the limited calls, and records the others. -/
theorem isRateLimited_eq (e : RenderingEngine) (call : RenderCall) :
    e.isRateLimited call.key call.checkedAt call.recordedAt =
      if e.Limited call then (true, e)
      else (false, { e with
        lastRender := Function.update e.lastRender call.key (some call.recordedAt) }) := by
  by_cases h : e.Limited call
  · obtain ⟨prev, hprev, hlt⟩ := h
    rw [if_pos ⟨prev, hprev, hlt⟩]
    simp only [isRateLimited, hprev, if_pos hlt]
  · rw [if_neg h]
    unfold isRateLimited
    cases hprev : e.lastRender call.key with
    | none => rfl
    | some prev =>
      have hlt : ¬ numMilliseconds (call.checkedAt - prev) < e.config.renderCooldownMs :=
        fun hlt => h ⟨prev, hprev, hlt⟩
      simp only [if_neg hlt]

end RenderingEngine

/-! ### What is displayed -/

/-- An engine, with what is displayed and what was last asked for, session by session. -/
structure Display where
  engine : RenderingEngine
  /-- The state most recently dispatched to the renderers. -/
  displayed : String → Option AgentState
  /-- The state of the latest view requested. -/
  requested : String → Option AgentState

/-- Nothing has been asked for yet. -/
def Display.start (engine : RenderingEngine) : Display where
  engine := engine
  displayed := fun _ => none
  requested := fun _ => none

/-- One call of `render`.  A call that is let through is dispatched to the renderers. -/
def renderStep (d : Display) (call : RenderCall) : Display × List RenderResult :=
  let suppressed := (d.engine.isRateLimited call.key call.checkedAt call.recordedAt).1
  ({ engine := (d.engine.render call).1
     displayed :=
       if suppressed then d.displayed
       else Function.update d.displayed call.sessionId (some call.view.state)
     requested := Function.update d.requested call.sessionId (some call.view.state) },
    (d.engine.render call).2)

end AgentTermStatus
