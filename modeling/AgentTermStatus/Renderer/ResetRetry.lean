import AgentTermStatus.Renderer.Memoryless
import Mathlib.Data.List.DropRight

namespace AgentTermStatus

open Lib TmuxRenderer

/-!
# Does a reset restore the pane?

The first render of a pane captures its options, and a reset sets them again.  A reset forgets what
was captured before the first command runs, whatever becomes of that.  So a reset that succeeds goes
back to what the pane had before the first render since the reset before it, and, if there was no
render since, to no options at all (`reset_restores_iff`).
-/

/-! ### Options of a pane -/

namespace TmuxOptions

/-- `set-option -p` reaches what the pane goes by: the pane has no value of its own that the command
    leaves alone. -/
def Reaches (o : TmuxOptions) (pane : Nat) (option : String) : Prop :=
  o.PaneScoped ∨ o.options.own pane option = none

/-- What the pane goes by if `set-option -p` gave the option no value. -/
def fallback (o : TmuxOptions) (pane : Nat) (option : String) : String :=
  if o.PaneScoped then (o.options.group (o.windowOf pane) option).getD (o.options.default option)
  else o.options.default option

/-- The pane goes by the value it was given, or falls back. -/
theorem effective_of_reaches {o : TmuxOptions} {pane : Nat} {option : String}
    (h : o.Reaches pane option) :
    o.effective pane option = (o.atPane pane option).getD (o.fallback pane option) := by
  unfold effective Layered.effective atPane fallback
  by_cases hscoped : o.PaneScoped
  · rw [if_pos hscoped, if_pos hscoped]
    cases o.options.own pane option <;> rfl
  · rw [if_neg hscoped, if_neg hscoped, h.resolve_left hscoped, Option.none_or]

/-- Settings of the pane change neither where they reach nor what it falls back to, and nothing
    where they do not reach. -/
theorem applyAll_frame (o : TmuxOptions) (pane : Nat) (changes : List Setting) (option : String) :
    ((o.applyAll pane changes).Reaches pane option ↔ o.Reaches pane option) ∧
      (o.applyAll pane changes).fallback pane option = o.fallback pane option ∧
      (¬ o.Reaches pane option →
        (o.applyAll pane changes).effective pane option = o.effective pane option) := by
  rw [applyAll_eq]
  by_cases hscoped : o.PaneScoped
  · rw [if_pos hscoped]
    refine ⟨iff_of_true (Or.inl hscoped) (Or.inl hscoped), rfl, fun h => ?_⟩
    exact absurd (Or.inl hscoped) h
  · rw [if_neg hscoped]
    refine ⟨Iff.rfl, ?_, fun h => ?_⟩
    · unfold fallback
      rw [if_neg hscoped]
      exact if_neg hscoped
    · obtain ⟨value, hown⟩ := Option.ne_none_iff_exists'.mp (not_or.mp h).2
      unfold effective Layered.effective
      show ((o.options.own pane option).or _).getD _ = ((o.options.own pane option).or _).getD _
      rw [hown]
      rfl

end TmuxOptions

/-! ### Calls -/

/-- A call of the renderer. -/
inductive TmuxCall
  | render (view : StateView)
  | reset (target : RenderTarget)

namespace TmuxCall

/-- The pane a call is for. -/
def tmuxPane : TmuxCall → Option String
  | render view  => view.target.terminal.tmuxPane
  | reset target => target.terminal.tmuxPane

/-- Is it a render? -/
def isRender : TmuxCall → Bool
  | render _ => true
  | reset _  => false

end TmuxCall

section
variable {τ : Type} (tmux : Tmux τ)

/-- A call, as a step that emits its result. -/
def callStep (s : TmuxRenderer × τ) (call : TmuxCall) :
    (TmuxRenderer × τ) × List (Except RendererError Unit) :=
  match call with
  | .render view  => renderView tmux s view
  | .reset target =>
    let (r, t, _, result) := s.1.reset tmux s.2 target
    ((r, t), [result])

/-- The calls up to the last reset, with which they end. -/
def untilReset (calls : List TmuxCall) : List TmuxCall := calls.rdropWhile TmuxCall.isRender

/-- Is the last call a render? -/
def endsWithRender (calls : List TmuxCall) : Bool := calls.getLast?.any TmuxCall.isRender

/-- What is assumed of tmux about captures: asked for an option of a pane it prints the value that
    the pane goes by; white space at the ends, such as the end of the line, may differ. -/
def AnswersCaptures (options : τ → TmuxOptions) : Prop :=
  ∀ (t : τ) (target : String) (pane : Nat) (option : String), option ∈ borderOptions →
    (options t).paneOf target = some pane →
    ∃ stdout, (tmux t (captureArgs option ++ ["-t", target])).2 = .succeeded (some stdout) ∧
      trim stdout = trim ((options t).effective pane option)

/-- What is captured of a pane. -/
def capturedOf (o : TmuxOptions) (pane : Nat) : CapturedState where
  borderStyle := some (trim (o.effective pane "pane-border-style"))
  borderFormat := some (trim (o.effective pane "pane-border-format"))
  borderStatus := some (trim (o.effective pane "pane-border-status"))

variable {tmux} {options : τ → TmuxOptions}

/-- Asked for one option, tmux tells what the pane goes by, and keeps its options. -/
theorem tmuxOutput_capture (h : KeepsOptions tmux options)
    (hcapture : AnswersCaptures tmux options) {o : TmuxOptions} {t : τ} (ht : options t = o)
    {target : String} {pane : Nat} (hpane : o.paneOf target = some pane) {option : String}
    (hoption : option ∈ borderOptions) :
    ∃ t', options t' = o ∧ tmuxOutput tmux t (captureArgs option) target
      = (t', some (trim (o.effective pane option))) := by
  subst ht
  obtain ⟨stdout, hout, htrim⟩ := hcapture t target pane option hoption hpane
  have hquery := h.query t target option
  rw [tmuxOutput]
  rcases hrun : tmux t (captureArgs option ++ ["-t", target]) with ⟨t', result⟩
  rw [hrun] at hout hquery
  obtain rfl := hout
  exact ⟨t', hquery, congrArg (Prod.mk t') (congrArg some htrim)⟩

/-- What is captured of a pane is what the pane goes by. -/
theorem capturePaneState_eq (h : KeepsOptions tmux options)
    (hcapture : AnswersCaptures tmux options) {t : τ} {target : String} {pane : Nat}
    (hpane : (options t).paneOf target = some pane) :
    (capturePaneState tmux t target).2.2 = capturedOf (options t) pane := by
  obtain ⟨t1, h1, hstyle⟩ := tmuxOutput_capture h hcapture rfl hpane
    (show "pane-border-style" ∈ borderOptions by decide)
  obtain ⟨t2, h2, hformat⟩ := tmuxOutput_capture h hcapture h1 hpane
    (show "pane-border-format" ∈ borderOptions by decide)
  obtain ⟨t3, -, hstatus⟩ := tmuxOutput_capture h hcapture h2 hpane
    (show "pane-border-status" ∈ borderOptions by decide)
  simp only [capturePaneState, hstyle, hformat, hstatus, capturedOf]

/-- A render captures the pane if nothing has been captured before. -/
theorem captureOnce_prior (h : KeepsOptions tmux options) (hcapture : AnswersCaptures tmux options)
    (r : TmuxRenderer) {t : τ} {target : String} {pane : Nat}
    (hpane : (options t).paneOf target = some pane) :
    (captureOnce tmux r t target).1.prior[target]? =
      some ((r.prior[target]?).getD (capturedOf (options t) pane)) := by
  rw [captureOnce]
  split
  · next captured hprior => rw [hprior, Option.getD_some]
  · next hprior =>
    rw [hprior, Option.getD_none, ← capturePaneState_eq h hcapture hpane]
    exact (FiniteMap.getElem?_insert_if ..).trans (if_pos rfl)

/-! ### What a call does -/

/-- A render of a valid pane: what is captured, and the options. -/
theorem callStep_render (h : KeepsOptions tmux options)
    (hcapture : AnswersCaptures tmux options) {s : TmuxRenderer × τ} {view : StateView}
    {target : String} {pane : Nat} (hvalid : validatePane target = true)
    (htarget : view.target.terminal.tmuxPane = some target)
    (hpane : (options s.2).paneOf target = some pane) :
    (∃ changes, options (callStep tmux s (.render view)).1.2
        = (options s.2).applyAll pane changes) ∧
      (callStep tmux s (.render view)).1.1.prior[target]? =
        some ((s.1.prior[target]?).getD (capturedOf (options s.2) pane)) := by
  obtain ⟨r, t⟩ := s
  show (∃ changes, options (r.render tmux t view).2.1 = (options t).applyAll pane changes) ∧
    (r.render tmux t view).1.prior[target]? = _
  simp only [render, htarget, hvalid, Bool.true_eq_false, if_false]
  refine ⟨?_, captureOnce_prior h hcapture r hpane⟩
  -- what is captured first changes no option
  have hsame := captureOnce_options h r t target
  rw [captureOnce_theme, renderScript_eq,
    runScript_options_of_pane h (mem_renderSettings r.theme view) (hsame ▸ hpane), hsame]
  exact ⟨_, rfl⟩

/-- A reset of a valid pane forgets what was captured. -/
theorem callStep_reset (h : KeepsOptions tmux options) {s : TmuxRenderer × τ} {rt : RenderTarget}
    {target : String} {pane : Nat} (hvalid : validatePane target = true)
    (htarget : rt.terminal.tmuxPane = some target)
    (hpane : (options s.2).paneOf target = some pane) :
    (∃ changes, options (callStep tmux s (.reset rt)).1.2 = (options s.2).applyAll pane changes) ∧
      (callStep tmux s (.reset rt)).1.1.prior[target]? = none := by
  obtain ⟨r, t⟩ := s
  show (∃ changes, options (r.reset tmux t rt).2.1 = (options t).applyAll pane changes) ∧
    (r.reset tmux t rt).1.prior[target]? = _
  simp only [TmuxRenderer.reset, htarget, hvalid, Bool.true_eq_false, if_false]
  refine ⟨?_, (FiniteMap.getElem?_erase_if ..).trans (if_pos rfl)⟩
  rw [resetScript_eq, runScript_options_of_pane h (mem_resetSettings (r.prior[target]?)) hpane]
  exact ⟨_, rfl⟩

/-- A reset succeeds only for a valid pane. -/
theorem validatePane_of_reset_ok {s : TmuxRenderer × τ} {rt : RenderTarget} {target : String}
    (htarget : rt.terminal.tmuxPane = some target)
    (hok : (callStep tmux s (.reset rt)).2 = [.ok ()]) : validatePane target = true := by
  have hresult : (s.1.reset tmux s.2 rt).2.2.2 = .ok () := (List.cons.inj hok).1
  by_contra hvalid
  rw [Bool.not_eq_true] at hvalid
  simp [TmuxRenderer.reset, htarget, hvalid] at hresult

/-- A reset that succeeds makes all its settings. -/
theorem callStep_reset_ok (h : KeepsOptions tmux options) {s : TmuxRenderer × τ}
    {rt : RenderTarget} {target : String} {pane : Nat}
    (htarget : rt.terminal.tmuxPane = some target)
    (hpane : (options s.2).paneOf target = some pane)
    (hok : (callStep tmux s (.reset rt)).2 = [.ok ()]) :
    options (callStep tmux s (.reset rt)).1.2
      = (options s.2).applyAll pane (resetSettings (s.1.prior[target]?)) := by
  have hvalid := validatePane_of_reset_ok htarget hok
  obtain ⟨r, t⟩ := s
  have hresult : (r.reset tmux t rt).2.2.2 = .ok () := (List.cons.inj hok).1
  show options (r.reset tmux t rt).2.1 = _
  simp only [TmuxRenderer.reset, htarget, hvalid, Bool.true_eq_false, if_false] at hresult ⊢
  rw [resetScript_eq] at hresult ⊢
  rw [runScript_options_of_pane h (mem_resetSettings (r.prior[target]?)) hpane,
    carriedOut_of_ok hresult]

/-! ### Runs -/

@[simp] theorem endsWithRender_concat (calls : List TmuxCall) (call : TmuxCall) :
    endsWithRender (calls ++ [call]) = call.isRender := by
  rw [endsWithRender, List.getLast?_concat, Option.any_some]

/-- Calls that do not end with a render end with the last reset. -/
theorem untilReset_of_not_endsWithRender {calls : List TmuxCall}
    (h : endsWithRender calls = false) : untilReset calls = calls := by
  rw [untilReset, List.rdropWhile_eq_self_iff]
  intro hne hrender
  rw [endsWithRender, List.getLast?_eq_some_getLast hne, Option.any_some, hrender] at h
  exact absurd h (by decide)

/-- **Run lemma.** After calls for a valid pane its options have only had settings made, and what is
    captured is what the pane went by after the last reset, if there was a render since. -/
theorem exec_callStep (h : KeepsOptions tmux options) (hcapture : AnswersCaptures tmux options)
    {s : TmuxRenderer × τ} {target : String} {pane : Nat} (hvalid : validatePane target = true)
    (hprior : s.1.prior[target]? = none) (hpane : (options s.2).paneOf target = some pane)
    {calls : List TmuxCall} (hcalls : ∀ call ∈ calls, call.tmuxPane = some target) :
    (∃ changes, options (exec (callStep tmux) s calls).2 = (options s.2).applyAll pane changes) ∧
      (exec (callStep tmux) s calls).1.prior[target]? =
        if endsWithRender calls then
          some (capturedOf (options (exec (callStep tmux) s (untilReset calls)).2) pane)
        else none := by
  induction calls using List.reverseRecOn with
  | nil => exact ⟨⟨[], rfl⟩, hprior⟩
  | append_singleton calls call ih =>
    rw [List.forall_mem_append] at hcalls
    obtain ⟨⟨changes, hbefore⟩, hcaptured⟩ := ih hcalls.1
    have hpane' : (options (exec (callStep tmux) s calls).2).paneOf target = some pane := by
      rw [hbefore, TmuxOptions.applyAll_paneOf]
      exact hpane
    rw [exec_append, exec_cons, exec_nil]
    cases call with
    | render view =>
      have htarget := hcalls.2 _ List.mem_cons_self
      obtain ⟨⟨changes', hafter⟩, hnext⟩ := callStep_render h hcapture hvalid htarget hpane'
      refine ⟨⟨changes ++ changes', ?_⟩, ?_⟩
      · rw [hafter, hbefore, TmuxOptions.applyAll_append]
      · have huntil : untilReset (calls ++ [.render view]) = untilReset calls :=
          List.rdropWhile_concat_pos _ _ _ rfl
        have hends : endsWithRender (calls ++ [.render view]) = true := endsWithRender_concat ..
        rw [hnext, hcaptured, huntil, if_pos hends]
        -- the first render since the last reset captures, and the others keep what it captured
        cases hlast : endsWithRender calls with
        | true => rfl
        | false => rw [untilReset_of_not_endsWithRender hlast]; rfl
    | reset rt =>
      have htarget := hcalls.2 _ List.mem_cons_self
      obtain ⟨⟨changes', hafter⟩, hnext⟩ := callStep_reset h hvalid htarget hpane'
      refine ⟨⟨changes ++ changes', ?_⟩, ?_⟩
      · rw [hafter, hbefore, TmuxOptions.applyAll_append]
      · rw [hnext, endsWithRender_concat]
        rfl

/-! ### A reset that succeeds -/

/-- A reset of what was captured of a pane sets each option to what the pane went by then, and a
    reset of nothing sets none. -/
theorem lookup_resetSettings {option : String} (hoption : option ∈ borderOptions)
    (o : TmuxOptions) (pane : Nat) :
    (resetSettings (some (capturedOf o pane))).lookup option
        = some (some (trim (o.effective pane option))) ∧
      (resetSettings none).lookup option = some none := by
  simp only [borderOptions, List.mem_cons, List.not_mem_nil, or_false] at hoption
  rcases hoption with rfl | rfl | rfl <;> exact ⟨rfl, rfl⟩

/-- The reset that comes after the calls is the first one that succeeds after the first render. -/
def FirstReset (tmux : Tmux τ) (s : TmuxRenderer × τ) (calls : List TmuxCall) (rt : RenderTarget) :
    Prop :=
  (∃ pre view mid, calls = pre ++ .render view :: mid ∧
    (∀ call ∈ pre, call.isRender = false) ∧
    Along (callStep tmux)
      (fun s call => call.isRender = false → (callStep tmux s call).2 ≠ [.ok ()])
      (exec (callStep tmux) s (pre ++ [.render view])) mid) ∧
  (callStep tmux (exec (callStep tmux) s calls) (.reset rt)).2 = [.ok ()]

/-- What a reset after the calls goes back to is what the pane went by at first, for each option
    that `set-option -p` reaches: if there was a render since the last reset, what the pane went by
    before that render, without white space at the ends, and otherwise what it falls back to. -/
def GoesBackToInitial (tmux : Tmux τ) (options : τ → TmuxOptions) (s : TmuxRenderer × τ)
    (calls : List TmuxCall) (pane : Nat) : Prop :=
  ∀ option ∈ borderOptions, (options s.2).Reaches pane option →
    (if endsWithRender calls then
      trim ((options (exec (callStep tmux) s (untilReset calls)).2).effective pane option)
    else (options s.2).fallback pane option) = (options s.2).effective pane option

/-- **When a reset restores the pane.**  Some renders and resets of a pane, in which commands that
    set options may fail, are followed by the first reset that succeeds after the first render.  The
    pane then goes by what it went by at first, in all three options, exactly if that is what the
    reset goes back to. -/
theorem reset_restores_iff (h : KeepsOptions tmux options)
    (hcapture : AnswersCaptures tmux options) (theme : Option Theme) (t : τ) {target : String}
    {pane : Nat} (hpane : (options t).paneOf target = some pane) (calls : List TmuxCall)
    (rt : RenderTarget) (hcalls : ∀ call ∈ calls ++ [.reset rt], call.tmuxPane = some target)
    (hfirst : FirstReset tmux (new theme, t) calls rt) :
    (∀ option ∈ borderOptions,
      (options (exec (callStep tmux) (new theme, t) (calls ++ [.reset rt])).2).effective pane option
        = (options t).effective pane option) ↔
    GoesBackToInitial tmux options (new theme, t) calls pane := by
  rw [List.forall_mem_append] at hcalls
  have htarget : rt.terminal.tmuxPane = some target := hcalls.2 _ List.mem_cons_self
  obtain ⟨-, hok⟩ := hfirst
  have hvalid := validatePane_of_reset_ok htarget hok
  obtain ⟨⟨changes, hbefore⟩, hprior⟩ := exec_callStep h hcapture (s := (new theme, t)) hvalid
    (by simp [new]) hpane hcalls.1
  have hpane' : (options (exec (callStep tmux) (new theme, t) calls).2).paneOf target
      = some pane := by
    rw [hbefore, TmuxOptions.applyAll_paneOf]
    exact hpane
  have hafter := callStep_reset_ok h htarget hpane' hok
  refine forall₂_congr fun option hoption => ?_
  rw [exec_append, exec_cons, exec_nil, hafter]
  -- the commands before the reset, and those of the reset, leave the rest of the pane alone
  have hframe := TmuxOptions.applyAll_frame (options t) pane changes option
  rw [← hbefore] at hframe
  obtain ⟨hreaches, hfallback, hunreached⟩ := hframe
  generalize options (exec (callStep tmux) (new theme, t) calls).2 = o
    at hreaches hfallback hunreached ⊢
  generalize (exec (callStep tmux) (new theme, t) calls).1.prior[target]? = captured at hprior ⊢
  obtain ⟨hreaches', hfallback', hunreached'⟩ :=
    TmuxOptions.applyAll_frame o pane (resetSettings captured) option
  by_cases hreach : (options t).Reaches pane option
  · rw [TmuxOptions.effective_of_reaches (hreaches'.mpr (hreaches.mpr hreach)), hfallback',
      hfallback, atPane_applyAll _ _ (nodup_resetSettings _), hprior, forall_prop_of_true hreach]
    obtain ⟨hsome, hnone⟩ := lookup_resetSettings hoption
      (options (exec (callStep tmux) (new theme, t) (untilReset calls)).2) pane
    split
    · rw [hsome]
      rfl
    · rw [hnone]
      rfl
  · rw [hunreached' (mt hreaches.mp hreach), hunreached hreach]
    exact iff_of_true rfl fun hreached => absurd hreached hreach

/-- **Without a failed reset.**  Some renders of a new renderer, at least one, whatever becomes of
    their commands, and a reset that succeeds: what the pane went by has come back, but for white
    space at the ends. -/
theorem goesBackToInitial_renders (theme : Option Theme) (t : τ) {pane : Nat}
    {calls : List TmuxCall} (hne : calls ≠ [])
    (hrenders : ∀ call ∈ calls, call.isRender = true)
    (htrimmed : ∀ option ∈ borderOptions,
      trim ((options t).effective pane option) = (options t).effective pane option) :
    GoesBackToInitial tmux options (new theme, t) calls pane := by
  have hnil : untilReset calls = [] := List.rdropWhile_eq_nil_iff.mpr hrenders
  have hends : endsWithRender calls = true := by
    rw [endsWithRender, List.getLast?_eq_some_getLast hne]
    exact hrenders _ (List.getLast_mem hne)
  intro option hoption _
  rw [if_pos hends, hnil, exec_nil]
  exact htrimmed option hoption

end

/-! ### A tmux that fails now and then -/

/-- A tmux of which some `set-option` commands fail, as the list in its state says. -/
def flaky {τ : Type} (tmux : Tmux τ) : Tmux (List Bool × τ) := fun s args =>
  let run := tmux s.2 args
  if args.head? = some "set-option" then
    if s.1.head? = some true then ((s.1.tail, s.2), .failed "lost server")
    else ((s.1.tail, run.1), run.2)
  else ((s.1, run.1), run.2)

/-- What is assumed of tmux about its options holds of the flaky one. -/
theorem flaky_keepsOptions {τ : Type} {tmux : Tmux τ} {options : τ → TmuxOptions}
    (h : KeepsOptions tmux options) : KeepsOptions (flaky tmux) (fun s => options s.2) where
  set t t' target s stdout hs hrun := by
    have hhead : (commandLine (setOption s.1 s.2) target).head? = some "set-option" := by
      cases s.2 <;> rfl
    rw [flaky, if_pos hhead] at hrun
    split at hrun
    · exact absurd (Prod.mk.inj hrun).2 (by simp)
    · obtain ⟨rfl, hresult⟩ := Prod.mk.inj hrun
      exact h.set t.2 _ target s stdout hs (Prod.ext rfl hresult)
  refuse t args hfail := by
    rw [flaky] at hfail ⊢
    split at hfail
    · next hhead =>
      rw [if_pos hhead]
      split at hfail
      · next htrue => rw [if_pos htrue]
      · next htrue =>
        rw [if_neg htrue]
        exact h.refuse t.2 args hfail
    · next hhead =>
      rw [if_neg hhead]
      exact h.refuse t.2 args hfail
  query t target option := h.query t.2 target option

/-- So does what is assumed about captures. -/
theorem flaky_answersCaptures {τ : Type} {tmux : Tmux τ} {options : τ → TmuxOptions}
    (h : AnswersCaptures tmux options) : AnswersCaptures (flaky tmux) (fun s => options s.2) :=
  fun t target pane option hoption hpane => h t.2 target pane option hoption hpane

/-- The tmux of the options answers captures. -/
theorem optionServer_answersCaptures : AnswersCaptures optionServer id := by
  intro t target pane option hoption hpane
  refine ⟨t.effective pane option, ?_, rfl⟩
  have hpane' : t.paneOf target = some pane := hpane
  have hasked : borderOptions.find? (fun option' =>
      "#\x7b" ++ option ++ "\x7d" = "#\x7b" ++ option' ++ "\x7d") = some option := by
    simp only [borderOptions, List.mem_cons, List.not_mem_nil, or_false] at hoption
    rcases hoption with rfl | rfl | rfl <;> decide +kernel
  show (CommandResult.succeeded (some (((t.paneOf target).bind fun pane =>
    (borderOptions.find? fun option' =>
      "#\x7b" ++ option ++ "\x7d" = "#\x7b" ++ option' ++ "\x7d").map (t.effective pane)).getD "")))
      = _
  rw [hpane', hasked]
  rfl

/-- A pane with a border style of its own. -/
def redPane : TmuxOptions := (twoPanes ⟨3, 7⟩).apply 0 ("pane-border-style", some "fg=red")

/-- Two renders and a reset that succeeds: the pane goes by its own style again. -/
theorem reset_restores_iff_once :
    let calls := [.render (firstPaneView .working "Run tests"),
      .render (firstPaneView .attention "Run tests")]
    GoesBackToInitial optionServer id (new (some defaultTheme), redPane) calls 0 ∧
    ∀ option ∈ borderOptions,
      (exec (callStep optionServer) (new (some defaultTheme), redPane)
        (calls ++ [.reset (firstPaneView .attention "").target])).2.effective 0 option
        = redPane.effective 0 option := by
  intro calls
  have hgoes : GoesBackToInitial optionServer id (new (some defaultTheme), redPane) calls 0 :=
    goesBackToInitial_renders (some defaultTheme) redPane (List.cons_ne_nil _ _) (by decide)
      (by decide +kernel)
  have hfirst : FirstReset optionServer (new (some defaultTheme), redPane) calls
      (firstPaneView .attention "").target :=
    ⟨⟨[], _, _, rfl, by simp, fun h => absurd h (by decide), trivial⟩, by decide +kernel⟩
  exact ⟨hgoes, (reset_restores_iff optionServer_keepsOptions optionServer_answersCaptures
    (some defaultTheme) redPane (show redPane.paneOf "%0" = some 0 from rfl) calls
    (firstPaneView .attention "").target (by decide) hfirst).mpr hgoes⟩

/-- **A retried reset loses the style.**  The first command of a reset fails, and the reset is made
    once more and succeeds: the pane goes by the default style. -/
theorem retried_reset_loses_style :
    KeepsOptions (flaky optionServer) (fun s => s.2) ∧
    AnswersCaptures (flaky optionServer) (fun s => s.2) ∧
    FirstReset (flaky optionServer)
      (new (some defaultTheme), ([false, false, false, true], redPane))
      [.render (firstPaneView .attention "Run tests"),
        .reset (firstPaneView .attention "").target]
      (firstPaneView .attention "").target ∧
    redPane.effective 0 "pane-border-style" = "fg=red" ∧
    (exec (callStep (flaky optionServer))
      (new (some defaultTheme), ([false, false, false, true], redPane))
      ([.render (firstPaneView .attention "Run tests"),
        .reset (firstPaneView .attention "").target] ++
        [.reset (firstPaneView .attention "").target])).2.2.effective 0 "pane-border-style"
      = "default" := by
  refine ⟨flaky_keepsOptions optionServer_keepsOptions,
    flaky_answersCaptures optionServer_answersCaptures, ⟨?_, by decide +kernel⟩, by decide +kernel,
    by decide +kernel⟩
  refine ⟨[], firstPaneView .attention "Run tests",
    [.reset (firstPaneView .attention "").target], rfl, by decide, ?_⟩
  exact ⟨fun _ => by decide +kernel, trivial⟩

end AgentTermStatus
