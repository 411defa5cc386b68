import AgentTermStatus.Renderer.EntryPoints

namespace AgentTermStatus

open Lib

/-!
# Does a state ever leak to other panes?

Before version 3.7, tmux takes `set-option -p` to the window of the pane, so what is rendered on
one pane shows on all the others.  `TmuxRenderer.detect` knows (`isolated_of_detect`), but no path
to the renderer's commands asks it: a request is isolated if tmux is new enough, and otherwise only
if everything tmux carries out for it repeats what the window had already (`isolated_iff`).
-/

section
variable {τ : Type} {tmux : Tmux τ} {options : τ → TmuxOptions}

/-- Between the two, only options of the targeted pane have changed, and every other pane goes by
    what it went by. -/
structure PaneIsolated (target : Option String) (o o' : TmuxOptions) : Prop where
  panes : ∀ q, target.bind o.paneOf ≠ some q → o'.options.own q = o.options.own q
  windows : o'.options.group = o.options.group
  globals : o'.options.default = o.options.default
  effective : ∀ q, target.bind o.paneOf ≠ some q → o'.effective q = o.effective q

theorem PaneIsolated.refl (target : Option String) (o : TmuxOptions) : PaneIsolated target o o :=
  ⟨fun _ _ => rfl, rfl, rfl, fun _ _ => rfl⟩

/-- Whatever tmux carries out of the attempt repeats what the window of the pane has already. -/
def Attempt.Repeats (tmux : Tmux τ) (options : τ → TmuxOptions) (a : Attempt τ) : Prop :=
  ∀ pane, (options a.tmux).paneOf a.target = some pane →
    ∀ c ∈ TmuxRenderer.carriedOut tmux a.target a.changes a.tmux,
      (options a.tmux).options.group ((options a.tmux).windowOf pane) c.1 = c.2

/-! ### Settings of one pane -/

/-- Settings are isolated if they act on the pane. -/
theorem paneIsolated_applyAll {o : TmuxOptions} (h : o.PaneScoped) {target : Option String}
    {pane : Nat} (hpane : target.bind o.paneOf = some pane) (changes : List Setting) :
    PaneIsolated target o (o.applyAll pane changes) := by
  rw [TmuxOptions.applyAll_eq, if_pos h]
  -- no pane but the targeted one is written to
  have hne : ∀ q, target.bind o.paneOf ≠ some q → pane ≠ q := by
    rintro q hq rfl
    exact hq hpane
  refine ⟨fun q hq => assignAll_of_ne _ (hne q hq) changes, rfl, rfl, fun q hq => ?_⟩
  exact o.options.effective_setOwns o.windowOf (hne q hq) changes

/-- Otherwise they are isolated exactly if they repeat what the window has. -/
theorem paneIsolated_applyAll_iff {o : TmuxOptions} (h : ¬ o.PaneScoped) (target : Option String)
    (pane : Nat) {changes : List Setting} (hnd : (changes.map Prod.fst).Nodup) :
    PaneIsolated target o (o.applyAll pane changes) ↔
      ∀ c ∈ changes, o.options.group (o.windowOf pane) c.1 = c.2 := by
  rw [TmuxOptions.applyAll_eq, if_neg h, ← assignAll_eq_iff _ _ hnd]
  -- the options of the window are the only ones that can change
  refine ⟨PaneIsolated.windows, fun hgroup => ⟨fun _ _ => rfl, hgroup, rfl, fun q _ => ?_⟩⟩
  exact Layered.effective_congr o.windowOf rfl hgroup rfl

/-! ### Requests -/

/-- **What a request does to the options.** Nothing, and then what it attempts is for no pane, or
    some of its settings for the pane of its target. -/
theorem serve_options (h : KeepsOptions tmux options) (s : RenderState τ) (req : Request) :
    (options (serve tmux s req).tmux = options s.tmux ∧
      ∀ a, req.attempt tmux s = some a → (options a.tmux).paneOf a.target = none) ∨
    ∃ a pane, req.attempt tmux s = some a ∧ (options s.tmux).paneOf a.target = some pane ∧
      options (serve tmux s req).tmux = (options s.tmux).applyAll pane
        (TmuxRenderer.carriedOut tmux a.target a.changes a.tmux) := by
  rw [serve_tmux]
  cases hattempt : req.attempt tmux s with
  | none => exact Or.inl ⟨rfl, by simp⟩
  | some a =>
    have hfits := fits_attempt h hattempt
    have hscript := TmuxRenderer.runScript_options h a.target hfits.mem a.tmux
    cases hpane : (options a.tmux).paneOf a.target with
    | none =>
      rw [hpane, hfits.options] at hscript
      refine Or.inl ⟨hscript.2, fun a' ha' => ?_⟩
      obtain rfl := Option.some.inj ha'
      exact hpane
    | some pane =>
      rw [hpane, hfits.options] at hscript
      rw [hfits.options] at hpane
      exact Or.inr ⟨a, pane, rfl, hpane, hscript⟩

/-- On a tmux of version 3.7 or newer every request is isolated. -/
theorem paneIsolated_serve (h : KeepsOptions tmux options) {s : RenderState τ}
    (hscoped : (options s.tmux).PaneScoped) (req : Request) :
    PaneIsolated req.target (options s.tmux) (options (serve tmux s req).tmux) := by
  obtain ⟨hserve, -⟩ | ⟨a, pane, hattempt, hpane, hserve⟩ := serve_options h s req
  · rw [hserve]
    exact PaneIsolated.refl _ _
  · have htarget : req.target.bind (options s.tmux).paneOf = some pane := by
      rw [(fits_attempt h hattempt).target, Option.bind_some, hpane]
    rw [hserve]
    exact paneIsolated_applyAll hscoped htarget _

/-- On an older one it is isolated exactly if everything that tmux carries out for it repeats what
    the window had. -/
theorem paneIsolated_serve_iff (h : KeepsOptions tmux options) {s : RenderState τ}
    (hscoped : ¬ (options s.tmux).PaneScoped) (req : Request) :
    PaneIsolated req.target (options s.tmux) (options (serve tmux s req).tmux) ↔
      ∀ a, req.attempt tmux s = some a → a.Repeats tmux options := by
  obtain ⟨hserve, hnone⟩ | ⟨a, pane, hattempt, hpane, hserve⟩ := serve_options h s req
  · rw [hserve]
    refine iff_of_true (PaneIsolated.refl _ _) fun a ha pane hpane => ?_
    rw [hnone a ha] at hpane
    exact absurd hpane (by simp)
  · have hfits := fits_attempt h hattempt
    -- the settings that are carried out come first among those of the attempt
    have hnd := hfits.nodup.sublist
      ((TmuxRenderer.carriedOut_prefix tmux a.target a.changes a.tmux).sublist.map Prod.fst)
    rw [hserve, paneIsolated_applyAll_iff hscoped req.target pane hnd]
    simp only [hattempt, Option.some.injEq, forall_eq', Attempt.Repeats, hfits.options, hpane]

/-- **When a request is isolated.**  Whatever the version of tmux, the options of its panes and
    windows, and the request, a render or a reset, through the rendering engine or standalone: only
    options of the targeted pane change, and every other pane goes by what it went by, if and only
    if tmux is of version 3.7 or newer, or everything it carries out for the request repeats what
    the window of the pane had already. -/
theorem isolated_iff (h : KeepsOptions tmux options) (s : RenderState τ) (req : Request) :
    PaneIsolated req.target (options s.tmux) (options (serve tmux s req).tmux) ↔
      (options s.tmux).PaneScoped ∨
        ∀ a, req.attempt tmux s = some a → a.Repeats tmux options := by
  by_cases hscoped : (options s.tmux).PaneScoped
  · exact ⟨fun _ => .inl hscoped, fun _ => paneIsolated_serve h hscoped req⟩
  · rw [paneIsolated_serve_iff h hscoped req]
    exact ⟨.inr, fun hor => hor.resolve_left hscoped⟩

/-! ### On a new tmux -/

/-- A request changes neither the version of tmux nor its panes and windows. -/
theorem serve_fixed (h : KeepsOptions tmux options) (s : RenderState τ) (req : Request) :
    (options (serve tmux s req).tmux).version = (options s.tmux).version ∧
    (options (serve tmux s req).tmux).paneOf = (options s.tmux).paneOf := by
  obtain ⟨hserve, -⟩ | ⟨a, pane, -, -, hserve⟩ := serve_options h s req
  · rw [hserve]
    exact ⟨rfl, rfl⟩
  · rw [hserve, TmuxOptions.applyAll_eq]
    exact ⟨rfl, rfl⟩

/-- **Runs on a new tmux.**  If tmux is of version 3.7 or newer, a pane that no request targets goes
    by the same options after any requests. -/
theorem untargeted_pane_run (h : KeepsOptions tmux options) {s : RenderState τ}
    (hscoped : (options s.tmux).PaneScoped) {requests : List Request} {q : Nat}
    (hq : ∀ req ∈ requests, req.target.bind (options s.tmux).paneOf ≠ some q) :
    (options (requests.foldl (serve tmux) s).tmux).effective q =
      (options s.tmux).effective q := by
  -- induction over the requests; none changes the version or the panes
  induction requests generalizing s with
  | nil => rfl
  | cons req requests ih =>
    rw [List.forall_mem_cons] at hq
    obtain ⟨hversion, hpanes⟩ := serve_fixed h s req
    have hscoped' : (options (serve tmux s req).tmux).PaneScoped := by
      rw [TmuxOptions.PaneScoped, hversion]
      exact hscoped
    rw [List.foldl_cons, ih hscoped' (by rw [hpanes]; exact hq.2)]
    exact (paneIsolated_serve h hscoped req).effective q hq.1

/-- **What asking first would give.**  If tmux tells its version truly and `detect` reports pane
    borders, every request is isolated. -/
theorem isolated_of_detect (h : KeepsOptions tmux options) {s : RenderState τ}
    {ctx : TerminalContext} {caps : RendererCapabilities}
    (htrue : ∀ v, (TmuxRenderer.checkTmuxVersion tmux s.tmux).2 = some v →
      (options s.tmux).version = v)
    (hdetect : (TmuxRenderer.detect tmux s.tmux ctx).2 = .ok caps)
    (hborder : caps.paneBorder = true) (req : Request) :
    PaneIsolated req.target (options s.tmux) (options (serve tmux s req).tmux) := by
  obtain ⟨-, version, hversion, hsafe, -⟩ := TmuxRenderer.detect_eq_ok hdetect
  refine paneIsolated_serve h ?_ req
  rw [TmuxOptions.PaneScoped, htrue version hversion]
  exact hsafe.mp hborder

end

/-! ### A window with two panes -/

/-- A tmux that does what is assumed of it, and nothing else. -/
def optionServer : Tmux TmuxOptions := fun o args =>
  match args with
  | ["set-option", "-t", target, "-p", "-u", option] =>
    match o.paneOf target with
    | some pane => (o.apply pane (option, none), .succeeded (some ""))
    | none      => (o, .failed ("can't find pane: " ++ target))
  | ["set-option", "-t", target, "-p", option, value] =>
    match o.paneOf target with
    | some pane => (o.apply pane (option, some value), .succeeded (some ""))
    | none      => (o, .failed ("can't find pane: " ++ target))
  | ["display-message", "-p", "-F", format, "-t", target] =>
    let asked := borderOptions.find? fun option => format = "#\x7b" ++ option ++ "\x7d"
    let value := (o.paneOf target).bind fun pane => asked.map (o.effective pane)
    (o, .succeeded (some (value.getD "")))
  | ["-V"] =>
    (o, .succeeded (some ("tmux " ++ toString o.version.major ++ "." ++ toString o.version.minor)))
  | _ => (o, .failed "unknown command")

theorem optionServer_cases (o : TmuxOptions) (args : List String) :
    (optionServer o args).1 = o ∨ ∃ stdout, (optionServer o args).2 = .succeeded stdout := by
  unfold optionServer
  split
  · split
    · exact .inr ⟨_, rfl⟩
    · exact .inl rfl
  · split
    · exact .inr ⟨_, rfl⟩
    · exact .inl rfl
  · exact .inl rfl
  · exact .inl rfl
  · exact .inl rfl

theorem optionServer_keepsOptions : KeepsOptions optionServer id where
  set t t' target s stdout hs hrun := by
    obtain ⟨option, value⟩ := s
    have hline : optionServer t (TmuxRenderer.commandLine (TmuxRenderer.setOption option value)
        target) =
        match t.paneOf target with
        | some pane => (t.apply pane (option, value), .succeeded (some ""))
        | none      => (t, .failed ("can't find pane: " ++ target)) := by
      simp only [borderOptions, List.mem_cons, List.not_mem_nil, or_false] at hs
      cases value with
      | none => rfl
      | some value => rcases hs with rfl | rfl | rfl <;> rfl
    rw [hline] at hrun
    cases hpane : t.paneOf target with
    | none => simp [hpane] at hrun
    | some pane =>
      simp only [hpane] at hrun
      exact ⟨pane, hpane, (Prod.mk.inj hrun).1.symm⟩
  refuse t args hfail := by
    rcases optionServer_cases t args with hsame | ⟨stdout, hok⟩
    · exact hsame
    · exact absurd hok (hfail stdout)
  query t target option := rfl

/-- A window with two panes and no options set. -/
def twoPanes (version : TmuxVersion) : TmuxOptions where
  version := version
  paneOf target := if target = "%0" then some 0 else if target = "%1" then some 1 else none
  windowOf _ := 0
  options := { own := fun _ _ => none, group := fun _ _ => none, default := fun _ => "default" }

/-- A renderer for it that nothing was asked of. -/
def twoPanesState (version : TmuxVersion) : RenderState TmuxOptions where
  engine := .new .default
  renderer := .new none
  tmux := twoPanes version

/-- On tmux 3.7 a standalone render is isolated. -/
theorem isolated_iff_twoPanes :
    PaneIsolated (some "%0") (twoPanes ⟨3, 7⟩)
      (serve optionServer (twoPanesState ⟨3, 7⟩)
        (.standaloneRender defaultTheme (some "%0") .working none)).tmux :=
  (isolated_iff optionServer_keepsOptions (twoPanesState ⟨3, 7⟩)
    (.standaloneRender defaultTheme (some "%0") .working none)).mpr (.inl (by decide))

/-- **A state leaks.**  On tmux 3.6, a standalone render on the first pane changes what the second
    one goes by. -/
theorem not_isolated_oldTmux :
    let before := twoPanes ⟨3, 6⟩
    let after := (serve optionServer (twoPanesState ⟨3, 6⟩)
      (.standaloneRender defaultTheme (some "%0") .working none)).tmux
    before.effective 1 "pane-border-style" = "default" ∧
    after.effective 1 "pane-border-style" = "fg=#2457A6" ∧
    ¬ PaneIsolated (some "%0") before after := by
  intro before after
  have hbefore : before.effective 1 "pane-border-style" = "default" := rfl
  have hafter : after.effective 1 "pane-border-style" = "fg=#2457A6" := by decide +kernel
  refine ⟨hbefore, hafter, fun h => ?_⟩
  have hsame := congrFun (h.effective 1 (by decide)) "pane-border-style"
  rw [hafter, hbefore] at hsame
  exact absurd hsame (by decide)

end AgentTermStatus
