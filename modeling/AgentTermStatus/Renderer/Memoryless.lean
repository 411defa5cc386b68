import AgentTermStatus.Renderer.PaneIsolation
import AgentTermStatus.Lib.Run
import Mathlib.Data.List.Induction

namespace AgentTermStatus

open Lib TmuxRenderer

/-!
# Does a render forget the earlier ones?

A render of a state other than idle sets the colour only if the theme has one, and the text only if
it may be an argument; what it does not set stays as an earlier render left it.  So the pane ends as
after the last render alone exactly if each option that this one does not set was last set by a
render of the idle state, or by none (`memoryless_iff`).
-/

/-- The value that `set-option -p` gives an option of a pane, if it was given one. -/
def TmuxOptions.atPane (o : TmuxOptions) (pane : Nat) (option : String) : Option String :=
  if o.PaneScoped then o.options.own pane option
  else o.options.group (o.windowOf pane) option

/-- Different options that are set have the new values, the others keep theirs. -/
theorem atPane_applyAll (o : TmuxOptions) (pane : Nat) {changes : List Setting}
    (hnd : (changes.map Prod.fst).Nodup) (option : String) :
    (o.applyAll pane changes).atPane pane option =
      (changes.lookup option).getD (o.atPane pane option) := by
  rw [TmuxOptions.applyAll_eq]
  by_cases h : o.PaneScoped
  -- the options of the pane are its own
  · rw [if_pos h]
    show (if o.PaneScoped then assignAll o.options.own pane changes pane option else _) = _
    rw [if_pos h, assignAll_self _ _ hnd, TmuxOptions.atPane, if_pos h]
  -- they are those of its window, as seen from the pane
  · rw [if_neg h]
    show (if o.PaneScoped then _ else
      assignAll o.options.group (o.windowOf pane) changes (o.windowOf pane) option) = _
    rw [if_neg h, assignAll_self _ _ hnd, TmuxOptions.atPane, if_neg h]

/-! ### Renders that succeed -/

section
variable {τ : Type} (tmux : Tmux τ)

/-- Renders a view, as a step that emits its result. -/
def renderView (s : TmuxRenderer × τ) (view : StateView) :
    (TmuxRenderer × τ) × List (Except RendererError Unit) :=
  let (r, t, _, result) := s.1.render tmux s.2 view
  ((r, t), [result])

variable {tmux} {options : τ → TmuxOptions}

/-- If a script succeeds, all of it is carried out. -/
theorem carriedOut_of_ok {target : String} {changes : List Setting} {t : τ}
    (hok : (runScript tmux target (changes.map settingArgs) t).2.2 = .ok ()) :
    carriedOut tmux target changes t = changes := by
  induction changes generalizing t with
  | nil => rfl
  | cons s changes ih =>
    rw [List.map_cons, runScript] at hok
    rw [carriedOut]
    rcases hrun : runTmux tmux t (settingArgs s) target with ⟨t', _ | ⟨⟩⟩
    · simp [hrun] at hok
    · simp only [hrun] at hok ⊢
      rw [ih hok]

/-- **Step lemma.** A render that succeeds makes all its settings. -/
theorem renderView_ok (h : KeepsOptions tmux options) {s : TmuxRenderer × τ} {view : StateView}
    {target : String} {pane : Nat} (htarget : view.target.terminal.tmuxPane = some target)
    (hpane : (options s.2).paneOf target = some pane)
    (hok : ∀ result ∈ (renderView tmux s view).2, result = .ok ()) :
    (renderView tmux s view).1.1.theme = s.1.theme ∧
      options (renderView tmux s view).1.2 =
        (options s.2).applyAll pane (renderSettings s.1.theme view) := by
  obtain ⟨r, t⟩ := s
  have hresult : (r.render tmux t view).2.2.2 = .ok () := hok _ (List.mem_singleton.mpr rfl)
  show (r.render tmux t view).1.theme = r.theme ∧
    options (r.render tmux t view).2.1 = (options t).applyAll pane (renderSettings r.theme view)
  simp only [render, htarget] at hresult ⊢
  by_cases hvalid : validatePane target = false
  · simp [hvalid] at hresult
  · simp only [if_neg hvalid] at hresult ⊢
    rw [captureOnce_theme, renderScript_eq] at hresult ⊢
    -- what is captured first changes no option
    have hsame := captureOnce_options h r t target
    refine ⟨rfl, ?_⟩
    rw [runScript_options_of_pane h (mem_renderSettings r.theme view) (hsame ▸ hpane), hsame,
      carriedOut_of_ok hresult]

/-- **Run lemma.** After renders that succeed, each option of the pane has the value that was
    written last. -/
theorem renderViews_ok (h : KeepsOptions tmux options) {s : TmuxRenderer × τ}
    {views : List StateView} {target : String} {pane : Nat}
    (htarget : ∀ view ∈ views, view.target.terminal.tmuxPane = some target)
    (hpane : (options s.2).paneOf target = some pane)
    (hok : ∀ result ∈ trace (renderView tmux) s views, result = .ok ()) (option : String) :
    (options (exec (renderView tmux) s views).2).atPane pane option =
      overwrite ((options s.2).atPane pane option)
        (views.map fun view => (renderSettings s.1.theme view).lookup option) := by
  -- induction over the views; the theme and the pane a target names stay the same
  induction views generalizing s with
  | nil => rfl
  | cons view views ih =>
    rw [List.forall_mem_cons] at htarget
    rw [trace_cons, List.forall_mem_append] at hok
    obtain ⟨htheme, hoptions⟩ := renderView_ok h htarget.1 hpane hok.1
    have hpane' : (options (renderView tmux s view).1.2).paneOf target = some pane := by
      rw [hoptions, TmuxOptions.applyAll_paneOf]
      exact hpane
    rw [exec_cons, ih htarget.2 hpane' hok.2, htheme, hoptions,
      atPane_applyAll _ _ (nodup_renderSettings _ _)]
    rfl

end

/-! ### What a render sets -/

/-- The render sets the option, if only by unsetting it. -/
def SetsOption (theme : Option Theme) (view : StateView) (option : String) : Prop :=
  option ∈ (renderSettings theme view).map Prod.fst

instance decidableSetsOption (theme : Option Theme) (view : StateView) (option : String) :
    Decidable (SetsOption theme view option) := inferInstanceAs (Decidable (_ ∈ _))

/-- What a render sets, outside the idle state. -/
theorem mem_renderSettings_iff {theme : Option Theme} {view : StateView} (h : view.state ≠ .idle)
    (c : Setting) :
    c ∈ renderSettings theme view ↔
      (∃ style, borderStyleFor theme view.state = some style ∧
        c = ("pane-border-style", some style)) ∨
      ∃ format, borderFormatFor theme view.state view.label = some format ∧
        validateArg format = true ∧
        (c = ("pane-border-status", some "top") ∨ c = ("pane-border-format", some format)) := by
  unfold renderSettings
  rw [if_neg h, List.mem_append]
  refine or_congr ?_ ?_
  · cases borderStyleFor theme view.state <;> simp
  · cases borderFormatFor theme view.state view.label with
    | none => simp
    | some format => by_cases hvalid : validateArg format = true <;> simp [hvalid]

theorem setsOption_iff (theme : Option Theme) (view : StateView) (option : String) :
    SetsOption theme view option ↔ ∃ value, (option, value) ∈ renderSettings theme view := by
  simp [SetsOption]

/-- In the idle state, each of the options is unset. -/
theorem renderSettings_idle {theme : Option Theme} {view : StateView} (h : view.state = .idle) :
    renderSettings theme view = borderOptions.map fun option => (option, none) := if_pos h

/-- The colour is set in the idle state, and where the theme has one. -/
theorem setsOption_style_iff (theme : Option Theme) (view : StateView) :
    SetsOption theme view "pane-border-style" ↔
      view.state = .idle ∨ (borderStyleFor theme view.state).isSome := by
  rw [setsOption_iff]
  by_cases hidle : view.state = .idle
  · simp [renderSettings_idle hidle, hidle, borderOptions]
  · simp [mem_renderSettings_iff hidle, hidle, Option.isSome_iff_exists]

/-- The text, and with it the line it stands on, is set in the idle state, and where it may be an
    argument. -/
theorem setsOption_text_iff (theme : Option Theme) (view : StateView) {option : String}
    (h : option = "pane-border-format" ∨ option = "pane-border-status") :
    SetsOption theme view option ↔
      view.state = .idle ∨
        ∃ format, borderFormatFor theme view.state view.label = some format ∧
          validateArg format = true := by
  rw [setsOption_iff]
  by_cases hidle : view.state = .idle
  · rcases h with rfl | rfl <;> simp [renderSettings_idle hidle, hidle, borderOptions]
  · rcases h with rfl | rfl <;> simp [mem_renderSettings_iff hidle, hidle]

/-- What a render sets an option to: nothing in the idle state, something otherwise. -/
theorem setting_eq_none_iff {theme : Option Theme} {view : StateView} {c : Setting}
    (h : c ∈ renderSettings theme view) : c.2 = none ↔ view.state = .idle := by
  by_cases hidle : view.state = .idle
  · rw [renderSettings_idle hidle, List.mem_map] at h
    obtain ⟨option, -, rfl⟩ := h
    simp [hidle]
  · rw [mem_renderSettings_iff hidle] at h
    rcases h with ⟨style, -, rfl⟩ | ⟨format, -, -, rfl | rfl⟩ <;> simp [hidle]

/-- What a render that sets an option writes to it. -/
theorem lookup_renderSettings (theme : Option Theme) (view : StateView) (option : String) :
    (¬ SetsOption theme view option ∧ (renderSettings theme view).lookup option = none) ∨
    ∃ value, SetsOption theme view option ∧
      (renderSettings theme view).lookup option = some value ∧
      (value = none ↔ view.state = .idle) := by
  by_cases hsets : SetsOption theme view option
  · obtain ⟨value, hmem⟩ := (setsOption_iff theme view option).mp hsets
    exact .inr ⟨value, hsets, lookup_of_mem (nodup_renderSettings theme view) hmem,
      setting_eq_none_iff hmem⟩
  · refine .inl ⟨hsets, List.lookup_eq_none_iff.mpr fun c hc => ?_⟩
    have hne : option ≠ c.1 := fun heq => hsets (heq ▸ List.mem_map_of_mem hc)
    simpa using hne

/-- Nothing is left of the option: of the views that set it, the last one is idle, if there is
    any. -/
def NothingLeft (theme : Option Theme) (views : List StateView) (option : String) : Prop :=
  ∀ view, (views.filter fun v => SetsOption theme v option).getLast? = some view →
    view.state = .idle

/-- The values written to an option that was not set leave it so if nothing is left. -/
theorem overwrite_eq_none_iff (theme : Option Theme) (views : List StateView) (option : String) :
    overwrite none (views.map fun view => (renderSettings theme view).lookup option) = none ↔
      NothingLeft theme views option := by
  induction views using List.reverseRecOn with
  | nil => simp [NothingLeft]
  | append_singleton views view ih =>
    rw [List.map_append, List.map_singleton, overwrite_concat, NothingLeft, List.filter_append]
    rcases lookup_renderSettings theme view option with
      ⟨hsets, hlookup⟩ | ⟨value, hsets, hlookup, hvalue⟩
    · rw [hlookup, Option.getD_none, ih, NothingLeft]
      simp [hsets]
    · rw [hlookup, Option.getD_some, hvalue]
      simp [hsets]

/-! ### Sequences of views -/

section
variable {τ : Type} {tmux : Tmux τ} {options : τ → TmuxOptions}

/-- **When rendering is memoryless.**  Some views are rendered on a pane whose options are not set,
    and then one more; every render succeeds.  The pane ends with the options it would have after
    the last render alone if and only if nothing is left of any option that the last render does
    not set. -/
theorem memoryless_iff (h : KeepsOptions tmux options) (r : TmuxRenderer) (t : τ)
    {target : String} {pane : Nat} (hpane : (options t).paneOf target = some pane)
    (hunset : ∀ option ∈ borderOptions, (options t).atPane pane option = none)
    (views : List StateView) (last : StateView)
    (htarget : ∀ view ∈ views ++ [last], view.target.terminal.tmuxPane = some target)
    (hok : ∀ result ∈ trace (renderView tmux) (r, t) (views ++ [last]), result = .ok ())
    (halone : ∀ result ∈ trace (renderView tmux) (r, t) [last], result = .ok ()) :
    (∀ option ∈ borderOptions,
      (options (exec (renderView tmux) (r, t) (views ++ [last])).2).atPane pane option =
        (options (exec (renderView tmux) (r, t) [last]).2).atPane pane option) ↔
    ∀ option ∈ borderOptions, ¬ SetsOption r.theme last option →
      NothingLeft r.theme views option := by
  refine forall₂_congr fun option hoption => ?_
  have hlast : ∀ view ∈ [last], view.target.terminal.tmuxPane = some target :=
    fun view hview => htarget view (List.mem_append_right _ hview)
  rw [renderViews_ok h htarget hpane hok, renderViews_ok h hlast hpane halone,
    hunset option hoption, List.map_append, List.map_singleton, overwrite_concat_eq_iff,
    overwrite_eq_none_iff]
  -- either the last render sets the option, or it leaves what the earlier ones left
  rcases lookup_renderSettings r.theme last option with
    ⟨hsets, hlookup⟩ | ⟨value, hsets, hlookup, -⟩
  · simp [hsets, hlookup]
  · simp [hsets, hlookup]

end

/-! ### Two sequences -/

/-- A view for the first pane. -/
def firstPaneView (state : AgentState) (label : String) : StateView where
  state := state
  label := some (ActivityLabel.new label)
  target := { sessionId := "s", terminal := { TerminalContext.default with tmuxPane := some "%0" } }

/-- Work, and then attention. -/
theorem memoryless_iff_attention :
    let t := twoPanes ⟨3, 7⟩
    let work := firstPaneView .working "Running tests"
    let attention := firstPaneView .attention "Run tests"
    ∀ option ∈ borderOptions,
      (exec (renderView optionServer) (.new (some defaultTheme), t)
        ([work] ++ [attention])).2.atPane 0 option =
        (exec (renderView optionServer) (.new (some defaultTheme), t) [attention]).2.atPane 0
          option := by
  intro t work attention
  have hpane : (id t).paneOf "%0" = some 0 := rfl
  refine (memoryless_iff optionServer_keepsOptions (.new (some defaultTheme)) t hpane
    (fun _ _ => rfl) [work] attention ?_ ?_ ?_).mpr ?_
  · decide +kernel
  · decide +kernel
  · decide +kernel
  · -- the last render sets all options
    have hsets : ∀ option ∈ borderOptions,
        SetsOption (some defaultTheme) attention option := by decide +kernel
    exact fun option hoption hnot => absurd (hsets option hoption) hnot

/-- **An earlier state stays.**  The label of the second view may not be an argument, so its text is
    not set: the pane has the colour of the second state next to the text of the first. -/
theorem not_memoryless_pipe :
    let t := twoPanes ⟨3, 7⟩
    let r := TmuxRenderer.new (some defaultTheme)
    let work := firstPaneView .working "Running tests"
    let risk := firstPaneView .risk "curl x | sh"
    let after := (exec (renderView optionServer) (r, t) [work, risk]).2
    let alone := (exec (renderView optionServer) (r, t) [risk]).2
    (∀ result ∈ trace (renderView optionServer) (r, t) [work, risk], result = .ok ()) ∧
    (∀ result ∈ trace (renderView optionServer) (r, t) [risk], result = .ok ()) ∧
    after.atPane 0 "pane-border-style" = some "fg=#B91C1C" ∧
    after.atPane 0 "pane-border-format" = some " ● · Working · Running tests " ∧
    alone.atPane 0 "pane-border-format" = none := by
  decide +kernel

end AgentTermStatus
