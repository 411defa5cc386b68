import AgentTermStatus.Renderer.TmuxVersion
import AgentTermStatus.Lib.Settings

namespace AgentTermStatus

open Lib

/-!
# What the renderer's commands do to the options of tmux

The options of a tmux server are those of its panes, those of its windows, and the global ones; a
pane goes by its own, that of its window, or the global one.  What is assumed of tmux is
`KeepsOptions`: `set-option -p` acts on the pane from version 3.7 on, on its window before that;
a command that fails changes no option, and neither does a query.

A script of the renderer is a list of settings, and running it makes those settings that tmux
carries out (`runScript_options`).
-/

/-- The options of a tmux server. -/
structure TmuxOptions where
  version : TmuxVersion
  /-- The pane a target names. -/
  paneOf : String → Option Nat
  /-- The window of a pane. -/
  windowOf : Nat → Nat
  /-- The options of the panes and the windows, and the global ones. -/
  options : Layered Nat Nat String String

/-- An option, and the value it is given, if it is given one. -/
abbrev Setting := String × Option String

namespace TmuxOptions

/-- What a pane goes by. -/
def effective (o : TmuxOptions) (pane : Nat) (option : String) : String :=
  o.options.effective o.windowOf pane option

/-- `set-option -p` acts on the pane. -/
def PaneScoped (o : TmuxOptions) : Prop := o.version.AtLeast minTmuxVersion

instance (o : TmuxOptions) : Decidable o.PaneScoped := inferInstanceAs (Decidable (_ ∨ _))

/-- What `set-option -p` does for a pane. -/
def apply (o : TmuxOptions) (pane : Nat) (s : Setting) : TmuxOptions :=
  { o with
    options :=
      if o.PaneScoped then o.options.setOwn pane s.1 s.2
      else o.options.setGroup (o.windowOf pane) s.1 s.2 }

/-- What some of these commands do. -/
def applyAll (o : TmuxOptions) (pane : Nat) (changes : List Setting) : TmuxOptions :=
  changes.foldl (fun o s => o.apply pane s) o

/-- They act on the pane from version 3.7 on, on its window before. -/
theorem applyAll_eq (o : TmuxOptions) (pane : Nat) (changes : List Setting) :
    o.applyAll pane changes =
      { o with
        options :=
          if o.PaneScoped then o.options.setOwns pane changes
          else o.options.setGroups (o.windowOf pane) changes } := by
  induction changes generalizing o with
  | nil =>
    show o = _
    split <;> rfl
  | cons s changes ih =>
    show (o.apply pane s).applyAll pane changes = _
    rw [ih]
    -- an assignment changes neither the version nor the window of the pane
    by_cases h : o.PaneScoped
    · rw [if_pos h, if_pos (show (o.apply pane s).PaneScoped from h), apply, if_pos h]
      rfl
    · rw [if_neg h, if_neg (show ¬ (o.apply pane s).PaneScoped from h), apply, if_neg h]
      rfl

/-- A target goes on naming the same pane. -/
@[simp] theorem applyAll_paneOf (o : TmuxOptions) (pane : Nat) (changes : List Setting) :
    (o.applyAll pane changes).paneOf = o.paneOf := by
  rw [applyAll_eq]

/-- Settings made in two portions. -/
theorem applyAll_append (o : TmuxOptions) (pane : Nat) (changes changes' : List Setting) :
    o.applyAll pane (changes ++ changes') = (o.applyAll pane changes).applyAll pane changes' :=
  List.foldl_append ..

end TmuxOptions

/-! ### What is assumed of tmux -/

section
variable {τ : Type}

/-- The options the renderer sets. -/
def borderOptions : List String :=
  ["pane-border-style", "pane-border-format", "pane-border-status"]

/-- What is assumed of tmux about its options. -/
structure KeepsOptions (tmux : Tmux τ) (options : τ → TmuxOptions) : Prop where
  /-- `set-option -p` sets or unsets an option for the pane that its target names. -/
  set : ∀ (t t' : τ) (target : String) (s : Setting) (stdout : Option String),
    s.1 ∈ borderOptions →
    tmux t (TmuxRenderer.commandLine (TmuxRenderer.setOption s.1 s.2) target) =
      (t', .succeeded stdout) →
    ∃ pane, (options t).paneOf target = some pane ∧ options t' = (options t).apply pane s
  /-- A command that fails or cannot be run changes no option. -/
  refuse : ∀ (t : τ) (args : List String), (∀ stdout, (tmux t args).2 ≠ .succeeded stdout) →
    options (tmux t args).1 = options t
  /-- Asking for an option changes none. -/
  query : ∀ (t : τ) (target option : String),
    options (tmux t (TmuxRenderer.captureArgs option ++ ["-t", target])).1 = options t

namespace TmuxRenderer
variable (tmux : Tmux τ)

/-- The command of a setting. -/
def settingArgs (s : Setting) : List String := setOption s.1 s.2

/-- The settings of a script that tmux carries out: those before the first that fails. -/
def carriedOut (target : String) : List Setting → τ → List Setting
  | [], _ => []
  | s :: changes, t =>
    match runTmux tmux t (settingArgs s) target with
    | (_, .error _) => []
    | (t, .ok ())   => s :: carriedOut target changes t

/-- The settings that are carried out come first. -/
theorem carriedOut_prefix (target : String) (changes : List Setting) (t : τ) :
    carriedOut tmux target changes t <+: changes := by
  induction changes generalizing t with
  | nil => exact List.prefix_refl _
  | cons s changes ih =>
    rw [carriedOut]
    split
    · exact List.nil_prefix
    · exact (List.prefix_cons_inj s).mpr (ih _)

variable {tmux} {options : τ → TmuxOptions}

/-- What one command does to the options. -/
theorem runTmux_options (h : KeepsOptions tmux options) (t : τ) (target : String) {s : Setting}
    (hs : s.1 ∈ borderOptions) :
    (∃ e, (runTmux tmux t (settingArgs s) target).2 = .error e ∧
      options (runTmux tmux t (settingArgs s) target).1 = options t) ∨
    (∃ pane, (runTmux tmux t (settingArgs s) target).2 = .ok () ∧
      (options t).paneOf target = some pane ∧
      options (runTmux tmux t (settingArgs s) target).1 = (options t).apply pane s) := by
  unfold runTmux
  rcases hrun : tmux t (commandLine (settingArgs s) target) with ⟨t', result⟩
  have hrefuse := h.refuse t (commandLine (settingArgs s) target)
  rw [hrun] at hrefuse
  cases result with
  | cannotRun e => exact .inl ⟨_, rfl, hrefuse (by simp)⟩
  | failed stderr => exact .inl ⟨_, rfl, hrefuse (by simp)⟩
  | succeeded stdout =>
    obtain ⟨pane, hpane, heq⟩ := h.set t t' target s stdout hs hrun
    exact .inr ⟨pane, rfl, hpane, heq⟩

/-- **What a script does to the options.**  The settings that tmux carries out are made for the
    pane that the target names; there are none if it names no pane. -/
theorem runScript_options (h : KeepsOptions tmux options) (target : String)
    {changes : List Setting} (hchanges : ∀ s ∈ changes, s.1 ∈ borderOptions) (t : τ) :
    match (options t).paneOf target with
    | none => carriedOut tmux target changes t = [] ∧
        options (runScript tmux target (changes.map settingArgs) t).1 = options t
    | some pane => options (runScript tmux target (changes.map settingArgs) t).1 =
        (options t).applyAll pane (carriedOut tmux target changes t) := by
  induction changes generalizing t with
  | nil => split <;> simp [carriedOut, runScript, TmuxOptions.applyAll]
  | cons s changes ih =>
    rw [List.forall_mem_cons] at hchanges
    rw [List.map_cons, runScript, carriedOut]
    rcases runTmux_options h t target hchanges.1 with ⟨e, herr, hsame⟩ | ⟨pane, hok, hpane, happly⟩
    -- the first command that fails ends the script
    · generalize runTmux tmux t (settingArgs s) target = r at herr hsame
      obtain ⟨t', result⟩ := r
      obtain rfl := herr
      split
      · exact ⟨rfl, hsame⟩
      · exact hsame
    · generalize runTmux tmux t (settingArgs s) target = r at hok happly
      obtain ⟨t', result⟩ := r
      obtain rfl := hok
      have happly' : options t' = (options t).apply pane s := happly
      have hrest := ih hchanges.2 t'
      -- the target names the same pane after the command
      rw [happly', show ((options t).apply pane s).paneOf target = some pane from hpane] at hrest
      rw [hpane]
      exact hrest

/-- For a target that names a pane. -/
theorem runScript_options_of_pane (h : KeepsOptions tmux options) {target : String}
    {changes : List Setting} (hchanges : ∀ s ∈ changes, s.1 ∈ borderOptions) {t : τ} {pane : Nat}
    (hpane : (options t).paneOf target = some pane) :
    options (runScript tmux target (changes.map settingArgs) t).1 =
      (options t).applyAll pane (carriedOut tmux target changes t) := by
  have hscript := runScript_options h target hchanges t
  rw [hpane] at hscript
  exact hscript

end TmuxRenderer

end

/-! ### The scripts as settings -/

namespace TmuxRenderer

/-- The settings of a render. -/
def renderSettings (theme : Option Theme) (view : StateView) : List Setting :=
  if view.state = .idle then
    [("pane-border-style", none), ("pane-border-format", none), ("pane-border-status", none)]
  else
    (match borderStyleFor theme view.state with
      | some style => [("pane-border-style", some style)]
      | none       => []) ++
    (match borderFormatFor theme view.state view.label with
      | some format =>
          if validateArg format then
            [("pane-border-status", some "top"), ("pane-border-format", some format)]
          else []
      | none => [])

theorem renderScript_eq (theme : Option Theme) (view : StateView) :
    renderScript theme view = (renderSettings theme view).map settingArgs := by
  unfold renderScript renderSettings
  split
  · rfl
  · rw [List.map_append]
    congr 1
    · cases borderStyleFor theme view.state <;> rfl
    · cases borderFormatFor theme view.state view.label with
      | none => rfl
      | some format =>
        simp only
        split <;> rfl

/-- The settings of a reset. -/
def resetSettings (captured : Option CapturedState) : List Setting :=
  [("pane-border-style", captured.bind CapturedState.borderStyle),
    ("pane-border-format", captured.bind CapturedState.borderFormat),
    ("pane-border-status", captured.bind CapturedState.borderStatus)]

theorem resetScript_eq (captured : Option CapturedState) :
    resetScript captured = (resetSettings captured).map settingArgs := rfl

/-- A render sets some of the three options, each once. -/
theorem keys_renderSettings (theme : Option Theme) (view : StateView) :
    (renderSettings theme view).map Prod.fst = borderOptions ∨
    ((renderSettings theme view).map Prod.fst).Sublist
      ["pane-border-style", "pane-border-status", "pane-border-format"] := by
  unfold renderSettings
  split
  · exact .inl rfl
  · right
    rw [List.map_append]
    show List.Sublist _ (["pane-border-style"] ++ ["pane-border-status", "pane-border-format"])
    refine List.Sublist.append ?_ ?_
    · split <;> simp
    · split
      · split <;> simp
      · simp

theorem mem_renderSettings (theme : Option Theme) (view : StateView) :
    ∀ s ∈ renderSettings theme view, s.1 ∈ borderOptions := by
  intro s hs
  have hkey : s.1 ∈ (renderSettings theme view).map Prod.fst := List.mem_map_of_mem hs
  rcases keys_renderSettings theme view with hkeys | hkeys
  · rwa [hkeys] at hkey
  · have hmem := hkeys.subset hkey
    simp only [List.mem_cons, List.not_mem_nil, or_false] at hmem
    rcases hmem with h | h | h <;> simp [h, borderOptions]

theorem nodup_renderSettings (theme : Option Theme) (view : StateView) :
    ((renderSettings theme view).map Prod.fst).Nodup := by
  rcases keys_renderSettings theme view with hkeys | hkeys
  · rw [hkeys]
    decide
  · exact List.Nodup.sublist hkeys (by decide)

/-- A reset sets the three options, each once. -/
theorem keys_resetSettings (captured : Option CapturedState) :
    (resetSettings captured).map Prod.fst = borderOptions := rfl

theorem mem_resetSettings (captured : Option CapturedState) :
    ∀ s ∈ resetSettings captured, s.1 ∈ borderOptions := by
  intro s hs
  have hkey : s.1 ∈ (resetSettings captured).map Prod.fst := List.mem_map_of_mem hs
  rwa [keys_resetSettings] at hkey

theorem nodup_resetSettings (captured : Option CapturedState) :
    ((resetSettings captured).map Prod.fst).Nodup := by
  rw [keys_resetSettings]
  decide

end TmuxRenderer

end AgentTermStatus
