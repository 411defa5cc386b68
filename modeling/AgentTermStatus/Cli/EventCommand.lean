import AgentTermStatus.Renderer.PaneIsolation
import AgentTermStatus.Lib.Run

namespace AgentTermStatus

open Lib

/-!
# The event command

While the daemon can be reached, `ats event STATE` sets the border style of its pane itself, and
only where `tmux -V` tells of a tmux whose `set-option -p` is pane-scoped
(`EventPrototype.run`).  Without the daemon it renders standalone, and asks nothing
(`eventCommand`).

* `eventCommand_cases` — what one call does to the options of tmux;
* `eventCommands_isolated` — what calls, one after the other, never do to other panes;
* `eventCommands_last` — a pane shows the state of the last call that was carried out for it.
-/

/-! ### Running the command -/

/-- The state an argument names. -/
def parseState : String → Option AgentState
  | "idle"      => some .idle
  | "working"   => some .working
  | "attention" => some .attention
  | "risk"      => some .risk
  | "result"    => some .result
  | "error"     => some .error
  | "unknown"   => some .unknown
  | _           => none

namespace EventPrototype

/-- The border style of a state; the style is unset for none. -/
def borderStyle : AgentState → Option String
  | .working   => some "fg=blue"
  | .attention => some "fg=orange"
  | .risk      => some "fg=red"
  | .result    => some "fg=green"
  | .error     => some "fg=magenta"
  | .unknown   => some "fg=colour244"
  | .idle      => none

/-- The command line that sets the border style of a pane, or unsets it. -/
def borderLine (pane : String) : Option String → List String
  | some style => ["set-option", "-p", "-t", pane, "pane-border-style", style]
  | none       => ["set-option", "-p", "-t", pane, "-u", "pane-border-style"]

/-- What a call reports. -/
inductive Report
  | unknownState
  | noPane
  /-- tmux is too old for pane options. -/
  | leaks
  | unknownVersion
  /-- tmux was asked to set the style. -/
  | asked (result : CommandResult)
  /-- The state was rendered standalone. -/
  | standalone
  deriving DecidableEq

section
variable {τ : Type} (tmux : Tmux τ)

/-- Is `set-option -p` pane-scoped? -/
def paneScopeIsSafe (t : τ) : τ × Option Bool :=
  let (t, version) := TmuxRenderer.checkTmuxVersion tmux t
  (t, version.map fun v => decide (v.AtLeast minTmuxVersion))

/-- Sets the border style, with the variable `TMUX_PANE`. -/
def run (stateArg : String) (tmuxPane : Option String) (t : τ) : τ × Report :=
  match parseState stateArg with
  | none       => (t, .unknownState)
  | some state =>
    match tmuxPane with
    | none      => (t, .noPane)
    | some pane =>
      match paneScopeIsSafe tmux t with
      | (t, some true) =>
        let (t, result) := tmux t (borderLine pane (borderStyle state))
        (t, .asked result)
      | (t, some false) => (t, .leaks)
      | (t, none)       => (t, .unknownVersion)

end

end EventPrototype

/-- A call of `ats event`. -/
structure EventCall where
  state : String
  /-- The variable `TMUX_PANE`. -/
  tmuxPane : Option String
  /-- The daemon can be reached. -/
  daemonUp : Bool
  /-- The bundled theme that a standalone render loads. -/
  theme : Theme

section
variable {τ : Type} (tmux : Tmux τ)

/-- Runs the command. -/
def eventCommand (t : τ) (call : EventCall) : τ × List EventPrototype.Report :=
  if call.daemonUp then
    let (t, report) := EventPrototype.run tmux call.state call.tmuxPane t
    (t, [report])
  else
    match parseState call.state with
    | some state => (standaloneRender tmux call.theme call.tmuxPane state none t, [.standalone])
    | none       => (t, [.unknownState])

/-! ### One call -/

/-- What is assumed of tmux about the command lines of the prototype. -/
structure KeepsBorders (options : τ → TmuxOptions) : Prop extends KeepsOptions tmux options where
  /-- Its `set-option -p` does what that of the renderer does. -/
  border : ∀ (t t' : τ) (target : String) (style stdout : Option String),
    tmux t (EventPrototype.borderLine target style) = (t', .succeeded stdout) →
    ∃ pane, (options t).paneOf target = some pane ∧
      options t' = (options t).apply pane ("pane-border-style", style)
  /-- Asking for the version changes no option. -/
  version : ∀ t, options (tmux t ["-V"]).1 = options t
  /-- The version that tmux tells is its own. -/
  tells : ∀ t v, (TmuxRenderer.checkTmuxVersion tmux t).2 = some v → (options t).version = v

/-- The call was carried out: the style of its pane was set for the state. -/
def EventCall.CarriedOut (t : τ) (call : EventCall) : Prop :=
  call.daemonUp ∧ ∃ stdout, (eventCommand tmux t call).2 = [.asked (.succeeded stdout)]

variable {tmux} {options : τ → TmuxOptions}

theorem paneScopeIsSafe_options (h : KeepsBorders tmux options) (t : τ) :
    options (EventPrototype.paneScopeIsSafe tmux t).1 = options t ∧
    ((EventPrototype.paneScopeIsSafe tmux t).2 = some true → (options t).PaneScoped) := by
  have htells := h.tells t
  have hversion := h.version t
  have hstate : (TmuxRenderer.checkTmuxVersion tmux t).1 = (tmux t ["-V"]).1 := by
    unfold TmuxRenderer.checkTmuxVersion
    split <;> simp_all
  refine ⟨?_, fun hsafe => ?_⟩
  · show options (TmuxRenderer.checkTmuxVersion tmux t).1 = options t
    rw [hstate, hversion]
  · obtain ⟨v, hv, hdecide⟩ := Option.map_eq_some_iff.mp hsafe
    rw [TmuxOptions.PaneScoped, htells v hv]
    exact of_decide_eq_true hdecide

/-- The command line of the prototype sets the style of a pane, or is refused. -/
theorem borderLine_options (h : KeepsBorders tmux options) (t : τ) (target : String)
    (style : Option String) :
    (options (tmux t (EventPrototype.borderLine target style)).1 = options t ∧
      ∀ stdout, (tmux t (EventPrototype.borderLine target style)).2 ≠ .succeeded stdout) ∨
    ∃ pane, (options t).paneOf target = some pane ∧
      options (tmux t (EventPrototype.borderLine target style)).1 =
        (options t).apply pane ("pane-border-style", style) ∧
      ∃ stdout, (tmux t (EventPrototype.borderLine target style)).2 = .succeeded stdout := by
  by_cases hok : ∃ stdout, (tmux t (EventPrototype.borderLine target style)).2 = .succeeded stdout
  · obtain ⟨stdout, hok⟩ := hok
    obtain ⟨pane, hpane, happly⟩ := h.border t _ target style stdout (Prod.ext rfl hok)
    exact .inr ⟨pane, hpane, happly, stdout, hok⟩
  · have hne := not_exists.mp hok
    exact .inl ⟨h.refuse t _ hne, hne⟩

/-- **What the prototype does.** It changes no option, and tmux carries nothing out for it; or tmux
    scopes options to panes, and carries out the style of the state for the pane. -/
theorem run_cases (h : KeepsBorders tmux options) (stateArg : String) (tmuxPane : Option String)
    (t : τ) :
    (options (EventPrototype.run tmux stateArg tmuxPane t).1 = options t ∧
      ∀ stdout, (EventPrototype.run tmux stateArg tmuxPane t).2 ≠ .asked (.succeeded stdout)) ∨
    ∃ state pane, parseState stateArg = some state ∧
      tmuxPane.bind (options t).paneOf = some pane ∧ (options t).PaneScoped ∧
      options (EventPrototype.run tmux stateArg tmuxPane t).1 =
        (options t).apply pane ("pane-border-style", EventPrototype.borderStyle state) ∧
      ∃ stdout, (EventPrototype.run tmux stateArg tmuxPane t).2 = .asked (.succeeded stdout) := by
  unfold EventPrototype.run
  cases hstate : parseState stateArg with
  | none => exact .inl ⟨rfl, by simp⟩
  | some state =>
    cases tmuxPane with
    | none => exact .inl ⟨rfl, by simp⟩
    | some target =>
      obtain ⟨hsame, hscoped⟩ := paneScopeIsSafe_options h t
      rcases hsafe : EventPrototype.paneScopeIsSafe tmux t with ⟨t₁, safe⟩
      rw [hsafe] at hsame hscoped
      rcases safe with _ | _ | _
      · exact .inl ⟨hsame, by simp⟩
      · exact .inl ⟨hsame, by simp⟩
      -- tmux is asked, and either refuses or sets the style of the pane
      · show options (tmux t₁ (EventPrototype.borderLine target _)).1 = options t ∧ _ ∨ _
        obtain ⟨hrefused, hne⟩ | ⟨pane, hpane, happly, stdout, hok⟩ :=
          borderLine_options h t₁ target (EventPrototype.borderStyle state)
        · refine .inl ⟨hrefused.trans hsame, fun stdout heq => hne stdout ?_⟩
          exact EventPrototype.Report.asked.inj heq
        · have hsame' : options t₁ = options t := hsame
          rw [hsame'] at hpane happly
          exact .inr ⟨state, pane, rfl, hpane, hscoped rfl, happly, stdout, congrArg _ hok⟩

/-- **What a call does.** It changes no option, and nothing is carried out; or it makes settings for
    its pane, and with the daemon running, these are the style of its state, carried out on a tmux
    that scopes options to panes. -/
theorem eventCommand_cases (h : KeepsBorders tmux options) (t : τ) (call : EventCall) :
    (options (eventCommand tmux t call).1 = options t ∧ ¬ call.CarriedOut tmux t) ∨
    ∃ pane changes, call.tmuxPane.bind (options t).paneOf = some pane ∧
      options (eventCommand tmux t call).1 = (options t).applyAll pane changes ∧
      (call.daemonUp → call.CarriedOut tmux t ∧ (options t).PaneScoped ∧
        ∃ state, parseState call.state = some state ∧
          changes = [("pane-border-style", EventPrototype.borderStyle state)]) := by
  unfold EventCall.CarriedOut eventCommand
  by_cases hup : call.daemonUp = true
  · simp only [if_pos hup]
    obtain ⟨hsame, hne⟩ | ⟨state, pane, hstate, hpane, hscoped, happly, stdout, hreport⟩ :=
      run_cases h call.state call.tmuxPane t
    · refine .inl ⟨hsame, ?_⟩
      rintro ⟨-, stdout, hreport⟩
      exact hne stdout (List.singleton_inj.mp hreport)
    · refine .inr ⟨pane, [("pane-border-style", EventPrototype.borderStyle state)], hpane, happly,
        fun _ => ⟨⟨hup, stdout, ?_⟩, hscoped, state, hstate, rfl⟩⟩
      rw [hreport]
  · simp only [if_neg hup]
    cases parseState call.state with
    | none => exact .inl ⟨rfl, fun hout => hup hout.1⟩
    | some state =>
      -- a standalone render is one of the requests, whatever the engine beside it
      let s : RenderState τ := { engine := .new .default, renderer := .new none, tmux := t }
      let req := Request.standaloneRender call.theme call.tmuxPane state none
      obtain ⟨hserve, -⟩ | ⟨a, pane, hattempt, hpane, hserve⟩ :=
        serve_options h.toKeepsOptions s req
      · exact .inl ⟨hserve, fun hout => hup hout.1⟩
      · have htarget := (fits_attempt h.toKeepsOptions hattempt).target
        refine .inr ⟨pane, _, ?_, hserve, fun hup' => absurd hup' hup⟩
        show req.target.bind (options s.tmux).paneOf = some pane
        rw [htarget, Option.bind_some, hpane]

/-! ### Calls, one after the other -/

/-- Between the two, the same tmux has the same panes in the same windows. -/
structure SamePanes (o o' : TmuxOptions) : Prop where
  version : o'.version = o.version
  paneOf : o'.paneOf = o.paneOf
  windowOf : o'.windowOf = o.windowOf

theorem SamePanes.trans {o o' o'' : TmuxOptions} (h : SamePanes o o') (h' : SamePanes o' o'') :
    SamePanes o o'' :=
  ⟨h'.version.trans h.version, h'.paneOf.trans h.paneOf, h'.windowOf.trans h.windowOf⟩

theorem SamePanes.paneScoped_iff {o o' : TmuxOptions} (h : SamePanes o o') :
    o'.PaneScoped ↔ o.PaneScoped := by
  rw [TmuxOptions.PaneScoped, TmuxOptions.PaneScoped, h.version]

theorem samePanes_eventCommand (h : KeepsBorders tmux options) (t : τ) (call : EventCall) :
    SamePanes (options t) (options (eventCommand tmux t call).1) := by
  obtain ⟨hsame, -⟩ | ⟨pane, changes, -, happly, -⟩ := eventCommand_cases h t call
  · rw [hsame]
    exact ⟨rfl, rfl, rfl⟩
  · rw [happly, TmuxOptions.applyAll_eq]
    exact ⟨rfl, rfl, rfl⟩

theorem samePanes_exec (h : KeepsBorders tmux options) (t : τ) (calls : List EventCall) :
    SamePanes (options t) (options (exec (eventCommand tmux) t calls)) := by
  induction calls generalizing t with
  | nil => exact ⟨rfl, rfl, rfl⟩
  | cons call calls ih => exact (samePanes_eventCommand h t call).trans (ih _)

/-- Each call meets a daemon, or all of them a tmux that scopes options to panes. -/
def Guarded (o : TmuxOptions) (calls : List EventCall) : Prop :=
  o.PaneScoped ∨ ∀ call ∈ calls, call.daemonUp = true

/-- **One guarded call.** Other panes keep their options, and so do the windows. -/
theorem eventCommand_isolated (h : KeepsBorders tmux options) {t : τ} {call : EventCall}
    (hguard : (options t).PaneScoped ∨ call.daemonUp = true) :
    PaneIsolated call.tmuxPane (options t) (options (eventCommand tmux t call).1) := by
  obtain ⟨hsame, -⟩ | ⟨pane, changes, hpane, happly, hup⟩ := eventCommand_cases h t call
  · rw [hsame]
    exact PaneIsolated.refl _ _
  · have hscoped : (options t).PaneScoped := hguard.elim id fun hdaemon => (hup hdaemon).2.1
    rw [happly]
    exact paneIsolated_applyAll hscoped hpane changes

/-- **Calls leave other panes alone.**  However many calls of `ats event` are made, with whatever
    arguments, for whatever panes: if each meets a daemon, or tmux scopes options to panes, then a
    pane that none of them is for keeps its options and goes by what it went by, and the options of
    the windows and the global ones stay.  With a daemon, a tmux that does not scope options to
    panes keeps every option there is. -/
theorem eventCommands_isolated (h : KeepsBorders tmux options) {t : τ} {calls : List EventCall}
    (hguard : Guarded (options t) calls) :
    let o' := options (exec (eventCommand tmux) t calls)
    (∀ q, (∀ call ∈ calls, call.tmuxPane.bind (options t).paneOf ≠ some q) →
      o'.options.own q = (options t).options.own q ∧ o'.effective q = (options t).effective q) ∧
    o'.options.group = (options t).options.group ∧
    o'.options.default = (options t).options.default ∧
    (¬ (options t).PaneScoped → o' = options t) := by
  -- induction over the calls; none changes what makes the next one guarded
  induction calls generalizing t with
  | nil => exact ⟨fun _ _ => ⟨rfl, rfl⟩, rfl, rfl, fun _ => rfl⟩
  | cons call calls ih =>
    have hpanes := samePanes_eventCommand h t call
    have hfirst := eventCommand_isolated h (hguard.imp_right fun hup => hup call List.mem_cons_self)
    have hrest : Guarded (options (eventCommand tmux t call).1) calls :=
      hguard.imp hpanes.paneScoped_iff.mpr fun hup c hc => hup c (List.mem_cons_of_mem _ hc)
    obtain ⟨hown, hgroup, hdefault, hold⟩ := ih hrest
    rw [hpanes.paneOf, hpanes.paneScoped_iff] at *
    refine ⟨fun q hq => ?_, hgroup.trans hfirst.windows, hdefault.trans hfirst.globals,
      fun hunscoped => ?_⟩
    · rw [List.forall_mem_cons] at hq
      obtain ⟨hown', heff⟩ := hown q hq.2
      exact ⟨hown'.trans (hfirst.panes q hq.1), heff.trans (hfirst.effective q hq.1)⟩
    · refine (hold hunscoped).trans ?_
      obtain ⟨hsame, -⟩ | ⟨_, _, _, _, hup⟩ := eventCommand_cases h t call
      · exact hsame
      · have hdaemon := hguard.resolve_left hunscoped call List.mem_cons_self
        exact absurd (hup hdaemon).2.1 hunscoped

/-- A call that is carried out sets the style of its pane for its state. -/
theorem eventCommand_of_carriedOut (h : KeepsBorders tmux options) {t : τ} {call : EventCall}
    (hout : call.CarriedOut tmux t) :
    ∃ state pane, parseState call.state = some state ∧ (options t).PaneScoped ∧
      call.tmuxPane.bind (options t).paneOf = some pane ∧
      options (eventCommand tmux t call).1 =
        (options t).apply pane ("pane-border-style", EventPrototype.borderStyle state) := by
  obtain ⟨-, hnot⟩ | ⟨pane, changes, hpane, happly, hup⟩ := eventCommand_cases h t call
  · exact absurd hout hnot
  · obtain ⟨-, hscoped, state, hstate, rfl⟩ := hup hout.1
    exact ⟨state, pane, hstate, hscoped, hpane, happly⟩

/-- A call that is for another pane, or meets the daemon and is not carried out, leaves a pane
    alone. -/
theorem own_eventCommand (h : KeepsBorders tmux options) {t : τ} {call : EventCall} {q : Nat}
    (hscoped : (options t).PaneScoped)
    (hcall : call.tmuxPane.bind (options t).paneOf = some q →
      call.daemonUp = true ∧ ¬ call.CarriedOut tmux t) :
    (options (eventCommand tmux t call).1).options.own q = (options t).options.own q := by
  by_cases hq : call.tmuxPane.bind (options t).paneOf = some q
  · obtain ⟨hup, hnot⟩ := hcall hq
    obtain ⟨hsame, -⟩ | ⟨_, _, _, _, hout⟩ := eventCommand_cases h t call
    · rw [hsame]
    · exact absurd (hout hup).1 hnot
  · exact (eventCommand_isolated h (.inl hscoped)).panes q hq

/-- **The last call shows.**  In any run of `ats event`: after a call that was carried out for a
    pane, and then calls that are for other panes or meet the daemon without being carried out, the
    pane has the border style of the state of that call; for the idle state, that of its window, or
    the global one. -/
theorem eventCommands_last (h : KeepsBorders tmux options) {t : τ} {before after : List EventCall}
    {call : EventCall} {q : Nat}
    (hout : call.CarriedOut tmux (exec (eventCommand tmux) t before))
    (hpane : call.tmuxPane.bind (options t).paneOf = some q)
    (hafter : Along (eventCommand tmux)
      (fun t c => c.tmuxPane.bind (options t).paneOf = some q →
        c.daemonUp = true ∧ ¬ c.CarriedOut tmux t)
      (exec (eventCommand tmux) t (before ++ [call])) after) :
    ∃ state, parseState call.state = some state ∧
      (options (exec (eventCommand tmux) t (before ++ call :: after))).effective q
          "pane-border-style" =
        ((EventPrototype.borderStyle state).or
          ((options t).options.group ((options t).windowOf q) "pane-border-style")).getD
          ((options t).options.default "pane-border-style") := by
  obtain ⟨state, pane, hstate, hscoped, hpane', happly⟩ := eventCommand_of_carriedOut h hout
  have hbefore := samePanes_exec h t before
  obtain rfl : pane = q := by
    rw [hbefore.paneOf, hpane] at hpane'
    exact (Option.some.inj hpane').symm
  have hscoped' : (options t).PaneScoped := hbefore.paneScoped_iff.mp hscoped
  -- tmux scopes options to panes all along, so the windows keep their options
  have hwhole := eventCommands_isolated h (.inl hscoped' : Guarded _ (before ++ call :: after))
  have hfixed := samePanes_exec h t (before ++ call :: after)
  refine ⟨state, hstate, ?_⟩
  have hown : (options (exec (eventCommand tmux) t (before ++ call :: after))).options.own pane
      "pane-border-style" = EventPrototype.borderStyle state := by
    rw [List.append_cons, exec_append]
    -- the style is that of the call right after it, and stays
    refine hafter.exec_inv (fun t => (options t).PaneScoped ∧
      (options t).options.own pane "pane-border-style" = EventPrototype.borderStyle state)
      ?_ ⟨?_, ?_⟩ |>.2
    · rintro t c hc ⟨hsc, hstyle⟩
      refine ⟨(samePanes_eventCommand h t c).paneScoped_iff.mpr hsc, ?_⟩
      rw [own_eventCommand h hsc hc, hstyle]
    · exact (samePanes_exec h t _).paneScoped_iff.mpr hscoped'
    · rw [exec_append, exec_cons, exec_nil, happly, TmuxOptions.apply, if_pos hscoped]
      show assign _ pane _ _ pane _ = _
      rw [assign_apply, if_pos ⟨rfl, rfl⟩]
  rw [TmuxOptions.effective, Layered.effective, hown, hwhole.2.1, hwhole.2.2.1, hfixed.windowOf]

end

/-! ### A tmux -/

/-- A tmux that also takes the command lines of the prototype. -/
def eventServer : Tmux TmuxOptions := fun o args =>
  match args with
  | ["set-option", "-p", "-t", target, "-u", option] =>
    optionServer o ["set-option", "-t", target, "-p", "-u", option]
  | ["set-option", "-p", "-t", target, option, value] =>
    optionServer o ["set-option", "-t", target, "-p", option, value]
  | _ => optionServer o args

theorem eventServer_cases (o : TmuxOptions) (args : List String) :
    ∃ args', eventServer o args = optionServer o args' := by
  unfold eventServer
  split
  · exact ⟨_, rfl⟩
  · exact ⟨_, rfl⟩
  · exact ⟨_, rfl⟩

/-- The answer to `tmux -V` spells the version. -/
theorem spellsVersion_answer (v : TmuxVersion) :
    SpellsVersion ("tmux " ++ toString v.major ++ "." ++ toString v.minor).toList v.major
      v.minor := by
  have htext : ("tmux " ++ toString v.major ++ "." ++ toString v.minor).toList =
      "tmux ".toList ++ (Nat.toDigits 10 v.major ++ '.' :: Nat.toDigits 10 v.minor) ++ [] := by
    simp only [String.toList_append, List.append_nil, List.append_assoc, toString, Nat.toList_repr]
    rfl
  have hall : "tmux ".toList.all (fun c => !c.isDigit) = true := by decide
  rw [htext]
  exact .majorMinor (fun c hc => by simpa using List.all_eq_true.mp hall c hc)
    (decimalOf_toDigits _) (decimalOf_toDigits _) (by simp)

theorem eventServer_keepsBorders : KeepsBorders eventServer id where
  set t t' target s stdout hs hrun := by
    refine optionServer_keepsOptions.set t t' target s stdout hs ?_
    obtain ⟨option, value⟩ := s
    cases value with
    | none => exact hrun
    | some value => exact hrun
  refuse t args hfail := by
    obtain ⟨args', hargs⟩ := eventServer_cases t args
    rw [hargs] at hfail ⊢
    exact optionServer_keepsOptions.refuse t args' hfail
  query t target option := rfl
  border t t' target style stdout hrun := by
    refine optionServer_keepsOptions.set t t' target ("pane-border-style", style) stdout
      List.mem_cons_self ?_
    cases style with
    | none => exact hrun
    | some style => exact hrun
  version t := rfl
  tells t v hv := by
    have hparse : TmuxRenderer.parseTmuxVersion
        ("tmux " ++ toString t.version.major ++ "." ++ toString t.version.minor) = some v := hv
    rw [TmuxRenderer.parseTmuxVersion_of_spells (spellsVersion_answer t.version)] at hparse
    exact Option.some.inj (Option.ite_none_right_eq_some.mp hparse).2

/-- A call from the first pane, while the daemon runs. -/
def firstPaneCall (state : String) : EventCall where
  state := state
  tmuxPane := some "%0"
  daemonUp := true
  theme := defaultTheme

/-- On tmux 3.6 such a call changes nothing. -/
theorem eventCommands_isolated_old :
    exec (eventCommand eventServer) (twoPanes ⟨3, 6⟩) [firstPaneCall "working"] =
      twoPanes ⟨3, 6⟩ := by
  have hguard : Guarded (twoPanes ⟨3, 6⟩) [firstPaneCall "working"] :=
    .inr (by simp [firstPaneCall])
  exact (eventCommands_isolated eventServer_keepsBorders hguard).2.2.2 (by decide)

/-- On tmux 3.7 the pane is red for a risk, also after a call that names no state. -/
theorem eventCommands_last_risk :
    (exec (eventCommand eventServer) (twoPanes ⟨3, 7⟩)
      ([] ++ firstPaneCall "risk" :: [firstPaneCall "busy"])).effective 0 "pane-border-style" =
        "fg=red" := by
  have hreport : (eventCommand eventServer (twoPanes ⟨3, 7⟩) (firstPaneCall "risk")).2 =
      [.asked (.succeeded (some ""))] := by decide +kernel
  have hout : (firstPaneCall "risk").CarriedOut eventServer
      (exec (eventCommand eventServer) (twoPanes ⟨3, 7⟩) []) := ⟨rfl, _, hreport⟩
  -- a call that names no state asks tmux for nothing
  have hbusy : ∀ t, ¬ (firstPaneCall "busy").CarriedOut eventServer t := by
    rintro t ⟨-, stdout, hasked⟩
    have hunknown : (eventCommand eventServer t (firstPaneCall "busy")).2 = [.unknownState] := rfl
    rw [hunknown] at hasked
    exact absurd hasked (by simp)
  obtain ⟨state, hstate, heffective⟩ := eventCommands_last eventServer_keepsBorders hout
    (show (firstPaneCall "risk").tmuxPane.bind (twoPanes ⟨3, 7⟩).paneOf = some 0 from rfl)
    (show Along _ _ _ [firstPaneCall "busy"] from ⟨fun _ => ⟨rfl, hbusy _⟩, trivial⟩)
  obtain rfl : state = .risk := (Option.some.inj hstate).symm
  exact heffective

end AgentTermStatus
