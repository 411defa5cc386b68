import AgentTermStatus.Renderer.Tmux

namespace AgentTermStatus

open Lib TmuxRenderer

/-!
# What reaches tmux as a format

A border text is a format of tmux, which expands `#(..)`, `#{..}` and `#[..]` in it and runs
what it finds in `#(..)` as a shell command.  `validateArg` looks for characters that are
special to a shell instead, and `#` is not one of them.  So an opener in the symbol, the
label of the state or the label of the activity reaches tmux unless some part has a
forbidden character by chance (`sent_formats_inert_iff`).
-/

/-- What opens an expansion in a format. -/
def formatOpeners : List String := ["#(", "#\x7b", "#["]

/-- The text contains no expansion. -/
def Inert (s : String) : Prop := ∀ o ∈ formatOpeners, contains s o = false

instance (s : String) : Decidable (Inert s) := inferInstanceAs (Decidable (∀ o ∈ _, _))

/-- The border text a command line sets. -/
def borderFormatOf : List String → Option String
  | ["set-option", "-t", _, "-p", "pane-border-format", format] => some format
  | _ => none

/-- The border texts some command lines set. -/
def sentFormats (sent : List (List String)) : List String := sent.filterMap borderFormatOf

/-- The border text of some parts. -/
def borderText (parts : List String) : String := " " ++ String.intercalate " · " parts ++ " "

theorem borderFormatFor_eq (theme : Option Theme) (state : AgentState)
    (label : Option ActivityLabel) :
    borderFormatFor theme state label =
      if state = .idle ∨ borderParts theme state label = [] then none
      else some (borderText (borderParts theme state label)) := by
  unfold borderFormatFor
  by_cases hidle : state = .idle
  · rw [if_pos hidle, if_pos (Or.inl hidle)]
  · rw [if_neg hidle]
    by_cases hnil : borderParts theme state label = []
    · rw [if_pos (Or.inr hnil)]
      simp [hnil]
    · rw [if_neg (not_or.mpr ⟨hidle, hnil⟩)]
      simp [hnil, borderText]

/-! ### The text and its parts -/

/-- The characters of a border text. -/
theorem toList_borderText (parts : List String) :
    (borderText parts).toList =
      ' ' :: ([' ', '·', ' '].intercalate (parts.map String.toList) ++ [' ']) := by
  simp [borderText]

/-- An opener occurs in the border text if and only if it occurs in a part: it has no
    character in common with what separates them. -/
theorem contains_borderText (parts : List String) {o : String} (ho : o ∈ formatOpeners) :
    contains (borderText parts) o = true ↔ ∃ part ∈ parts, contains part o = true := by
  obtain ⟨a, b, hab, ha, hb⟩ : ∃ a b, o.toList = [a, b] ∧
      a ∉ [' ', '·', ' '] ∧ b ∉ [' ', '·', ' '] := by
    simp only [formatOpeners, List.mem_cons, List.not_mem_nil, or_false] at ho
    rcases ho with rfl | rfl | rfl
    · exact ⟨'#', '(', rfl, by decide, by decide⟩
    · exact ⟨'#', '\x7b', rfl, by decide, by decide⟩
    · exact ⟨'#', '[', rfl, by decide, by decide⟩
  have hab' : a ≠ ' ' ∧ b ≠ ' ' := by
    simp only [List.mem_cons, not_or] at ha hb
    exact ⟨ha.1, hb.1⟩
  simp only [contains, decide_eq_true_eq, hab, toList_borderText]
  rw [← List.nil_append (' ' :: _), pair_infix_append_cons_iff hab'.1 hab'.2,
    pair_infix_append_cons_iff hab'.1 hab'.2,
    pair_infix_intercalate_iff (by simp) ha hb]
  simp

/-- The border text is inert if and only if its parts are. -/
theorem inert_borderText (parts : List String) :
    Inert (borderText parts) ↔ ∀ part ∈ parts, Inert part := by
  refine ⟨?_, ?_⟩
  · intro h part hpart o ho
    by_contra hcontains
    have htext := (contains_borderText parts ho).mpr
      ⟨part, hpart, by simpa using hcontains⟩
    rw [h o ho] at htext
    exact absurd htext (by simp)
  · intro h o ho
    by_contra hcontains
    obtain ⟨part, hpart, hin⟩ := (contains_borderText parts ho).mp (by simpa using hcontains)
    rw [h part hpart o ho] at hin
    exact absurd hin (by simp)

/-- The border text is accepted if and only if its parts are: nothing that separates them
    is forbidden. -/
theorem validateArg_borderText (parts : List String) :
    validateArg (borderText parts) = true ↔ ∀ part ∈ parts, validateArg part = true := by
  have hsep : ∀ c ∈ [' ', '·', ' '], c ∉ forbiddenChars := by simp [forbiddenChars]
  have hspace : ' ' ∉ forbiddenChars := by simp [forbiddenChars]
  have hjoin : ∀ parts : List String,
      (∀ c ∈ [' ', '·', ' '].intercalate (parts.map String.toList), c ∉ forbiddenChars) ↔
        ∀ part ∈ parts, validateArg part = true := by
    intro parts
    induction parts with
    | nil => simp
    | cons part parts ih =>
      cases parts with
      | nil => simp [validateArg]
      | cons part' parts =>
        -- the first part, a separator, and the rest
        rw [List.map_cons, List.map_cons, List.intercalate_cons_cons, ← List.map_cons,
          List.forall_mem_cons, ← ih]
        simp only [List.mem_append, validateArg, List.all_eq_true, decide_eq_true_eq]
        refine ⟨?_, ?_⟩
        · exact fun h => ⟨fun c hc => h c (Or.inl (Or.inl hc)), fun c hc => h c (Or.inr hc)⟩
        · rintro ⟨hpart, hrest⟩ c ((hc | hc) | hc)
          · exact hpart c hc
          · exact hsep c hc
          · exact hrest c hc
  rw [← hjoin]
  simp only [validateArg, toList_borderText, List.all_eq_true, decide_eq_true_eq, List.mem_cons,
    List.mem_append, List.not_mem_nil, or_false]
  refine ⟨?_, ?_⟩
  · exact fun h c hc => h c (Or.inr (Or.inl hc))
  · rintro h c (rfl | hc | rfl)
    · exact hspace
    · exact h c hc
    · exact hspace

/-! ### What a render sends -/

/-- The command line that sets an option is read as a border text only for that option. -/
theorem borderFormatOf_setOption (option pane : String) (value : Option String) :
    borderFormatOf (commandLine (setOption option value) pane) =
      if option = "pane-border-format" then value else none := by
  cases value with
  | none => simp [setOption, commandLine, borderFormatOf]
  | some v =>
    by_cases h : option = "pane-border-format"
    · subst h; rfl
    · rw [if_neg h]
      unfold setOption commandLine borderFormatOf
      split
      · next heq =>
        simp only [List.cons.injEq] at heq
        exact absurd heq.2.2.2.2.1 h
      · rfl

/-- The command line of a capture is not read as one. -/
theorem borderFormatOf_capture (option pane : String) :
    borderFormatOf (captureArgs option ++ ["-t", pane]) = none := by
  simp [captureArgs, borderFormatOf]

/-- The border text among the commands of a render is an accepted one. -/
theorem borderFormatOf_renderScript {theme : Option Theme} {view : StateView}
    {pane format : String} {args : List String} (hargs : args ∈ renderScript theme view)
    (hformat : borderFormatOf (commandLine args pane) = some format) :
    borderFormatFor theme view.state view.label = some format ∧ validateArg format = true := by
  unfold renderScript at hargs
  split at hargs
  · -- an idle pane only has its options unset
    simp only [List.mem_cons, List.not_mem_nil, or_false] at hargs
    rcases hargs with rfl | rfl | rfl <;> simp [borderFormatOf_setOption] at hformat
  · rcases List.mem_append.mp hargs with hstyle | hborder
    · split at hstyle
      · obtain rfl := List.mem_singleton.mp hstyle
        simp [borderFormatOf_setOption] at hformat
      · exact absurd hstyle List.not_mem_nil
    · split at hborder
      · next text htext =>
        split at hborder
        · next hvalid =>
          simp only [List.mem_cons, List.not_mem_nil, or_false] at hborder
          rcases hborder with rfl | rfl
          · simp [borderFormatOf_setOption] at hformat
          · rw [borderFormatOf_setOption, if_pos rfl] at hformat
            obtain rfl := Option.some.inj hformat
            exact ⟨htext, hvalid⟩
        · exact absurd hborder List.not_mem_nil
      · exact absurd hborder List.not_mem_nil

/-- A render sends as a border text only what was accepted. -/
theorem accepted_of_sent {τ : Type} {tmux : Tmux τ} {r : TmuxRenderer} {t : τ} {view : StateView}
    {format : String} (h : format ∈ sentFormats (r.render tmux t view).2.2.1) :
    borderFormatFor r.theme view.state view.label = some format ∧ validateArg format = true := by
  obtain ⟨line, hline, hformat⟩ := List.mem_filterMap.mp h
  unfold render at hline
  split at hline
  · exact absurd hline List.not_mem_nil
  · next pane hpane =>
    split at hline
    · exact absurd hline List.not_mem_nil
    · rcases List.mem_append.mp hline with hcapture | hscript
      · obtain ⟨option, rfl⟩ := mem_captureOnce tmux hcapture
        rw [borderFormatOf_capture] at hformat
        exact absurd hformat (by simp)
      · obtain ⟨args, hargs, rfl⟩ := mem_runScript tmux hscript
        rw [captureOnce_theme] at hargs
        exact borderFormatOf_renderScript hargs hformat

/-- On a valid pane, with a tmux on which every command succeeds, an accepted border text
    is sent. -/
theorem sent_of_accepted {τ : Type} {tmux : Tmux τ}
    (htmux : ∀ t args pane, (runTmux tmux t args pane).2 = .ok ()) (r : TmuxRenderer) (t : τ)
    {view : StateView} {pane format : String} (hpane : view.target.terminal.tmuxPane = some pane)
    (hvalid : validatePane pane = true)
    (hformat : borderFormatFor r.theme view.state view.label = some format)
    (haccepted : validateArg format = true) :
    format ∈ sentFormats (r.render tmux t view).2.2.1 := by
  have hidle : view.state ≠ .idle := by
    intro hidle
    rw [borderFormatFor, if_pos hidle] at hformat
    exact absurd hformat (by simp)
  refine List.mem_filterMap.mpr
    ⟨commandLine (setOption "pane-border-format" (some format)) pane, ?_, ?_⟩
  · simp only [render, hpane, hvalid, Bool.true_eq_false, if_false]
    refine List.mem_append_right _ ?_
    rw [runScript_of_succeeds tmux htmux, captureOnce_theme]
    refine List.mem_map_of_mem ?_
    unfold renderScript
    rw [if_neg hidle, hformat]
    simp [haccepted]
  · rw [borderFormatOf_setOption, if_pos rfl]

/-- A tmux on which every command succeeds, saying nothing. -/
def quietTmux : Tmux Unit := fun t _ => (t, .succeeded (some ""))

/-- **When nothing sent is expanded.** Whatever tmux does and wherever the state is shown, no
    border text sent for a state, a theme and an activity label contains an expansion,
    exactly when the state is idle, or some part of the text has a forbidden character, or
    no part contains the opener of an expansion. -/
theorem sent_formats_inert_iff (theme : Option Theme) (state : AgentState)
    (label : Option ActivityLabel) :
    ((∀ (r : TmuxRenderer) (τ : Type) (tmux : Tmux τ) (t : τ) (target : RenderTarget),
        r.theme = theme →
        ∀ format ∈ sentFormats (r.render tmux t ⟨state, label, target⟩).2.2.1, Inert format) ∧
      (∀ format, borderFormatFor theme state label = some format → validateArg format = true →
        Inert format)) ↔
    (state = .idle ∨ (∃ part ∈ borderParts theme state label, validateArg part = false) ∨
      ∀ part ∈ borderParts theme state label, Inert part) := by
  refine ⟨?_, ?_⟩
  · rintro ⟨-, haccepted⟩
    by_contra hcond
    simp only [not_or, not_exists, not_and, Bool.not_eq_false] at hcond
    obtain ⟨hidle, hvalid, hinert⟩ := hcond
    have hnil : borderParts theme state label ≠ [] := by
      intro hnil
      exact hinert (by simp [hnil])
    have hformat : borderFormatFor theme state label
        = some (borderText (borderParts theme state label)) := by
      rw [borderFormatFor_eq, if_neg (not_or.mpr ⟨hidle, hnil⟩)]
    exact hinert ((inert_borderText _).mp
      (haccepted _ hformat ((validateArg_borderText _).mpr hvalid)))
  · intro hcond
    have haccepted : ∀ format, borderFormatFor theme state label = some format →
        validateArg format = true → Inert format := by
      intro format hformat hvalid
      rw [borderFormatFor_eq] at hformat
      split at hformat
      · exact absurd hformat (by simp)
      · next hsent =>
        -- the text was composed, accepted, and has no opener in its parts
        obtain rfl := Option.some.inj hformat
        rcases hcond with hidle | ⟨part, hpart, hforbidden⟩ | hinert
        · exact absurd (Or.inl hidle) hsent
        · rw [(validateArg_borderText _).mp hvalid part hpart] at hforbidden
          exact absurd hforbidden (by simp)
        · exact (inert_borderText _).mpr hinert
    refine ⟨fun r τ tmux t target htheme format hmem => ?_, haccepted⟩
    subst htheme
    obtain ⟨hformat, hvalid⟩ := accepted_of_sent hmem
    exact haccepted format hformat hvalid

/-- A label with a command in it is sent to tmux as it is. -/
theorem not_inert_commandLabel :
    ¬ ∀ (r : TmuxRenderer) (t : Unit) (view : StateView), view.state ≠ .idle →
      ∀ format ∈ sentFormats (r.render quietTmux t view).2.2.1, Inert format := by
  intro hall
  let view : StateView :=
    { state := .attention
      label := some (ActivityLabel.new "#(id)")
      target := ⟨"s", ⟨none, none, some "%1"⟩⟩ }
  have hsent : " ? · #(id) " ∈
      sentFormats ((TmuxRenderer.new none).render quietTmux () view).2.2.1 :=
    sent_of_accepted (fun _ _ _ => rfl) _ _ rfl (by decide) (by decide) (by decide)
  exact absurd (hall _ () view (by decide) _ hsent) (by decide)

end AgentTermStatus
