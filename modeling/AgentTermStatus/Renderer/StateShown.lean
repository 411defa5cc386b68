import AgentTermStatus.Config.Themes
import AgentTermStatus.Renderer.ITerm2
import AgentTermStatus.Renderer.Notification

namespace AgentTermStatus

open Lib

/-!
# Can one state look like another?

The border of a tmux pane, the title of an iTerm2 tab and the title of a notification begin with the
symbol of the state, and what follows may be an activity's label.  If the symbols of a theme are
different words (`TellsStates`), as those of the bundled themes are (`tellsStates_of_loadBundled`),
the first word is the symbol, whatever follows (`firstWord_border`, `firstWord_title`,
`firstWord_notification`); so no label makes one state look like another (`states_never_alike`).
A theme that passes the check leaves no state without a text (`isSome_of_validate`).
-/

/-- The beginning of a text up to a space. -/
def firstWord (text : List Char) : List Char := text.takeWhile (· ≠ ' ')

/-- A word that can be shown, and is not cut. -/
def IsWord (word : List Char) : Prop :=
  word ≠ [] ∧ word.length ≤ maxOscStringLen ∧
    ∀ c ∈ word, c ≠ ' ' ∧ ITerm2Renderer.isOscChar c = true

instance (word : List Char) : Decidable (IsWord word) :=
  decidable_of_iff
    (!word.isEmpty && Nat.ble word.length maxOscStringLen &&
      word.all fun c => !(c == ' ') && ITerm2Renderer.isOscChar c)
    (by simp [IsWord, and_assoc])

/-- The symbol that is shown for a state. -/
def Theme.symbol (t : Theme) (state : AgentState) : String :=
  ((t.resolve state).map ThemeEntry.symbol).getD "?"

/-- What is read off a text that shows a state; the idle state is not shown. -/
def Theme.reading (t : Theme) (state : AgentState) : List Char :=
  if state = .idle then [] else (t.symbol state).toList

/-- The symbols of the states are different words. -/
structure Theme.TellsStates (t : Theme) : Prop where
  word : ∀ state, IsWord (t.symbol state).toList
  differ : ∀ state state', t.symbol state = t.symbol state' → state = state'

/-- A word is the first word of a text that goes on with a space, if at all. -/
theorem firstWord_append {word : List Char} (hword : ∀ c ∈ word, c ≠ ' ') {rest : List Char}
    (hrest : ∀ c ∈ rest.head?, c = ' ') : firstWord (word ++ rest) = word := by
  rw [firstWord, List.takeWhile_append_of_pos (by simpa using hword)]
  cases rest with
  | nil => simp
  | cons c rest =>
    obtain rfl := hrest c rfl
    simp

/-- What is joined by separators goes on with a space after its first part. -/
theorem joined_eq (first : String) (parts : List String) :
    ∃ rest, (String.intercalate " · " (first :: parts)).toList = first.toList ++ rest ∧
      ∀ c ∈ rest.head?, c = ' ' := by
  cases parts with
  | nil => exact ⟨[], by simp, by simp⟩
  | cons second parts =>
    refine ⟨" · ".toList ++ (String.intercalate " · " (second :: parts)).toList, ?_, ?_⟩
    · rw [String.intercalate_cons_cons, String.toList_append, String.toList_append,
        List.append_assoc]
    · intro c hc
      exact (Option.some.inj hc).symm

/-! ### The symbol comes first -/

section
variable {t : Theme} (h : t.TellsStates) (state : AgentState) (label : Option ActivityLabel)
include h

/-- The parts of the text are the symbol, and others. -/
theorem Theme.TellsStates.borderParts_eq :
    ∃ parts, TmuxRenderer.borderParts (some t) state label = t.symbol state :: parts := by
  have hne : (t.symbol state).isEmpty = false := by
    simpa [String.isEmpty_iff] using (h.word state).1
  obtain ⟨parts, hparts⟩ : ∃ parts, TmuxRenderer.borderParts (some t) state label =
      (if (t.symbol state).isEmpty then [] else [t.symbol state]) ++ parts :=
    ⟨_, List.append_assoc _ _ _⟩
  rw [hne] at hparts
  exact ⟨parts, hparts⟩

/-- The symbol has no space. -/
theorem Theme.TellsStates.no_space : ∀ c ∈ (t.symbol state).toList, c ≠ ' ' :=
  fun c hc => ((h.word state).2.2 c hc).1

/-- **The border.** It begins with the symbol; the idle state has none. -/
theorem firstWord_border :
    firstWord ((TmuxRenderer.borderFormatFor (some t) state label).getD "").toList.tail =
      t.reading state := by
  unfold TmuxRenderer.borderFormatFor Theme.reading
  by_cases hidle : state = .idle
  · rw [if_pos hidle, if_pos hidle]
    rfl
  · obtain ⟨parts, hparts⟩ := h.borderParts_eq state label
    obtain ⟨rest, hjoined, hrest⟩ := joined_eq (t.symbol state) parts
    rw [if_neg hidle, if_neg hidle, hparts]
    show firstWord
      (" " ++ String.intercalate " · " (t.symbol state :: parts) ++ " ").toList.tail = _
    rw [String.toList_append, String.toList_append, hjoined]
    show firstWord ((t.symbol state).toList ++ rest ++ [' ']) = _
    rw [List.append_assoc]
    refine firstWord_append (h.no_space state) fun c hc => ?_
    cases rest with
    | nil => exact (Option.some.inj hc).symm
    | cons d rest => exact hrest c hc

/-- **The title of a tab.** It begins with the symbol, also when it is cut; that of the idle state
    is empty. -/
theorem firstWord_title :
    firstWord ((ITerm2Renderer.buildTitle (some t) state label).getD "").toList =
      t.reading state := by
  unfold ITerm2Renderer.buildTitle Theme.reading
  by_cases hidle : state = .idle
  · rw [if_pos hidle, if_pos hidle]
    rfl
  · obtain ⟨parts, hparts⟩ := h.borderParts_eq state label
    obtain ⟨rest, hjoined, hrest⟩ := joined_eq (t.symbol state) parts
    obtain ⟨-, hlength, hword⟩ := h.word state
    rw [if_neg hidle, if_neg hidle, hparts]
    show firstWord (ITerm2Renderer.sanitizeOscString
      (String.intercalate " · " (t.symbol state :: parts))).toList = _
    -- the symbol is kept whole
    have hkept : (t.symbol state).toList.filter ITerm2Renderer.isOscChar =
        (t.symbol state).toList := List.filter_eq_self.mpr fun c hc => (hword c hc).2
    rw [ITerm2Renderer.sanitizeOscString, String.toList_ofList, hjoined, List.filter_append, hkept,
      List.take_append, List.take_of_length_le hlength]
    refine firstWord_append (h.no_space state) fun c hc => ?_
    cases rest with
    | nil => simp at hc
    | cons d rest =>
      obtain rfl := hrest d rfl
      rw [List.filter_cons_of_pos (by decide), List.head?_take] at hc
      split at hc
      · simp at hc
      · exact (Option.some.inj hc).symm

/-- **The title of a notification** begins with the symbol. -/
theorem firstWord_notification (r : NotificationRenderer) (hr : r.theme = some t) :
    firstWord (r.buildTitle state).toList = (t.symbol state).toList := by
  obtain ⟨title, htitle⟩ : ∃ title, r.buildTitle state = t.symbol state ++ " " ++ title := by
    unfold NotificationRenderer.buildTitle NotificationRenderer.resolveEntry
    rw [hr]
    exact ⟨_, rfl⟩
  rw [htitle, String.toList_append, String.toList_append, List.append_assoc]
  exact firstWord_append (h.no_space state) fun c hc => (Option.some.inj hc).symm

/-- A reading is that of one state only. -/
theorem Theme.TellsStates.reading_inj {state state' : AgentState}
    (heq : t.reading state = t.reading state') : state = state' := by
  unfold Theme.reading at heq
  by_cases hidle : state = .idle
  · by_cases hidle' : state' = .idle
    · rw [hidle, hidle']
    · rw [if_pos hidle, if_neg hidle'] at heq
      exact absurd heq.symm (h.word state').1
  · by_cases hidle' : state' = .idle
    · rw [if_neg hidle, if_pos hidle'] at heq
      exact absurd heq (h.word state).1
    · rw [if_neg hidle, if_neg hidle'] at heq
      exact h.differ state state' (String.toList_inj.mp heq)

end

/-- **What is shown.** A theme that passes the check gives every state but idle a border text and a
    title, so that none is shown by its colour alone. -/
theorem isSome_of_validate {t : Theme} (h : t.validate = .ok ()) {state : AgentState}
    (hstate : state ≠ .idle) (label : Option ActivityLabel) :
    (TmuxRenderer.borderFormatFor (some t) state label).isSome ∧
      (ITerm2Renderer.buildTitle (some t) state label).isSome := by
  obtain ⟨entry, hentry, hcount⟩ := Theme.validate_eq_ok_iff.mp h state
  have hparts : (TmuxRenderer.borderParts (some t) state label).isEmpty = false := by
    have hresolve : TmuxRenderer.resolveEntry (some t) state = some entry := hentry
    unfold TmuxRenderer.borderParts
    rw [hresolve]
    rcases Theme.text_of_two_le_repCount hcount with hlabel | hsymbol
    · simp [hlabel]
    · simp [hsymbol]
  simp [TmuxRenderer.borderFormatFor, ITerm2Renderer.buildTitle, hstate, hparts]

/-- The bundled themes tell the states. -/
theorem tellsStates_of_loadBundled {name : String} {t : Theme}
    (hload : Theme.loadBundled name = .ok t) : t.TellsStates := by
  have hword : ∀ entry ∈ bundledThemes, ∀ state ∈ Theme.required,
      IsWord (entry.2.symbol state).toList := by
    decide +kernel
  have hdiffer : ∀ entry ∈ bundledThemes, ∀ state ∈ Theme.required, ∀ state' ∈ Theme.required,
      entry.2.symbol state = entry.2.symbol state' → state = state' := by
    decide +kernel
  obtain ⟨entry, hentry, rfl, -⟩ := Theme.mem_of_loadBundled hload
  exact ⟨fun state => hword entry hentry state (Theme.mem_required state),
    fun state state' => hdiffer entry hentry state (Theme.mem_required state) state'
      (Theme.mem_required state')⟩

/-- **No two states look alike.** In every bundled theme, whatever the labels of the activities are:
    two states have the same border, the same title of a tab or the same title of a notification
    only if they are the same; and every state but idle has a border text and a title, so that none
    is shown by its colour alone. -/
theorem states_never_alike (name : String) (t : Theme) (hload : Theme.loadBundled name = .ok t)
    (state state' : AgentState) (label label' : Option ActivityLabel) :
    (TmuxRenderer.borderFormatFor (some t) state label =
      TmuxRenderer.borderFormatFor (some t) state' label' → state = state') ∧
    (ITerm2Renderer.buildTitle (some t) state label =
      ITerm2Renderer.buildTitle (some t) state' label' → state = state') ∧
    (∀ r : NotificationRenderer, r.theme = some t →
      r.buildTitle state = r.buildTitle state' → state = state') ∧
    (state ≠ .idle → (TmuxRenderer.borderFormatFor (some t) state label).isSome ∧
      (ITerm2Renderer.buildTitle (some t) state label).isSome) := by
  have h := tellsStates_of_loadBundled hload
  refine ⟨fun heq => h.reading_inj ?_, fun heq => h.reading_inj ?_, fun r hr heq => ?_,
    fun hstate => isSome_of_validate (Theme.validate_of_loadBundled hload).2 hstate label⟩
  · rw [← firstWord_border h state label, heq, firstWord_border h]
  · rw [← firstWord_title h state label, heq, firstWord_title h]
  · refine h.differ state state' (String.toList_inj.mp ?_)
    rw [← firstWord_notification h state r hr, heq, firstWord_notification h state' r hr]

/-- A label that pretends to be of another state does not help. -/
theorem states_never_alike_pretender :
    TmuxRenderer.borderFormatFor (some defaultTheme) .risk (some (ActivityLabel.new "Working")) ≠
      TmuxRenderer.borderFormatFor (some defaultTheme) .working
        (some (ActivityLabel.new "Risk")) := by
  intro heq
  have hsame := (states_never_alike "default" defaultTheme rfl .risk .working
    (some (ActivityLabel.new "Working")) (some (ActivityLabel.new "Risk"))).1 heq
  exact absurd hsame (by decide)

end AgentTermStatus
