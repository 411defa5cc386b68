import AgentTermStatus.Renderer.View

namespace AgentTermStatus

open Lib

/-!
# Loading and validating themes

The bundled themes, and the check that a theme gives every state at least two of a colour, a label
and a symbol (`validate_eq_ok_iff`).  All bundled themes pass (`validate_of_loadBundled`).
-/

/-- Theme failures. -/
inductive ThemeError
  | notFound (name : String) (available : List String)
  | parse (name detail : String)
  | io (path detail : String)
  | validation (message : String)
  deriving DecidableEq

/-! ### The bundled themes -/

/-- A theme with an entry for each state: the colour, the label, the symbol, and whether the state
    notifies. -/
def Theme.ofEntries (name : String) (idle working attention risk result error unknown :
    Option String × String × String × Bool) : Theme where
  name := name
  states :=
    let entry := fun (e : Option String × String × String × Bool) =>
      ({ color := e.1, label := e.2.1, symbol := e.2.2.1, notification := e.2.2.2 } : ThemeEntry)
    (∅ : FiniteMap String ThemeEntry).insertMany [("idle", entry idle), ("working", entry working),
      ("attention", entry attention), ("risk", entry risk), ("result", entry result),
      ("error", entry error), ("unknown", entry unknown)]

/-- The bundled theme named `color-safe`. -/
def colorSafeTheme : Theme :=
  .ofEntries "color-safe"
    (none, "Idle", "○", false)
    (some "#0072B2", "Working", "●", false)
    (some "#E69F00", "Needs input", "!", true)
    (some "#D55E00", "Risk", "‼", true)
    (some "#009E73", "Completed", "+", false)
    (some "#CC79A7", "Error", "×", true)
    (some "#999999", "Unknown", "?", false)

/-- The bundled theme named `low-distraction`. -/
def lowDistractionTheme : Theme :=
  .ofEntries "low-distraction"
    (some "#3A3A3A", "", "○", false)
    (some "#4A5568", "", "●", false)
    (some "#718096", "", "!", false)
    (some "#C53030", "Risk", "!!", true)
    (some "#2D6A4F", "", "✓", false)
    (some "#805AD5", "", "×", false)
    (some "#3A3A3A", "", "?", false)

/-- The bundled theme named `high-contrast`. -/
def highContrastTheme : Theme :=
  .ofEntries "high-contrast"
    (some "#808080", "IDLE", "○", false)
    (some "#00BFFF", "WORKING", "◉", true)
    (some "#FFA500", "NEEDS INPUT", "⚠", true)
    (some "#FF0000", "RISK", "⛔", true)
    (some "#00FF00", "DONE", "✔", true)
    (some "#FF00FF", "ERROR", "✖", true)
    (some "#C0C0C0", "UNKNOWN", "?", false)

/-- The bundled theme named `monochrome-symbols`. -/
def monochromeSymbolsTheme : Theme :=
  .ofEntries "monochrome-symbols"
    (none, "Idle", "○", false)
    (none, "Working", "●", false)
    (none, "!", "!", false)
    (none, "!!", "‼", false)
    (none, "Done", "+", false)
    (none, "×", "×", false)
    (none, "?", "?", false)

/-- The bundled themes by name, as their texts parse. -/
def bundledThemes : List (String × Theme) :=
  [("default", defaultTheme), ("color-safe", colorSafeTheme),
    ("low-distraction", lowDistractionTheme), ("high-contrast", highContrastTheme),
    ("monochrome-symbols", monochromeSymbolsTheme)]

namespace Theme

/-- The names of the bundled themes. -/
def bundleNames : List String := bundledThemes.map Prod.fst

/-- The bundled theme of a name. -/
def loadBundled (name : String) : Except ThemeError Theme :=
  match bundledThemes.find? fun entry => entry.1 = name with
  | some entry => .ok entry.2
  | none       => .error (.notFound name bundleNames)

/-! ### Validation -/

/-- How many of a colour, a label and a symbol an entry has. -/
def repCount (entry : ThemeEntry) : Nat :=
  ([entry.color.isSome, !entry.label.isEmpty, !entry.symbol.isEmpty].filter id).length

/-- The states a theme has to show. -/
def required : List AgentState :=
  [.idle, .working, .attention, .risk, .result, .error, .unknown]

/-- The check of one state. -/
def checkState (t : Theme) (state : AgentState) : Except ThemeError Unit :=
  match t.resolve state with
  | none =>
    .error (.validation ("theme '" ++ t.name ++ "' is missing state '" ++
      agentStateToThemeKey state ++ "'"))
  | some entry =>
    if repCount entry < 2 then
      .error (.validation ("theme '" ++ t.name ++ "' state '" ++ agentStateToThemeKey state ++
        "' has fewer than 2 representation types"))
    else .ok ()

/-- The check of some states, up to the first that fails. -/
def checkStates (t : Theme) : List AgentState → Except ThemeError Unit
  | [] => .ok ()
  | state :: states =>
    match t.checkState state with
    | .error e => .error e
    | .ok ()   => t.checkStates states

/-- Has every state at least two of a colour, a label and a symbol? -/
def validate (t : Theme) : Except ThemeError Unit := t.checkStates required

/-! ### What the check says -/

/-- The theme shows the state in two ways. -/
def Represents (t : Theme) (state : AgentState) : Prop :=
  ∃ entry, t.resolve state = some entry ∧ 2 ≤ repCount entry

/-- Every state is required. -/
theorem mem_required (state : AgentState) : state ∈ required := by
  cases state <;> decide

section
variable {t : Theme}

theorem checkState_eq_ok_iff {state : AgentState} :
    t.checkState state = .ok () ↔ t.Represents state := by
  unfold checkState Represents
  cases t.resolve state with
  | none => simp
  | some entry =>
    show (if repCount entry < 2 then _ else _) = _ ↔ _
    split
    · next hlt =>
      refine iff_of_false (by simp) ?_
      rintro ⟨entry', heq, hle⟩
      obtain rfl := Option.some.inj heq
      exact absurd hlt (not_lt.mpr hle)
    · next hge => exact iff_of_true rfl ⟨entry, rfl, not_lt.mp hge⟩

theorem checkStates_eq_ok_iff {states : List AgentState} :
    t.checkStates states = .ok () ↔ ∀ state ∈ states, t.Represents state := by
  induction states with
  | nil => simp [checkStates]
  | cons state states ih =>
    rw [checkStates, List.forall_mem_cons, ← ih, ← checkState_eq_ok_iff]
    cases t.checkState state with
    | error e => simp
    | ok _ => simp

/-- **What is accepted.** The themes that show every state in two ways. -/
theorem validate_eq_ok_iff : t.validate = .ok () ↔ ∀ state, t.Represents state :=
  checkStates_eq_ok_iff.trans
    ⟨fun h state => h state (mem_required state), fun h state _ => h state⟩

/-- An entry with two of the three has a label or a symbol. -/
theorem text_of_two_le_repCount {entry : ThemeEntry} (h : 2 ≤ repCount entry) :
    entry.label ≠ "" ∨ entry.symbol ≠ "" := by
  by_contra hnone
  obtain ⟨hlabel, hsymbol⟩ := not_or.mp hnone
  rw [not_not] at hlabel hsymbol
  rw [repCount, hlabel, hsymbol] at h
  cases hcolor : entry.color <;> simp [hcolor] at h

end

/-- What is loaded is one of the bundled themes. -/
theorem mem_of_loadBundled {name : String} {t : Theme} (h : loadBundled name = .ok t) :
    ∃ entry ∈ bundledThemes, entry.2 = t ∧ entry.1 = name := by
  unfold loadBundled at h
  split at h
  · next entry hfind =>
    exact ⟨entry, List.mem_of_find?_eq_some hfind, Except.ok.inj h,
      by simpa using List.find?_some hfind⟩
  · simp at h

/-- The theme that a name loads has that name, and passes. -/
theorem validate_of_loadBundled {name : String} {t : Theme} (h : loadBundled name = .ok t) :
    t.name = name ∧ t.validate = .ok () := by
  have hall : ∀ entry ∈ bundledThemes, entry.2.name = entry.1 ∧ entry.2.validate = .ok () := by
    decide +kernel
  obtain ⟨entry, hentry, rfl, rfl⟩ := mem_of_loadBundled h
  exact hall entry hentry

end Theme

end AgentTermStatus
