import AgentTermStatus.Renderer.Tmux
import Mathlib.Data.Prod.Lex

namespace AgentTermStatus

open Lib

/-!
# tmux versions

What the tmux renderer makes of the answer to `tmux -V`, and the capabilities it reports for a
terminal.

* `detect_eq_ok` — pane borders, and their reliable reset, are reported from `minTmuxVersion` on;
* `parseTmuxVersion_exact` — the version is read exactly from every answer that spells one, and
  versions are ordered by their numbers.
-/

/-- A tmux version, as far as versions are compared. -/
structure TmuxVersion where
  major : Nat
  minor : Nat
  deriving DecidableEq

/-- The version is at least the other one. -/
def TmuxVersion.AtLeast (v w : TmuxVersion) : Prop :=
  w.major < v.major ∨ w.major = v.major ∧ w.minor ≤ v.minor

instance TmuxVersion.decidableAtLeast (v w : TmuxVersion) : Decidable (v.AtLeast w) :=
  inferInstanceAs (Decidable (_ ∨ _))

/-- The first version whose `set-option -p` is pane-scoped. -/
def minTmuxVersion : TmuxVersion := ⟨3, 7⟩

namespace TmuxRenderer

/-- The version in an answer like `tmux 3.7b`: from the first digit on, digits and dots. -/
def parseTmuxVersion (raw : String) : Option TmuxVersion :=
  match raw.toList.dropWhile fun c => !c.isDigit with
  | []   => none
  | tail => do
    let parts := (tail.takeWhile fun c => c.isDigit || c = '.').splitOn '.'
    let major ← parts[0]?.bind parseU32
    let minor ← parseU32 (parts[1]?.getD ['0'])
    return { major, minor }

section
variable {τ : Type} (tmux : Tmux τ)

/-- Asks for the version. -/
def checkTmuxVersion (t : τ) : τ × Option TmuxVersion :=
  match tmux t ["-V"] with
  | (t, .succeeded stdout) => (t, stdout.bind parseTmuxVersion)
  | (t, _)                 => (t, none)

/-- The capabilities for a terminal. -/
def detect (t : τ) (ctx : TerminalContext) : τ × Except RendererError RendererCapabilities :=
  if ctx.tmuxPane = none then (t, .error (.unsupported "no TMUX_PANE in terminal context"))
  else
    match checkTmuxVersion tmux t with
    | (t, none)         => (t, .error (.failed "cannot determine tmux version"))
    | (t, some version) =>
      let paneSafe := decide (version.AtLeast minTmuxVersion)
      (t, .ok { paneBorder := paneSafe, resetReliable := paneSafe })

variable {tmux}

/-- Capabilities are reported for a terminal with a pane and a tmux whose version is known, and
    pane borders are among them from `minTmuxVersion` on. -/
theorem detect_eq_ok {t : τ} {ctx : TerminalContext} {caps : RendererCapabilities}
    (h : (detect tmux t ctx).2 = .ok caps) :
    ctx.tmuxPane ≠ none ∧ ∃ version, (checkTmuxVersion tmux t).2 = some version ∧
      (caps.paneBorder = true ↔ version.AtLeast minTmuxVersion) ∧
      caps.resetReliable = caps.paneBorder := by
  unfold detect at h
  split at h
  · exact absurd h (by simp)
  · next hpane =>
    refine ⟨hpane, ?_⟩
    split at h
    · exact absurd h (by simp)
    · next version hversion =>
      obtain rfl := Except.ok.inj h
      exact ⟨version, by rw [hversion], by simp, rfl⟩

end

end TmuxRenderer

/-! ### Answers that spell a version -/

/-- The answer spells the version `major.minor`: no digit comes before it, and neither a digit nor a
    dot right after it.  Without a minor number the version is `major.0`. -/
inductive SpellsVersion : List Char → Nat → Nat → Prop
  | majorMinor {before majorDigits minorDigits after : List Char} {major minor : Nat}
      (hbefore : ∀ c ∈ before, c.isDigit = false) (hmajor : DecimalOf majorDigits major)
      (hminor : DecimalOf minorDigits minor)
      (hafter : ∀ c ∈ after.head?, c.isDigit = false ∧ c ≠ '.') :
      SpellsVersion (before ++ (majorDigits ++ '.' :: minorDigits) ++ after) major minor
  | majorOnly {before majorDigits after : List Char} {major : Nat}
      (hbefore : ∀ c ∈ before, c.isDigit = false) (hmajor : DecimalOf majorDigits major)
      (hafter : ∀ c ∈ after.head?, c.isDigit = false ∧ c ≠ '.') :
      SpellsVersion (before ++ majorDigits ++ after) major 0

/-- Versions are ordered by their major numbers, and by their minor numbers where these agree. -/
theorem TmuxVersion.atLeast_iff (v w : TmuxVersion) :
    v.AtLeast w ↔ toLex (w.major, w.minor) ≤ toLex (v.major, v.minor) := by
  rw [Prod.Lex.toLex_le_toLex]
  exact Iff.rfl

namespace TmuxRenderer

/-- The characters of a version. -/
def isVersionChar (c : Char) : Bool := c.isDigit || c = '.'

/-- The text that is taken for the version: digits and dots, from the first digit on. -/
theorem version_text {before middle after : List Char} (hbefore : ∀ c ∈ before, c.isDigit = false)
    (hfirst : ∃ c ∈ middle.head?, c.isDigit = true) (hmiddle : ∀ c ∈ middle, isVersionChar c = true)
    (hafter : ∀ c ∈ after.head?, c.isDigit = false ∧ c ≠ '.') :
    ((before ++ middle ++ after).dropWhile fun c => !c.isDigit) = middle ++ after ∧
      (middle ++ after).takeWhile isVersionChar = middle := by
  refine ⟨?_, ?_⟩
  · obtain ⟨c, hc, hdigit⟩ := hfirst
    obtain ⟨cs, rfl⟩ : ∃ cs, middle = c :: cs := by
      cases middle with
      | nil => exact absurd hc (by simp)
      | cons c' cs => exact ⟨cs, by rw [Option.some.inj hc]⟩
    rw [List.append_assoc, List.dropWhile_append_of_pos fun c hc => by simp [hbefore c hc],
      List.cons_append, List.dropWhile_cons_of_neg (by simp [hdigit])]
  · rw [List.takeWhile_append_of_pos hmiddle]
    cases after with
    | nil => simp
    | cons c cs =>
      obtain ⟨hdigit, hdot⟩ := hafter c rfl
      rw [List.takeWhile_cons_of_neg (by simp [isVersionChar, hdigit, hdot]), List.append_nil]

/-- Digits begin with a digit, and contain no dot. -/
theorem digits_facts {ds : List Char} {n : Nat} (h : DecimalOf ds n) :
    (∃ c ∈ ds.head?, c.isDigit = true) ∧ (∀ c ∈ ds, isVersionChar c = true) ∧ '.' ∉ ds := by
  refine ⟨?_, fun c hc => ?_, fun hmem => ?_⟩
  · obtain ⟨c, cs, rfl⟩ := List.exists_cons_of_ne_nil h.nonempty
    exact ⟨c, rfl, h.digits c List.mem_cons_self⟩
  · rw [isVersionChar, h.digits c hc, Bool.true_or]
  · exact absurd (h.digits '.' hmem) (by decide)

/-- The version of a text whose middle part is taken for it. -/
theorem parseTmuxVersion_of_parts {raw : String} {middle after : List Char}
    {parts : List (List Char)}
    (hne : middle ≠ [])
    (hdrop : (raw.toList.dropWhile fun c => !c.isDigit) = middle ++ after)
    (htake : (middle ++ after).takeWhile isVersionChar = middle)
    (hsplit : middle.splitOn '.' = parts) :
    parseTmuxVersion raw =
      (parts[0]?.bind parseU32).bind fun major =>
        (parseU32 (parts[1]?.getD ['0'])).bind fun minor => some ⟨major, minor⟩ := by
  have htake' : ((middle ++ after).takeWhile fun c => c.isDigit || c = '.') = middle := htake
  unfold parseTmuxVersion
  rw [hdrop]
  split
  · next hnil => exact absurd (List.append_eq_nil_iff.mp hnil).1 hne
  · next hcons =>
    simp only [htake', hsplit]
    rfl

/-- The version that an answer spells is read, if its numbers have 32 bits; otherwise none is. -/
theorem parseTmuxVersion_of_spells {raw : String} {major minor : Nat}
    (h : SpellsVersion raw.toList major minor) :
    parseTmuxVersion raw =
      if major < 4294967296 ∧ minor < 4294967296 then some ⟨major, minor⟩ else none := by
  generalize hraw : raw.toList = cs at h
  cases h with
  | @majorMinor before ds ds' after _ _ hbefore hmajor hminor hafter =>
    obtain ⟨hfirst, hchars, hdot⟩ := digits_facts hmajor
    obtain ⟨-, hchars', hdot'⟩ := digits_facts hminor
    have hhead : ∃ c ∈ (ds ++ '.' :: ds').head?, c.isDigit = true := by
      obtain ⟨c, hc, hdigit⟩ := hfirst
      exact ⟨c, by rw [List.head?_append, hc]; rfl, hdigit⟩
    have hall : ∀ c ∈ ds ++ '.' :: ds', isVersionChar c = true := by
      intro c hc
      rcases List.mem_append.mp hc with hc | hc
      · exact hchars c hc
      · rcases List.mem_cons.mp hc with rfl | hc
        · rfl
        · exact hchars' c hc
    have hsplit : (ds ++ '.' :: ds').splitOn '.' = [ds, ds'] := by
      have hparts : (['.'].intercalate [ds, ds']).splitOn '.' = [ds, ds'] :=
        List.splitOn_intercalate '.' (by simp [hdot, hdot']) (by simp)
      simpa [List.intercalate] using hparts
    obtain ⟨hdrop, htake⟩ := version_text hbefore hhead hall hafter
    rw [parseTmuxVersion_of_parts (by simp) (hraw ▸ hdrop) htake hsplit]
    show (parseU32 ds).bind (fun major => (parseU32 ds').bind fun minor => _) = _
    rw [parseU32_of_decimalOf hmajor, parseU32_of_decimalOf hminor]
    split <;> split <;> simp_all
  | @majorOnly before ds after _ hbefore hmajor hafter =>
    obtain ⟨hfirst, hchars, hdot⟩ := digits_facts hmajor
    have hsplit : ds.splitOn '.' = [ds] := by
      have hparts : (['.'].intercalate [ds]).splitOn '.' = [ds] :=
        List.splitOn_intercalate '.' (by simp [hdot]) (by simp)
      simpa [List.intercalate] using hparts
    obtain ⟨hdrop, htake⟩ := version_text hbefore hfirst hchars hafter
    rw [parseTmuxVersion_of_parts hmajor.nonempty (hraw ▸ hdrop) htake hsplit]
    show (parseU32 ds).bind (fun major => (parseU32 ['0']).bind fun minor => _) = _
    rw [parseU32_of_decimalOf hmajor, show parseU32 ['0'] = some 0 from by decide]
    split <;> simp_all

/-- **Version parsing is exact.** From every answer that spells a version, that version is read,
    unless one of its numbers is beyond 32 bits, when none is.  The versions of two answers are
    compared by their numbers, and so is a version with the minimum. -/
theorem parseTmuxVersion_exact {raw : String} {major minor : Nat}
    (h : SpellsVersion raw.toList major minor) :
    (parseTmuxVersion raw =
      if major < 4294967296 ∧ minor < 4294967296 then some ⟨major, minor⟩ else none) ∧
    (∀ version, parseTmuxVersion raw = some version →
      (version.AtLeast minTmuxVersion ↔ toLex (3, 7) ≤ toLex (major, minor))) ∧
    ∀ raw' major' minor' version version', SpellsVersion raw'.toList major' minor' →
      parseTmuxVersion raw = some version → parseTmuxVersion raw' = some version' →
      (version.AtLeast version' ↔ toLex (major', minor') ≤ toLex (major, minor)) := by
  have hread : ∀ {raw : String} {major minor : Nat} {version : TmuxVersion},
      SpellsVersion raw.toList major minor → parseTmuxVersion raw = some version →
        version = ⟨major, minor⟩ := fun {raw major minor version} hspells hversion => by
    rw [parseTmuxVersion_of_spells hspells] at hversion
    split at hversion
    · exact (Option.some.inj hversion).symm
    · exact absurd hversion (by simp)
  refine ⟨parseTmuxVersion_of_spells h, ?_, ?_⟩
  · intro version hversion
    rw [hread h hversion]
    exact TmuxVersion.atLeast_iff _ _
  · intro raw' major' minor' version version' h' hversion hversion'
    rw [hread h hversion, hread h' hversion']
    exact TmuxVersion.atLeast_iff _ _

/-- The answer of a development version. -/
theorem spellsVersion_next : SpellsVersion "tmux next-3.10".toList 3 10 := by
  have htext : "tmux next-3.10".toList =
      "tmux next-".toList ++ (Nat.toDigits 10 3 ++ '.' :: Nat.toDigits 10 10) ++ [] := by decide
  have hall : "tmux next-".toList.all (fun c => !c.isDigit) = true := by decide
  rw [htext]
  exact .majorMinor (fun c hc => by simpa using List.all_eq_true.mp hall c hc)
    (decimalOf_toDigits 3) (decimalOf_toDigits 10) (by simp)

/-- Version 3.10 is read, and not as 3.1. -/
theorem parseTmuxVersion_exact_next :
    parseTmuxVersion "tmux next-3.10" = some ⟨3, 10⟩ :=
  (parseTmuxVersion_exact spellsVersion_next).1

end TmuxRenderer

end AgentTermStatus
