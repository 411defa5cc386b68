import AgentTermStatus.Core
import AgentTermStatus.Lib.Utf8
import AgentTermStatus.Lib.Replace

namespace AgentTermStatus

open Lib

/-!
# The redacting log writer

What the daemon's log goes through (`crates/ats-daemon/src/logging.rs`): control characters and
what is not a character are dropped, and then the home directory becomes `~`.  A text is its
characters, a path its bytes, and the writer behind is the bytes that it was given.

* `redactString_clean` — no control character and no `U+FFFD` is left;
* `RedactingWriter.redaction_complete` — nor is the home directory, also where the characters that
  were dropped had broken it up, and redacting once more changes nothing.
-/

/-- The characters that `sanitize_control_chars` keeps. -/
def keepsChar (c : Char) : Bool :=
  let code := c.toNat
  if code ≤ 0x1f || code = 0x7f then false
  else if 0x80 ≤ code && code ≤ 0x9f then false
  else if 0xd800 ≤ code && code ≤ 0xdfff then false
  else if code = 0xfffd then false
  else true

/-- The text without control characters, surrogates and replacement characters. -/
def sanitizeControlChars (s : List Char) : List Char := s.filter keepsChar

/-- The text without these characters and with `~` for the home directory.  A home directory that
    is not a text is left alone. -/
def redactString (s : List Char) (homeDir : Option (List UInt8)) : List Char :=
  let result := sanitizeControlChars s
  match homeDir with
  | none      => result
  | some home =>
      match toStr home with
      | none         => result
      | some homeStr => replaceAll homeStr ['~'] result

/-- A writer that redacts if it is enabled. -/
structure RedactingWriter where
  inner : List UInt8
  enabled : Bool
  homeDir : Option (List UInt8)

namespace RedactingWriter

/-- One call of `write`, with the number of bytes that it reports as written. -/
def write (w : RedactingWriter) (buf : List UInt8) : RedactingWriter × Nat :=
  if !w.enabled then ({ w with inner := w.inner ++ buf }, buf.length)
  else
    let s := fromUtf8Lossy buf
    let redacted := redactString s w.homeDir
    ({ w with inner := w.inner ++ encodeUtf8 redacted }, buf.length)

end RedactingWriter

/-- A character is kept exactly if it is no control character and no replacement character. -/
theorem keepsChar_iff (c : Char) :
    keepsChar c = true ↔ isControl c = false ∧ c ≠ replacementChar := by
  have hvalid : c.toNat < 0xd800 ∨ 0xdfff < c.toNat ∧ c.toNat < 0x110000 := c.valid
  have hrepl : c = replacementChar ↔ c.toNat = 0xfffd := by
    refine ⟨fun h => h ▸ by decide, fun h => ?_⟩
    rw [replacementChar, ← h, Char.ofNat_toNat]
  rw [keepsChar, isControl, Ne, hrepl]
  simp only [Bool.or_eq_true, Bool.and_eq_true, Bool.or_eq_false_iff, Bool.and_eq_false_iff,
    decide_eq_true_eq, decide_eq_false_iff_not]
  split
  · simp only [Bool.false_eq_true, false_iff]
    omega
  · split
    · simp only [Bool.false_eq_true, false_iff]
      omega
    · rw [if_neg (by omega)]
      split
      · simp only [Bool.false_eq_true, false_iff]
        omega
      · simp only [true_iff]
        omega

/-- A text is sanitized exactly if it has no control character and no replacement character. -/
theorem sanitizeControlChars_eq_self_iff (s : List Char) :
    sanitizeControlChars s = s ↔ ∀ c ∈ s, isControl c = false ∧ c ≠ replacementChar := by
  rw [sanitizeControlChars, List.filter_eq_self]
  exact forall₂_congr fun c _ => keepsChar_iff c

/-- The tilde is neither. -/
theorem keepsChar_tilde : keepsChar '~' = true := by decide

/-- Redacting is sanitizing, and then a replacement if the home directory is a text. -/
theorem redactString_eq (s : List Char) (homeDir : Option (List UInt8)) :
    redactString s homeDir = sanitizeControlChars s ∨
      ∃ home, homeDir = some (encodeUtf8 home) ∧
        redactString s homeDir = replaceAll home ['~'] (sanitizeControlChars s) := by
  unfold redactString
  simp only
  split
  · exact Or.inl rfl
  · next home =>
    split
    · exact Or.inl rfl
    · next homeStr hhome =>
      exact Or.inr ⟨homeStr, congrArg some ((toStr_eq_some_iff _ _).mp hhome), rfl⟩

/-- With a home directory that is a text. -/
theorem redactString_home (s home : List Char) :
    redactString s (some (encodeUtf8 home)) = replaceAll home ['~'] (sanitizeControlChars s) := by
  rw [redactString]
  simp only [(toStr_eq_some_iff (encodeUtf8 home) home).mpr rfl]

/-- Nothing is left exactly if the sanitized text is empty; with an empty home directory a tilde is
    left even then. -/
theorem redactString_eq_nil_iff (s : List Char) (homeDir : Option (List UInt8)) :
    redactString s homeDir = [] ↔ sanitizeControlChars s = [] ∧ homeDir ≠ some [] := by
  unfold redactString
  simp only
  split
  · simp
  · next home =>
    split
    · next hhome =>
      have hne : home ≠ [] := fun h => absurd hhome (h ▸ by decide)
      simp [hne]
    · next homeStr hhome =>
      rw [replaceAll_eq_nil_iff (List.cons_ne_nil _ _), and_comm, Ne, Ne, Option.some.injEq,
        (toStr_eq_some_iff _ _).mp hhome, encodeUtf8_eq_nil_iff]

/-- A redacted text has no control character and no replacement character. -/
theorem redactString_clean (s : List Char) (homeDir : Option (List UInt8)) :
    ∀ c ∈ redactString s homeDir, isControl c = false ∧ c ≠ replacementChar := by
  intro c hc
  have hsanitized : ∀ c ∈ sanitizeControlChars s, keepsChar c = true :=
    fun c hc => (List.mem_filter.mp hc).2
  rw [← keepsChar_iff]
  rcases redactString_eq s homeDir with heq | ⟨home, -, heq⟩
  · exact hsanitized c (heq ▸ hc)
  · rw [heq] at hc
    rcases mem_replaceAll hc with htilde | hmem
    · rw [List.mem_singleton.mp htilde]
      exact keepsChar_tilde
    · exact hsanitized c hmem

/-- A redacted text does not have the home directory in it. -/
theorem not_infix_redactString {home : List Char} (hne : home ≠ []) (htilde : '~' ∉ home)
    (s : List Char) : ¬ home <:+: redactString s (some (encodeUtf8 home)) := by
  rw [redactString_home]
  refine not_infix_replaceAll hne (List.cons_ne_nil _ _) ?_ _
  intro c hc hmem
  exact htilde (List.mem_singleton.mp hmem ▸ hc)

/-- Redacting a redacted text changes nothing. -/
theorem redactString_redactString {home : List Char} (hne : home ≠ []) (htilde : '~' ∉ home)
    (s : List Char) :
    redactString (redactString s (some (encodeUtf8 home))) (some (encodeUtf8 home))
      = redactString s (some (encodeUtf8 home)) := by
  have hclean := redactString_clean s (some (encodeUtf8 home))
  have hnot := not_infix_redactString hne htilde s
  generalize redactString s (some (encodeUtf8 home)) = text at hclean hnot
  rw [redactString_home, (sanitizeControlChars_eq_self_iff text).mpr hclean]
  exact replaceAll_eq_self hne hnot _

namespace RedactingWriter

/-- What an enabled writer passes on. -/
theorem write_inner {w : RedactingWriter} (henabled : w.enabled = true) (buf : List UInt8) :
    (w.write buf).1.inner
      = w.inner ++ encodeUtf8 (redactString (fromUtf8Lossy buf) w.homeDir) := by
  rw [write, henabled]
  rfl

/-- **Redaction is complete.** Whatever bytes an enabled writer is given, it passes on a text in
    which the home directory does not occur and which has no control character and no `U+FFFD`;
    given that text, it passes on the same text. -/
theorem redaction_complete (w : RedactingWriter) (home : List Char) (buf : List UInt8)
    (henabled : w.enabled = true) (hhome : w.homeDir = some (encodeUtf8 home)) (hne : home ≠ [])
    (htilde : '~' ∉ home) :
    ∃ text, (w.write buf).1.inner = w.inner ++ encodeUtf8 text ∧
      ¬ home <:+: text ∧
      (∀ c ∈ text, isControl c = false ∧ c ≠ replacementChar) ∧
      (w.write (encodeUtf8 text)).1.inner = w.inner ++ encodeUtf8 text := by
  refine ⟨redactString (fromUtf8Lossy buf) (some (encodeUtf8 home)), ?_,
    not_infix_redactString hne htilde _, redactString_clean _ _, ?_⟩
  · rw [write_inner henabled, hhome]
  · rw [write_inner henabled, hhome, fromUtf8Lossy_encodeUtf8,
      redactString_redactString hne htilde]

/-- A home directory broken up by a control character and by a byte that is no character. -/
theorem redaction_complete_broken :
    ∃ text, ((⟨[], true, some (encodeUtf8 ['/', 'a', '/', 'a'])⟩ : RedactingWriter).write
        [0x2f, 0x01, 0x61, 0xff, 0x2f, 0x61]).1.inner = [] ++ encodeUtf8 text ∧
      ¬ ['/', 'a', '/', 'a'] <:+: text ∧
      (∀ c ∈ text, isControl c = false ∧ c ≠ replacementChar) ∧
      ((⟨[], true, some (encodeUtf8 ['/', 'a', '/', 'a'])⟩ : RedactingWriter).write
        (encodeUtf8 text)).1.inner = [] ++ encodeUtf8 text :=
  redaction_complete ⟨[], true, some (encodeUtf8 ['/', 'a', '/', 'a'])⟩ ['/', 'a', '/', 'a']
    [0x2f, 0x01, 0x61, 0xff, 0x2f, 0x61] rfl rfl (by decide) (by decide)

/-- The pieces are joined and replaced. -/
example : ((⟨[], true, some [0x2f, 0x61, 0x2f, 0x61]⟩ : RedactingWriter).write
    [0x2f, 0x01, 0x61, 0xff, 0x2f, 0x61, 0x0a]).1.inner = [0x7e] := by decide +kernel

end RedactingWriter

end AgentTermStatus
