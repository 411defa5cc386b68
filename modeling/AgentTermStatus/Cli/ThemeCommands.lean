import AgentTermStatus.Config.RoundTrip

namespace AgentTermStatus

open Lib

/-!
# Applying a theme

`runApply` reads the configuration of the user, sets its theme and writes all of it back.  A file
that cannot be read or is no configuration is taken for a missing one, and so written over with
the default configuration; any other file keeps its configuration (`preserves_iff`).
-/

/-- What the configuration file holds. -/
inductive ConfigFile (σ : Type)
  /-- The file cannot be read, or is not UTF-8. -/
  | unreadable
  /-- A text that is not a YAML document. -/
  | text (s : String)
  /-- A YAML document. -/
  | yaml (doc : Yaml σ)

/-- The configuration file, and the backup next to it. -/
structure ConfigDir (σ : Type) where
  config : Option (ConfigFile σ)
  backup : Option (ConfigFile σ)

/-- Which steps of the command fail, if any. -/
structure ApplyIo where
  /-- The theme is not found, or malformed. -/
  themeFails : Bool
  /-- The configuration cannot be serialized. -/
  serializeFails : Bool
  /-- The directory of the file cannot be created. -/
  createDirFails : Bool
  /-- The file cannot be copied to the backup. -/
  copyFails : Bool
  /-- The temporary file cannot be created, written or renamed. -/
  writeFails : Bool
  /-- The backup cannot be removed. -/
  removeFails : Bool

/-- Why the command exits. -/
inductive ApplyError
  | theme
  | serialize
  | write
  deriving DecidableEq

section
variable {σ : Type} (r : ScalarReader σ) (w : ScalarWriter σ)

/-- The configuration of the user, if there is a file that can be read and parsed. -/
def loadUserConfig (dir : ConfigDir σ) : Option Config :=
  match dir.config with
  | some (.yaml doc)   => decodeConfig r doc
  | some (.text _)     => none
  | some .unreadable   => none
  | none               => none

/-- Writes a file: the old one is copied to the backup, the new one renamed to its place, and the
    backup removed. -/
def atomicWrite (io : ApplyIo) (dir : ConfigDir σ) (content : ConfigFile σ) :
    ConfigDir σ × Except ApplyError Unit :=
  if io.createDirFails then (dir, .error .write)
  else
    let backup := if dir.config.isSome && !io.copyFails then dir.config else dir.backup
    if io.writeFails then ({ dir with backup }, .error .write)
    else ({ config := some content, backup := if io.removeFails then backup else none }, .ok ())

/-- Sets the theme of the configuration. -/
def runApply (name : String) (io : ApplyIo) (dir : ConfigDir σ) :
    ConfigDir σ × Except ApplyError Unit :=
  if io.themeFails then (dir, .error .theme)
  else
    let config := (loadUserConfig r dir).getD .defaultConfig
    let config := { config with theme := some name }
    if io.serializeFails then (dir, .error .serialize)
    else atomicWrite io dir (.yaml (encodeConfig w config))

/-- The command failed and left the file as it was, or the file held a configuration and holds the
    same one with the theme. -/
def Preserves (name : String) (content : ConfigFile σ)
    (result : ConfigDir σ × Except ApplyError Unit) : Prop :=
  (∃ e, result.2 = .error e ∧ result.1.config = some content) ∨
    ∃ old new config, content = .yaml old ∧ decodeConfig r old = some config ∧
      result.1.config = some (.yaml new) ∧
      decodeConfig r new = some { config with theme := some name }

/-- Some step of the command fails that makes it exit. -/
def ApplyIo.Fails (io : ApplyIo) : Prop :=
  io.themeFails = true ∨ io.serializeFails = true ∨ io.createDirFails = true ∨
    io.writeFails = true

/-- What the command does to the file: a failing one leaves it as it was, and any other writes
    the configuration it has loaded, or the default one, with the theme. -/
theorem runApply_spec (name : String) (io : ApplyIo) (dir : ConfigDir σ) :
    (io.Fails ∧ (∃ e, (runApply r w name io dir).2 = .error e) ∧
        (runApply r w name io dir).1.config = dir.config) ∨
      (¬ io.Fails ∧ (runApply r w name io dir).2 = .ok () ∧
        (runApply r w name io dir).1.config = some (.yaml (encodeConfig w
          { (loadUserConfig r dir).getD .defaultConfig with theme := some name }))) := by
  unfold runApply atomicWrite ApplyIo.Fails
  cases io.themeFails <;> cases io.serializeFails <;> cases io.createDirFails <;>
    cases io.writeFails <;> simp

end

variable {σ : Type} {r : ScalarReader σ} {w : ScalarWriter σ}

/-- The configuration is loaded from a file that holds one. -/
theorem loadUserConfig_eq_some_iff (content : ConfigFile σ) (backup : Option (ConfigFile σ))
    (c : Config) :
    loadUserConfig r ⟨some content, backup⟩ = some c ↔
      ∃ doc, content = .yaml doc ∧ decodeConfig r doc = some c := by
  cases content <;> simp [loadUserConfig]

/-- **When applying a theme preserves the configuration.** Let the reader of scalars read back what
    the writer writes.  For every content of the configuration file, every theme and every outcome
    of the steps: the command fails and leaves the file as it was, or writes the configuration of
    the file with the theme, if and only if a step fails that makes it exit, or the file can be
    read and holds a configuration. -/
theorem preserves_iff (h : r.Inverts w) (name : String) (io : ApplyIo) (content : ConfigFile σ)
    (backup : Option (ConfigFile σ)) :
    Preserves r name content (runApply r w name io ⟨some content, backup⟩) ↔
      io.Fails ∨ ∃ doc c, content = .yaml doc ∧ decodeConfig r doc = some c := by
  rcases runApply_spec r w name io ⟨some content, backup⟩ with ⟨hfails, herror, hsame⟩ |
    ⟨hfails, hok, hwritten⟩
  · obtain ⟨e, he⟩ := herror
    exact iff_of_true (Or.inl ⟨e, he, hsame⟩) (Or.inl hfails)
  · rw [or_iff_right hfails]
    refine ⟨?_, ?_⟩
    · -- it did not fail, so the file held a configuration
      rintro (⟨e, he, -⟩ | ⟨old, -, c, hcontent, hc, -⟩)
      · rw [hok] at he
        exact absurd he (by simp)
      · exact ⟨old, c, hcontent, hc⟩
    · rintro ⟨doc, c, hcontent, hc⟩
      have hload := (loadUserConfig_eq_some_iff content backup c).mpr ⟨doc, hcontent, hc⟩
      rw [hload, Option.getD_some] at hwritten
      exact Or.inr ⟨doc, _, c, hcontent, hc, hwritten, decode_encodeConfig h _⟩

/-- No step fails. -/
def ApplyIo.ok : ApplyIo := ⟨false, false, false, false, false, false⟩

/-- A configuration with a misspelled key. -/
def misspelledConfig : Yaml ScalarText :=
  .mapping [("daemon", .mapping [("log_levle", .scalar (.plain "debug"))])]

/-- A file with a misspelled key is written over. -/
theorem misspelled_overwritten :
    ¬ ∀ (name : String) (io : ApplyIo) (content : ConfigFile ScalarText)
      (backup : Option (ConfigFile ScalarText)),
      Preserves ScalarText.reader name content
        (runApply ScalarText.reader ScalarText.writer name io ⟨some content, backup⟩) := by
  intro hall
  have hdecode : decodeConfig ScalarText.reader misspelledConfig = none :=
    Option.isNone_iff_eq_none.mp (by decide +kernel)
  rcases hall "dark" .ok (.yaml misspelledConfig) none with ⟨e, he, -⟩ | ⟨old, -, c, hold, hc, -⟩
  · exact absurd he (by simp [runApply, atomicWrite, ApplyIo.ok])
  · rw [← ConfigFile.yaml.inj hold, hdecode] at hc
    exact absurd hc (by simp)

/-- A file with another level of the log keeps it. -/
theorem preserves_iff_debug :
    let content := ConfigFile.yaml
      (.mapping [("daemon", .mapping [("log_level", .scalar (.plain "debug"))])])
    Preserves ScalarText.reader "dark" content
      (runApply ScalarText.reader ScalarText.writer "dark" .ok ⟨some content, none⟩) := by
  intro content
  refine (preserves_iff ScalarText.reader_inverts "dark" .ok content none).mpr (Or.inr ?_)
  have hsome : (decodeConfig ScalarText.reader (.mapping [("daemon",
      .mapping [("log_level", .scalar (.plain "debug"))])])).isSome = true := by decide +kernel
  obtain ⟨c, hc⟩ := Option.isSome_iff_exists.mp hsome
  exact ⟨_, c, rfl, hc⟩

end AgentTermStatus
