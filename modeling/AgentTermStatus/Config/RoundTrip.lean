import AgentTermStatus.Config.Config

namespace AgentTermStatus

open Lib ScalarReader

/-!
# Writing the configuration

Every field is written, but an empty `tts` section and a missing theme.  What is written is read
back as the same configuration (`decode_encodeConfig`): these two have as defaults of their own
what is not written.
-/

section
variable {σ : Type} (w : ScalarWriter σ)

def writeBool (b : Bool) : Yaml σ := .scalar (w.bool b)

def writeString (s : String) : Yaml σ := .scalar (w.string s)

def writeText : Option String → Yaml σ := w.writeOption (writeString w)

def writeStrings (ss : List String) : Yaml σ := .sequence (ss.map (writeString w))

def encodeDaemon (c : DaemonConfig) : Yaml σ :=
  .mapping [("enabled", writeBool w c.enabled),
    ("log_level", writeString w (logLevelName c.logLevel)),
    ("event_retention", writeString w c.eventRetention), ("socket_path", writeText w c.socketPath)]

def encodePrivacy (c : PrivacyConfig) : Yaml σ :=
  .mapping [("store_activity_labels", writeBool w c.storeActivityLabels),
    ("store_workspace_paths", writeBool w c.storeWorkspacePaths),
    ("redact_home_directory", writeBool w c.redactHomeDirectory)]

def encodeStateOverride (o : StateOverride) : Yaml σ :=
  .mapping [("color", writeText w o.color), ("label", writeText w o.label),
    ("symbol", writeText w o.symbol)]

def encodeStates (c : StatesConfig) : Yaml σ :=
  .mapping (c.states.toList.map fun p => (p.1, encodeStateOverride w p.2))

def encodeBackground (c : BackgroundConfig) : Yaml σ :=
  .mapping [("enabled", writeBool w c.enabled),
    ("intensity", writeString w (backgroundIntensityName c.intensity))]

def encodeRendering (c : RenderingConfig) : Yaml σ :=
  .mapping [("background", encodeBackground w c.background)]

def encodeTmux (c : TmuxRendererConfig) : Yaml σ :=
  .mapping [("enabled", writeString w (rendererModeName c.enabled)),
    ("pane_border", writeBool w c.paneBorder), ("pane_title", writeBool w c.paneTitle)]

def encodeITerm2 (c : ITerm2RendererConfig) : Yaml σ :=
  .mapping [("enabled", writeString w (rendererModeName c.enabled)),
    ("badge", writeBool w c.badge), ("tab_title", writeBool w c.tabTitle),
    ("background", writeBool w c.background)]

def encodeQuietHours (c : QuietHoursConfig) : Yaml σ :=
  .mapping [("start", writeText w c.start), ("end", writeText w c.end),
    ("allow", writeStrings w c.allow)]

def encodeNotifications (c : NotificationsRendererConfig) : Yaml σ :=
  .mapping [("enabled", writeBool w c.enabled), ("states", writeStrings w c.states),
    ("quiet_hours", encodeQuietHours w c.quietHours)]

def encodeRenderers (c : RenderersConfig) : Yaml σ :=
  .mapping [("tmux", encodeTmux w c.tmux), ("iterm2", encodeITerm2 w c.iterm2),
    ("notifications", encodeNotifications w c.notifications)]

def encodeProvider (c : ProviderConfig) : Yaml σ :=
  .mapping [("enabled", writeBool w c.enabled), ("experimental", writeBool w c.experimental)]

def encodeProviders (c : ProvidersConfig) : Yaml σ :=
  .mapping [("claude", encodeProvider w c.claude), ("opencode", encodeProvider w c.opencode),
    ("codex", encodeProvider w c.codex)]

def encodeTts (c : TtsConfig) : Yaml σ :=
  .mapping [("enabled", writeBool w c.enabled), ("states", writeStrings w c.states)]

def encodeLogging (c : LoggingConfig) : Yaml σ :=
  .mapping [("level", writeString w (logLevelName c.level)),
    ("retention", writeString w c.retention), ("redact", writeBool w c.redact)]

/-- The members of a configuration that is written. -/
def configMembers (c : Config) : List (String × Yaml σ) :=
  [("version", .scalar (w.u32 c.version)), ("daemon", encodeDaemon w c.daemon),
    ("privacy", encodePrivacy w c.privacy), ("states", encodeStates w c.states),
    ("rendering", encodeRendering w c.rendering), ("renderers", encodeRenderers w c.renderers),
    ("providers", encodeProviders w c.providers)] ++
  (if c.tts.isEmpty then [] else [("tts", encodeTts w c.tts)]) ++
  [("logging", encodeLogging w c.logging)] ++
  (match c.theme with
    | none   => []
    | some t => [("theme", writeString w t)])

/-- The document of a configuration. -/
def encodeConfig (c : Config) : Yaml σ := .mapping (configMembers w c)

end

/-! ### Reading back -/

section
variable {σ : Type} {r : ScalarReader σ} {w : ScalarWriter σ} (h : r.Inverts w)
include h

theorem read_writeBool (b : Bool) : readBool r (writeBool w b) = some b := h.bool b

theorem read_writeString (s : String) : readString r (writeString w s) = some s := h.string s

theorem read_writeText (o : Option String) : readText r (writeText w o) = some o :=
  ScalarWriter.readOption_writeOption h h.string o

theorem read_writeStrings (ss : List String) : readStrings r (writeStrings w ss) = some ss :=
  ScalarWriter.readList_map (read_writeString h) ss

theorem read_logLevelName (l : LogLevel) :
    readLogLevel r (writeString w (logLevelName l)) = some l :=
  ScalarWriter.readVariant_writeName h (by cases l <;> decide)

theorem read_backgroundIntensityName (i : BackgroundIntensity) :
    readIntensity r (writeString w (backgroundIntensityName i)) = some i :=
  ScalarWriter.readVariant_writeName h (by cases i <;> decide)

theorem read_rendererModeName (m : RendererMode) :
    readMode r (writeString w (rendererModeName m)) = some m :=
  ScalarWriter.readVariant_writeName h (by cases m <;> decide)

theorem decode_encodeDaemon (c : DaemonConfig) : decodeDaemon r (encodeDaemon w c) = some c := by
  unfold decodeDaemon encodeDaemon
  rw [r.members_mapping (by exact List.Sublist.refl daemonFields) (by decide)]
  simp [Yaml.field, List.lookup_cons, read_writeBool h, read_logLevelName h, read_writeString h,
    read_writeText h]

theorem decode_encodePrivacy (c : PrivacyConfig) :
    decodePrivacy r (encodePrivacy w c) = some c := by
  unfold decodePrivacy encodePrivacy
  rw [r.members_mapping (by exact List.Sublist.refl privacyFields) (by decide)]
  simp [Yaml.field, List.lookup_cons, read_writeBool h]

theorem decode_encodeStateOverride (o : StateOverride) :
    decodeStateOverride r (encodeStateOverride w o) = some o := by
  have htext : ∀ o, readKeptText r (writeText w o) = some o :=
    ScalarWriter.readOption_writeOption h h.keptString
  unfold encodeStateOverride
  rw [decodeStateOverride,
    r.members_mapping (by exact List.Sublist.refl stateOverrideFields) (by decide)]
  simp [Yaml.field, List.lookup_cons, htext]

/-- The overrides are read back, and the order in which they are written does not matter. -/
theorem decode_encodeStates (c : StatesConfig) : decodeStates r (encodeStates w c) = some c := by
  have hmembers : ∀ ps : List (String × StateOverride),
      (ps.map fun p => (p.1, encodeStateOverride w p.2)).mapM
        (fun p => (decodeStateOverride r p.2).map fun o => (p.1, o)) = some ps := by
    intro ps
    induction ps with
    | nil => rfl
    | cons p ps ih => simp [decode_encodeStateOverride h, ih]
  rw [encodeStates, decodeStates, hmembers]
  simp

theorem decode_encodeBackground (c : BackgroundConfig) :
    decodeBackground r (encodeBackground w c) = some c := by
  unfold decodeBackground encodeBackground
  rw [r.members_mapping (by exact List.Sublist.refl backgroundFields) (by decide)]
  simp [Yaml.field, List.lookup_cons, read_writeBool h, read_backgroundIntensityName h]

theorem decode_encodeRendering (c : RenderingConfig) :
    decodeRendering r (encodeRendering w c) = some c := by
  unfold decodeRendering encodeRendering
  rw [r.members_mapping (by exact List.Sublist.refl renderingFields) (by decide)]
  simp [Yaml.field, decode_encodeBackground h]

theorem decode_encodeTmux (c : TmuxRendererConfig) : decodeTmux r (encodeTmux w c) = some c := by
  unfold decodeTmux encodeTmux
  rw [r.members_mapping (by exact List.Sublist.refl tmuxFields) (by decide)]
  simp [Yaml.field, List.lookup_cons, read_writeBool h, read_rendererModeName h]

theorem decode_encodeITerm2 (c : ITerm2RendererConfig) :
    decodeITerm2 r (encodeITerm2 w c) = some c := by
  unfold decodeITerm2 encodeITerm2
  rw [r.members_mapping (by exact List.Sublist.refl iterm2Fields) (by decide)]
  simp [Yaml.field, List.lookup_cons, read_writeBool h, read_rendererModeName h]

theorem decode_encodeQuietHours (c : QuietHoursConfig) :
    decodeQuietHours r (encodeQuietHours w c) = some c := by
  unfold decodeQuietHours encodeQuietHours
  rw [r.members_mapping (by exact List.Sublist.refl quietHoursFields) (by decide)]
  simp [Yaml.field, List.lookup_cons, read_writeText h, read_writeStrings h]

theorem decode_encodeNotifications (c : NotificationsRendererConfig) :
    decodeNotifications r (encodeNotifications w c) = some c := by
  unfold decodeNotifications encodeNotifications
  rw [r.members_mapping (by exact List.Sublist.refl notificationsFields) (by decide)]
  simp [Yaml.field, List.lookup_cons, read_writeBool h, read_writeStrings h,
    decode_encodeQuietHours h]

theorem decode_encodeRenderers (c : RenderersConfig) :
    decodeRenderers r (encodeRenderers w c) = some c := by
  unfold decodeRenderers encodeRenderers
  rw [r.members_mapping (by exact List.Sublist.refl renderersFields) (by decide)]
  simp [Yaml.field, List.lookup_cons, decode_encodeTmux h, decode_encodeITerm2 h,
    decode_encodeNotifications h]

theorem decode_encodeProvider (c : ProviderConfig) :
    decodeProvider r (encodeProvider w c) = some c := by
  unfold decodeProvider encodeProvider
  rw [r.members_mapping (by exact List.Sublist.refl providerFields) (by decide)]
  simp [Yaml.field, List.lookup_cons, read_writeBool h]

theorem decode_encodeProviders (c : ProvidersConfig) :
    decodeProviders r (encodeProviders w c) = some c := by
  unfold decodeProviders encodeProviders
  rw [r.members_mapping (by exact List.Sublist.refl providersFields) (by decide)]
  simp [Yaml.field, List.lookup_cons, decode_encodeProvider h]

theorem decode_encodeTts (c : TtsConfig) : decodeTts r (encodeTts w c) = some c := by
  unfold decodeTts encodeTts
  rw [r.members_mapping (by exact List.Sublist.refl ttsFields) (by decide)]
  simp [Yaml.field, List.lookup_cons, read_writeBool h, read_writeStrings h]

theorem decode_encodeLogging (c : LoggingConfig) :
    decodeLogging r (encodeLogging w c) = some c := by
  unfold decodeLogging encodeLogging
  rw [r.members_mapping (by exact List.Sublist.refl loggingFields) (by decide)]
  simp [Yaml.field, List.lookup_cons, read_writeBool h, read_writeString h, read_logLevelName h]

omit h in
/-- What is not written has its own default. -/
theorem tts_eq_default {c : TtsConfig} (hempty : c.isEmpty = true) : c = .default := by
  obtain ⟨enabled, states⟩ := c
  simp only [TtsConfig.isEmpty, Bool.and_eq_true, Bool.not_eq_true', List.isEmpty_iff] at hempty
  rw [TtsConfig.default, hempty.1, hempty.2]

/-- **Round trip.** A configuration that is written is read back. -/
theorem decode_encodeConfig (c : Config) : decodeConfig r (encodeConfig w c) = some c := by
  have hfields : ((configMembers w c).map Prod.fst).Sublist configFields := by
    unfold configMembers configFields
    cases c.tts.isEmpty <;> cases c.theme <;> simp
  -- one fact for each field, in the order of the fields
  have hversion : Yaml.field (configMembers w c) "version" 1 (readScalar r.u32)
      = some c.version := h.u32 c.version
  have hdaemon : Yaml.field (configMembers w c) "daemon" .default (decodeDaemon r)
      = some c.daemon := decode_encodeDaemon h _
  have hprivacy : Yaml.field (configMembers w c) "privacy" .default (decodePrivacy r)
      = some c.privacy := decode_encodePrivacy h _
  have hstates : Yaml.field (configMembers w c) "states" .default (decodeStates r)
      = some c.states := decode_encodeStates h _
  have hrendering : Yaml.field (configMembers w c) "rendering" .default (decodeRendering r)
      = some c.rendering := decode_encodeRendering h _
  have hrenderers : Yaml.field (configMembers w c) "renderers" .default (decodeRenderers r)
      = some c.renderers := decode_encodeRenderers h _
  have hproviders : Yaml.field (configMembers w c) "providers" .default (decodeProviders r)
      = some c.providers := decode_encodeProviders h _
  -- an empty `tts` section is its default, and no theme that of the theme
  have htts : Yaml.field (configMembers w c) "tts" .default (decodeTts r) = some c.tts := by
    unfold Yaml.field configMembers
    cases hempty : c.tts.isEmpty with
    | true => cases c.theme <;> exact congrArg some (tts_eq_default hempty).symm
    | false => exact decode_encodeTts h _
  have hlogging : Yaml.field (configMembers w c) "logging" .default (decodeLogging r)
      = some c.logging := by
    unfold Yaml.field configMembers
    cases c.tts.isEmpty <;> exact decode_encodeLogging h _
  have htheme : Yaml.field (configMembers w c) "theme" none (readText r) = some c.theme := by
    have hsome : ∀ t, readText r (writeString w t) = some (some t) :=
      fun t => read_writeText h (some t)
    unfold Yaml.field configMembers
    cases c.tts.isEmpty <;> cases c.theme <;> first | rfl | exact hsome _
  unfold decodeConfig encodeConfig
  rw [r.members_mapping hfields (by decide)]
  simp only [Option.bind_eq_bind, Option.bind_some, hversion, hdaemon, hprivacy, hstates,
    hrendering, hrenderers, hproviders, htts, hlogging, htheme]
  rfl

end

end AgentTermStatus
