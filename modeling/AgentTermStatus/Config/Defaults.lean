import AgentTermStatus.Config.Config

namespace AgentTermStatus

open Lib ScalarReader

/-!
# Omitted keys of the configuration

A key that a document omits should have its value in the default configuration.  The decoder gives
it the default of the field, or of the section if the whole section is omitted, and these agree
with the default configuration but for six leaves: the theme, the three of the quiet hours, whether
Claude is enabled and whether Codex is experimental.

* `decodeConfig_of_valid` — a document of valid values is read;
* `omitted_default_iff` — it sets what it mentions and nothing else exactly if it mentions those of
  the six whose section it mentions (`MentionsOdd`).
-/

section
variable {σ : Type} (r : ScalarReader σ)

/-! ### Documents of valid values -/

def ValidDaemon : Yaml σ → Prop :=
  r.ValidRecord [("enabled", Readable (readBool r)), ("log_level", Readable (readLogLevel r)),
    ("event_retention", Readable (readString r)), ("socket_path", Readable (readText r))]

def ValidPrivacy : Yaml σ → Prop :=
  r.ValidRecord [("store_activity_labels", Readable (readBool r)),
    ("store_workspace_paths", Readable (readBool r)),
    ("redact_home_directory", Readable (readBool r))]

def ValidBackground : Yaml σ → Prop :=
  r.ValidRecord [("enabled", Readable (readBool r)), ("intensity", Readable (readIntensity r))]

def ValidRendering : Yaml σ → Prop := r.ValidRecord [("background", ValidBackground r)]

def ValidTmux : Yaml σ → Prop :=
  r.ValidRecord [("enabled", Readable (readMode r)), ("pane_border", Readable (readBool r)),
    ("pane_title", Readable (readBool r))]

def ValidITerm2 : Yaml σ → Prop :=
  r.ValidRecord [("enabled", Readable (readMode r)), ("badge", Readable (readBool r)),
    ("tab_title", Readable (readBool r)), ("background", Readable (readBool r))]

def ValidQuietHours : Yaml σ → Prop :=
  r.ValidRecord [("start", Readable (readText r)), ("end", Readable (readText r)),
    ("allow", Readable (readStrings r))]

def ValidNotifications : Yaml σ → Prop :=
  r.ValidRecord [("enabled", Readable (readBool r)), ("states", Readable (readStrings r)),
    ("quiet_hours", ValidQuietHours r)]

def ValidRenderers : Yaml σ → Prop :=
  r.ValidRecord [("tmux", ValidTmux r), ("iterm2", ValidITerm2 r),
    ("notifications", ValidNotifications r)]

def ValidProvider : Yaml σ → Prop :=
  r.ValidRecord [("enabled", Readable (readBool r)), ("experimental", Readable (readBool r))]

def ValidProviders : Yaml σ → Prop :=
  r.ValidRecord [("claude", ValidProvider r), ("opencode", ValidProvider r),
    ("codex", ValidProvider r)]

def ValidTts : Yaml σ → Prop :=
  r.ValidRecord [("enabled", Readable (readBool r)), ("states", Readable (readStrings r))]

def ValidLogging : Yaml σ → Prop :=
  r.ValidRecord [("level", Readable (readLogLevel r)), ("retention", Readable (readString r)),
    ("redact", Readable (readBool r))]

/-- A mapping that sets some of the keys of the configuration, at any depth, to valid values. -/
def ValidConfig : Yaml σ → Prop :=
  r.ValidRecord [("version", Readable (readScalar r.u32)), ("daemon", ValidDaemon r),
    ("privacy", ValidPrivacy r), ("states", Readable (decodeStates r)),
    ("rendering", ValidRendering r), ("renderers", ValidRenderers r),
    ("providers", ValidProviders r), ("tts", ValidTts r), ("logging", ValidLogging r),
    ("theme", Readable (readText r))]

variable {r} {doc : Yaml σ}

theorem decodeDaemon_of_valid (h : ValidDaemon r doc) : (decodeDaemon r doc).isSome := by
  refine h.isSome_open r fun ms hms => ?_
  iterate 4 refine h.isSome_leaf r hms (by simp) fun _ => ?_
  rfl

theorem decodePrivacy_of_valid (h : ValidPrivacy r doc) : (decodePrivacy r doc).isSome := by
  refine h.isSome_open r fun ms hms => ?_
  iterate 3 refine h.isSome_leaf r hms (by simp) fun _ => ?_
  rfl

theorem decodeBackground_of_valid (h : ValidBackground r doc) :
    (decodeBackground r doc).isSome := by
  refine h.isSome_open r fun ms hms => ?_
  iterate 2 refine h.isSome_leaf r hms (by simp) fun _ => ?_
  rfl

theorem decodeRendering_of_valid (h : ValidRendering r doc) : (decodeRendering r doc).isSome := by
  refine h.isSome_open r fun ms hms => ?_
  refine h.isSome_section r hms (fun _ => decodeBackground_of_valid) (by simp) fun _ => ?_
  rfl

theorem decodeTmux_of_valid (h : ValidTmux r doc) : (decodeTmux r doc).isSome := by
  refine h.isSome_open r fun ms hms => ?_
  iterate 3 refine h.isSome_leaf r hms (by simp) fun _ => ?_
  rfl

theorem decodeITerm2_of_valid (h : ValidITerm2 r doc) : (decodeITerm2 r doc).isSome := by
  refine h.isSome_open r fun ms hms => ?_
  iterate 4 refine h.isSome_leaf r hms (by simp) fun _ => ?_
  rfl

theorem decodeQuietHours_of_valid (h : ValidQuietHours r doc) :
    (decodeQuietHours r doc).isSome := by
  refine h.isSome_open r fun ms hms => ?_
  iterate 3 refine h.isSome_leaf r hms (by simp) fun _ => ?_
  rfl

theorem decodeNotifications_of_valid (h : ValidNotifications r doc) :
    (decodeNotifications r doc).isSome := by
  refine h.isSome_open r fun ms hms => ?_
  iterate 2 refine h.isSome_leaf r hms (by simp) fun _ => ?_
  refine h.isSome_section r hms (fun _ => decodeQuietHours_of_valid) (by simp) fun _ => ?_
  rfl

theorem decodeRenderers_of_valid (h : ValidRenderers r doc) : (decodeRenderers r doc).isSome := by
  refine h.isSome_open r fun ms hms => ?_
  refine h.isSome_section r hms (fun _ => decodeTmux_of_valid) (by simp) fun _ => ?_
  refine h.isSome_section r hms (fun _ => decodeITerm2_of_valid) (by simp) fun _ => ?_
  refine h.isSome_section r hms (fun _ => decodeNotifications_of_valid) (by simp) fun _ => ?_
  rfl

theorem decodeProvider_of_valid (h : ValidProvider r doc) : (decodeProvider r doc).isSome := by
  refine h.isSome_open r fun ms hms => ?_
  iterate 2 refine h.isSome_leaf r hms (by simp) fun _ => ?_
  rfl

theorem decodeProviders_of_valid (h : ValidProviders r doc) : (decodeProviders r doc).isSome := by
  refine h.isSome_open r fun ms hms => ?_
  iterate 3 refine h.isSome_section r hms (fun _ => decodeProvider_of_valid) (by simp) fun _ => ?_
  rfl

theorem decodeTts_of_valid (h : ValidTts r doc) : (decodeTts r doc).isSome := by
  refine h.isSome_open r fun ms hms => ?_
  iterate 2 refine h.isSome_leaf r hms (by simp) fun _ => ?_
  rfl

theorem decodeLogging_of_valid (h : ValidLogging r doc) : (decodeLogging r doc).isSome := by
  refine h.isSome_open r fun ms hms => ?_
  iterate 3 refine h.isSome_leaf r hms (by simp) fun _ => ?_
  rfl

/-- **A document of valid values is read.** -/
theorem decodeConfig_of_valid (h : ValidConfig r doc) : (decodeConfig r doc).isSome := by
  refine h.isSome_open r fun ms hms => ?_
  refine h.isSome_leaf r hms (by simp) fun _ => ?_
  refine h.isSome_section r hms (fun _ => decodeDaemon_of_valid) (by simp) fun _ => ?_
  refine h.isSome_section r hms (fun _ => decodePrivacy_of_valid) (by simp) fun _ => ?_
  refine h.isSome_leaf r hms (by simp) fun _ => ?_
  refine h.isSome_section r hms (fun _ => decodeRendering_of_valid) (by simp) fun _ => ?_
  refine h.isSome_section r hms (fun _ => decodeRenderers_of_valid) (by simp) fun _ => ?_
  refine h.isSome_section r hms (fun _ => decodeProviders_of_valid) (by simp) fun _ => ?_
  refine h.isSome_section r hms (fun _ => decodeTts_of_valid) (by simp) fun _ => ?_
  refine h.isSome_section r hms (fun _ => decodeLogging_of_valid) (by simp) fun _ => ?_
  refine h.isSome_leaf r hms (by simp) fun _ => ?_
  rfl

/-! ### The leaves -/

variable (r)

def daemonLeaves : List (Leaf σ DaemonConfig) :=
  [.here "enabled" (readBool r) fun c => c.enabled,
    .here "log_level" (readLogLevel r) fun c => c.logLevel,
    .here "event_retention" (readString r) fun c => c.eventRetention,
    .here "socket_path" (readText r) fun c => c.socketPath]

def privacyLeaves : List (Leaf σ PrivacyConfig) :=
  [.here "store_activity_labels" (readBool r) fun c => c.storeActivityLabels,
    .here "store_workspace_paths" (readBool r) fun c => c.storeWorkspacePaths,
    .here "redact_home_directory" (readBool r) fun c => c.redactHomeDirectory]

def backgroundLeaves : List (Leaf σ BackgroundConfig) :=
  [.here "enabled" (readBool r) fun c => c.enabled,
    .here "intensity" (readIntensity r) fun c => c.intensity]

def renderingLeaves : List (Leaf σ RenderingConfig) :=
  (backgroundLeaves r).map (.under "background" fun c => c.background)

def tmuxLeaves : List (Leaf σ TmuxRendererConfig) :=
  [.here "enabled" (readMode r) fun c => c.enabled,
    .here "pane_border" (readBool r) fun c => c.paneBorder,
    .here "pane_title" (readBool r) fun c => c.paneTitle]

def iterm2Leaves : List (Leaf σ ITerm2RendererConfig) :=
  [.here "enabled" (readMode r) fun c => c.enabled,
    .here "badge" (readBool r) fun c => c.badge,
    .here "tab_title" (readBool r) fun c => c.tabTitle,
    .here "background" (readBool r) fun c => c.background]

def quietHoursLeaves : List (Leaf σ QuietHoursConfig) :=
  [.here "start" (readText r) fun c => c.start, .here "end" (readText r) fun c => c.end,
    .here "allow" (readStrings r) fun c => c.allow]

def notificationsLeaves : List (Leaf σ NotificationsRendererConfig) :=
  [.here "enabled" (readBool r) fun c => c.enabled,
    .here "states" (readStrings r) fun c => c.states] ++
  (quietHoursLeaves r).map (.under "quiet_hours" fun c => c.quietHours)

def renderersLeaves : List (Leaf σ RenderersConfig) :=
  (tmuxLeaves r).map (.under "tmux" fun c => c.tmux) ++
  (iterm2Leaves r).map (.under "iterm2" fun c => c.iterm2) ++
  (notificationsLeaves r).map (.under "notifications" fun c => c.notifications)

def providerLeaves : List (Leaf σ ProviderConfig) :=
  [.here "enabled" (readBool r) fun c => c.enabled,
    .here "experimental" (readBool r) fun c => c.experimental]

def providersLeaves : List (Leaf σ ProvidersConfig) :=
  (providerLeaves r).map (.under "claude" fun c => c.claude) ++
  (providerLeaves r).map (.under "opencode" fun c => c.opencode) ++
  (providerLeaves r).map (.under "codex" fun c => c.codex)

def ttsLeaves : List (Leaf σ TtsConfig) :=
  [.here "enabled" (readBool r) fun c => c.enabled,
    .here "states" (readStrings r) fun c => c.states]

def loggingLeaves : List (Leaf σ LoggingConfig) :=
  [.here "level" (readLogLevel r) fun c => c.level,
    .here "retention" (readString r) fun c => c.retention,
    .here "redact" (readBool r) fun c => c.redact]

/-- The leaves of the configuration, without the overrides of the states. -/
def configLeaves : List (Leaf σ Config) :=
  [.here "version" (readScalar r.u32) fun c => c.version,
    .here "theme" (readText r) fun c => c.theme] ++
  (daemonLeaves r).map (.under "daemon" fun c => c.daemon) ++
  (privacyLeaves r).map (.under "privacy" fun c => c.privacy) ++
  (renderingLeaves r).map (.under "rendering" fun c => c.rendering) ++
  (renderersLeaves r).map (.under "renderers" fun c => c.renderers) ++
  (providersLeaves r).map (.under "providers" fun c => c.providers) ++
  (ttsLeaves r).map (.under "tts" fun c => c.tts) ++
  (loggingLeaves r).map (.under "logging" fun c => c.logging)

variable {r}

/-! ### Sections that agree with the default configuration -/

theorem daemon_ok {c : DaemonConfig} (h : decodeDaemon r doc = some c) :
    ∀ l ∈ daemonLeaves r, l.Ok doc .default c := by
  simp only [decodeDaemon, Option.bind_eq_bind, Option.bind_eq_some_iff, Option.pure_def,
    Option.some.injEq] at h
  obtain ⟨ms, hms, _, henabled, _, hlevel, _, hretention, _, hsocket, rfl⟩ := h
  have hget := r.lookup_members hms
  simp only [daemonLeaves, List.forall_mem_cons]
  exact ⟨Leaf.ok_here (hget _) henabled, Leaf.ok_here (hget _) hlevel,
    Leaf.ok_here (hget _) hretention, Leaf.ok_here (hget _) hsocket, by simp⟩

theorem privacy_ok {c : PrivacyConfig} (h : decodePrivacy r doc = some c) :
    ∀ l ∈ privacyLeaves r, l.Ok doc .default c := by
  simp only [decodePrivacy, Option.bind_eq_bind, Option.bind_eq_some_iff, Option.pure_def,
    Option.some.injEq] at h
  obtain ⟨ms, hms, _, hlabels, _, hpaths, _, hredact, rfl⟩ := h
  have hget := r.lookup_members hms
  simp only [privacyLeaves, List.forall_mem_cons]
  exact ⟨Leaf.ok_here (hget _) hlabels, Leaf.ok_here (hget _) hpaths,
    Leaf.ok_here (hget _) hredact, by simp⟩

theorem background_ok {c : BackgroundConfig} (h : decodeBackground r doc = some c) :
    ∀ l ∈ backgroundLeaves r, l.Ok doc .default c := by
  simp only [decodeBackground, Option.bind_eq_bind, Option.bind_eq_some_iff, Option.pure_def,
    Option.some.injEq] at h
  obtain ⟨ms, hms, _, henabled, _, hintensity, rfl⟩ := h
  have hget := r.lookup_members hms
  simp only [backgroundLeaves, List.forall_mem_cons]
  exact ⟨Leaf.ok_here (hget _) henabled, Leaf.ok_here (hget _) hintensity, by simp⟩

theorem rendering_ok {c : RenderingConfig} (h : decodeRendering r doc = some c) :
    ∀ l ∈ renderingLeaves r, l.Ok doc .default c := by
  simp only [decodeRendering, Option.bind_eq_bind, Option.bind_eq_some_iff, Option.pure_def,
    Option.some.injEq] at h
  obtain ⟨ms, hms, _, hbackground, rfl⟩ := h
  exact Leaf.forall_under (r.lookup_members hms _) hbackground fun _ _ => background_ok

theorem tmux_ok {c : TmuxRendererConfig} (h : decodeTmux r doc = some c) :
    ∀ l ∈ tmuxLeaves r, l.Ok doc .default c := by
  simp only [decodeTmux, Option.bind_eq_bind, Option.bind_eq_some_iff, Option.pure_def,
    Option.some.injEq] at h
  obtain ⟨ms, hms, _, henabled, _, hborder, _, htitle, rfl⟩ := h
  have hget := r.lookup_members hms
  simp only [tmuxLeaves, List.forall_mem_cons]
  exact ⟨Leaf.ok_here (hget _) henabled, Leaf.ok_here (hget _) hborder,
    Leaf.ok_here (hget _) htitle, by simp⟩

theorem iterm2_ok {c : ITerm2RendererConfig} (h : decodeITerm2 r doc = some c) :
    ∀ l ∈ iterm2Leaves r, l.Ok doc .default c := by
  simp only [decodeITerm2, Option.bind_eq_bind, Option.bind_eq_some_iff, Option.pure_def,
    Option.some.injEq] at h
  obtain ⟨ms, hms, _, henabled, _, hbadge, _, htitle, _, hbackground, rfl⟩ := h
  have hget := r.lookup_members hms
  simp only [iterm2Leaves, List.forall_mem_cons]
  exact ⟨Leaf.ok_here (hget _) henabled, Leaf.ok_here (hget _) hbadge,
    Leaf.ok_here (hget _) htitle, Leaf.ok_here (hget _) hbackground, by simp⟩

theorem tts_ok {c : TtsConfig} (h : decodeTts r doc = some c) :
    ∀ l ∈ ttsLeaves r, l.Ok doc .default c := by
  simp only [decodeTts, Option.bind_eq_bind, Option.bind_eq_some_iff, Option.pure_def,
    Option.some.injEq] at h
  obtain ⟨ms, hms, _, henabled, _, hstates, rfl⟩ := h
  have hget := r.lookup_members hms
  simp only [ttsLeaves, List.forall_mem_cons]
  exact ⟨Leaf.ok_here (hget _) henabled, Leaf.ok_here (hget _) hstates, by simp⟩

theorem logging_ok {c : LoggingConfig} (h : decodeLogging r doc = some c) :
    ∀ l ∈ loggingLeaves r, l.Ok doc .default c := by
  simp only [decodeLogging, Option.bind_eq_bind, Option.bind_eq_some_iff, Option.pure_def,
    Option.some.injEq] at h
  obtain ⟨ms, hms, _, hlevel, _, hretention, _, hredact, rfl⟩ := h
  have hget := r.lookup_members hms
  simp only [loggingLeaves, List.forall_mem_cons]
  exact ⟨Leaf.ok_here (hget _) hlevel, Leaf.ok_here (hget _) hretention,
    Leaf.ok_here (hget _) hredact, by simp⟩

/-! ### Sections that do not -/

/-- None of the quiet hours has its default. -/
theorem quietHours_ok_iff {c : QuietHoursConfig} (h : decodeQuietHours r doc = some c) :
    (∀ l ∈ quietHoursLeaves r, l.Ok doc .default c) ↔
      doc.Completes [] [["start"], ["end"], ["allow"]] := by
  simp only [decodeQuietHours, Option.bind_eq_bind, Option.bind_eq_some_iff, Option.pure_def,
    Option.some.injEq] at h
  obtain ⟨ms, hms, _, hstart, _, hend, _, hallow, rfl⟩ := h
  have hget := r.lookup_members hms
  simp only [quietHoursLeaves, List.forall_mem_cons, Yaml.completes_nil]
  exact and_congr (Leaf.ok_here_iff_mentions (hget _) hstart (by decide))
    (and_congr (Leaf.ok_here_iff_mentions (hget _) hend (by decide))
      (and_congr (Leaf.ok_here_iff_mentions (hget _) hallow (by decide)) (by simp)))

theorem notifications_ok_iff {c : NotificationsRendererConfig}
    (h : decodeNotifications r doc = some c) :
    (∀ l ∈ notificationsLeaves r, l.Ok doc .default c) ↔
      doc.Completes ["quiet_hours"] [["start"], ["end"], ["allow"]] := by
  simp only [decodeNotifications, Option.bind_eq_bind, Option.bind_eq_some_iff, Option.pure_def,
    Option.some.injEq] at h
  obtain ⟨ms, hms, _, henabled, _, hstates, _, hquiet, rfl⟩ := h
  have hget := r.lookup_members hms
  rw [notificationsLeaves, List.forall_mem_append, Yaml.completes_cons,
    Leaf.forall_under_iff (hget _) hquiet fun _ _ => quietHours_ok_iff]
  refine and_iff_right ?_
  simp only [List.forall_mem_cons]
  exact ⟨Leaf.ok_here (hget _) henabled, Leaf.ok_here (hget _) hstates, by simp⟩

theorem renderers_ok_iff {c : RenderersConfig} (h : decodeRenderers r doc = some c) :
    (∀ l ∈ renderersLeaves r, l.Ok doc .default c) ↔
      doc.Completes ["notifications", "quiet_hours"] [["start"], ["end"], ["allow"]] := by
  simp only [decodeRenderers, Option.bind_eq_bind, Option.bind_eq_some_iff, Option.pure_def,
    Option.some.injEq] at h
  obtain ⟨ms, hms, _, htmux, _, hiterm2, _, hnotifications, rfl⟩ := h
  have hget := r.lookup_members hms
  rw [renderersLeaves, List.forall_mem_append, List.forall_mem_append, Yaml.completes_cons,
    and_iff_right ⟨Leaf.forall_under (hget _) htmux fun _ _ => tmux_ok,
      Leaf.forall_under (hget _) hiterm2 fun _ _ => iterm2_ok⟩]
  exact Leaf.forall_under_iff (hget _) hnotifications fun _ _ => notifications_ok_iff

/-- The fields of a provider are off where they are missing. -/
theorem providerField_ok_iff {c default : ProviderConfig} {ms : List (String × Yaml σ)}
    {key : String} {get : ProviderConfig → Bool} (hms : ms.lookup key = doc.get key)
    (h : Yaml.field ms key false (readBool r) = some (get c)) :
    (Leaf.here key (readBool r) get).Ok doc default c ↔
      (get default = true → doc.mentions [key] = true) := by
  rw [Leaf.ok_here_iff hms h, Yaml.mentions_cons]
  cases doc.get key <;> cases get default <;> simp [Yaml.mentions, Yaml.find]

/-- A provider is off where its section is missing. -/
theorem provider_ok_iff {c default : ProvidersConfig} {ms : List (String × Yaml σ)} {key : String}
    {part : ProvidersConfig → ProviderConfig} (hms : ms.lookup key = doc.get key)
    (h : Yaml.field ms key .default (decodeProvider r) = some (part c)) :
    (∀ l ∈ (providerLeaves r).map (Leaf.under key part), l.Ok doc default c) ↔
      ((part default).enabled = true → doc.mentions [key, "enabled"] = true) ∧
        ((part default).experimental = true → doc.mentions [key, "experimental"] = true) := by
  simp only [providerLeaves, List.map_cons, List.map_nil, List.forall_mem_cons,
    Leaf.ok_under_iff hms h, Yaml.mentions_cons doc key]
  unfold Yaml.field at h
  rw [hms] at h
  cases hv : doc.get key with
  | none =>
    simp only [Leaf.here, ProviderConfig.default]
    cases (part default).enabled <;> cases (part default).experimental <;> simp
  | some v =>
    rw [hv] at h
    simp only [decodeProvider, Option.bind_eq_bind, Option.bind_eq_some_iff, Option.pure_def,
      Option.some.injEq] at h
    obtain ⟨ms', hms', enabled, henabled, experimental, hexperimental, hc⟩ := h
    rw [← hc]
    have hget := r.lookup_members hms'
    have hon : (Leaf.here "enabled" (readBool r) fun c => c.enabled).Ok v (part default)
        ⟨enabled, experimental⟩ ↔ _ := providerField_ok_iff (hget _) henabled
    have hexp : (Leaf.here "experimental" (readBool r) fun c => c.experimental).Ok v (part default)
        ⟨enabled, experimental⟩ ↔ _ := providerField_ok_iff (hget _) hexperimental
    simp [hon, hexp]

theorem providers_ok_iff {c : ProvidersConfig} (h : decodeProviders r doc = some c) :
    (∀ l ∈ providersLeaves r, l.Ok doc .default c) ↔
      doc.Completes [] [["claude", "enabled"], ["codex", "experimental"]] := by
  simp only [decodeProviders, Option.bind_eq_bind, Option.bind_eq_some_iff, Option.pure_def,
    Option.some.injEq] at h
  obtain ⟨ms, hms, _, hclaude, _, hopencode, _, hcodex, rfl⟩ := h
  have hget := r.lookup_members hms
  rw [providersLeaves, List.forall_mem_append, List.forall_mem_append,
    provider_ok_iff (hget _) hclaude, provider_ok_iff (hget _) hopencode,
    provider_ok_iff (hget _) hcodex, Yaml.completes_nil]
  simp [ProvidersConfig.default]

/-! ### The configuration -/

/-- The document mentions the theme, with the providers whether Claude is enabled and whether Codex
    is experimental, and with the quiet hours their start, their end and what they allow. -/
structure MentionsOdd (doc : Yaml σ) : Prop where
  theme : doc.mentions ["theme"] = true
  providers : doc.Completes ["providers"] [["claude", "enabled"], ["codex", "experimental"]]
  quietHours : doc.Completes ["renderers", "notifications", "quiet_hours"]
    [["start"], ["end"], ["allow"]]

/-- **When omitted keys mean the default.** For every document that sets some of the keys of the
    configuration, at any depth, to valid values: it is read, and the leaves it mentions have the
    given values and all others, but for the overrides of the states, the values of the default
    configuration, if and only if it mentions the six leaves with odd defaults where it mentions
    their sections. -/
theorem omitted_default_iff (r : ScalarReader σ) (doc : Yaml σ) (h : ValidConfig r doc) :
    ∃ c, decodeConfig r doc = some c ∧
      ((∀ l ∈ configLeaves r, l.Ok doc .defaultConfig c) ↔ MentionsOdd doc) := by
  obtain ⟨c, hc⟩ := Option.isSome_iff_exists.mp (decodeConfig_of_valid h)
  refine ⟨c, hc, ?_⟩
  simp only [decodeConfig, Option.bind_eq_bind, Option.bind_eq_some_iff, Option.pure_def,
    Option.some.injEq] at hc
  obtain ⟨ms, hms, _, hversion, _, hdaemon, _, hprivacy, _, -, _, hrendering, _, hrenderers, _,
    hproviders, _, htts, _, hlogging, _, htheme, rfl⟩ := hc
  have hget := r.lookup_members hms
  simp only [configLeaves, List.forall_mem_append, List.forall_mem_cons]
  refine ⟨?_, fun hodd => ?_⟩
  · rintro ⟨⟨⟨⟨⟨⟨⟨⟨-, htheme', -⟩, -⟩, -⟩, -⟩, hrenderers'⟩, hproviders'⟩, -⟩, -⟩
    refine ⟨(Leaf.ok_here_iff_mentions (hget _) htheme (by decide)).mp htheme', ?_, ?_⟩
    · rw [Yaml.completes_cons]
      exact (Leaf.forall_under_iff (hget _) hproviders fun _ _ => providers_ok_iff).mp hproviders'
    · rw [Yaml.completes_cons]
      exact (Leaf.forall_under_iff (hget _) hrenderers fun _ _ => renderers_ok_iff).mp hrenderers'
  · have hrenderers' := (Yaml.completes_cons _ _ _ _).mp hodd.quietHours
    have hproviders' := (Yaml.completes_cons _ _ _ _).mp hodd.providers
    exact ⟨⟨⟨⟨⟨⟨⟨⟨Leaf.ok_here (hget _) hversion,
      (Leaf.ok_here_iff_mentions (hget _) htheme (by decide)).mpr hodd.theme, by simp⟩,
      Leaf.forall_under (hget _) hdaemon fun _ _ => daemon_ok⟩,
      Leaf.forall_under (hget _) hprivacy fun _ _ => privacy_ok⟩,
      Leaf.forall_under (hget _) hrendering fun _ _ => rendering_ok⟩,
      (Leaf.forall_under_iff (hget _) hrenderers fun _ _ => renderers_ok_iff).mpr hrenderers'⟩,
      (Leaf.forall_under_iff (hget _) hproviders fun _ _ => providers_ok_iff).mpr hproviders'⟩,
      Leaf.forall_under (hget _) htts fun _ _ => tts_ok⟩,
      Leaf.forall_under (hget _) hlogging fun _ _ => logging_ok⟩

end

/-- A document with a theme, that enables one provider. -/
def openCodeEnabled : Yaml ScalarText :=
  .mapping [("theme", .scalar (.plain "default")),
    ("providers", .mapping [("opencode", .mapping [("enabled", .scalar (.plain "true"))])])]

theorem openCodeEnabled_valid : ValidConfig ScalarText.reader openCodeEnabled := by
  have hopencode : ValidProvider ScalarText.reader
      (.mapping [("enabled", .scalar (.plain "true"))]) :=
    ⟨by decide +kernel, by simp [Yaml.get, List.lookup_cons, Readable]; decide +kernel⟩
  have hproviders : ValidProviders ScalarText.reader
      (.mapping [("opencode", .mapping [("enabled", .scalar (.plain "true"))])]) :=
    ⟨by decide +kernel, by simp [Yaml.get, List.lookup_cons, hopencode]⟩
  refine ⟨by decide +kernel, ?_⟩
  simp [openCodeEnabled, Yaml.get, List.lookup_cons, hproviders, Readable]
  decide +kernel

/-- Enabling one provider disables another one. -/
theorem claude_disabled_by_openCode :
    ¬ ∀ (r : ScalarReader ScalarText) (doc : Yaml ScalarText), ValidConfig r doc →
      ∃ c, decodeConfig r doc = some c ∧ ∀ l ∈ configLeaves r, l.Ok doc .defaultConfig c := by
  intro hall
  obtain ⟨c, hc, hok⟩ := hall ScalarText.reader openCodeEnabled openCodeEnabled_valid
  have hclaude := hok (.under "providers" (fun c => c.providers) (.under "claude"
    (fun c => c.claude) (.here "enabled" (readBool ScalarText.reader) fun c => c.enabled)))
    (by simp [configLeaves, providersLeaves, providerLeaves])
  have henabled : c.providers.claude.enabled = true := hclaude.missing (by decide +kernel)
  have hdisabled : (decodeConfig ScalarText.reader openCodeEnabled).map
      (fun c => c.providers.claude.enabled) = some false := by decide +kernel
  rw [hc, Option.map_some, henabled] at hdisabled
  exact absurd hdisabled (by decide)

/-- A document with a theme and another level of the log sets these two only. -/
theorem omitted_default_theme :
    let doc := Yaml.mapping [("theme", .scalar (.plain "dark")),
      ("daemon", .mapping [("log_level", .scalar (.plain "debug"))])]
    ∃ c, decodeConfig ScalarText.reader doc = some c ∧
      ∀ l ∈ configLeaves ScalarText.reader, l.Ok doc .defaultConfig c := by
  intro doc
  have hdaemon : ValidDaemon ScalarText.reader
      (.mapping [("log_level", .scalar (.plain "debug"))]) :=
    ⟨by decide +kernel, by simp [Yaml.get, List.lookup_cons, Readable]; decide +kernel⟩
  have hvalid : ValidConfig ScalarText.reader doc := by
    refine ⟨by decide +kernel, ?_⟩
    simp [doc, Yaml.get, List.lookup_cons, hdaemon, Readable]
    decide +kernel
  obtain ⟨c, hc, hiff⟩ := omitted_default_iff ScalarText.reader doc hvalid
  refine ⟨c, hc, hiff.mpr ⟨by decide +kernel, ?_, ?_⟩⟩
  · exact fun h => absurd h (by decide +kernel)
  · exact fun h => absurd h (by decide +kernel)

end AgentTermStatus
