import AgentTermStatus.Lib.Yaml

namespace AgentTermStatus

open Lib

/-!
# The configuration

`Config` is a record of sections.  Each section has its default record, written by hand, and each
of its fields a default of its own that the decoder uses when the field is missing; the two are
written down separately, as in the source.
-/

/-! ### The records and their defaults -/

inductive LogLevel
  | trace
  | debug
  | info
  | warn
  | error
  deriving DecidableEq

inductive BackgroundIntensity
  | subtle
  | medium
  | strong
  deriving DecidableEq

inductive RendererMode
  | auto
  | on
  | off
  deriving DecidableEq

structure DaemonConfig where
  enabled : Bool
  logLevel : LogLevel
  eventRetention : String
  socketPath : Option String
  deriving DecidableEq

def DaemonConfig.default : DaemonConfig where
  enabled := true
  logLevel := .warn
  eventRetention := "24h"
  socketPath := none

structure PrivacyConfig where
  storeActivityLabels : Bool
  storeWorkspacePaths : Bool
  redactHomeDirectory : Bool
  deriving DecidableEq

def PrivacyConfig.default : PrivacyConfig where
  storeActivityLabels := false
  storeWorkspacePaths := false
  redactHomeDirectory := true

/-- What a state looks like, where it is overridden. -/
structure StateOverride where
  color : Option String
  label : Option String
  symbol : Option String
  deriving DecidableEq

/-- The overrides, by the name of the state. -/
structure StatesConfig where
  states : FiniteMap String StateOverride

def StatesConfig.default : StatesConfig where
  states := mapOfMembers [
    ("working", ⟨some "#2457A6", some "Working", some "*"⟩),
    ("attention", ⟨some "#D97706", some "Needs input", some "!"⟩),
    ("risk", ⟨some "#B91C1C", some "Risk", some "!!"⟩),
    ("result", ⟨some "#15803D", some "Completed", some "+"⟩),
    ("error", ⟨some "#9333EA", some "Error", some "x"⟩),
    ("unknown", ⟨some "#6B7280", some "Unknown", some "?"⟩)]

structure BackgroundConfig where
  enabled : Bool
  intensity : BackgroundIntensity
  deriving DecidableEq

def BackgroundConfig.default : BackgroundConfig where
  enabled := false
  intensity := .subtle

structure RenderingConfig where
  background : BackgroundConfig
  deriving DecidableEq

def RenderingConfig.default : RenderingConfig := ⟨.default⟩

structure TmuxRendererConfig where
  enabled : RendererMode
  paneBorder : Bool
  paneTitle : Bool
  deriving DecidableEq

def TmuxRendererConfig.default : TmuxRendererConfig where
  enabled := .auto
  paneBorder := true
  paneTitle := true

structure ITerm2RendererConfig where
  enabled : RendererMode
  badge : Bool
  tabTitle : Bool
  background : Bool
  deriving DecidableEq

def ITerm2RendererConfig.default : ITerm2RendererConfig where
  enabled := .auto
  badge := true
  tabTitle := true
  background := false

structure QuietHoursConfig where
  start : Option String
  «end» : Option String
  allow : List String
  deriving DecidableEq

def QuietHoursConfig.default : QuietHoursConfig where
  start := some "22:00"
  «end» := some "07:00"
  allow := ["risk"]

structure NotificationsRendererConfig where
  enabled : Bool
  states : List String
  quietHours : QuietHoursConfig
  deriving DecidableEq

def defaultNotificationStates : List String := ["attention", "risk", "result", "error"]

def NotificationsRendererConfig.default : NotificationsRendererConfig where
  enabled := true
  states := defaultNotificationStates
  quietHours := .default

structure RenderersConfig where
  tmux : TmuxRendererConfig
  iterm2 : ITerm2RendererConfig
  notifications : NotificationsRendererConfig
  deriving DecidableEq

def RenderersConfig.default : RenderersConfig := ⟨.default, .default, .default⟩

structure ProviderConfig where
  enabled : Bool
  experimental : Bool
  deriving DecidableEq

def ProviderConfig.default : ProviderConfig where
  enabled := false
  experimental := false

structure ProvidersConfig where
  claude : ProviderConfig
  opencode : ProviderConfig
  codex : ProviderConfig
  deriving DecidableEq

def ProvidersConfig.default : ProvidersConfig where
  claude := { enabled := true, experimental := false }
  opencode := { enabled := false, experimental := false }
  codex := { enabled := false, experimental := true }

structure TtsConfig where
  enabled : Bool
  states : List String
  deriving DecidableEq

def TtsConfig.default : TtsConfig where
  enabled := false
  states := []

/-- Is there nothing to write? -/
def TtsConfig.isEmpty (c : TtsConfig) : Bool := !c.enabled && c.states.isEmpty

structure LoggingConfig where
  level : LogLevel
  retention : String
  redact : Bool
  deriving DecidableEq

def LoggingConfig.default : LoggingConfig where
  level := .warn
  retention := "7d"
  redact := true

/-- The configuration. -/
structure Config where
  version : UInt32
  daemon : DaemonConfig
  privacy : PrivacyConfig
  states : StatesConfig
  rendering : RenderingConfig
  renderers : RenderersConfig
  providers : ProvidersConfig
  tts : TtsConfig
  logging : LoggingConfig
  theme : Option String

/-- The default configuration. -/
def Config.defaultConfig : Config where
  version := 1
  daemon := .default
  privacy := .default
  states := .default
  rendering := .default
  renderers := .default
  providers := .default
  tts := .default
  logging := .default
  theme := some "default"

/-! ### Names of variants -/

def logLevels : List LogLevel := [.trace, .debug, .info, .warn, .error]

def logLevelName : LogLevel → String
  | .trace => "trace"
  | .debug => "debug"
  | .info  => "info"
  | .warn  => "warn"
  | .error => "error"

def backgroundIntensities : List BackgroundIntensity := [.subtle, .medium, .strong]

def backgroundIntensityName : BackgroundIntensity → String
  | .subtle => "subtle"
  | .medium => "medium"
  | .strong => "strong"

def rendererModes : List RendererMode := [.auto, .on, .off]

def rendererModeName : RendererMode → String
  | .auto => "auto"
  | .on   => "on"
  | .off  => "off"

/-! ### Reading -/

def daemonFields : List String := ["enabled", "log_level", "event_retention", "socket_path"]

def privacyFields : List String :=
  ["store_activity_labels", "store_workspace_paths", "redact_home_directory"]

def stateOverrideFields : List String := ["color", "label", "symbol"]

def renderingFields : List String := ["background"]

def backgroundFields : List String := ["enabled", "intensity"]

def tmuxFields : List String := ["enabled", "pane_border", "pane_title"]

def iterm2Fields : List String := ["enabled", "badge", "tab_title", "background"]

def quietHoursFields : List String := ["start", "end", "allow"]

def notificationsFields : List String := ["enabled", "states", "quiet_hours"]

def renderersFields : List String := ["tmux", "iterm2", "notifications"]

def providerFields : List String := ["enabled", "experimental"]

def providersFields : List String := ["claude", "opencode", "codex"]

def ttsFields : List String := ["enabled", "states"]

def loggingFields : List String := ["level", "retention", "redact"]

def configFields : List String :=
  ["version", "daemon", "privacy", "states", "rendering", "renderers", "providers", "tts",
    "logging", "theme"]

section
variable {σ : Type} (r : ScalarReader σ)

/-- A truth value. -/
def readBool : Yaml σ → Option Bool := ScalarReader.readScalar r.bool

/-- A text. -/
def readString : Yaml σ → Option String := ScalarReader.readScalar r.string

/-- A text, or `null`. -/
def readText : Yaml σ → Option (Option String) := r.readOption (readString r)

def readLogLevel : Yaml σ → Option LogLevel := r.readVariant logLevels logLevelName

def readIntensity : Yaml σ → Option BackgroundIntensity :=
  r.readVariant backgroundIntensities backgroundIntensityName

def readMode : Yaml σ → Option RendererMode := r.readVariant rendererModes rendererModeName

def readStrings : Yaml σ → Option (List String) := r.readList (readString r)

def decodeDaemon (doc : Yaml σ) : Option DaemonConfig := do
  let ms ← r.members daemonFields doc
  let enabled ← Yaml.field ms "enabled" true (readBool r)
  let logLevel ← Yaml.field ms "log_level" .warn (readLogLevel r)
  let eventRetention ← Yaml.field ms "event_retention" "24h" (readString r)
  let socketPath ← Yaml.field ms "socket_path" none (readText r)
  return { enabled, logLevel, eventRetention, socketPath }

def decodePrivacy (doc : Yaml σ) : Option PrivacyConfig := do
  let ms ← r.members privacyFields doc
  let storeActivityLabels ← Yaml.field ms "store_activity_labels" false (readBool r)
  let storeWorkspacePaths ← Yaml.field ms "store_workspace_paths" false (readBool r)
  let redactHomeDirectory ← Yaml.field ms "redact_home_directory" true (readBool r)
  return { storeActivityLabels, storeWorkspacePaths, redactHomeDirectory }

/-- The overrides are read once the keys of the record are known, so their scalars were kept. -/
def readKeptText : Yaml σ → Option (Option String) :=
  r.readOption (ScalarReader.readScalar r.keptString)

/-- One override: its fields by name, or all of them in order.  A scalar that was kept is no record,
    also an empty one. -/
def decodeStateOverride : Yaml σ → Option StateOverride
  | .mapping fields => do
      let ms ← r.members stateOverrideFields (.mapping fields)
      let color ← Yaml.field ms "color" none (readKeptText r)
      let label ← Yaml.field ms "label" none (readKeptText r)
      let symbol ← Yaml.field ms "symbol" none (readKeptText r)
      return { color, label, symbol }
  | .sequence [color, label, symbol] => do
      let color ← readKeptText r color
      let label ← readKeptText r label
      let symbol ← readKeptText r symbol
      return { color, label, symbol }
  | .sequence _ => none
  | .scalar _   => none

/-- The overrides: a mapping from any keys. -/
def decodeStates : Yaml σ → Option StatesConfig
  | .mapping ms => do
      let overrides ← ms.mapM fun p => (decodeStateOverride r p.2).map fun o => (p.1, o)
      return { states := mapOfMembers overrides }
  | .scalar s   => if r.isEmpty s then some ⟨∅⟩ else none
  | .sequence _ => none

def decodeBackground (doc : Yaml σ) : Option BackgroundConfig := do
  let ms ← r.members backgroundFields doc
  let enabled ← Yaml.field ms "enabled" false (readBool r)
  let intensity ← Yaml.field ms "intensity" .subtle (readIntensity r)
  return { enabled, intensity }

def decodeRendering (doc : Yaml σ) : Option RenderingConfig := do
  let ms ← r.members renderingFields doc
  let background ← Yaml.field ms "background" .default (decodeBackground r)
  return { background }

def decodeTmux (doc : Yaml σ) : Option TmuxRendererConfig := do
  let ms ← r.members tmuxFields doc
  let enabled ← Yaml.field ms "enabled" .auto (readMode r)
  let paneBorder ← Yaml.field ms "pane_border" true (readBool r)
  let paneTitle ← Yaml.field ms "pane_title" true (readBool r)
  return { enabled, paneBorder, paneTitle }

def decodeITerm2 (doc : Yaml σ) : Option ITerm2RendererConfig := do
  let ms ← r.members iterm2Fields doc
  let enabled ← Yaml.field ms "enabled" .auto (readMode r)
  let badge ← Yaml.field ms "badge" true (readBool r)
  let tabTitle ← Yaml.field ms "tab_title" true (readBool r)
  let background ← Yaml.field ms "background" false (readBool r)
  return { enabled, badge, tabTitle, background }

/-- The hours have no default of their own: a missing one is no hour. -/
def decodeQuietHours (doc : Yaml σ) : Option QuietHoursConfig := do
  let ms ← r.members quietHoursFields doc
  let start ← Yaml.field ms "start" none (readText r)
  let «end» ← Yaml.field ms "end" none (readText r)
  let allow ← Yaml.field ms "allow" [] (readStrings r)
  return { start, «end», allow }

def decodeNotifications (doc : Yaml σ) : Option NotificationsRendererConfig := do
  let ms ← r.members notificationsFields doc
  let enabled ← Yaml.field ms "enabled" true (readBool r)
  let states ← Yaml.field ms "states" defaultNotificationStates (readStrings r)
  let quietHours ← Yaml.field ms "quiet_hours" .default (decodeQuietHours r)
  return { enabled, states, quietHours }

def decodeRenderers (doc : Yaml σ) : Option RenderersConfig := do
  let ms ← r.members renderersFields doc
  let tmux ← Yaml.field ms "tmux" .default (decodeTmux r)
  let iterm2 ← Yaml.field ms "iterm2" .default (decodeITerm2 r)
  let notifications ← Yaml.field ms "notifications" .default (decodeNotifications r)
  return { tmux, iterm2, notifications }

def decodeProvider (doc : Yaml σ) : Option ProviderConfig := do
  let ms ← r.members providerFields doc
  let enabled ← Yaml.field ms "enabled" false (readBool r)
  let experimental ← Yaml.field ms "experimental" false (readBool r)
  return { enabled, experimental }

/-- Every provider has the same default of its own. -/
def decodeProviders (doc : Yaml σ) : Option ProvidersConfig := do
  let ms ← r.members providersFields doc
  let claude ← Yaml.field ms "claude" .default (decodeProvider r)
  let opencode ← Yaml.field ms "opencode" .default (decodeProvider r)
  let codex ← Yaml.field ms "codex" .default (decodeProvider r)
  return { claude, opencode, codex }

def decodeTts (doc : Yaml σ) : Option TtsConfig := do
  let ms ← r.members ttsFields doc
  let enabled ← Yaml.field ms "enabled" false (readBool r)
  let states ← Yaml.field ms "states" [] (readStrings r)
  return { enabled, states }

def decodeLogging (doc : Yaml σ) : Option LoggingConfig := do
  let ms ← r.members loggingFields doc
  let level ← Yaml.field ms "level" .warn (readLogLevel r)
  let retention ← Yaml.field ms "retention" "7d" (readString r)
  let redact ← Yaml.field ms "redact" true (readBool r)
  return { level, retention, redact }

/-- The configuration of a document. -/
def decodeConfig (doc : Yaml σ) : Option Config := do
  let ms ← r.members configFields doc
  let version ← Yaml.field ms "version" 1 (ScalarReader.readScalar r.u32)
  let daemon ← Yaml.field ms "daemon" .default (decodeDaemon r)
  let privacy ← Yaml.field ms "privacy" .default (decodePrivacy r)
  let states ← Yaml.field ms "states" .default (decodeStates r)
  let rendering ← Yaml.field ms "rendering" .default (decodeRendering r)
  let renderers ← Yaml.field ms "renderers" .default (decodeRenderers r)
  let providers ← Yaml.field ms "providers" .default (decodeProviders r)
  let tts ← Yaml.field ms "tts" .default (decodeTts r)
  let logging ← Yaml.field ms "logging" .default (decodeLogging r)
  let theme ← Yaml.field ms "theme" none (readText r)
  return { version, daemon, privacy, states, rendering, renderers, providers, tts, logging, theme }

end

end AgentTermStatus
