import AgentTermStatus.Lib.FiniteMap
import AgentTermStatus.Lib.Run
import AgentTermStatus.Lib.JoinRegister
import AgentTermStatus.Lib.Json
import AgentTermStatus.Lib.Record
import AgentTermStatus.Lib.Schema
import AgentTermStatus.Lib.Text
import AgentTermStatus.Lib.StableSort
import AgentTermStatus.Lib.FrameCode
import AgentTermStatus.Lib.Channel
import AgentTermStatus.Lib.Settings
import AgentTermStatus.Lib.Yaml
import AgentTermStatus.Lib.Utf8
import AgentTermStatus.Lib.Replace
import AgentTermStatus.Lib.Osc
import AgentTermStatus.Lib.Cooldown
import AgentTermStatus.Lib.Compose
import AgentTermStatus.Lib.Path
import AgentTermStatus.Lib.Disk
import AgentTermStatus.Lib.Access
import AgentTermStatus.Lib.Xml
import AgentTermStatus.Core
import AgentTermStatus.Wire.EventCodec
import AgentTermStatus.StateEngine.Machine
import AgentTermStatus.StateEngine.Engine
import AgentTermStatus.StateEngine.TransitionChain
import AgentTermStatus.StateEngine.SessionView
import AgentTermStatus.StateEngine.ClosedForm
import AgentTermStatus.StateEngine.Idempotency
import AgentTermStatus.StateEngine.Expiry
import AgentTermStatus.StateEngine.Isolation
import AgentTermStatus.StateEngine.Evidence
import AgentTermStatus.StateEngine.Aggregation
import AgentTermStatus.StateEngine.Duplicates
import AgentTermStatus.StateEngine.LateEvents
import AgentTermStatus.StateEngine.Reclamation
import AgentTermStatus.StateEngine.ExactExpiry
import AgentTermStatus.StateEngine.Heartbeats
import AgentTermStatus.Renderer.View
import AgentTermStatus.Renderer.Tmux
import AgentTermStatus.Renderer.TmuxFormat
import AgentTermStatus.Rendering.Engine
import AgentTermStatus.Rendering.Debounce
import AgentTermStatus.Renderer.TmuxVersion
import AgentTermStatus.Renderer.TmuxOptions
import AgentTermStatus.Renderer.EntryPoints
import AgentTermStatus.Renderer.PaneIsolation
import AgentTermStatus.Renderer.Memoryless
import AgentTermStatus.Renderer.ResetRetry
import AgentTermStatus.Renderer.Base64
import AgentTermStatus.Renderer.ITerm2
import AgentTermStatus.Renderer.Notification
import AgentTermStatus.Rendering.QuietHours
import AgentTermStatus.Config.Themes
import AgentTermStatus.Renderer.StateShown
import AgentTermStatus.Rendering.RateBound
import AgentTermStatus.Rendering.SharedWorld
import AgentTermStatus.Rendering.Renderers
import AgentTermStatus.Daemon.Framing
import AgentTermStatus.Daemon.Broker
import AgentTermStatus.Daemon.Ordering
import AgentTermStatus.Wire.RoundTrip
import AgentTermStatus.Wire.Schema
import AgentTermStatus.Daemon.BrokerLoop
import AgentTermStatus.Daemon.RenderData
import AgentTermStatus.Daemon.System
import AgentTermStatus.Daemon.Shutdown
import AgentTermStatus.Daemon.Connections
import AgentTermStatus.Daemon.EngineRuns
import AgentTermStatus.Cli.HookCommands
import AgentTermStatus.Daemon.Delivery
import AgentTermStatus.Cli.ManualCommands
import AgentTermStatus.Daemon.PidFile
import AgentTermStatus.Daemon.MutualExclusion
import AgentTermStatus.Daemon.Startup
import AgentTermStatus.Daemon.Logging
import AgentTermStatus.Cli.Logs
import AgentTermStatus.Cli.StopCommand
import AgentTermStatus.Daemon.SocketOwnership
import AgentTermStatus.Cli.LaunchAgent
import AgentTermStatus.Cli.EventCommand
import AgentTermStatus.Provider.Claude.Settings
import AgentTermStatus.Provider.Claude.Install
import AgentTermStatus.Provider.Claude.InstallSafety
import AgentTermStatus.Provider.Claude.Risk
import AgentTermStatus.Provider.Claude.Adapter
import AgentTermStatus.Provider.Claude.TurnBoundary
import AgentTermStatus.Provider.Claude.IntegrationErrors
import AgentTermStatus.Provider.Claude.RiskApproval
import AgentTermStatus.Provider.Claude.NotificationLabel
import AgentTermStatus.Provider.Claude.Noninterference
import AgentTermStatus.Provider.Claude.RiskMonotone
import AgentTermStatus.Provider.Claude.InstallIdempotent
import AgentTermStatus.Provider.Claude.InstallRuns
import AgentTermStatus.Provider.Claude.Validation
import AgentTermStatus.Provider.Claude.SessionFallback
import AgentTermStatus.Config.Config
import AgentTermStatus.Config.Defaults
import AgentTermStatus.Config.RoundTrip
import AgentTermStatus.Config.Validation
import AgentTermStatus.Cli.ThemeCommands
import AgentTermStatus.Config.AtomicWrite
import AgentTermStatus.Config.CrashSafety
