import Latchgate.Api.Expiry
import Latchgate.Api.Interleaving
import Latchgate.Api.LearnPath
import Latchgate.Api.LearnedGlobs
import Latchgate.Api.Leases
import Latchgate.Api.Poll
import Latchgate.Approval.Equivalence
import Latchgate.Approval.Lifecycle
import Latchgate.Approval.Listing
import Latchgate.Approval.Outcome
import Latchgate.Auth.DpopSign
import Latchgate.Auth.Htu
import Latchgate.Auth.Replay
import Latchgate.Auth.Timestamp
import Latchgate.Bits.Prefix
import Latchgate.Budget.Conservation
import Latchgate.Budget.Lifetime
import Latchgate.Calendar.Civil
import Latchgate.Calendar.Millis
import Latchgate.Core.DomainForms
import Latchgate.Core.DomainSpelling
import Latchgate.Core.HostMatch
import Latchgate.Core.JsonEscape
import Latchgate.Core.PathNames
import Latchgate.Core.Sanitize
import Latchgate.Core.Ssrf
import Latchgate.Crypto.KeyHistory
import Latchgate.Database.Bounds
import Latchgate.Database.Classify
import Latchgate.Database.HostQueries
import Latchgate.Database.Validate
import Latchgate.Embed.EgressSync
import Latchgate.Encoding.Base64Url
import Latchgate.Encoding.Fit
import Latchgate.Encoding.Percent
import Latchgate.Encoding.Symbols
import Latchgate.Feed.Window
import Latchgate.FileTree.Volume
import Latchgate.FileTree.Walk
import Latchgate.Json.Canonical
import Latchgate.Json.Extent
import Latchgate.Json.Literal
import Latchgate.Json.Once
import Latchgate.Kernel.AuditTrail
import Latchgate.Kernel.Disconnect
import Latchgate.Kernel.EffectiveSinks
import Latchgate.Kernel.KillSwitch
import Latchgate.Kernel.RateLimit
import Latchgate.Kernel.RegistrySwap
import Latchgate.Kernel.RequestHash
import Latchgate.Kernel.ResponseLimits
import Latchgate.Kernel.SessionHints
import Latchgate.Kernel.SessionRoots
import Latchgate.Kernel.TaskParity
import Latchgate.Kernel.TemplateParts
import Latchgate.Kernel.TemplateUrl
import Latchgate.Kernel.Verification
import Latchgate.Ledger.AuditQuery
import Latchgate.Ledger.Intents
import Latchgate.Ledger.LearnedCache
import Latchgate.Ledger.LearnedSets
import Latchgate.Ledger.Tamper
import Latchgate.Machine.Dialogue
import Latchgate.Machine.Keyed
import Latchgate.Machine.Transaction
import Latchgate.Manifest.Digest
import Latchgate.Mcp.Answers
import Latchgate.Mcp.BoundedLine
import Latchgate.Mcp.Calls
import Latchgate.Mcp.Framing
import Latchgate.Mcp.GateClient
import Latchgate.Mcp.Protocol
import Latchgate.Mcp.Reconnect
import Latchgate.Mcp.Server
import Latchgate.Mcp.Session
import Latchgate.Mcp.Waiting
import Latchgate.Plan.Grant
import Latchgate.Policy.Answer
import Latchgate.Policy.Concurrent
import Latchgate.Policy.Edits
import Latchgate.Policy.EngineCache
import Latchgate.Policy.Reload
import Latchgate.Policy.SensitivePaths
import Latchgate.Policy.Shipped
import Latchgate.Policy.Version
import Latchgate.Providers.EgressRetry
import Latchgate.Providers.FsCalls
import Latchgate.Providers.FsIo
import Latchgate.Providers.FsOpen
import Latchgate.Providers.FsOverwrites
import Latchgate.Providers.FsWriteFailure
import Latchgate.Providers.Secrets
import Latchgate.Providers.SecretsCache
import Latchgate.Registry.Sources
import Latchgate.Sandbox.AgentConfig
import Latchgate.Sandbox.AgentMount
import Latchgate.Sandbox.Backpressure
import Latchgate.Sandbox.BwrapArgs
import Latchgate.Sandbox.BwrapCommand
import Latchgate.Sandbox.Containment
import Latchgate.Sandbox.Forwarding
import Latchgate.Sandbox.RouteAddress
import Latchgate.Sandbox.Seccomp
import Latchgate.Sandbox.Streams
import Latchgate.Sql.Lex
import Latchgate.Stream.Lines
import Latchgate.Tui.Activity
import Latchgate.Tui.App
import Latchgate.Tui.AppRevoke
import Latchgate.Tui.AppRuns
import Latchgate.Tui.ApprovalRequests
import Latchgate.Tui.Approvals
import Latchgate.Tui.AuditCatchUp
import Latchgate.Tui.AuditRuns
import Latchgate.Tui.AuditWindow
import Latchgate.Tui.Client
import Latchgate.Tui.Input
import Latchgate.Webhooks.ClaimTimes
import Latchgate.Webhooks.Dispatcher
import Latchgate.Webhooks.PollDelivery
import Latchgate.Webhooks.Redaction
import Latchgate.Webhooks.Signing
import Latchgate.Webhooks.UnpacedRetries
