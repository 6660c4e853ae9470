import AgentSpace.Memory.AllOrNothing
import AgentSpace.Memory.LinkGraph
import AgentSpace.Memory.Interleaving
import AgentSpace.Lib.Transition
import AgentSpace.Config.Document
import AgentSpace.Config.Schema
import AgentSpace.Lib.Chain
import AgentSpace.Lib.Incremental
import AgentSpace.Memory.DocumentRoundTrip
import AgentSpace.Memory.Enumeration
import AgentSpace.Memory.RunStream
import AgentSpace.Memory.StoredPages
import AgentSpace.Memory.Transports
import AgentSpace.Telemetry.ParentWalks
import AgentSpace.Lib.FileTree
import AgentSpace.Lib.Table
import AgentSpace.Lib.Threads
import AgentSpace.Sessions.Broadcast
import AgentSpace.Sessions.Busy
import AgentSpace.Sessions.Generation
import AgentSpace.Skills.Files
import AgentSpace.Skills.History
import AgentSpace.Telemetry.Records
import AgentSpace.Telemetry.Rejected
import AgentSpace.Telemetry.Accounting
import AgentSpace.Telemetry.Snapshot
import AgentSpace.Telemetry.Totality
import AgentSpace.Docker.Alone
import AgentSpace.Docker.Cleanup
import AgentSpace.Docker.Gate
import AgentSpace.Docker.Isolation
import AgentSpace.Docker.Names
import AgentSpace.Docker.Review
import AgentSpace.AgentHost.StreamRuns
import AgentSpace.Acp.ClientRequests
import AgentSpace.Acp.Reader
import AgentSpace.Discord.Chunks
import AgentSpace.Discord.Delivery
import AgentSpace.Discord.BlankChunks
import AgentSpace.Discord.Typing
import AgentSpace.Gateways.Agreement
import AgentSpace.Memory.MinimalEdit
import AgentSpace.KernelHost.Accounts
import AgentSpace.KernelHost.Barriers
import AgentSpace.Kernels.Commands
import AgentSpace.Kernels.Mapping
import AgentSpace.Kernels.Turns
import AgentSpace.Proxy.DotSegments
import AgentSpace.Terminal.AttachKinds
import AgentSpace.Terminal.Correctness
import AgentSpace.Terminal.Reconciling
import AgentSpace.Chat.Attach
import AgentSpace.Chat.Offsets
import AgentSpace.Artifacts.Launch
import AgentSpace.Artifacts.Overlay
import AgentSpace.Artifacts.Respect
import AgentSpace.Config.AnyOrder
import AgentSpace.Config.Plan
import AgentSpace.Memory.ErrorsOnWire
import AgentSpace.Memory.OutputCap
import AgentSpace.Memory.RunDecoding
import AgentSpace.Memory.Searching
import AgentSpace.Config.BundleSkills
import AgentSpace.Config.SecretRuns
import AgentSpace.Config.Discovery
import AgentSpace.Config.EnvEdits
import AgentSpace.Skills.Volumes
import AgentSpace.Skills.Failures
import AgentSpace.Acp.TerminalOutput
import AgentSpace.Acp.FileRoundTrip
import AgentSpace.AgentHost.EventLines
import AgentSpace.KernelHost.SkillLinks
import AgentSpace.Chips.Monotone
