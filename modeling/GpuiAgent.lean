import GpuiAgent.Framework.RoseTree
import GpuiAgent.Framework.ForestEdit
import GpuiAgent.Json
import GpuiAgent.Framework.Rounding
import GpuiAgent.Tree.F32
import GpuiAgent.Tree.UiTree
import GpuiAgent.Tree.Diff
import GpuiAgent.Tree.DiffFields
import GpuiAgent.Framework.Indexed
import GpuiAgent.Tree.DiffIndex
import GpuiAgent.Tree.DiffKept
import GpuiAgent.Tree.DiffApply
import GpuiAgent.Tree.DiffInverse
import GpuiAgent.Tree.DiffShape
import GpuiAgent.Framework.Word
import GpuiAgent.Host.EventRing
import GpuiAgent.Host.EventPoller
import GpuiAgent.Host.EventCursor
import GpuiAgent.Framework.RustString
import GpuiAgent.Host.Protocol
import GpuiAgent.Host.Keybinding
import GpuiAgent.Tree.Compact
import GpuiAgent.Host.Screenshot
import GpuiAgent.Host.Dispatch
import GpuiAgent.Host.VirtualInput
import GpuiAgent.Framework.Loop
import GpuiAgent.Framework.Slices
import GpuiAgent.Capture.Arithmetic
import GpuiAgent.Capture.Tiles
import GpuiAgent.Capture.Bitmap
import GpuiAgent.Capture.Scrolled
import GpuiAgent.Todo.Store
import GpuiAgent.Framework.Run
import GpuiAgent.Framework.History
import GpuiAgent.Todo.Revision
import GpuiAgent.Todo.Atomic
import GpuiAgent.Todo.View
import GpuiAgent.Todo.ScrolledShot
import GpuiAgent.Todo.Drain
import GpuiAgent.Framework.Chunks
import GpuiAgent.Client.AgentClient
import GpuiAgent.Client.Delivery
import GpuiAgent.Host.Mailbox
import GpuiAgent.Framework.Issued
import GpuiAgent.Host.MailboxQueue
import GpuiAgent.Server.Mailbox
import GpuiAgent.Server.QueueSimulation
import GpuiAgent.Server.Tickets
import GpuiAgent.Todo.App
import GpuiAgent.Host.FingerprintGate
import GpuiAgent.Todo.StaleTarget
import GpuiAgent.Todo.VirtualAtomic
import GpuiAgent.Todo.Desktop
import GpuiAgent.Todo.Transport
import GpuiAgent.Server.WaitUntil
import GpuiAgent.Server.Messages
import GpuiAgent.Server.WaitSound
import GpuiAgent.Todo.WaitUntil
import GpuiAgent.Policy.Evidence
import GpuiAgent.Policy.ActionSpace
import GpuiAgent.Policy.Goal
import GpuiAgent.Policy.Text
import GpuiAgent.Framework.Result
import GpuiAgent.Policy.InstinctPolicy
import GpuiAgent.Policy.Escalate
import GpuiAgent.Policy.Jev
import GpuiAgent.Policy.MenuEcho
import GpuiAgent.Policy.Clause
import GpuiAgent.Policy.Runner
import GpuiAgent.Framework.Quotes
import GpuiAgent.Policy.Literals
import GpuiAgent.Policy.Pronoun
import GpuiAgent.Policy.ClauseSplit
import GpuiAgent.Policy.WaitScan
import GpuiAgent.Policy.Admitted
import GpuiAgent.Policy.ClauseLedger
import GpuiAgent.Policy.RunnerBudget
import GpuiAgent.Policy.PasswordSecrecy
import GpuiAgent.Framework.Versioned
import GpuiAgent.Host.SnapshotCache
import GpuiAgent.Framework.LineSession
import GpuiAgent.Server.Framing
import GpuiAgent.Client.Wire
import GpuiAgent.Client.Pipelined
import GpuiAgent.Server.Session
import GpuiAgent.Server.SessionAuth
import GpuiAgent.Server.WaitAgreement
import GpuiAgent.Server.Correlation
import GpuiAgent.Todo.Replies
import GpuiAgent.Framework.Kahn
import GpuiAgent.Framework.Pipe
import GpuiAgent.Recipe.Schema
import GpuiAgent.Recipe.Placeholder
import GpuiAgent.Recipe.Template
import GpuiAgent.Recipe.Recipe
import GpuiAgent.Recipe.Plan
import GpuiAgent.Recipe.Schedule
import GpuiAgent.Recipe.Compile
import GpuiAgent.Recipe.Substitution
import GpuiAgent.Recipe.PlanOrder
import GpuiAgent.Recipe.Gates
import GpuiAgent.Client.Answers
import GpuiAgent.Recipe.Run
import GpuiAgent.Recipe.FailFast
import GpuiAgent.Recipe.ExitGate
import GpuiAgent.Recipe.OneByOne
import GpuiAgent.Recipe.Resolve
import GpuiAgent.Recipe.Titles
import GpuiAgent.Framework.Arbitration
import GpuiAgent.Recipe.InstinctResolve
import GpuiAgent.Recipe.SurvivorGate
import GpuiAgent.Framework.Lines
import GpuiAgent.Server.Ndjson
import GpuiAgent.Server.Listener
import GpuiAgent.Server.HostExit
import GpuiAgent.Server.MailboxExit
import GpuiAgent.Server.Shutdown
import GpuiAgent.Policy.LiteralSplit
import GpuiAgent.Policy.SplitWait
import GpuiAgent.Policy.ExactCap
import GpuiAgent.Policy.TextAmbiguity
import GpuiAgent.Policy.TypeVerified
import GpuiAgent.Framework.Upheld
import GpuiAgent.Policy.WaitVisible
import GpuiAgent.Framework.Utf8
import GpuiAgent.Tree.FingerprintStream
import GpuiAgent.Framework.Outline
import GpuiAgent.Tree.Redacted
import GpuiAgent.Tree.CompactLines
import GpuiAgent.Framework.Sibling
import GpuiAgent.Policy.Offered
import GpuiAgent.Policy.OfferedFingerprint
import GpuiAgent.Recipe.CapturePath
import GpuiAgent.Framework.Escape
import GpuiAgent.Server.HmacAuth
import GpuiAgent.Recipe.NameInIntent
import GpuiAgent.Recipe.Wants
import GpuiAgent.Framework.Cuts
import GpuiAgent.Policy.ClauseBoundary
import GpuiAgent.Cli.McpLoop
import GpuiAgent.Client.Timeouts
import GpuiAgent.Client.TimeoutCover
import GpuiAgent.Recipe.PlanTimeouts
import GpuiAgent.Cli.McpTools
import GpuiAgent.Client.Discovery
import GpuiAgent.Client.Resolution
import GpuiAgent.Client.LastSession
import GpuiAgent.Server.Uncached
import GpuiAgent.Todo.SharedStore
import GpuiAgent.Framework.Register
import GpuiAgent.Todo.Lifecycle
import GpuiAgent.Framework.RecordCodec
import GpuiAgent.Client.RequestJson
import GpuiAgent.Client.ResponseJson
import GpuiAgent.Todo.Readable
import GpuiAgent.Server.Admission
import GpuiAgent.Server.Security
import GpuiAgent.Todo.Serve
import GpuiAgent.Framework.Channel
import GpuiAgent.Framework.Chronicle
import GpuiAgent.Todo.DaemonBridge
import GpuiAgent.Todo.BridgeHistory
import GpuiAgent.Todo.BridgeSettles
import GpuiAgent.Cli.Conversation
import GpuiAgent.Cli.McpAct
import GpuiAgent.Cli.ActGuarded
import GpuiAgent.Cli.ActShared
import GpuiAgent.Cli.ActServed
