import EdgeMind.Api.Calls
import EdgeMind.Api.ConfigConversion
import EdgeMind.Api.EdgeMindApi
import EdgeMind.Api.Handles
import EdgeMind.Api.UsageReport
import EdgeMind.Cli.Arguments
import EdgeMind.Cli.AutoSelection
import EdgeMind.Cli.Program
import EdgeMind.Cli.Session
import EdgeMind.Core.Charges
import EdgeMind.Core.ConcurrentSaves
import EdgeMind.Core.EngineCalls
import EdgeMind.Core.GenerationAccounting
import EdgeMind.Core.Identity
import EdgeMind.Core.LostRecords
import EdgeMind.Core.OneDisk
import EdgeMind.Core.QuotaArithmetic
import EdgeMind.Core.QuotaStage
import EdgeMind.Core.Readiness
import EdgeMind.Core.Recording
import EdgeMind.Core.Reports
import EdgeMind.Core.SeparateStores
import EdgeMind.Core.SharedSessions
import EdgeMind.Core.StrictNumbers
import EdgeMind.Core.UnreadableStores
import EdgeMind.Core.UsageRuns
import EdgeMind.Dashboard.Accounting
import EdgeMind.Dashboard.Billing
import EdgeMind.Dashboard.Http
import EdgeMind.Dashboard.Loaded
import EdgeMind.Dashboard.Main
import EdgeMind.Dashboard.Ownership
import EdgeMind.Dashboard.Reload
import EdgeMind.Dashboard.Remembered
import EdgeMind.Dashboard.Replies
import EdgeMind.Dashboard.RequestFields
import EdgeMind.Dashboard.Stream
import EdgeMind.Dashboard.StreamReplies
import EdgeMind.Dashboard.System
import EdgeMind.Dashboard.SystemReport
import EdgeMind.Dashboard.Threads
import EdgeMind.Framework.CheckedInt
import EdgeMind.Framework.Cursor
import EdgeMind.Framework.Decimal
import EdgeMind.Framework.JsonDocument
import EdgeMind.Framework.Lines
import EdgeMind.Framework.Mutex
import EdgeMind.Framework.Sha256
import EdgeMind.Framework.SharedQuota
import EdgeMind.Framework.Sizing
import EdgeMind.Inference.Admission
import EdgeMind.Inference.Batches
import EdgeMind.Inference.Budget
import EdgeMind.Inference.ContextManager
import EdgeMind.Inference.Estimates
import EdgeMind.Inference.KvCells
import EdgeMind.Inference.Lifecycle
import EdgeMind.Inference.Lives
import EdgeMind.Inference.MemoryObserver
import EdgeMind.Inference.Rounds
import EdgeMind.Inference.Sampler
import EdgeMind.Inference.Tokenizer
import EdgeMind.Model.ConcurrentImports
import EdgeMind.Model.GgufBounds
import EdgeMind.Model.GgufExtraction
import EdgeMind.Model.GgufPartial
import EdgeMind.Model.HashBuffer
import EdgeMind.Model.ImportRuns
import EdgeMind.Model.RegistryBlocks
import EdgeMind.Model.RegistryCodec
import EdgeMind.Usage.Charges
import EdgeMind.Usage.Diagnostic
import EdgeMind.Usage.Enforcement
import EdgeMind.Usage.Reports
import EdgeMind.Usage.Truncation
