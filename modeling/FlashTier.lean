import FlashTier.Conc.Prog
import FlashTier.Conc.Run
import FlashTier.Conc.Logic
import FlashTier.Conc.Keyed
import FlashTier.Runtime.Page
import FlashTier.Runtime.Integrity
import FlashTier.Runtime.Budget
import FlashTier.Runtime.Extents
import FlashTier.Runtime.Planner
import FlashTier.Runtime.State
import FlashTier.Runtime.Sections
import FlashTier.Runtime.Transfer
import FlashTier.Runtime.Ops
import FlashTier.Invariant.History
import FlashTier.Invariant.Ledger
import FlashTier.Invariant.Inv
import FlashTier.Invariant.Changes
import FlashTier.Invariant.Calls
import FlashTier.Invariant.Rules
import FlashTier.Invariant.Pages
import FlashTier.Invariant.Reserve
import FlashTier.Invariant.Claims
import FlashTier.Invariant.Moves
import FlashTier.Invariant.Settle
import FlashTier.Invariant.Safe
import FlashTier.Invariant.Transfers
import FlashTier.Invariant.Residency
import FlashTier.Invariant.Requests
import FlashTier.Invariant.Allocation
import FlashTier.Invariant.Release
import FlashTier.Invariant.Access
import FlashTier.Invariant.Sound
import FlashTier.Guarantees.Accounting
import FlashTier.Guarantees.Residency
import FlashTier.Guarantees.Transfers
import FlashTier.Invariant.Authors
import FlashTier.Guarantees.Content
import FlashTier.Guarantees.Reservations
import FlashTier.Store.Allocator
import FlashTier.Conc.Steps
import FlashTier.Store.Backend
import FlashTier.Store.Hands
import FlashTier.Store.Operations
import FlashTier.Store.Settlement
import FlashTier.Guarantees.Planning
import FlashTier.Guarantees.Reclaim
import FlashTier.Codec.Bytes
import FlashTier.Store.Header
import FlashTier.Codec.Json
import FlashTier.Telemetry.Jsonl
import FlashTier.Invariant.Effects
import FlashTier.Guarantees.Recency
import FlashTier.Codec.Words
import FlashTier.Integrity.Pattern
import FlashTier.Integrity.Kernel
import FlashTier.Startup.Budgets
import FlashTier.Startup.ByteSize
import FlashTier.Startup.Registry
import FlashTier.Codec.Pieces
import FlashTier.Store.Run
import FlashTier.Store.Validation
import FlashTier.Queue.System
import FlashTier.Queue.Wakeups
import FlashTier.Queue.Promises
import FlashTier.Queue.Worker
import FlashTier.Guarantees.Allocation
import FlashTier.Workload.Traces
import FlashTier.Workload.NextUse
import FlashTier.Guarantees.Release
import FlashTier.Conc.Held
import FlashTier.Guarantees.Refusals
import FlashTier.Guarantees.Prefetch
import FlashTier.Lifecycle.Owned
import FlashTier.Lifecycle.Attempts
import FlashTier.Guarantees.Teardown
import FlashTier.Conc.Waits
import FlashTier.Progress.Stakes
import FlashTier.Progress.Programs
import FlashTier.Guarantees.Progress
import FlashTier.Lifecycle.Start
import FlashTier.Guarantees.Lives
import FlashTier.Device.Cpu
import FlashTier.Guarantees.CpuDevice
import FlashTier.Conc.Follow
import FlashTier.Invariant.Writes
