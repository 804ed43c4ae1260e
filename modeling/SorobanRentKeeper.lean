import SorobanRentKeeper.Framework.Program
import SorobanRentKeeper.Framework.Lts
import SorobanRentKeeper.Framework.Follows
import SorobanRentKeeper.Framework.Agrees
import SorobanRentKeeper.Framework.Renewal
import SorobanRentKeeper.Framework.Chunks
import SorobanRentKeeper.Framework.Critical
import SorobanRentKeeper.Framework.Json
import SorobanRentKeeper.Framework.Hex
import SorobanRentKeeper.Framework.Base32
import SorobanRentKeeper.Framework.LastWrite
import SorobanRentKeeper.Framework.Text
import SorobanRentKeeper.Framework.Columns
import SorobanRentKeeper.Core.LedgerKeys
import SorobanRentKeeper.Core.Ttl
import SorobanRentKeeper.Core.Headroom
import SorobanRentKeeper.Core.Planner
import SorobanRentKeeper.Core.Extension
import SorobanRentKeeper.Core.Tx
import SorobanRentKeeper.Core.Footprint
import SorobanRentKeeper.Core.Batch
import SorobanRentKeeper.Core.Observe
import SorobanRentKeeper.Core.Snapshot
import SorobanRentKeeper.Core.Restore
import SorobanRentKeeper.Core.PlanJson
import SorobanRentKeeper.Core.Split
import SorobanRentKeeper.Core.Reference
import SorobanRentKeeper.Core.Join
import SorobanRentKeeper.Core.MixedKinds
import SorobanRentKeeper.Core.Mutators
import SorobanRentKeeper.Core.Signed
import SorobanRentKeeper.Core.Strkey
import SorobanRentKeeper.Daemon.LoadConfig
import SorobanRentKeeper.Daemon.FeePayerKey
import SorobanRentKeeper.Daemon.RunLoop
import SorobanRentKeeper.Daemon.SubmitTrace
import SorobanRentKeeper.Daemon.SubmitLog
import SorobanRentKeeper.Daemon.CycleTrace
import SorobanRentKeeper.Daemon.Cycle
import SorobanRentKeeper.Daemon.BadSeq
import SorobanRentKeeper.Daemon.SecondPlan
import SorobanRentKeeper.Daemon.Tick
import SorobanRentKeeper.Daemon.SignedFootprint
import SorobanRentKeeper.Daemon.SentEnvelope
import SorobanRentKeeper.Daemon.KeepAlive
import SorobanRentKeeper.Daemon.Recovery
import SorobanRentKeeper.Daemon.Allocation
import SorobanRentKeeper.Daemon.LogInvariant
import SorobanRentKeeper.Daemon.Reuse
import SorobanRentKeeper.Daemon.Unsent
import SorobanRentKeeper.Daemon.Counters
import SorobanRentKeeper.Daemon.TickCounts
import SorobanRentKeeper.Daemon.Numbers
import SorobanRentKeeper.Daemon.Duplicates
import SorobanRentKeeper.Daemon.StrictKeys
import SorobanRentKeeper.Daemon.Retry
import SorobanRentKeeper.Daemon.Gauges
import SorobanRentKeeper.Daemon.Session
import SorobanRentKeeper.Daemon.Discipline
import SorobanRentKeeper.Daemon.Placement
import SorobanRentKeeper.Daemon.Traffic
import SorobanRentKeeper.Daemon.Main
import SorobanRentKeeper.Daemon.Sealed
import SorobanRentKeeper.Daemon.Healthy
import SorobanRentKeeper.Daemon.Answers
import SorobanRentKeeper.Daemon.Upkeep
import SorobanRentKeeper.Daemon.Builds
import SorobanRentKeeper.Cli.Command
import SorobanRentKeeper.Cli.Validity
import SorobanRentKeeper.Cli.Readback
import SorobanRentKeeper.Cli.Absent
import SorobanRentKeeper.Cli.RestoreDurability
import SorobanRentKeeper.Cli.ShowPlan
import SorobanRentKeeper.Cli.HashParser
import SorobanRentKeeper.Cli.Inspect
import SorobanRentKeeper.Cli.Agreement
import SorobanRentKeeper.Cli.Terminal
import SorobanRentKeeper.Cli.Verdicts
import SorobanRentKeeper.Cli.Handover
