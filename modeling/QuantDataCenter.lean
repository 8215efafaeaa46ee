import QuantDataCenter.Lib.Interrupt
import QuantDataCenter.Lib.Keyed
import QuantDataCenter.Lib.Transition
import QuantDataCenter.Tabular.Cell
import QuantDataCenter.Tabular.Text
import QuantDataCenter.Derived.Commit
import QuantDataCenter.Process.Lock
import QuantDataCenter.Quality.Validators
import QuantDataCenter.Storage.Catalog
import QuantDataCenter.Storage.ParquetStore
import QuantDataCenter.Storage.Preparation
import QuantDataCenter.Storage.WriteSpec
import QuantDataCenter.Storage.WriteAtomicity
import QuantDataCenter.Storage.StoredContent
import QuantDataCenter.Storage.PartitionPaths
import QuantDataCenter.Storage.WriteAcceptance
import QuantDataCenter.Storage.KeyedWrite
import QuantDataCenter.Storage.PartitionWrites
import QuantDataCenter.Storage.Ledger
import QuantDataCenter.Derived.Publication
import QuantDataCenter.Derived.LedgerRuns
import QuantDataCenter.Derived.SecurityMaster
import QuantDataCenter.Lib.Dict
import QuantDataCenter.Lib.Trace
import QuantDataCenter.Orchestrator.StateFile
import QuantDataCenter.Storage.StoreInvariant
import QuantDataCenter.Orchestrator.DailyRun
import QuantDataCenter.Orchestrator.DependencyGate
import QuantDataCenter.Orchestrator.ExitCode
import QuantDataCenter.Orchestrator.Resume
import QuantDataCenter.Orchestrator.Freshness
import QuantDataCenter.Orchestrator.Isolation
import QuantDataCenter.Lib.Fenwick
import QuantDataCenter.Percentile.Compute
import QuantDataCenter.Percentile.Agreement
import QuantDataCenter.Percentile.Pipeline
import QuantDataCenter.Percentile.Completeness
import QuantDataCenter.Percentile.SourceRanges
import QuantDataCenter.Lib.Delivery
import QuantDataCenter.Pipeline.MetadataBatch
import QuantDataCenter.Pipeline.BatchDelivery
import QuantDataCenter.Pipeline.SuccessDates
import QuantDataCenter.Pipeline.CheckpointResume
import QuantDataCenter.Storage.MetadataStore
import QuantDataCenter.Storage.MetadataUpsert
import QuantDataCenter.Storage.AtomicWrite
import QuantDataCenter.Storage.ViewReads
import QuantDataCenter.Sources.CalendarCoverage
import QuantDataCenter.Sources.SpotDailyBars
import QuantDataCenter.Sources.SpotDelisted
import QuantDataCenter.Sources.QlibSync
import QuantDataCenter.Sources.DisclosureTriggers
import QuantDataCenter.Sources.DailyWorker
import QuantDataCenter.Sources.DailyBarPrefilter
import QuantDataCenter.Sources.DailyVerdicts
import QuantDataCenter.Sources.DisclosureFreshness
import QuantDataCenter.Sources.RepairScope
import QuantDataCenter.Sources.PartialRefresh
import QuantDataCenter.Derived.SourceManifest
import QuantDataCenter.Derived.StockDailyBar
import QuantDataCenter.Derived.DailyBarContent
import QuantDataCenter.Derived.MasterRecords
import QuantDataCenter.Derived.SourceOwnership
import QuantDataCenter.Sources.FinancialReport
import QuantDataCenter.Concurrency.KernelAccounting
import QuantDataCenter.Derived.ResearchRows
import QuantDataCenter.Pipeline.CheckpointAgreement
import QuantDataCenter.Storage.MetadataMigration
import QuantDataCenter.Sources.AdjustmentJoin
import QuantDataCenter.Sources.TriggerSelection
import QuantDataCenter.Derived.MasterAcceptance
import QuantDataCenter.Lib.Gregorian
import QuantDataCenter.Orchestrator.SessionMode
import QuantDataCenter.Lib.Restart
import QuantDataCenter.Scripts.NamingMigration
import QuantDataCenter.Scripts.NamingContent
import QuantDataCenter.Scripts.NamingRestart
import QuantDataCenter.Sources.DisclosureSkips
import QuantDataCenter.Derived.CanonicalAcceptance
import QuantDataCenter.Derived.CanonicalBuild
import QuantDataCenter.Concurrency.EndpointCircuit
import QuantDataCenter.Percentile.FenwickTree
import QuantDataCenter.Sources.CapitalPending
import QuantDataCenter.Sources.QlibDownload
import QuantDataCenter.Sources.QlibReaders
import QuantDataCenter.Lib.Json
import QuantDataCenter.Lib.JsonScan
import QuantDataCenter.Lib.Retry
import QuantDataCenter.Registry.EventLog
import QuantDataCenter.Registry.EventReads
import QuantDataCenter.Registry.EventStream
import QuantDataCenter.Registry.Inventory
import QuantDataCenter.Registry.InventoryRuns
import QuantDataCenter.Registry.TornLog
import QuantDataCenter.Sources.BaostockSession
import QuantDataCenter.Derived.BuildRuns
import QuantDataCenter.Derived.DatasetLaws
import QuantDataCenter.Derived.IncrementalBuild
import QuantDataCenter.Derived.BuildCalls
import QuantDataCenter.Derived.BarOwners
import QuantDataCenter.Derived.RepeatedBuilds
