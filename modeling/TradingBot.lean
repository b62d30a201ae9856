import TradingBot.Cqrs.PositionConservation
import TradingBot.Cqrs.PortfolioMetrics
import TradingBot.Cqrs.EventSerializer
import TradingBot.Cqrs.ConcurrentAppend
import TradingBot.Cqrs.CrashRecovery
import TradingBot.Backtest.BestPrice
import TradingBot.Backtest.BookAgreement
import TradingBot.Simulation.LevelAgreement
import TradingBot.Oms.FillReports
import TradingBot.Oms.OrderCounters
import TradingBot.Oms.BracketOrder
import TradingBot.Oms.OcoWinner
import TradingBot.Oms.OcoCapacity
import TradingBot.Oms.OcoExposure
import TradingBot.Oms.BracketProgress
import TradingBot.Oms.EmergencyFlatten
import TradingBot.Websockets.ReadyBook
import TradingBot.Websockets.TopOfBook
import TradingBot.Ipc.RingQueue
import TradingBot.Ipc.MultiProducer
import TradingBot.Ipc.SegmentStream
import TradingBot.Compression.DeltaSynchronisation
import TradingBot.Persistence.WalReplay
import TradingBot.Persistence.WalSequence
import TradingBot.Concurrency.FiniteMap
import TradingBot.Concurrency.PnlTotals
import TradingBot.Events.Routing
import TradingBot.Compression.BlockStream
import TradingBot.Execution.SliceSchedule
import TradingBot.Oms.SyntheticAccounts
import TradingBot.Oms.StopTriggers
import TradingBot.Execution.FillAccounts
import TradingBot.Cqrs.Projection
import TradingBot.Cqrs.ViewConsistency
import TradingBot.Exchanges.AcquireEnds
import TradingBot.Execution.FillLocks
import TradingBot.Execution.OrderLookup
import TradingBot.Execution.RouteOrder
import TradingBot.Execution.VisibleSize
import TradingBot.Stress.TripHolds
import TradingBot.Stress.EmergencyStop
import TradingBot.Security.TamperEvidence
import TradingBot.Exchanges.RateWindows
import TradingBot.Cqrs.DispatchReports
import TradingBot.Cqrs.ReadModels
import TradingBot.Venues.FailoverHistory
import TradingBot.Venues.FailoverVenues
import TradingBot.Venues.ReconcileExact
import TradingBot.Recovery.OrphanScope
import TradingBot.Cqrs.CheckpointCrash
import TradingBot.Persistence.StateRoundTrip
import TradingBot.Persistence.NewestCheckpoint
import TradingBot.Arbitrage.LegDecisions
import TradingBot.Orderflow.ConfirmedSignals
import TradingBot.Orderflow.FootprintTotals
import TradingBot.Portfolio.DrawdownLimits
import TradingBot.Analytics.SchemaVersions
import TradingBot.Features.CacheBudget
import TradingBot.Protocols.TradeMessages
import TradingBot.Orchestration.ShutdownOrder
import TradingBot.Arbitrage.ArbitrageCycles
import TradingBot.Compression.ExactDeltas
import TradingBot.Compression.AtomicDecoding
import TradingBot.Websockets.DeltaErrors
import TradingBot.Backtest.ImmediateOrders
import TradingBot.Oms.StepPaths
import TradingBot.Oms.StepArithmetic
import TradingBot.Oms.StepLifeCycle
import TradingBot.Oms.StepManager
import TradingBot.Ipc.RingShutdown
import TradingBot.Cqrs.FillOverflow
import TradingBot.Cqrs.EventLanguage
import TradingBot.Cqrs.EventTypeRegistry
import TradingBot.Concurrency.AtomicPosition
import TradingBot.Events.DeadLetterAccounts
import TradingBot.Oms.SequenceGaps
import TradingBot.Execution.SliceTotals
import TradingBot.Execution.SplitQuantities
import TradingBot.Oms.SplitTotals
import TradingBot.Oms.PostOnlyAccounts
import TradingBot.Compression.WalWriter
import TradingBot.Distributed.StateSync
import TradingBot.Distributed.StateSharding
import TradingBot.Concurrency.SelfDeadlock
import TradingBot.Security.FailedWrites
import TradingBot.Recovery.ResolvedOrphans
import TradingBot.Portfolio.ReserveAccounts
import TradingBot.Oms.AuditHistory
import TradingBot.Memory.BufferQueue
import TradingBot.Orderflow.SetupTimeouts
import TradingBot.Arbitrage.TradeAccounts
import TradingBot.Foundation.Largest
import TradingBot.Cqrs.CheckpointRetention
import TradingBot.Analytics.SchemaStorage
import TradingBot.Foundation.StableSort
import TradingBot.Protocols.BitwisePacker
import TradingBot.Protocols.OrderPriority
import TradingBot.Protocols.EndiannessHandler
import TradingBot.Protocols.ProtocolRoundTrip
import TradingBot.Foundation.Recency
import TradingBot.Database.MemoryCache
import TradingBot.Database.CacheBooks
import TradingBot.Arbitrage.InventoryManager
import TradingBot.Arbitrage.DeltaRebalance
import TradingBot.Causal.DoCalculus
import TradingBot.Causal.BackdoorAdjustment
import TradingBot.Cqrs.AuditTrail
import TradingBot.Cqrs.AuditVerification
import TradingBot.Concurrency.RwLocks
