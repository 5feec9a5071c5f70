import MT5Services.Runs
import MT5Services.Histories
import MT5Services.Dict
import MT5Services.PyText
import MT5Services.PyNumber
import MT5Services.Levels
import MT5Services.SmartCache
import MT5Services.ExecutionIntents
import MT5Services.IntentConsumer
import MT5Services.OperatorCommands
import MT5Services.RuntimeMode
import MT5Services.ClosedBars
import MT5Services.BrokerOrders
import MT5Services.PendingRecovery
import MT5Services.OcoBroker
import MT5Services.PendingEntries
import MT5Services.IntrabarGuard
import MT5Services.TradeOutcomes
import MT5Services.ExitRules
import MT5Services.PositionManager
import MT5Services.ExitOrders
import MT5Services.Portfolio
import MT5Services.ExitAgreement
import MT5Services.PositionRestart
import MT5Services.EventStore
import MT5Services.WalQueue
import MT5Services.SignalQueues
import MT5Services.BarFreshness
import MT5Services.SignalStates
import MT5Services.StorageWriter
import MT5Services.IndicatorPipeline
import MT5Services.IncrementalIndicators
import MT5Services.Windows
import MT5Services.MarketData
import MT5Services.BarBatches
import MT5Services.IndicatorRegistry
import MT5Services.IntrabarSynthesis
import MT5Services.Prefixes
import MT5Services.BacktestData
import MT5Services.TradeSizing
import MT5Services.BacktestDecisions
import MT5Services.BacktestIntrabar
import MT5Services.BacktestEngine
import MT5Services.BacktestRepeat
import MT5Services.Lockstep
import MT5Services.BacktestAlike
import MT5Services.BacktestLog
import MT5Services.BacktestLookahead
import MT5Services.IntrabarLookahead
import MT5Services.CachedRuns
import MT5Services.ParameterOptimizer
import MT5Services.AtMostOnce
import MT5Services.CommandConsumer
import MT5Services.IntentPublisher
import MT5Services.ItemAccounting
import MT5Services.ModeTransitions
import MT5Services.RecoveryController
import MT5Services.RecoveryExposure
import MT5Services.RecoverySession
import MT5Services.TradeFrequency
import MT5Services.TradeReplay
import MT5Services.Insertions
import MT5Services.RecoveryBudget
import MT5Services.RecoveryGates
import MT5Services.RiskRules
import MT5Services.CallTrace
import MT5Services.DryRunReplays
import MT5Services.TradeComments
import MT5Services.TradeControl
import MT5Services.TradeExecution
import MT5Services.CircuitBreaker
import MT5Services.CommentRoundTrip
import MT5Services.CostGuard
import MT5Services.EntryConfirmation
import MT5Services.IndexedDict
import MT5Services.PositionLookup
import MT5Services.RecoveryAverages
import MT5Services.RecoveryOwnership
import MT5Services.RecoveryReplay
import MT5Services.TradingState
import MT5Services.Departures
import MT5Services.EquityCurve
import MT5Services.ExitFills
import MT5Services.ExitLookahead
import MT5Services.ExitMirror
import MT5Services.ExitSwitches
import MT5Services.OrderInspection
import MT5Services.PendingEntryGate
import MT5Services.PendingLedger
import MT5Services.PendingMonitor
import MT5Services.PositionClosings
import MT5Services.Reconciliation
import MT5Services.ExitAttribution
import MT5Services.DirtyFlush
import MT5Services.RegimeAdjustment
import MT5Services.SlTpOps
import MT5Services.OvernightSwap
import MT5Services.RecentTimes
import MT5Services.PortfolioCaps
import MT5Services.IntrabarArming
import MT5Services.SignalIdentity
import MT5Services.SessionPerformance
import MT5Services.SignalConfidence
import MT5Services.ConfidenceAdjustments
import MT5Services.FailedEvents
import MT5Services.CacheHistory
import MT5Services.DependencyGraph
import MT5Services.IndicatorRemoval
import MT5Services.HtfCache
import MT5Services.EventForecast
import MT5Services.EventAccounts
import MT5Services.SignalRecovery
import MT5Services.ResultFreshness
import MT5Services.TradeGuard
import MT5Services.PendingIndex
import MT5Services.EconomicDecay
import MT5Services.TradeGuardChains
import MT5Services.StopTargets
import MT5Services.WalkForward
import MT5Services.IngestBackoff
import MT5Services.CursorPolls
import MT5Services.TickIngestion
import MT5Services.JsonText
import MT5Services.DeadLetters
import MT5Services.StorageShutdown
import MT5Services.BacktestRounds
import MT5Services.PositionLimits
import MT5Services.NotificationGates
import MT5Services.IsoTime
import MT5Services.NotificationOutbox
import MT5Services.NotificationDispatch
