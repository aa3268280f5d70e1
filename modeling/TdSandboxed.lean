import TdSandboxed.Lib.Run
import TdSandboxed.Lib.TaskSystem
import TdSandboxed.Adapters.ZmqModels
import TdSandboxed.Rules.BaseRule
import TdSandboxed.Rules.Types
import TdSandboxed.Rules.Engine
import TdSandboxed.Accounts.RiskState
import TdSandboxed.Accounts.PnLTracker
import TdSandboxed.Execution.ExposureReservation
import TdSandboxed.Execution.OrderValidator
import TdSandboxed.Adapters.ZmqAdapter
import TdSandboxed.Execution.ValidatedAdapter
import TdSandboxed.Execution.ValidatedAdapterSteps
import TdSandboxed.Execution.ReservationTheorems
import TdSandboxed.Execution.ExposureTheorems
import TdSandboxed.Execution.FillTheorems
import TdSandboxed.Engine.OrderTranslator
import TdSandboxed.Engine.SubmitDispatcher
import TdSandboxed.Engine.DispatchTheorems
import TdSandboxed.Lib.Netting
import TdSandboxed.Execution.RuleContext
import TdSandboxed.Engine.NettingTheorems
import TdSandboxed.Strategies.Sizing
import TdSandboxed.Strategies.SizingTheorems
import TdSandboxed.Execution.SendTheorems
import TdSandboxed.Engine.LiveOrchestrator
import TdSandboxed.Engine.IsolationTheorems
import TdSandboxed.Execution.FailSafeTheorems
import TdSandboxed.Accounts.AccountManager
import TdSandboxed.Engine.LiveSystem
import TdSandboxed.Engine.PauseTheorems
import TdSandboxed.State.EmergencyStop
import TdSandboxed.State.EmergencyStopTheorems
import TdSandboxed.State.ProcessLock
import TdSandboxed.State.ProcessLockTheorems
import TdSandboxed.Engine.Lifecycle
import TdSandboxed.Engine.LifecycleTheorems
import TdSandboxed.Lib.Matching
import TdSandboxed.Lib.Pairing
import TdSandboxed.State.Snapshot
import TdSandboxed.State.PositionReconciler
import TdSandboxed.State.MatchTheorems
import TdSandboxed.State.ReconcileTheorems
import TdSandboxed.State.CrashRecovery
import TdSandboxed.State.TradingResumer
import TdSandboxed.State.CrashRecoveryTheorems
import TdSandboxed.Engine.RecoveryOrchestrator
import TdSandboxed.Engine.RecoveryTheorems
import TdSandboxed.State.GracefulShutdown
import TdSandboxed.State.GracefulShutdownTheorems
import TdSandboxed.Rules.NewsBlackout
import TdSandboxed.Rules.Parser
import TdSandboxed.Rules.OverrideMerger
import TdSandboxed.Rules.RuleReads
import TdSandboxed.Rules.RuleOrder
import TdSandboxed.Rules.OverrideTheorems
import TdSandboxed.Backtesting.PropFirmActor
import TdSandboxed.Backtesting.ParityTheorems
import TdSandboxed.Execution.ContextTheorems
import TdSandboxed.Accounts.EquityTheorems
import TdSandboxed.Accounts.RiskRegistry
import TdSandboxed.Accounts.RiskIsolation
import TdSandboxed.Config.SessionClock
import TdSandboxed.State.DailyPnLRecalculator
import TdSandboxed.State.DailyPnLTheorems
import TdSandboxed.State.StopAccounting
import TdSandboxed.Orders.ExecutionService
import TdSandboxed.Orders.ExecutionTheorems
import TdSandboxed.Snapshots.DailySnapshotService
import TdSandboxed.Snapshots.SnapshotTheorems
import TdSandboxed.Adapters.Json
import TdSandboxed.Adapters.ReceiveTicks
import TdSandboxed.Adapters.ReceiveTheorems
import TdSandboxed.Lib.Custody
import TdSandboxed.Audit.AuditWriter
import TdSandboxed.Audit.AuditTheorems
import TdSandboxed.Orders.TradeDBWriter
import TdSandboxed.Orders.TradeDBTheorems
import TdSandboxed.Accounts.AccountLoop
import TdSandboxed.Accounts.LoopTheorems
import TdSandboxed.Accounts.RiskStateLaws
import TdSandboxed.Bridge.ZmqServer
import TdSandboxed.Bridge.ServerTheorems
import TdSandboxed.Adapters.PendingOrders
import TdSandboxed.Adapters.MT5ConnectionManager
import TdSandboxed.Adapters.MT5ConnectionTheorems
import TdSandboxed.Adapters.FeedReconnect
import TdSandboxed.Engine.RedisDataClient
import TdSandboxed.Backtesting.TradingDayTheorems
import TdSandboxed.Backtesting.Metrics
import TdSandboxed.Backtesting.MetricsTheorems
import TdSandboxed.Backtesting.CacheTheorems
import TdSandboxed.Rules.EngineModes
import TdSandboxed.TvApi.ClientReconnect
import TdSandboxed.TvApi.SendQueue
import TdSandboxed.TvApi.TimescaleStore
import TdSandboxed.TvApi.TimescaleTheorems
import TdSandboxed.Lib.Streaming
import TdSandboxed.Indicators.RegimeIndicators
import TdSandboxed.Indicators.Supertrend
import TdSandboxed.Indicators.SupertrendTheorems
import TdSandboxed.Strategies.BracketScaleOut
import TdSandboxed.Strategies.OpeningRange
import TdSandboxed.Strategies.ScaleOutTheorems
import TdSandboxed.Notification.EmergencyChannelTheorems
import TdSandboxed.Lib.GoText
import TdSandboxed.Notification.StopCommands
import TdSandboxed.Notification.StopCommandTheorems
import TdSandboxed.Engine.SessionTasks
import TdSandboxed.Engine.SessionTaskTheorems
import TdSandboxed.Lib.Float64
import TdSandboxed.Lib.JsonLayout
import TdSandboxed.Lib.JsonText
import TdSandboxed.Lib.GoJson
import TdSandboxed.Lib.Pieces
import TdSandboxed.TvApi.WireCodec
import TdSandboxed.Lib.JsonWeight
import TdSandboxed.TvApi.WireMarkers
import TdSandboxed.TvApi.WireCodecTheorems
import TdSandboxed.Lib.PyJson
import TdSandboxed.Lib.LayoutTexts
import TdSandboxed.Lib.PyValue
import TdSandboxed.Lib.SortedSlice
import TdSandboxed.Rules.CalendarLookup
import TdSandboxed.Calendar.EconomicCalendarService
import TdSandboxed.Calendar.CalendarTheorems
import TdSandboxed.Config.ClockTheorems
import TdSandboxed.Config.SessionDays
import TdSandboxed.Snapshots.SnapshotWindow
import TdSandboxed.Lib.RunLength
import TdSandboxed.Regime.HysteresisFilter
import TdSandboxed.Regime.HysteresisTheorems
import TdSandboxed.Strategies.StopTracking
import TdSandboxed.Strategies.StopTrackingTheorems
import TdSandboxed.Strategies.PartialClose
import TdSandboxed.Adapters.ReconnectBackoff
import TdSandboxed.Accounts.SignalRouter
import TdSandboxed.Lib.KeyOrder
import TdSandboxed.Lib.SharedJson
import TdSandboxed.TvApi.DatasetManifest
import TdSandboxed.Backtesting.DatasetManifest
import TdSandboxed.Backtesting.ManifestTheorems
import TdSandboxed.Lib.OrderedDict
import TdSandboxed.Snapshots.DailyProfitHistory
import TdSandboxed.Lib.PyRepr
import TdSandboxed.Lib.PyScan
import TdSandboxed.Lib.PyRoundTrip
import TdSandboxed.Lib.DecimalText
import TdSandboxed.State.SnapshotCodec
import TdSandboxed.Adapters.PortValidation
import TdSandboxed.Indicators.IndicatorHistory
import TdSandboxed.Regime.FeatureExtractor
import TdSandboxed.Regime.FeatureTheorems
import TdSandboxed.Strategies.OpeningRangeTheorems
import TdSandboxed.Strategies.Reversal
import TdSandboxed.Strategies.ReversalTheorems
import TdSandboxed.Backtesting.WalkForward
import TdSandboxed.Backtesting.WalkForwardTheorems
import TdSandboxed.TvApi.FetchTheorems
import TdSandboxed.Notification.MessageQueue
import TdSandboxed.Notification.MessageQueueTheorems
import TdSandboxed.Indicators.SessionVWAP
import TdSandboxed.TvApi.ReplaySession
import TdSandboxed.TvApi.ReplayTheorems
import TdSandboxed.Lib.DecimalContext
import TdSandboxed.State.PositionMatching
import TdSandboxed.State.PositionPartition
import TdSandboxed.State.MatchRefinement
import TdSandboxed.Regime.RegimeActor
import TdSandboxed.Regime.RegimeActorTheorems
import TdSandboxed.Strategies.RegimeGate
import TdSandboxed.TvApi.SessionFeed
import TdSandboxed.TvApi.SessionFeedTheorems
import TdSandboxed.TvApi.QuoteTheorems
import TdSandboxed.Backtesting.CampaignTheorems
import TdSandboxed.State.DurabilityTheorems
import TdSandboxed.Lib.Gather
import TdSandboxed.Backtesting.ParameterSweep
import TdSandboxed.Backtesting.SweepTheorems
