import TradingBot.Strategy.Warmup
import TradingBot.Strategy.TrailingRun
import TradingBot.Risk.Maximality
import TradingBot.Paper.TrailingParity
import TradingBot.Paper.IntentTermination
import TradingBot.Paper.DailyCloseDetection
import TradingBot.Paper.Handover
import TradingBot.Paper.WorkerLock
import TradingBot.Market.LatestUpdate
import TradingBot.Market.AggregationExact
import TradingBot.Backtester.Valuation
import TradingBot.Research.RegimeAlignment
import TradingBot.Paper.CloseOrder
import TradingBot.Paper.BundleAcceptance
import TradingBot.Research.TrustedEvidence
import TradingBot.Research.GateSoundness
import TradingBot.Research.JobRegistry
import TradingBot.Research.SuiteIndependence
import TradingBot.Market.ImportIntegrity
import TradingBot.Market.AppendConflicts
import TradingBot.Paper.ReadyPromotion
import TradingBot.Paper.StorageRounding
import TradingBot.Market.Boundaries
import TradingBot.Market.Pagination
import TradingBot.Paper.CursorPages
import TradingBot.Paper.HeartbeatVerification
import TradingBot.Paper.IntentEvaluations
import TradingBot.Paper.StopSnapshots
import TradingBot.Market.ConflictReports
import TradingBot.Research.ArtifactServing
import TradingBot.Research.FoldMeasurement
import TradingBot.Research.SealSoundness
import TradingBot.Research.StudyOrder
import TradingBot.Research.BootstrapQuantiles
import TradingBot.Backtester.GroupedMetrics
import TradingBot.Strategy.IndicatorCausality
import TradingBot.Research.RegimeTransitions
import TradingBot.Research.Confidence
import TradingBot.Research.PlateauSoundness
import TradingBot.Research.EpisodeDrawdown
import TradingBot.Research.ExperimentIdentity
import TradingBot.Market.DerivedHistory
import TradingBot.Paper.BookHistory
