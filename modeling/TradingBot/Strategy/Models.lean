import TradingBot.Market.Models

namespace TradingBot.Strategy.Models

open Market.Models

inductive ReasonCode
  | entryBreakout20d | entryPullbackEma20
  | exitStopInitial | exitStopTrailing | exitStopGap | exitRegimeMonthly | exitManual
  | rejectRegime | rejectTrend | rejectVolume | rejectWarmup | rejectData
  | rejectDuplicateSymbol | rejectRiskTrade | rejectRiskPortfolio | rejectMaxPositions
  | rejectLeverage | rejectNoSignal | riskApproved
deriving DecidableEq, Repr

def ReasonCode.value : ReasonCode → String
  | .entryBreakout20d => "RC_ENTRY_BREAKOUT_20D"
  | .entryPullbackEma20 => "RC_ENTRY_PULLBACK_EMA20"
  | .exitStopInitial => "RC_EXIT_STOP_INITIAL"
  | .exitStopTrailing => "RC_EXIT_STOP_TRAILING"
  | .exitStopGap => "RC_EXIT_STOP_GAP"
  | .exitRegimeMonthly => "RC_EXIT_REGIME_MONTHLY"
  | .exitManual => "RC_EXIT_MANUAL"
  | .rejectRegime => "RC_REJECT_REGIME"
  | .rejectTrend => "RC_REJECT_TREND"
  | .rejectVolume => "RC_REJECT_VOLUME"
  | .rejectWarmup => "RC_REJECT_WARMUP"
  | .rejectData => "RC_REJECT_DATA"
  | .rejectDuplicateSymbol => "RC_REJECT_DUPLICATE_SYMBOL"
  | .rejectRiskTrade => "RC_REJECT_RISK_TRADE"
  | .rejectRiskPortfolio => "RC_REJECT_RISK_PORTFOLIO"
  | .rejectMaxPositions => "RC_REJECT_MAX_POSITIONS"
  | .rejectLeverage => "RC_REJECT_LEVERAGE"
  | .rejectNoSignal => "RC_REJECT_NO_SIGNAL"
  | .riskApproved => "RC_RISK_APPROVED"

inductive EntryType
  | breakout | pullback
deriving DecidableEq, Repr

inductive SignalIntentKind
  | longEntry | noEntry | invalidData | insufficientHistory
deriving DecidableEq, Repr

inductive DataQualityStatus
  | ok | invalidData | insufficientHistory
deriving DecidableEq, Repr

structure CandleSeriesOf (σ : Type) where
  symbol : σ
  timeframe : Timeframe
  candles : List (CandleOf σ)
deriving DecidableEq, Repr

abbrev CandleSeries := CandleSeriesOf Symbol

def strategyVersion : String := "1.0.0"

structure StrategyParameters where
  strategyVersion : String := Models.strategyVersion
  monthlyEmaPeriod : ℤ := 20
  weeklyEmaFast : ℤ := 20
  weeklyEmaSlow : ℤ := 50
  dailyEmaPeriod : ℤ := 20
  breakoutLookback : ℤ := 20
  atrPeriod : ℤ := 14
  volumeSmaPeriod : ℤ := 20
  volumeRatioMin : Decimal := 1
  pullbackEmaTolerance : Decimal := 5 / 1000
  stopInitialAtrMult : Decimal := 5 / 2
  trailAtrMult : Decimal := 3
deriving DecidableEq, Repr

structure IndicatorSnapshot where
  evaluationIndex : ℤ
  ema20Daily : Option Decimal := none
  ema20Weekly : Option Decimal := none
  ema50Weekly : Option Decimal := none
  ema20Monthly : Option Decimal := none
  atr14Daily : Option Decimal := none
  volumeSma20 : Option Decimal := none
  volumeRatio : Option Decimal := none
  high20 : Option Decimal := none
  monthlyClose : Option Decimal := none
deriving DecidableEq, Repr

structure RegimeResult where
  regimeLong : Bool
  monthlyClose : Option Decimal := none
  ema20Monthly : Option Decimal := none
  reasonCode : Option ReasonCode := none
deriving DecidableEq, Repr

structure TrendResult where
  trendConfirmed : Bool
  ema20Weekly : Option Decimal := none
  ema50Weekly : Option Decimal := none
  reasonCode : Option ReasonCode := none
deriving DecidableEq, Repr

structure PullbackConditions where
  p1CloseAboveEma : Bool := false
  p2LowTouchesEma : Bool := false
  p3PriorCloseAboveEma : Bool := false
  p4RegimeLong : Bool := false
  p5TrendConfirmed : Bool := false
  p6VolumeOk : Bool := false
deriving DecidableEq, Repr

structure EntrySetupResult where
  breakoutEntry : Bool := false
  pullbackEntry : Bool := false
  breakoutPriceCondition : Bool := false
  closeAboveEma20 : Bool := false
  volumeOk : Bool := false
  pullbackConditions : PullbackConditions := {}
  high20 : Option Decimal := none
  emaTouchUpper : Option Decimal := none
deriving DecidableEq, Repr

structure SignalIntent where
  kind : SignalIntentKind
  entryType : Option EntryType := none
  entryPrice : Option Decimal := none
  stopInitial : Option Decimal := none
  primaryReasonCode : Option ReasonCode := none
deriving DecidableEq, Repr

inductive ErrorDetails (σ : Type)
  | none
  | symbols (daily other : σ)
  | symbolMismatch (expected actual : σ)
  | timeframes (expected actual : Timeframe)
  | openTime (openTime : Time)
  | times (openTime closeTime evaluationTime : Time)
  | history (timeframe : Timeframe) (required : ℤ) (actual : ℕ)
deriving DecidableEq, Repr

structure StrategyError (σ : Type) where
  code : ReasonCode
  message : String
  details : ErrorDetails σ := .none
deriving DecidableEq, Repr

structure StrategyEvaluationOf (σ : Type) where
  symbol : σ
  evaluationTime : Time
  strategyVersion : String
  parameters : StrategyParameters
  monthlyRegime : RegimeResult
  weeklyTrend : TrendResult
  breakoutResult : EntrySetupResult
  pullbackResult : EntrySetupResult
  indicators : IndicatorSnapshot
  volumeRatio : Option Decimal
  atr : Option Decimal
  selectedEntryType : Option EntryType
  signalIntent : SignalIntent
  reasonCodes : List ReasonCode
  dataQualityStatus : DataQualityStatus
  errors : List (StrategyError σ)
deriving DecidableEq, Repr

abbrev StrategyEvaluation := StrategyEvaluationOf Symbol

structure TrailingStopState where
  entryPrice : Decimal
  stopInitial : Decimal
  highestClose : Decimal
  trailStop : Decimal
  effectiveStop : Decimal
deriving DecidableEq, Repr

end TradingBot.Strategy.Models
