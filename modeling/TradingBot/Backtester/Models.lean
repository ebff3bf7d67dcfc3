import TradingBot.Backtester.Lifecycle
import TradingBot.Library.Dictionary
import TradingBot.Risk.Engine

namespace TradingBot.Backtester.Models

open Market.Models Strategy.Models Constraints Risk.Models Library.Dictionary Backtester.Lifecycle

inductive OrderStatus
  | pending | filled | rejected | cancelled
deriving DecidableEq, Repr

structure ClientIntentId where
  symbol : String
  strategyVersion : String
  signalSeconds : ℤ
  entryType : EntryType
deriving DecidableEq, Repr

def buildClientIntentId (symbol strategyVersion : String) (signalTime : Time) (entryType : EntryType) :
    ClientIntentId :=
  ⟨symbol, strategyVersion, wholeSeconds signalTime, entryType⟩

structure FundingEvent where
  timestamp : Time
  fundingRate : Decimal
deriving DecidableEq, Repr

structure FundingModel where
  enabled : Bool := false
  assumedRate : Option Decimal := none
deriving DecidableEq, Repr

structure BacktestConfig where
  symbols : List String := ["BTC", "ETH", "SOL"]
  initialCash : Decimal := 100000
  strategyParams : StrategyParameters := {}
  riskParams : RiskParameters := {}
  entryFeeRate : Decimal := 5 / 10000
  exitFeeRate : Decimal := 5 / 10000
  slippageBps : Decimal := 5
  fundingModel : FundingModel := {}
  symbolConstraints : String → Option SymbolConstraints := fun _ => none
  initialProcessedIntentIds : List ClientIntentId := []

/-- The history; a symbol that is not in a dictionary has no rows there. -/
structure HistoricalDataBundle where
  daily : String → List (CandleOf String)
  weekly : String → List (CandleOf String)
  monthly : String → List (CandleOf String)
  funding : String → List FundingEvent := fun _ => []

structure PendingIntent where
  clientIntentId : ClientIntentId
  symbol : String
  strategyVersion : String
  entryType : EntryType
  strategyReasonCodes : List ReasonCode
  signalTime : Time
  orderTime : Time
  signalClosePrice : Decimal
  stopPrice : Decimal
  atr14 : Decimal
  strategyEvaluation : StrategyEvaluationOf String
deriving DecidableEq, Repr

structure SimulatedOrder where
  clientIntentId : ClientIntentId
  symbol : String
  status : OrderStatus
  quantity : Option Decimal := none
  referencePrice : Option Decimal := none
deriving DecidableEq, Repr

structure TrailingStopSnapshot where
  time : Time
  trailStop : Decimal
  effectiveStop : Decimal
deriving DecidableEq, Repr

structure BacktestTrade where
  symbol : String
  clientIntentId : ClientIntentId
  strategyVersion : String
  entryType : EntryType
  strategyReasonCodes : List ReasonCode
  riskReasonCodes : List ReasonCode
  signalTime : Time
  orderTime : Time
  entryTime : Time
  entryReferencePrice : Decimal
  entryFillPrice : Decimal
  quantity : Decimal
  initialStop : Decimal
  trailingStopHistory : List TrailingStopSnapshot := []
  exitTime : Option Time := none
  exitReason : Option ExitReason := none
  exitReferencePrice : Option Decimal := none
  exitFillPrice : Option Decimal := none
  grossPnl : Option Decimal := none
  fees : Decimal := 0
  funding : Decimal := 0
  slippageCost : Decimal := 0
  netPnl : Option Decimal := none
  initialRiskUsd : Option Decimal := none
  rMultiple : Option Decimal := none
  holdingPeriodDays : Option ℤ := none
deriving DecidableEq, Repr

structure EquitySnapshot where
  time : Time
  cash : Decimal
  equity : Decimal
  unrealizedPnl : Decimal
  openPositions : ℕ
deriving DecidableEq, Repr

structure RiskRejectionRecord where
  time : Time
  symbol : String
  clientIntentId : ClientIntentId
  reasonCodes : List ReasonCode
  strategyReasonCodes : List ReasonCode
deriving DecidableEq, Repr

/-- What a backtest carries from one day to the next. -/
structure Runtime where
  cash : Decimal
  positions : Dict String (SimulatedPositionOf String) := {}
  pendingIntents : List PendingIntent := []
  processedIntentIds : List ClientIntentId := []
  intentOrders : Dict ClientIntentId SimulatedOrder := {}
  activeTrades : Dict String BacktestTrade := {}
  closedTrades : List BacktestTrade := []
  evaluations : List (StrategyEvaluationOf String) := []
  rejections : List RiskRejectionRecord := []
  equityCurve : List EquitySnapshot := []
  totalFees : Decimal := 0
  totalFunding : Decimal := 0
  totalSlippage : Decimal := 0
  realizedPnl : Decimal := 0
  trailHistory : Dict String (List TrailingStopSnapshot) := {}
  peakEquity : Decimal := 0
deriving DecidableEq, Repr

structure BacktestResult where
  dataStart : Option Time
  dataEnd : Option Time
  startCapital : Decimal
  endCapital : Decimal
  trades : List BacktestTrade
  openPositions : List (SimulatedPositionOf String)
  equityCurve : List EquitySnapshot
  riskRejections : List RiskRejectionRecord
  strategyEvaluations : List (StrategyEvaluationOf String)
  totalFees : Decimal
  totalFunding : Decimal
  totalSlippage : Decimal
deriving DecidableEq, Repr

end TradingBot.Backtester.Models
