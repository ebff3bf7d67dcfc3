import TradingBot.Constraints
import TradingBot.Strategy.Models

namespace TradingBot.Risk.Models

open Market.Models Strategy.Models

inductive TradeSide
  | long | short
deriving DecidableEq, Repr

inductive MarketDataStatus
  | ok | invalid | stale | incomplete
deriving DecidableEq, Repr

def MarketDataStatus.value : MarketDataStatus → String
  | .ok => "OK"
  | .invalid => "INVALID"
  | .stale => "STALE"
  | .incomplete => "INCOMPLETE"

inductive BotSystemState
  | off | warmup | active | paused | degraded | error | unknown
deriving DecidableEq, Repr

def BotSystemState.value : BotSystemState → String
  | .off => "OFF"
  | .warmup => "WARMUP"
  | .active => "ACTIVE"
  | .paused => "PAUSED"
  | .degraded => "DEGRADED"
  | .error => "ERROR"
  | .unknown => "UNKNOWN"

def riskSpecificationVersion : String := "1.0.0"

def riskStrategyVersion : String := "1.0.0"

def defaultRiskPerTradePct : Decimal := 5 / 1000

def defaultMaxPortfolioRiskPct : Decimal := 2 / 100

def defaultMaxOpenPositions : ℤ := 3

def defaultMaxLeverage : Decimal := 2

def defaultRiskRoundingTolerance : Decimal := 1 / 1000

structure LossLimitConfig where
  dailyLossLimitEnabled : Bool := false
  maxDailyLossPct : Option Decimal := none
  weeklyLossLimitEnabled : Bool := false
  maxWeeklyLossPct : Option Decimal := none
  drawdownLimitEnabled : Bool := false
  maxDrawdownPct : Option Decimal := none
deriving DecidableEq, Repr

structure RiskParameters where
  riskSpecificationVersion : String := Models.riskSpecificationVersion
  strategyVersion : String := riskStrategyVersion
  riskPerTradePct : Decimal := defaultRiskPerTradePct
  maxPortfolioRiskPct : Decimal := defaultMaxPortfolioRiskPct
  maxOpenPositions : ℤ := defaultMaxOpenPositions
  maxLeverage : Decimal := defaultMaxLeverage
  riskRoundingTolerance : Decimal := defaultRiskRoundingTolerance
  lossLimits : LossLimitConfig := {}
deriving DecidableEq, Repr

structure AccountState where
  equityUsd : Decimal
  availableMarginUsd : Decimal
  dailyRealizedPnlUsd : Decimal := 0
  weeklyRealizedPnlUsd : Decimal := 0
  peakEquityUsd : Option Decimal := none
deriving DecidableEq, Repr

structure PositionState where
  symbol : String
  entryPrice : Decimal
  positionSize : Decimal
  stopInitial : Decimal
  trailStop : Decimal
  markPrice : Decimal
deriving DecidableEq, Repr

structure OpenOrderState (κ : Type) where
  symbol : String
  clientIntentId : κ
  side : TradeSide
  isEntry : Bool := true
deriving DecidableEq, Repr

structure TradeProposal (κ : Type) where
  symbol : String
  side : TradeSide := .long
  entryPrice : Decimal
  stopPrice : Decimal
  clientIntentId : κ
  signalIntentKind : SignalIntentKind
  strategyApproved : Bool := false
  marketDataStatus : MarketDataStatus := .ok
  botSystemState : BotSystemState := .active
  atr14 : Option Decimal := none
deriving DecidableEq, Repr

structure PositionSizingResult where
  riskBudgetUsd : Decimal
  stopDistanceUsd : Decimal
  rawQuantity : Decimal
  roundedQuantity : Decimal
  actualTradeRiskUsd : Decimal
  actualTradeRiskPct : Decimal
deriving DecidableEq, Repr

structure PortfolioRiskSnapshot where
  currentOpenRiskUsd : Decimal
  currentOpenRiskPct : Decimal
  projectedPortfolioRiskUsd : Decimal
  projectedPortfolioRiskPct : Decimal
  totalNotionalUsd : Decimal
  projectedNotionalUsd : Decimal
  effectiveLeverage : Decimal
deriving DecidableEq, Repr

inductive Detail
  | text (value : String)
  | decimal (value : Decimal)
deriving DecidableEq, Repr

structure RiskError where
  code : ReasonCode
  message : String
  details : List (String × Detail) := []
deriving DecidableEq, Repr

structure RiskDecision where
  approved : Bool
  symbol : String
  requestedEntryPrice : Decimal
  requestedStopPrice : Decimal
  rawQuantity : Option Decimal := none
  roundedQuantity : Option Decimal := none
  actualTradeRiskUsd : Option Decimal := none
  actualTradeRiskPct : Option Decimal := none
  currentOpenRiskUsd : Option Decimal := none
  projectedPortfolioRiskUsd : Option Decimal := none
  projectedPortfolioRiskPct : Option Decimal := none
  requiredMarginUsd : Option Decimal := none
  effectiveLeverage : Option Decimal := none
  reasonCodes : List ReasonCode := []
  strategyVersion : String := riskStrategyVersion
  riskSpecificationVersion : String := Models.riskSpecificationVersion
  errors : List RiskError := []
deriving DecidableEq, Repr

end TradingBot.Risk.Models
