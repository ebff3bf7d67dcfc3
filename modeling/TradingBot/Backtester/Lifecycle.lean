import TradingBot.Constraints
import TradingBot.Strategy.Stops

namespace TradingBot.Backtester.Lifecycle

open Market.Models Strategy.Models Strategy.Stops Exceptions Constraints

abbrev BySymbol (α : Type) := Symbol → Option α

def BySymbol.single {α : Type} (symbol : Symbol) (a : α) : BySymbol α :=
  fun s => if s = symbol then some a else none

inductive ExitReason
  | stopInitial | stopTrailing | stopGap
deriving DecidableEq, Repr

structure SimulatedPositionOf (σ : Type) where
  symbol : σ
  quantity : Decimal
  entryPrice : Decimal
  entryTime : Time
  initialStop : Decimal
  trailStop : Decimal
  effectiveStop : Decimal
  highestClose : Decimal
  entryAtr14 : Decimal
  marginReserved : Decimal
deriving DecidableEq, Repr

abbrev SimulatedPosition := SimulatedPositionOf Symbol

section Execution

def applyEntrySlippage (reference slippageBps : Decimal) : Decimal :=
  reference * (1 + slippageBps / 10000)

def applyExitSlippage (reference slippageBps : Decimal) : Decimal :=
  reference * (1 - slippageBps / 10000)

def computeFee (notional rate : Decimal) : Decimal := notional * rate

def computeSlippageCost (reference fill quantity : Decimal) : Decimal :=
  |fill - reference| * quantity

def positionMargin (notional maxLeverage : Decimal) : Decimal :=
  if maxLeverage ≤ 0 then notional else notional / maxLeverage

end Execution

section Entry

structure EntryFillComputation where
  openRef : Decimal
  fillPrice : Decimal
  stopInitial : Decimal
  slippageCost : Decimal
deriving DecidableEq, Repr

structure EntryAccounting where
  quantity : Decimal
  notional : Decimal
  fee : Decimal
  slippageCost : Decimal
  marginReserved : Decimal
  initialRiskUsd : Decimal
  trailState : TrailingStopState
deriving DecidableEq, Repr

def computeEntryFillPrices (openRef atr14 slippageBps : Decimal) (params : StrategyParameters)
    (priceTickSize : Decimal) : Except Exc EntryFillComputation := do
  let fillPrice := applyEntrySlippage openRef slippageBps
  let stopInitial ← computeInitialStop fillPrice atr14 params (some priceTickSize)
  pure { openRef, fillPrice, stopInitial, slippageCost := computeSlippageCost openRef fillPrice 1 }

def computeEntryAccounting (fillPrice openRef quantity stopInitial feeRate maxLeverage : Decimal)
    (params : StrategyParameters) (priceTickSize atr14 : Decimal) : Except Exc EntryAccounting := do
  let notional := fillPrice * quantity
  let fee := computeFee notional feeRate
  let slip := computeSlippageCost openRef fillPrice quantity
  let margin := positionMargin notional maxLeverage
  let trailState ← initializeTrailingStop fillPrice atr14 stopInitial params (some priceTickSize)
  let initialRisk := quantity * (fillPrice - stopInitial)
  pure { quantity, notional, fee, slippageCost := slip, marginReserved := margin,
         initialRiskUsd := initialRisk, trailState }

theorem positionMargin_pos {notional maxLeverage : Decimal} (h : 0 < notional) :
    0 < positionMargin notional maxLeverage := by
  unfold positionMargin
  split_ifs with hlev
  · exact h
  · exact div_pos h (not_le.mp hlev)

end Entry

section Risk

/-- An entry that waits to be filled in the same batch. -/
structure PendingIntent (κ : Type) where
  clientIntentId : κ
  symbol : Symbol

/-- What the risk engine is asked about a fill. -/
structure EntryRiskInput (κ : Type) where
  symbol : Symbol
  fillPrice : Decimal
  stopInitial : Decimal
  clientIntentId : κ
  atr14 : Decimal
  constraints : SymbolConstraints
  walletCash : Decimal
  openPositions : List SimulatedPosition
  pendingIntents : List (PendingIntent κ)
  processedIntentIds : List κ
  dayCandles : BySymbol Candle
  priorCloses : BySymbol Decimal

structure RiskDecision where
  approved : Bool
  roundedQuantity : Option Decimal
  reasonCodes : List ReasonCode
deriving DecidableEq, Repr

abbrev RiskEngine (κ : Type) := EntryRiskInput κ → Except Exc RiskDecision

def filterRejectionReasonCodes (decision : RiskDecision) : List ReasonCode :=
  match decision.reasonCodes.filter (· ≠ .riskApproved) with
  | [] => decision.reasonCodes
  | codes => codes

end Risk

section Stops

variable {σ : Type}

structure StopTriggerResult where
  exitReference : Decimal
  exitReason : ExitReason
deriving DecidableEq, Repr

structure ExitAccounting where
  fillPrice : Decimal
  fee : Decimal
  slippageCost : Decimal
  grossPnl : Decimal
  netWalletDelta : Decimal
deriving DecidableEq, Repr

def computeGapStopAtOpen (candle : CandleOf σ) (effectiveStop : Decimal) : Option StopTriggerResult :=
  if candle.openPrice < effectiveStop then some ⟨candle.openPrice, .stopGap⟩ else none

def computeIntradayStop (candle : CandleOf σ) (effectiveStop initialStop trailStop : Decimal) :
    Option StopTriggerResult :=
  if candle.low ≤ effectiveStop then
    some ⟨effectiveStop, if initialStop ≤ trailStop then .stopTrailing else .stopInitial⟩
  else none

def computeStopTrigger (candle : CandleOf σ) (effectiveStop initialStop trailStop : Decimal) :
    Option StopTriggerResult :=
  (computeGapStopAtOpen candle effectiveStop).or
    (computeIntradayStop candle effectiveStop initialStop trailStop)

def computeExitAccounting (exitReference quantity entryPrice slippageBps feeRate : Decimal) :
    ExitAccounting :=
  let fillPrice := applyExitSlippage exitReference slippageBps
  let notional := fillPrice * quantity
  let fee := computeFee notional feeRate
  let slip := computeSlippageCost exitReference fillPrice quantity
  let gross := (fillPrice - entryPrice) * quantity
  { fillPrice, fee, slippageCost := slip, grossPnl := gross, netWalletDelta := gross - fee }

def computeTrailingStopUpdate (state : TrailingStopState) (dailyClose atr14 : Decimal)
    (params : StrategyParameters) (priceTickSize : Decimal) : Except Exc TrailingStopState :=
  updateTrailingStop state dailyClose atr14 params (some priceTickSize)

theorem computeGapStopAtOpen_isSome (candle : CandleOf σ) (stop : Decimal) :
    (computeGapStopAtOpen candle stop).isSome ↔ candle.openPrice < stop := by
  unfold computeGapStopAtOpen
  split_ifs with h <;> simp [h]

theorem computeIntradayStop_isSome (candle : CandleOf σ) (stop initial trail : Decimal) :
    (computeIntradayStop candle stop initial trail).isSome ↔ candle.low ≤ stop := by
  unfold computeIntradayStop
  split_ifs with h <;> simp [h]

theorem computeStopTrigger_isSome (candle : CandleOf σ) (stop initial trail : Decimal) :
    (computeStopTrigger candle stop initial trail).isSome ↔
      candle.openPrice < stop ∨ candle.low ≤ stop := by
  unfold computeStopTrigger
  rw [Option.isSome_or, Bool.or_eq_true, computeGapStopAtOpen_isSome, computeIntradayStop_isSome]

end Stops

section Portfolio

variable {σ : Type}

def resolveMarksAtOpen [DecidableEq σ] (positions : List (SimulatedPositionOf σ))
    (dayCandles : σ → Option (CandleOf σ)) (priorCloses : σ → Option Decimal) :
    σ → Option Decimal := fun symbol =>
  (positions.findRev? (·.symbol = symbol)).map fun p =>
    ((dayCandles symbol).map (·.openPrice)).getD ((priorCloses symbol).getD p.entryPrice)

def computeUsedMargin (positions : List (SimulatedPositionOf σ)) : Decimal :=
  (positions.map (·.marginReserved)).sum

def computeUnrealizedPnl (positions : List (SimulatedPositionOf σ)) (marks : σ → Option Decimal) : Decimal :=
  (positions.map fun p => p.quantity * ((marks p.symbol).getD p.entryPrice - p.entryPrice)).sum

def computeEquity (walletBalance : Decimal) (positions : List (SimulatedPositionOf σ))
    (marks : σ → Option Decimal) : Decimal :=
  walletBalance + computeUnrealizedPnl positions marks

def openRiskUsd (p : SimulatedPositionOf σ) : Decimal :=
  p.quantity * max 0 (p.entryPrice - max p.initialStop p.trailStop)

def currentOpenRisk (positions : List (SimulatedPositionOf σ)) (marks : σ → Option Decimal) : Decimal :=
  ((positions.filter fun p =>
    decide (0 < p.quantity ∧ 0 < (marks p.symbol).getD p.entryPrice)).map openRiskUsd).sum

end Portfolio

end TradingBot.Backtester.Lifecycle

namespace TradingBot.Backtester.Engine

open Market.Models Strategy.Models Exceptions Backtester.Lifecycle

variable {σ : Type}

def sliceClosedCandles (candles : List (CandleOf σ)) (asOf : Time) : List (CandleOf σ) :=
  candles.filter fun c => c.isClosed ∧ c.closeTime ≤ asOf

def buildCandleSeries (symbol : σ) (timeframe : Timeframe) (candles : List (CandleOf σ)) (asOf : Time) :
    CandleSeriesOf σ :=
  { symbol, timeframe, candles := sliceClosedCandles candles asOf }

def trailingAtr (pos : SimulatedPositionOf σ) (evaluationAtr : Option Decimal) : Decimal :=
  match evaluationAtr with
  | some atr => if atr = 0 then pos.entryAtr14 else atr
  | none => pos.entryAtr14

/-- The daily trailing update; every field of the new state is stored. -/
def updateTrailing (pos : SimulatedPositionOf σ) (dailyClosed : List (CandleOf σ)) (candle : CandleOf σ)
    (evaluationAtr : Option Decimal) (params : StrategyParameters) (priceTickSize : Decimal) :
    Except Exc (SimulatedPositionOf σ) := do
  if dailyClosed.isEmpty then pure pos
  else
    let updated ← computeTrailingStopUpdate
      { entryPrice := pos.entryPrice, stopInitial := pos.initialStop, highestClose := pos.highestClose,
        trailStop := pos.trailStop, effectiveStop := pos.effectiveStop }
      candle.close (trailingAtr pos evaluationAtr) params priceTickSize
    pure { pos with
           trailStop := updated.trailStop
           effectiveStop := updated.effectiveStop
           highestClose := updated.highestClose }

def checkStopExit (pos : SimulatedPositionOf σ) (candle : CandleOf σ) (atOpen : Bool) :
    Option StopTriggerResult :=
  if atOpen then computeGapStopAtOpen candle pos.effectiveStop
  else computeStopTrigger candle pos.effectiveStop pos.initialStop pos.trailStop

end TradingBot.Backtester.Engine
