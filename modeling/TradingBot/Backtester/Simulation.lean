import TradingBot.Backtester.Models
import TradingBot.Strategy.Engine

namespace TradingBot.Backtester.Simulation

open Market.Models Strategy.Models Constraints Exceptions Risk.Models Library.Dictionary
open Backtester.Lifecycle Backtester.Engine Backtester.Models

section Risk

def toPositionState (marks : String → Option Decimal) (p : SimulatedPositionOf String) :
    Option PositionState :=
  let mark := (marks p.symbol).getD p.entryPrice
  if p.quantity ≤ 0 ∨ mark ≤ 0 then none
  else some
    { symbol := p.symbol, entryPrice := p.entryPrice, positionSize := p.quantity
      stopInitial := p.initialStop, trailStop := p.trailStop, markPrice := mark }

/-- Positions without a positive size and mark are not shown to the risk engine. -/
def toPositionStates (positions : List (SimulatedPositionOf String)) (marks : String → Option Decimal) :
    List PositionState :=
  positions.filterMap (toPositionState marks)

def toOpenOrders (pending : List Models.PendingIntent) : List (OpenOrderState ClientIntentId) :=
  pending.map fun i => { symbol := i.symbol, clientIntentId := i.clientIntentId, side := .long }

def buildAccountState (walletBalance : Decimal) (positions : List (SimulatedPositionOf String))
    (marks : String → Option Decimal) : AccountState :=
  let equity := computeEquity walletBalance positions marks
  { equityUsd := equity
    availableMarginUsd := max 0 (equity - computeUsedMargin positions)
    peakEquityUsd := some equity }

def evaluateEntryRiskDecision (symbol : String) (fillPrice stopInitial : Decimal)
    (clientIntentId : ClientIntentId) (atr14 : Decimal) (constraints : SymbolConstraints)
    (walletCash : Decimal) (openPositions : List (SimulatedPositionOf String))
    (pendingIntents : List Models.PendingIntent) (processedIntentIds : List ClientIntentId)
    (dayCandles : String → Option (CandleOf String)) (priorCloses : String → Option Decimal)
    (riskParams : RiskParameters) : Except Exc Lifecycle.RiskDecision := do
  let marks := resolveMarksAtOpen openPositions dayCandles priorCloses
  let decision ← Risk.Engine.evaluate
    { symbol, entryPrice := fillPrice, stopPrice := stopInitial, clientIntentId
      signalIntentKind := .longEntry, strategyApproved := true, atr14 := some atr14 }
    (buildAccountState walletCash openPositions marks) constraints
    (toPositionStates openPositions marks) (toOpenOrders pendingIntents) processedIntentIds riskParams
  pure ⟨decision.approved, decision.roundedQuantity, decision.reasonCodes⟩

end Risk

section Calendar

variable (config : BacktestConfig) (bundle : HistoricalDataBundle)

def evaluationTimeForDaily (c : CandleOf String) : Time := c.closeTime + 5 * second

def candleAt (candles : List (CandleOf String)) (openTime : Time) : Option (CandleOf String) :=
  candles.findRev? (·.openTime = openTime)

def buildTimeline : List Time :=
  ((config.symbols.flatMap fun symbol => (bundle.daily symbol).map (·.openTime)).dedup).insertionSort (· ≤ ·)

def dayCandles (openTime : Time) : String → Option (CandleOf String) := fun symbol =>
  if symbol ∈ config.symbols then candleAt (bundle.daily symbol) openTime else none

def priorClose (candles : List (CandleOf String)) (beforeOpen : Time) : Option Decimal := do
  let prior ← ((candles.map (·.openTime)).filter (· < beforeOpen)).max?
  (candleAt candles prior).map (·.close)

def priorCloses (beforeOpen : Time) : String → Option Decimal := fun symbol =>
  if symbol ∈ config.symbols then priorClose (bundle.daily symbol) beforeOpen else none

def getConstraints (symbol : String) : Except Exc SymbolConstraints :=
  match config.symbolConstraints symbol with
  | none => .error (.valueError ("Missing symbol constraints for " ++ symbol))
  | some constraints => .ok constraints

end Calendar

section Exits

def safeR (initialRisk : Option Decimal) (netPnl : Decimal) : Option Decimal :=
  match initialRisk with
  | none => none
  | some risk => if risk = 0 then none else some (netPnl / risk)

def closeTrade (trade : BacktestTrade) (candle : CandleOf String) (trigger : StopTriggerResult)
    (exit : ExitAccounting) (history : List TrailingStopSnapshot) : BacktestTrade :=
  let fees := trade.fees + exit.fee
  let net := exit.grossPnl - fees - trade.funding
  { trade with
    exitTime := some candle.openTime
    exitReason := some trigger.exitReason
    exitReferencePrice := some trigger.exitReference
    exitFillPrice := some exit.fillPrice
    grossPnl := some exit.grossPnl
    fees
    slippageCost := trade.slippageCost + exit.slippageCost
    netPnl := some net
    rMultiple := safeR trade.initialRiskUsd net
    holdingPeriodDays := some ((candle.openTime - trade.entryTime) / day)
    trailingStopHistory := history }

def settleTrade (rt : Runtime) (symbol : String) (candle : CandleOf String) (trigger : StopTriggerResult)
    (exit : ExitAccounting) : Runtime :=
  match rt.activeTrades.get? symbol with
  | none => rt
  | some trade =>
    let closed := closeTrade trade candle trigger exit ((rt.trailHistory.get? symbol).getD [])
    { rt with
      activeTrades := rt.activeTrades.erase symbol
      closedTrades := rt.closedTrades ++ [closed]
      realizedPnl := rt.realizedPnl + closed.netPnl.getD 0 }

def closePosition (config : BacktestConfig) (rt : Runtime) (symbol : String) (candle : CandleOf String)
    (pos : SimulatedPositionOf String) (trigger : StopTriggerResult) : Runtime :=
  let exit := computeExitAccounting trigger.exitReference pos.quantity pos.entryPrice config.slippageBps
    config.exitFeeRate
  let rt := { rt with
    cash := rt.cash + exit.netWalletDelta
    totalFees := rt.totalFees + exit.fee
    totalSlippage := rt.totalSlippage + exit.slippageCost }
  let rt := settleTrade rt symbol candle trigger exit
  { rt with
    positions := rt.positions.erase symbol
    trailHistory := rt.trailHistory.erase symbol }

def checkStopExit (config : BacktestConfig) (rt : Runtime) (symbol : String) (candle : CandleOf String)
    (atOpen : Bool) : Runtime :=
  match rt.positions.get? symbol with
  | none => rt
  | some pos =>
    match Engine.checkStopExit pos candle atOpen with
    | none => rt
    | some trigger => closePosition config rt symbol candle pos trigger

end Exits

section Entries

variable (config : BacktestConfig)

def markTerminalIntent (rt : Runtime) (intent : Models.PendingIntent) (status : OrderStatus)
    (quantity referencePrice : Option Decimal := none) : Runtime :=
  { rt with
    processedIntentIds := intent.clientIntentId :: rt.processedIntentIds
    intentOrders := rt.intentOrders.set intent.clientIntentId
      { clientIntentId := intent.clientIntentId, symbol := intent.symbol, status, quantity, referencePrice } }

def rejectIntent (rt : Runtime) (intent : Models.PendingIntent) (symbol : String) (time : Time)
    (reasonCodes : List ReasonCode) : Runtime :=
  let rt := markTerminalIntent rt intent .rejected
  { rt with rejections := rt.rejections ++
      [{ time, symbol, clientIntentId := intent.clientIntentId, reasonCodes
         strategyReasonCodes := intent.strategyReasonCodes }] }

def buildSimulatedPositionFromEntry (symbol : String) (quantity fillPrice : Decimal) (entryTime : Time)
    (accounting : EntryAccounting) (atr14 : Decimal) : SimulatedPositionOf String :=
  { symbol, quantity, entryTime
    entryPrice := fillPrice
    initialStop := accounting.trailState.stopInitial
    trailStop := accounting.trailState.trailStop
    effectiveStop := accounting.trailState.effectiveStop
    highestClose := accounting.trailState.highestClose
    entryAtr14 := atr14
    marginReserved := accounting.marginReserved }

def openPosition (rt : Runtime) (intent : Models.PendingIntent) (symbol : String) (candle : CandleOf String)
    (prices : EntryFillComputation) (decision : Lifecycle.RiskDecision) (accounting : EntryAccounting) :
    Runtime :=
  let pos := buildSimulatedPositionFromEntry symbol accounting.quantity prices.fillPrice candle.openTime
    accounting intent.atr14
  let history : List TrailingStopSnapshot := [⟨candle.openTime, pos.trailStop, pos.effectiveStop⟩]
  let trade : BacktestTrade :=
    { symbol
      clientIntentId := intent.clientIntentId
      strategyVersion := intent.strategyVersion
      entryType := intent.entryType
      strategyReasonCodes := intent.strategyReasonCodes
      riskReasonCodes := decision.reasonCodes
      signalTime := intent.signalTime
      orderTime := intent.orderTime
      entryTime := candle.openTime
      entryReferencePrice := candle.openPrice
      entryFillPrice := prices.fillPrice
      quantity := accounting.quantity
      initialStop := prices.stopInitial
      trailingStopHistory := history
      fees := accounting.fee
      slippageCost := accounting.slippageCost
      initialRiskUsd := some accounting.initialRiskUsd }
  let rt := { rt with
    cash := rt.cash - accounting.fee
    totalFees := rt.totalFees + accounting.fee
    totalSlippage := rt.totalSlippage + accounting.slippageCost
    positions := rt.positions.set symbol pos
    trailHistory := rt.trailHistory.set symbol history
    activeTrades := rt.activeTrades.set symbol trade }
  markTerminalIntent rt intent .filled (some accounting.quantity) (some candle.openPrice)

variable (dayCandles : String → Option (CandleOf String)) (priorCloses : String → Option Decimal)

def fillIntent (symbol : String) (candle : CandleOf String) (rt : Runtime) (intent : Models.PendingIntent) :
    Except Exc Runtime :=
  if intent.clientIntentId ∈ rt.processedIntentIds then .ok rt
  else do
    let constraints ← getConstraints config symbol
    let prices ← computeEntryFillPrices candle.openPrice intent.atr14 config.slippageBps
      config.strategyParams constraints.priceTickSize
    let decision ← evaluateEntryRiskDecision symbol prices.fillPrice prices.stopInitial
      intent.clientIntentId intent.atr14 constraints rt.cash rt.positions.values rt.pendingIntents
      rt.processedIntentIds dayCandles priorCloses config.riskParams
    match decision.approved, decision.roundedQuantity with
    | true, some quantity => do
      let accounting ← computeEntryAccounting prices.fillPrice candle.openPrice quantity prices.stopInitial
        config.entryFeeRate config.riskParams.maxLeverage config.strategyParams constraints.priceTickSize
        intent.atr14
      if rt.cash < accounting.fee then
        pure (rejectIntent rt intent symbol candle.openTime [.rejectLeverage])
      else
        pure (checkStopExit config (openPosition rt intent symbol candle prices decision accounting) symbol
          candle true)
    | _, _ =>
      pure (rejectIntent rt intent symbol candle.openTime (filterRejectionReasonCodes decision))

def fillPendingAtOpen (rt : Runtime) (symbol : String) (candle : CandleOf String) : Except Exc Runtime :=
  let toFill := rt.pendingIntents.filter (·.symbol = symbol)
  let rt := { rt with pendingIntents := rt.pendingIntents.filter (·.symbol ≠ symbol) }
  toFill.foldlM (fillIntent config dayCandles priorCloses symbol candle) rt

end Entries

section Days

variable (config : BacktestConfig) (bundle : HistoricalDataBundle)

/-- Positive rates are paid by the position. -/
def chargeFunding (symbol : String) (notional : Decimal) (rt : Runtime) (rate : Decimal) : Runtime :=
  let payment := notional * rate
  { rt with
    cash := rt.cash - payment
    totalFunding := rt.totalFunding + payment
    activeTrades := match rt.activeTrades.get? symbol with
      | none => rt.activeTrades
      | some trade => rt.activeTrades.set symbol { trade with funding := trade.funding + payment } }

def fundingRates (symbol : String) (candle : CandleOf String) : List Decimal :=
  match config.fundingModel.assumedRate with
  | some rate => [rate]
  | none => ((bundle.funding symbol).filter fun e =>
    candle.openTime ≤ e.timestamp ∧ e.timestamp ≤ candle.closeTime).map (·.fundingRate)

def applyFunding (rt : Runtime) (symbol : String) (candle : CandleOf String) : Runtime :=
  match rt.positions.get? symbol with
  | none => rt
  | some pos => (fundingRates config bundle symbol candle).foldl
      (chargeFunding symbol (pos.quantity * pos.entryPrice)) rt

def queueIntent (rt : Runtime) (symbol : String) (evalTime : Time)
    (evaluation : StrategyEvaluationOf String) : Runtime :=
  match evaluation.signalIntent.kind, evaluation.selectedEntryType, evaluation.signalIntent.stopInitial,
    evaluation.atr with
  | .longEntry, some entryType, some stopPrice, some atr14 =>
    let intentId := buildClientIntentId symbol evaluation.strategyVersion evalTime entryType
    if intentId ∈ rt.processedIntentIds ∨ symbol ∈ rt.positions.keys ∨
        rt.pendingIntents.any (·.symbol = symbol) then rt
    else { rt with pendingIntents := rt.pendingIntents ++
      [{ clientIntentId := intentId
         symbol
         strategyVersion := evaluation.strategyVersion
         entryType
         strategyReasonCodes := evaluation.reasonCodes
         signalTime := evalTime
         orderTime := evalTime
         signalClosePrice := evaluation.signalIntent.entryPrice.getD 0
         stopPrice
         atr14
         strategyEvaluation := evaluation }] }
  | _, _, _, _ => rt

def strategyAndQueue (rt : Runtime) (symbol : String) (evalTime : Time) : Except Exc Runtime := do
  let evaluation ← Strategy.Engine.evaluate
    (buildCandleSeries symbol .daily (bundle.daily symbol) evalTime)
    (buildCandleSeries symbol .weekly (bundle.weekly symbol) evalTime)
    (buildCandleSeries symbol .monthly (bundle.monthly symbol) evalTime) evalTime config.strategyParams
  pure (queueIntent { rt with evaluations := rt.evaluations ++ [evaluation] } symbol evalTime evaluation)

def updateTrailing (rt : Runtime) (symbol : String) (candle : CandleOf String) (evalTime : Time) :
    Except Exc Runtime :=
  match rt.positions.get? symbol with
  | none => .ok rt
  | some pos =>
    let dailyClosed := sliceClosedCandles (bundle.daily symbol) evalTime
    if dailyClosed.isEmpty then .ok rt
    else do
      let evaluationAtr := (rt.evaluations.findRev? (·.symbol = symbol)).bind (·.atr)
      let constraints ← getConstraints config symbol
      let updated ← Engine.updateTrailing pos dailyClosed candle evaluationAtr config.strategyParams
        constraints.priceTickSize
      pure { rt with
             positions := rt.positions.set symbol updated
             trailHistory := rt.trailHistory.set symbol ((rt.trailHistory.get? symbol).getD [] ++
               [⟨evalTime, updated.trailStop, updated.effectiveStop⟩]) }

def takeSnapshot (rt : Runtime) (openTime evalTime : Time) : Runtime :=
  let closes := fun symbol => (dayCandles config bundle openTime symbol).map (·.close)
  let unrealized := computeUnrealizedPnl rt.positions.values closes
  let equity := rt.cash + unrealized
  { rt with
    peakEquity := max rt.peakEquity equity
    equityCurve := rt.equityCurve ++
      [{ time := evalTime, cash := rt.cash, equity, unrealizedPnl := unrealized
         openPositions := rt.positions.keys.length }] }

/-- The steps of a backtest. Each but the last is made for one symbol of the day. -/
inductive Step
  | fill (openTime : Time) (symbol : String)
  | stop (openTime : Time) (symbol : String)
  | funding (openTime : Time) (symbol : String)
  | strategy (openTime : Time) (symbol : String)
  | trailing (openTime evalTime : Time) (symbol : String)
  | snapshot (openTime evalTime : Time)
deriving DecidableEq, Repr

def Step.openTime : Step → Time
  | .fill t _ | .stop t _ | .funding t _ | .strategy t _ | .trailing t _ _ | .snapshot t _ => t

def onCandle (openTime : Time) (symbol : String) (rt : Runtime)
    (work : CandleOf String → Except Exc Runtime) : Except Exc Runtime :=
  match dayCandles config bundle openTime symbol with
  | none => .ok rt
  | some candle => work candle

def applyStep (rt : Runtime) : Step → Except Exc Runtime
  | .fill t symbol => onCandle config bundle t symbol rt fun candle =>
    fillPendingAtOpen config (dayCandles config bundle t) (priorCloses config bundle t) rt symbol candle
  | .stop t symbol => onCandle config bundle t symbol rt fun candle =>
    .ok (checkStopExit config rt symbol candle false)
  | .funding t symbol => onCandle config bundle t symbol rt fun candle =>
    .ok (applyFunding config bundle rt symbol candle)
  | .strategy t symbol => onCandle config bundle t symbol rt fun candle =>
    strategyAndQueue config bundle rt symbol (evaluationTimeForDaily candle)
  | .trailing t evalTime symbol => onCandle config bundle t symbol rt fun candle =>
    updateTrailing config bundle rt symbol candle evalTime
  | .snapshot t evalTime => .ok (takeSnapshot config bundle rt t evalTime)

def daySteps (openTime : Time) : List Step :=
  match config.symbols.findSome? (dayCandles config bundle openTime) with
  | none => []
  | some first =>
    let evalTime := evaluationTimeForDaily first
    config.symbols.map (.fill openTime) ++ config.symbols.map (.stop openTime) ++
    (if config.fundingModel.enabled then config.symbols.map (.funding openTime) else []) ++
    config.symbols.map (.strategy openTime) ++ config.symbols.map (.trailing openTime evalTime) ++
    [.snapshot openTime evalTime]

def steps : List Step := (buildTimeline config bundle).flatMap (daySteps config bundle)

def start : Runtime :=
  { cash := config.initialCash
    peakEquity := config.initialCash
    processedIntentIds := config.initialProcessedIntentIds }

def runSteps (steps : List Step) : Except Exc Runtime := steps.foldlM (applyStep config bundle) (start config)

def buildResult (rt : Runtime) : List Time → BacktestResult
  | [] =>
    { dataStart := none, dataEnd := none, startCapital := config.initialCash
      endCapital := config.initialCash, trades := [], openPositions := [], equityCurve := []
      riskRejections := [], strategyEvaluations := [], totalFees := 0, totalFunding := 0
      totalSlippage := 0 }
  | first :: rest =>
    let last := (first :: rest).getLastD first
    let endMarks := fun symbol => (dayCandles config bundle last symbol).map (·.close)
    { dataStart := some first
      dataEnd := some last
      startCapital := config.initialCash
      endCapital := computeEquity rt.cash rt.positions.values endMarks
      trades := rt.closedTrades ++ rt.activeTrades.values
      openPositions := rt.positions.values
      equityCurve := rt.equityCurve
      riskRejections := rt.rejections
      strategyEvaluations := rt.evaluations
      totalFees := rt.totalFees
      totalFunding := rt.totalFunding
      totalSlippage := rt.totalSlippage }

def run : Except Exc BacktestResult := do
  let rt ← runSteps config bundle (steps config bundle)
  pure (buildResult config bundle rt (buildTimeline config bundle))

end Days

end TradingBot.Backtester.Simulation
