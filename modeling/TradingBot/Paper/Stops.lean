import TradingBot.Backtester.Lifecycle
import TradingBot.Paper.Repository

namespace TradingBot.Paper.Stops

open Market.Models Strategy.Models Exceptions Constraints Backtester.Lifecycle
open Library.Transaction Paper.Models Paper.Repository

def paperPositionToSimulated (p : PaperPosition) : SimulatedPosition :=
  { symbol := p.symbol
    quantity := p.quantity
    entryPrice := p.averageEntryPrice
    entryTime := p.openedAt
    initialStop := p.initialStop
    trailStop := p.currentStop
    effectiveStop := p.currentStop
    highestClose := p.highestCloseSinceEntry
    entryAtr14 := p.entryAtr14
    marginReserved := p.marginReserved }

def captureSnapshot (evaluationTime : Time) (event : String) : Query (PortfolioSnapshot × Bool) := do
  match ← getWallet with
  | none => raise (.lookupError "paper_wallet not seeded")
  | some wallet => do
    let openPositions := (← getOpenPositions).map paperPositionToSimulated
    let marks := resolveMarksAtOpen openPositions (fun _ => none) (fun _ => none)
    let snapshotId ← newId
    scope <| insertOrGetPortfolioSnapshot
      { snapshotId
        evaluationTime
        cash := wallet.cash
        marginUsed := computeUsedMargin openPositions
        equity := computeEquity wallet.cash openPositions marks
        unrealizedPnl := computeUnrealizedPnl openPositions marks
        realizedPnl := wallet.totalRealizedPnl
        totalOpenRisk := currentOpenRisk openPositions marks
        openPositionCount := openPositions.length
        event }

section Trailing

structure StopUpdateResult where
  positionId : Id
  updated : Bool
  previousStop : Option Decimal := none
  newStop : Option Decimal := none
deriving DecidableEq, Repr

def trailingState (p : PaperPosition) : TrailingStopState :=
  { entryPrice := p.averageEntryPrice
    stopInitial := p.initialStop
    highestClose := p.highestCloseSinceEntry
    trailStop := p.currentStop
    effectiveStop := p.currentStop }

def raiseStop (updated : TrailingStopState) (p : PaperPosition) : PaperPosition :=
  { p with
    currentStop := updated.effectiveStop
    highestCloseSinceEntry := updated.highestClose
    version := p.version + 1 }

def persistRaisedStop (position : PaperPosition) (updated : TrailingStopState) (atr : Decimal)
    (evaluationTime : Time) : Query Bool := do
  let stopEventId ← newId
  let created ← insertOrGetStopEvent
    { stopEventId
      positionId := position.positionId
      previousStop := position.currentStop
      newStop := updated.effectiveStop
      highestClose := updated.highestClose
      atr
      evaluationTime }
  if created then
    match ← getPosition position.positionId with
    | none => raise .assertionError
    | some _ => do
      updatePosition position.positionId (raiseStop updated)
      pure true
  else pure false

def updateTrailingStopOf (evaluationTime : Time) (position : PaperPosition) (candle : Option Candle)
    (evaluationAtr : Option Decimal) (constraints : Option SymbolConstraints)
    (params : StrategyParameters) : Query StopUpdateResult := do
  let unchanged : StopUpdateResult := { positionId := position.positionId, updated := false }
  match candle, constraints with
  | some candle, some constraints =>
    if !candle.isClosed then pure unchanged
    else do
      let atr := evaluationAtr.getD position.entryAtr14
      let updated ← ofExcept (computeTrailingStopUpdate (trailingState position) candle.close atr
        params constraints.priceTickSize)
      if updated.effectiveStop ≤ position.currentStop then
        pure { unchanged with
               previousStop := some position.currentStop, newStop := some position.currentStop }
      else do
        if ← scope (persistRaisedStop position updated atr evaluationTime) then do
          let _ ← captureSnapshot evaluationTime "trailing_stop_update"
          pure { positionId := position.positionId, updated := true
                 previousStop := some position.currentStop, newStop := some updated.effectiveStop }
        else pure unchanged
  | _, _ => pure unchanged

def updateTrailingStopForSymbol (evaluationTime : Time) (dailyCandles : BySymbol Candle)
    (evaluationAtrBySymbol : BySymbol Decimal) (constraintsBySymbol : BySymbol SymbolConstraints)
    (params : StrategyParameters) (symbol : Symbol) : Query (Option StopUpdateResult) := do
  match ← getOpenPositionForSymbol symbol with
  | none => pure none
  | some position => do
    let result ← updateTrailingStopOf evaluationTime position (dailyCandles symbol)
      (evaluationAtrBySymbol symbol) (constraintsBySymbol symbol) params
    pure (some result)

def updateDailyTrailingStops (evaluationTime : Time) (dailyCandles : BySymbol Candle)
    (evaluationAtrBySymbol : BySymbol Decimal) (constraintsBySymbol : BySymbol SymbolConstraints)
    (params : StrategyParameters) : Query (List (Option StopUpdateResult)) :=
  forEach symbolProcessingOrder
    (updateTrailingStopForSymbol evaluationTime dailyCandles evaluationAtrBySymbol
      constraintsBySymbol params)

end Trailing

section Triggers

structure StopCloseResult where
  positionId : Id
  closed : Bool
  symbol : Symbol
deriving DecidableEq, Repr

inductive StopCheck
  | atOpen | intradayOnly | fullCandle
deriving DecidableEq, Repr

def stopTrigger (check : StopCheck) (candle : Candle) (p : SimulatedPosition) :
    Option StopTriggerResult :=
  match check with
  | .atOpen => computeGapStopAtOpen candle p.effectiveStop
  | .intradayOnly => computeIntradayStop candle p.effectiveStop p.initialStop p.trailStop
  | .fullCandle => computeStopTrigger candle p.effectiveStop p.initialStop p.trailStop

def exitFill (fillId : Id) (position : PaperPosition) (trigger : StopTriggerResult)
    (exit : ExitAccounting) (processTime : Time) : PaperFill :=
  { fillId
    paperOrderId := none
    positionId := some position.positionId
    fillKind := .exit
    symbol := position.symbol
    quantity := position.quantity
    marketOpenPrice := trigger.exitReference
    slippage := exit.slippageCost
    fillPrice := exit.fillPrice
    fee := exit.fee
    fillTime := processTime
    candleKey := processTime
    fillSequence := 0
    deterministicFillKey := .exit position.positionId (wholeSeconds processTime) }

def exitDelta (exit : ExitAccounting) : WalletDelta :=
  { cash := exit.netWalletDelta
    realizedPnl := exit.grossPnl - exit.fee
    fees := exit.fee
    slippage := exit.slippageCost }

def closePosition (exit : ExitAccounting) (processTime : Time) (p : PaperPosition) : PaperPosition :=
  { p with
    status := .closed
    closedAt := some processTime
    realizedPnl := exit.grossPnl - exit.fee
    unrealizedPnl := 0
    marginReserved := 0
    version := p.version + 1 }

def persistExit (position : PaperPosition) (trigger : StopTriggerResult) (exit : ExitAccounting)
    (processTime : Time) : Query Bool := do
  match ← getPosition position.positionId with
  | none => pure false
  | some row =>
    if row.status = .closed then pure false
    else do
      let fillId ← newId
      let (_, created) ← insertOrGetPaperFill (exitFill fillId position trigger exit processTime)
      if created then do
        updatePosition position.positionId fun p => { p with status := .closing }
        updateWallet (exitDelta exit)
        updatePosition position.positionId (closePosition exit processTime)
        pure true
      else pure false

def closeIfStopped (config : PaperTradingConfig) (check : StopCheck) (position : PaperPosition)
    (candle : Candle) (processTime : Time) (constraints : Option SymbolConstraints) :
    Query StopCloseResult := do
  let notClosed : StopCloseResult := ⟨position.positionId, false, position.symbol⟩
  match constraints, stopTrigger check candle (paperPositionToSimulated position) with
  | some _, some trigger => do
    let exit := computeExitAccounting trigger.exitReference position.quantity
      position.averageEntryPrice config.paperSlippageBps config.paperFeeRate
    if ← scope (persistExit position trigger exit processTime) then do
      let _ ← captureSnapshot processTime "position_close"
      pure ⟨position.positionId, true, position.symbol⟩
    else pure notClosed
  | _, _ => pure notClosed

def closeSymbolIfStopped (config : PaperTradingConfig) (check : StopCheck) (processTime : Time)
    (candles : BySymbol Candle) (constraintsBySymbol : BySymbol SymbolConstraints)
    (symbol : Symbol) : Query (Option StopCloseResult) := do
  match ← getOpenPositionForSymbol symbol, candles symbol with
  | some position, some candle => do
    let result ← closeIfStopped config check position candle processTime (constraintsBySymbol symbol)
    pure (some result)
  | _, _ => pure none

def processStopTriggersForDailyCandle (config : PaperTradingConfig) (processTime : Time)
    (dailyCandles : BySymbol Candle) (constraintsBySymbol : BySymbol SymbolConstraints)
    (atOpen : Bool) : Query (List (Option StopCloseResult)) :=
  forEach symbolProcessingOrder
    (closeSymbolIfStopped config (if atOpen then .atOpen else .fullCandle) processTime dailyCandles
      constraintsBySymbol)

/-- Closed candles are passed over: only the low known so far counts. -/
def processIntradayStopTriggers (config : PaperTradingConfig) (processTime : Time)
    (previewCandles : BySymbol Candle) (constraintsBySymbol : BySymbol SymbolConstraints) :
    Query (List (Option StopCloseResult)) :=
  forEach symbolProcessingOrder
    (closeSymbolIfStopped config .intradayOnly processTime
      (fun symbol => (previewCandles symbol).filter (!·.isClosed)) constraintsBySymbol)

end Triggers

end TradingBot.Paper.Stops
