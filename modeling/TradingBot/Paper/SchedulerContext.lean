import TradingBot.Market.Bundle
import TradingBot.Paper.Lifecycle
import TradingBot.Strategy.Engine

namespace TradingBot.Paper.SchedulerContext

open Market.Models Market.Repository Market.Bundle Strategy.Models Exceptions Constraints
open Backtester.Lifecycle Library.Transaction Paper.Models Paper.Repository Paper.Execution
open Paper.Lifecycle

/-- Builds the inputs of the scheduler's jobs from stored market data. -/
structure ContextBuilder where
  config : PaperTradingConfig
  constraints : BySymbol SymbolConstraints
  strategyParams : StrategyParameters := {}
  candles : CandleRepository
  marketDataReady : Bool

structure EvaluationContext where
  bundle : StrategyDataBundle
  strategyParams : StrategyParameters
  entryGates : EntryGateContext

/-- The keyword arguments of the stop jobs, one kind for each of the handlers that register them. -/
inductive StopContext
  | atOpen (dailyCandles : BySymbol Candle) (constraintsBySymbol : BySymbol SymbolConstraints)
  | atClose (dailyCandles : BySymbol Candle) (evaluationAtrBySymbol : BySymbol Decimal)
      (constraintsBySymbol : BySymbol SymbolConstraints) (strategyParams : StrategyParameters)
  | intraday (previewCandles : BySymbol Candle) (constraintsBySymbol : BySymbol SymbolConstraints)

section Evaluation

def evaluationTimeForDaily (c : Candle) : Time := c.closeTime + 5 * second

structure EvaluationResult where
  evaluation : StrategyEvaluationRecord
  created : Bool
  intent : Option TradeIntent
  intentCreated : Bool
  blockedReasons : List String

def lastOpenTime (series : CandleSeries) (default : Time) : Time :=
  (series.candles.getLast?.map (·.openTime)).getD default

def recordEvaluation (config : PaperTradingConfig) (row : StrategyEvaluationRecord)
    (entryGates : EntryGateContext) (authorizationAt : Time) (marketDataReady : Bool) :
    Query EvaluationResult := do
  let (evaluation, created) ← insertOrGetStrategyEvaluation row
  if row.result.signalIntent.kind = .longEntry then do
    let (intent, intentCreated, blocked) ← createIntentFromEvaluation config evaluation row.result
      entryGates row.createdAt authorizationAt marketDataReady
    pure ⟨evaluation, created, intent, intentCreated, blocked⟩
  else pure ⟨evaluation, created, none, false, []⟩

def evaluateSymbolForDailyClose (config : PaperTradingConfig) (symbol : Symbol) (evaluationTime : Time)
    (ctx : EvaluationContext) (authorizationAt : Time) (marketDataReady : Bool) :
    Query EvaluationResult := do
  if !ctx.bundle.isUsable then raise (.valueError "market data not ready")
  else match ctx.bundle.daily.candles.getLast? with
  | none => raise (.valueError "no closed daily candles available")
  | some lastDaily =>
    if evaluationTime < evaluationTimeForDaily lastDaily then
      raise (.valueError "evaluation_time before daily close event")
    else do
      let result ← ofExcept (Strategy.Engine.evaluate ctx.bundle.daily ctx.bundle.weekly
        ctx.bundle.monthly evaluationTime ctx.strategyParams)
      let evaluationId ← newId
      scope (recordEvaluation config
        { evaluationId, symbol, evaluationTime, result
          dailyCandleOpenTime := lastDaily.openTime
          weeklyCandleKey := lastOpenTime ctx.bundle.weekly lastDaily.openTime
          monthlyCandleKey := lastOpenTime ctx.bundle.monthly lastDaily.openTime
          strategyVersion := result.strategyVersion
          createdAt := evaluationTime }
        ctx.entryGates authorizationAt marketDataReady)

end Evaluation

namespace ContextBuilder

variable (b : ContextBuilder)

def requireValidConstraints (symbol : Symbol) : Query SymbolConstraints :=
  ofExcept (requireValidProductionConstraints symbol (b.constraints symbol))

def bundle (symbol : Symbol) (evaluationTime : Time) : Query StrategyDataBundle :=
  ofExcept (paperBundle b.candles symbol evaluationTime)

def runtimeGates : Query (Bool × Bool × Bool) := do
  match ← getRuntimeState with
  | none => pure (false, false, false)
  | some runtime =>
    pure (decide (runtime.status = .ready) && !runtime.killSwitch && !runtime.paused, runtime.paused,
      runtime.killSwitch)

def notUsable (symbol : Symbol) : Exc :=
  .retryableContextNotReady ("strategy bundle not usable for " ++ symbol.value)

def buildEvaluationContext (symbol : Symbol) (evaluationTime : Time) : Query EvaluationContext := do
  let _ ← b.requireValidConstraints symbol
  let bundle ← b.bundle symbol evaluationTime
  if !bundle.isUsable then raise (notUsable symbol)
  else do
    let (entryReady, paused, kill) ← runtimeGates
    let entryGates ← buildEntryGateContext symbol entryReady b.marketDataReady paused kill
    pure { bundle, strategyParams := b.strategyParams, entryGates }

def atrForTrailingUpdate (position : PaperPosition) (latest : Option StrategyEvaluationRecord) : Decimal :=
  (latest.bind (·.result.atr)).getD position.entryAtr14

def buildStopContextForClose (symbol : Symbol) (evaluationTime : Time) : Query StopContext := do
  let constraints ← b.requireValidConstraints symbol
  let bundle ← b.bundle symbol evaluationTime
  match bundle.daily.candles.getLast? with
  | none => raise (.retryableContextNotReady ("daily history missing for " ++ symbol.value))
  | some lastDaily =>
    if !lastDaily.isClosed then
      raise (.retryableContextNotReady ("latest daily candle not closed for " ++ symbol.value))
    else do
      let position ← getOpenPositionForSymbol symbol
      let evaluations ← listEvaluations 100
      let atr := position.map fun p => atrForTrailingUpdate p (evaluations.find? (·.symbol = symbol))
      pure (.atClose (BySymbol.single symbol lastDaily) (fun s => if s = symbol then atr else none)
        (BySymbol.single symbol constraints) b.strategyParams)

def openOnlyStrategyCandle (c : Candle) : Candle :=
  { c with high := c.openPrice, low := c.openPrice, close := c.openPrice, isClosed := false }

/-- The gap stop looks at the open only. -/
def gapCheckStrategyCandle (c : Candle) : Candle := { c with low := c.openPrice }

def priorCloses (openTime : Time) : BySymbol Decimal := fun symbol =>
  if symbol ∈ b.config.symbols then
    (b.candles.getClosedBefore symbol .daily openTime).getLast?.map (·.close)
  else none

def fillContext (symbol : Symbol) (openCandle : Candle) (atr14 : Decimal)
    (constraints : SymbolConstraints) : FillProcessingContext :=
  { openRef := openCandle.openPrice
    atr14
    candleOpenTime := openCandle.openTime
    constraints
    strategyParams := b.strategyParams
    executionConfig := PaperExecutionConfig.fromTradingConfig b.config
    dayCandles := BySymbol.single symbol (openOnlyStrategyCandle openCandle)
    priorCloses := b.priorCloses openCandle.openTime }

def atrNotAvailable (symbol : Symbol) : Exc :=
  .retryableContextNotReady ("atr14 not available for " ++ symbol.value)

/-- The ATR at the open comes from a new evaluation of the days before. -/
def buildOpenContexts (symbol : Symbol) (openCandle : Candle) :
    Query (BySymbol FillProcessingContext × StopContext) := do
  let constraints ← b.requireValidConstraints symbol
  let bundle ← b.bundle symbol openCandle.openTime
  if !bundle.isUsable || bundle.daily.candles.isEmpty then raise (notUsable symbol)
  else do
    let evaluation ← ofExcept (Strategy.Engine.evaluate bundle.daily bundle.weekly bundle.monthly
      openCandle.openTime b.strategyParams)
    match evaluation.atr with
    | none => raise (atrNotAvailable symbol)
    | some atr14 =>
      if atr14 ≤ 0 then raise (atrNotAvailable symbol)
      else
        let stop := StopContext.atOpen (BySymbol.single symbol (gapCheckStrategyCandle openCandle))
          (BySymbol.single symbol constraints)
        pure (BySymbol.single symbol (b.fillContext symbol openCandle atr14 constraints), stop)

def buildIntradayStopContext (symbol : Symbol) (liveCandle : Candle) : Query StopContext := do
  let constraints ← b.requireValidConstraints symbol
  if liveCandle.isClosed then
    raise (.retryableContextNotReady ("live candle closed for " ++ symbol.value))
  else pure (.intraday (BySymbol.single symbol liveCandle) (BySymbol.single symbol constraints))

end ContextBuilder

end TradingBot.Paper.SchedulerContext
