import TradingBot.Strategy.Indicators
import TradingBot.Strategy.Stops
import TradingBot.Strategy.Validation

namespace TradingBot.Strategy.Engine

open Market.Models Exceptions Strategy.Models Strategy.Indicators Strategy.Stops Strategy.Validation

variable {σ : Type}

section Filters

def evaluateMonthlyRegime (monthlyClose ema20Monthly : Option Decimal) : RegimeResult :=
  match monthlyClose, ema20Monthly with
  | some close, some ema =>
    let regimeLong := decide (ema < close)
    { regimeLong, monthlyClose, ema20Monthly
      reasonCode := if regimeLong then none else some .rejectRegime }
  | _, _ => { regimeLong := false, monthlyClose, ema20Monthly, reasonCode := some .rejectWarmup }

def evaluateWeeklyTrend (ema20Weekly ema50Weekly : Option Decimal) : TrendResult :=
  match ema20Weekly, ema50Weekly with
  | some fast, some slow =>
    let trendConfirmed := decide (slow < fast)
    { trendConfirmed, ema20Weekly, ema50Weekly
      reasonCode := if trendConfirmed then none else some .rejectTrend }
  | _, _ => { trendConfirmed := false, ema20Weekly, ema50Weekly, reasonCode := some .rejectWarmup }

end Filters

section Setups

def evaluateVolumeOk (volumeRatio : Option Decimal) (volumeRatioMin : Decimal) : Bool :=
  volumeRatio.any (volumeRatioMin ≤ ·)

def evaluateBreakoutSetup (close : Decimal) (high20 ema20Daily : Option Decimal)
    (regime : RegimeResult) (trend : TrendResult) (volumeOk : Bool) : EntrySetupResult :=
  let priceCondition := high20.any (· < close)
  let aboveEma := ema20Daily.any (· < close)
  { breakoutEntry :=
      priceCondition && aboveEma && regime.regimeLong && trend.trendConfirmed && volumeOk
    breakoutPriceCondition := priceCondition
    closeAboveEma20 := aboveEma
    volumeOk
    high20 }

def evaluatePullbackSetup (close low : Decimal) (closePrev ema20Daily ema20DailyPrev : Option Decimal)
    (regime : RegimeResult) (trend : TrendResult) (volumeOk : Bool) (params : StrategyParameters) :
    EntrySetupResult :=
  match ema20Daily with
  | none => { volumeOk }
  | some ema =>
    let emaTouchUpper := decimalResult (ema * decimalResult (1 + params.pullbackEmaTolerance))
    let p1 := decide (ema < close)
    let p2 := decide (low ≤ emaTouchUpper)
    let p3 := match closePrev, ema20DailyPrev with
      | some prev, some emaPrev => decide (emaPrev < prev)
      | _, _ => false
    { pullbackEntry := p1 && p2 && p3 && regime.regimeLong && trend.trendConfirmed && volumeOk
      closeAboveEma20 := p1
      volumeOk
      emaTouchUpper := some emaTouchUpper
      pullbackConditions := ⟨p1, p2, p3, regime.regimeLong, trend.trendConfirmed, volumeOk⟩ }

def resolveEntryPriority (breakout pullback : EntrySetupResult) : Option (EntryType × ReasonCode) :=
  if breakout.breakoutEntry then some (.breakout, .entryBreakout20d)
  else if pullback.pullbackEntry then some (.pullback, .entryPullbackEma20)
  else none

end Setups

section Evaluation

/-- What the decision reads of the series at their last candles. -/
structure Observation where
  evaluationIndex : ℤ
  close : Decimal
  low : Decimal
  closePrev : Option Decimal
  ema20Daily : Option Decimal
  ema20DailyPrev : Option Decimal
  atr14 : Option Decimal
  volumeRatio : Option Decimal
  high20 : Option Decimal
  ema20Weekly : Option Decimal
  ema50Weekly : Option Decimal
  ema20Monthly : Option Decimal
  monthlyClose : Decimal
deriving DecidableEq, Repr

def Observation.indicators (o : Observation) : IndicatorSnapshot :=
  { evaluationIndex := o.evaluationIndex
    ema20Daily := o.ema20Daily
    ema20Weekly := o.ema20Weekly
    ema50Weekly := o.ema50Weekly
    ema20Monthly := o.ema20Monthly
    atr14Daily := o.atr14
    volumeRatio := o.volumeRatio
    high20 := o.high20
    monthlyClose := some o.monthlyClose }

def emptyRegime : RegimeResult := { regimeLong := false, reasonCode := some .rejectWarmup }

def emptyTrend : TrendResult := { trendConfirmed := false, reasonCode := some .rejectWarmup }

def buildNoEntryEvaluation (symbol : σ) (evaluationTime : Time) (parameters : StrategyParameters)
    (dataQualityStatus : DataQualityStatus) (kind : SignalIntentKind) (reasonCodes : List ReasonCode)
    (errors : List (StrategyError σ)) (monthlyRegime : RegimeResult := emptyRegime)
    (weeklyTrend : TrendResult := emptyTrend)
    (indicators : IndicatorSnapshot := { evaluationIndex := -1 })
    (breakoutResult pullbackResult : EntrySetupResult := {}) (volumeRatio atr : Option Decimal := none) :
    StrategyEvaluationOf σ :=
  { symbol, evaluationTime, parameters, monthlyRegime, weeklyTrend, breakoutResult, pullbackResult
    indicators, volumeRatio, atr, reasonCodes, dataQualityStatus, errors
    strategyVersion := Models.strategyVersion
    selectedEntryType := none
    signalIntent := { kind, primaryReasonCode := reasonCodes.head? } }

def noEntryReasons (regime : RegimeResult) (trend : TrendResult) (volumeOk : Bool) : List ReasonCode :=
  let reasons := (if regime.regimeLong then [] else regime.reasonCode.toList) ++
    (if trend.trendConfirmed then [] else trend.reasonCode.toList) ++
    (if volumeOk then [] else [.rejectVolume])
  if reasons = [] then [.rejectNoSignal] else reasons

def completeEvaluation (symbol : σ) (evaluationTime : Time) (params : StrategyParameters)
    (errors : List (StrategyError σ)) (o : Observation) (breakoutResult pullbackResult : EntrySetupResult)
    (selectedEntryType : Option EntryType) (signalIntent : SignalIntent)
    (reasonCodes : List ReasonCode) : StrategyEvaluationOf σ :=
  { symbol, evaluationTime, errors, reasonCodes, breakoutResult, pullbackResult, selectedEntryType
    signalIntent
    strategyVersion := Models.strategyVersion
    parameters := params
    monthlyRegime := evaluateMonthlyRegime (some o.monthlyClose) o.ema20Monthly
    weeklyTrend := evaluateWeeklyTrend o.ema20Weekly o.ema50Weekly
    indicators := o.indicators
    volumeRatio := o.volumeRatio
    atr := o.atr14
    dataQualityStatus := .ok }

def decideWith (symbol : σ) (evaluationTime : Time) (params : StrategyParameters)
    (errors : List (StrategyError σ)) (o : Observation) (atr14 : Decimal) : Except Exc (StrategyEvaluationOf σ) := do
  let regime := evaluateMonthlyRegime (some o.monthlyClose) o.ema20Monthly
  let trend := evaluateWeeklyTrend o.ema20Weekly o.ema50Weekly
  let volumeOk := evaluateVolumeOk o.volumeRatio params.volumeRatioMin
  let breakout := evaluateBreakoutSetup o.close o.high20 o.ema20Daily regime trend volumeOk
  let pullback := evaluatePullbackSetup o.close o.low o.closePrev o.ema20Daily o.ema20DailyPrev
    regime trend volumeOk params
  let stopInitial ← computeInitialStop o.close atr14 params none
  match resolveEntryPriority breakout pullback with
  | some (entryType, reason) =>
    if o.close ≤ stopInitial then
      pure (buildNoEntryEvaluation symbol evaluationTime params .ok .noEntry [.rejectData] errors
        regime trend o.indicators breakout pullback o.volumeRatio o.atr14)
    else
      let intent : SignalIntent :=
        { kind := .longEntry, entryType := some entryType, entryPrice := some o.close
          stopInitial := some stopInitial, primaryReasonCode := some reason }
      pure (completeEvaluation symbol evaluationTime params errors o breakout pullback (some entryType)
        intent [reason])
  | none =>
    let reasonCodes := noEntryReasons regime trend volumeOk
    let intent : SignalIntent := { kind := .noEntry, primaryReasonCode := reasonCodes.getLast? }
    pure (completeEvaluation symbol evaluationTime params errors o breakout pullback none intent
      reasonCodes)

def decideSignal (symbol : σ) (evaluationTime : Time) (params : StrategyParameters)
    (errors : List (StrategyError σ)) (o : Observation) : Except Exc (StrategyEvaluationOf σ) :=
  let notReady := buildNoEntryEvaluation symbol evaluationTime params .insufficientHistory
    .insufficientHistory [.rejectWarmup] errors
    (evaluateMonthlyRegime (some o.monthlyClose) o.ema20Monthly)
    (evaluateWeeklyTrend o.ema20Weekly o.ema50Weekly) o.indicators {} {} o.volumeRatio o.atr14
  match o.ema20Daily, o.atr14, o.volumeRatio, o.ema20Weekly, o.ema50Weekly, o.ema20Monthly with
  | some _, some atr14, some _, some _, some _, some _ =>
    if atr14 ≤ 0 then .ok notReady else decideWith symbol evaluationTime params errors o atr14
  | _, _, _, _, _, _ => .ok notReady

/-- The indicators of three series that are not empty. -/
def observe (daily weekly monthly : List (CandleOf σ)) (params : StrategyParameters) :
    Except Exc Observation := do
  let t := daily.length - 1
  let closes := daily.map (·.close)
  let ema20Daily ← computeEma closes params.dailyEmaPeriod
  let atr14 ← computeWilderAtr daily params.atrPeriod
  let volumeRatio ← computeVolumeRatio (daily.map (·.volume)) params.volumeSmaPeriod
  let high20 ← computeHigh20 (daily.map (·.high)) params.breakoutLookback
  let weeklyCloses := weekly.map (·.close)
  let ema20Weekly ← computeEma weeklyCloses params.weeklyEmaFast
  let ema50Weekly ← computeEma weeklyCloses params.weeklyEmaSlow
  let monthlyCloses := monthly.map (·.close)
  let ema20Monthly ← computeEma monthlyCloses params.monthlyEmaPeriod
  pure
    { evaluationIndex := t
      close := closes.getLastD 0
      low := (daily.map (·.low)).getLastD 0
      closePrev := if 1 ≤ t then closes[t - 1]? else none
      ema20Daily := ema20Daily.at t
      ema20DailyPrev := if 1 ≤ t then ema20Daily.at (t - 1) else none
      atr14 := atr14.at t
      volumeRatio := volumeRatio.at t
      high20 := high20.at t
      ema20Weekly := ema20Weekly.at (weekly.length - 1)
      ema50Weekly := ema50Weekly.at (weekly.length - 1)
      ema20Monthly := ema20Monthly.at (monthly.length - 1)
      monthlyClose := monthlyCloses.getLastD 0 }

def evaluate [DecidableEq σ] (daily weekly monthly : CandleSeriesOf σ) (evaluationTime : Time)
    (params : StrategyParameters) : Except Exc (StrategyEvaluationOf σ) :=
  match [weekly, monthly].find? (·.symbol ≠ daily.symbol) with
  | some series => .ok (buildNoEntryEvaluation daily.symbol evaluationTime params .invalidData
      .invalidData [.rejectData] [rejectData "Symbol mismatch across timeframes"
        (.symbols daily.symbol series.symbol)])
  | none =>
    let (dailyStatus, dailyErrors) := validateCandleSeries daily evaluationTime (some .daily)
    let (weeklyStatus, weeklyErrors) := validateCandleSeries weekly evaluationTime (some .weekly)
    let (monthlyStatus, monthlyErrors) := validateCandleSeries monthly evaluationTime (some .monthly)
    let errors := dailyErrors ++ weeklyErrors ++ monthlyErrors
    if dailyStatus = .invalidData ∨ weeklyStatus = .invalidData ∨ monthlyStatus = .invalidData then
      .ok (buildNoEntryEvaluation daily.symbol evaluationTime params .invalidData .invalidData
        [.rejectData] errors)
    else if (dailyStatus = .insufficientHistory ∨ weeklyStatus ≠ .ok ∨ monthlyStatus ≠ .ok) ∧
        !checkWarmupComplete daily.candles.length weekly.candles.length monthly.candles.length params then
      .ok (buildNoEntryEvaluation daily.symbol evaluationTime params .insufficientHistory
        .insufficientHistory [.rejectWarmup] errors)
    else do
      let o ← observe daily.candles weekly.candles monthly.candles params
      decideSignal daily.symbol evaluationTime params errors o

end Evaluation

end TradingBot.Strategy.Engine
