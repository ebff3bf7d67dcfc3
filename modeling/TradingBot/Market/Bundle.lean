import TradingBot.Market.Quality
import TradingBot.Strategy.Models

namespace TradingBot.Market.Bundle

open Market.Models Market.Repository Market.Quality Strategy.Models Exceptions

structure StrategyDataBundle where
  symbol : Symbol
  evaluationTime : Time
  daily : CandleSeries
  weekly : CandleSeries
  monthly : CandleSeries
  report : DataQualityReport
deriving DecidableEq, Repr

def StrategyDataBundle.isUsable (b : StrategyDataBundle) : Bool := b.report.status = .valid

def statusPriority : Quality.DataQualityStatus → ℕ
  | .invalid => 4
  | .incomplete => 3
  | .stale | .disconnected => 2
  | .valid => 0

def worstStatus (first : DataQualityReport) (rest : List DataQualityReport) : Quality.DataQualityStatus :=
  rest.foldl (fun worst r => if statusPriority worst < statusPriority r.status then r.status else worst)
    first.status

def mergeReports (first : DataQualityReport) (rest : List DataQualityReport) : DataQualityReport :=
  let reports := first :: rest
  let status := worstStatus first rest
  { status
    reasonCodes := if status = .valid then [.valid] else (reports.flatMap (·.reasonCodes)).eraseDups
    gaps := reports.flatMap (·.gaps)
    conflicts := reports.flatMap (·.conflicts)
    evaluationTime := first.evaluationTime }

def conflictsFor (conflicts : List CandleConflict) (symbol : Symbol) (timeframe : Timeframe) :
    List CandleConflict :=
  conflicts.filter fun c => c.key.symbol = symbol ∧ c.key.timeframe = timeframe

def gapCheckTime (closed : List Candle) (evaluationTime : Time) (timeframe : Timeframe) : Time :=
  match timeframe, closed.getLast? with
  | .daily, _ | _, none => evaluationTime
  | _, some last => min evaluationTime last.closeTime

def toSeries (candles : List Candle) (symbol : Symbol) (timeframe : Timeframe) (minimum : ℕ) :
    CandleSeries :=
  let selected := if minimum = 0 then candles else candles.drop (candles.length - minimum)
  { symbol, timeframe, candles := selected.map fun c => { c with isClosed := true } }

def timeframeReport (r : CandleRepository) (symbol : Symbol) (evaluationTime : Time)
    (timeframe : Timeframe) : Except Exc DataQualityReport := do
  let closed := r.getClosedBefore symbol timeframe evaluationTime
  let gaps ← detectGaps closed symbol timeframe (gapCheckTime closed evaluationTime timeframe)
  validateSeries closed symbol timeframe evaluationTime gaps (conflictsFor r.conflicts symbol timeframe)

/-- The bundle of native candles, as the paper runtime asks for it (nothing is aggregated). -/
def getStrategyBundle (r : CandleRepository) (symbol : Symbol) (evaluationTime : Time)
    (dailyMinimum weeklyMinimum monthlyMinimum : ℕ) : Except Exc StrategyDataBundle := do
  let daily := r.getClosedBefore symbol .daily evaluationTime
  let weekly := r.getClosedBefore symbol .weekly evaluationTime
  let monthly := r.getClosedBefore symbol .monthly evaluationTime
  let dailyReport ← timeframeReport r symbol evaluationTime .daily
  let weeklyReport ← timeframeReport r symbol evaluationTime .weekly
  let monthlyReport ← timeframeReport r symbol evaluationTime .monthly
  let merged := mergeReports dailyReport [weeklyReport, monthlyReport]
  let insufficient := daily.length < dailyMinimum ∨ weekly.length < weeklyMinimum ∨
    monthly.length < monthlyMinimum
  let report := if insufficient then
      { merged with
        status := if merged.status = .invalid then .invalid else .incomplete
        reasonCodes := (merged.reasonCodes ++ [MarketDataReasonCode.incomplete]).eraseDups }
    else merged
  pure
    { symbol, evaluationTime, report
      daily := toSeries daily symbol .daily dailyMinimum
      weekly := toSeries weekly symbol .weekly weeklyMinimum
      monthly := toSeries monthly symbol .monthly monthlyMinimum }

def minDailyCandles : ℕ := 21

def minWeeklyCandles : ℕ := 50

def minMonthlyCandles : ℕ := 20

def paperBundle (r : CandleRepository) (symbol : Symbol) (evaluationTime : Time) :
    Except Exc StrategyDataBundle :=
  getStrategyBundle r symbol evaluationTime minDailyCandles minWeeklyCandles minMonthlyCandles

end TradingBot.Market.Bundle
