import TradingBot.Market.Aggregation
import TradingBot.Market.BundleFacts
import TradingBot.Market.Ingest

namespace TradingBot.Market.AggregatedBundle

open Market.Models Market.Repository Market.Quality Market.Aggregation Market.Bundle Exceptions

section Definitions

/-- The candles of a timeframe, one for each open time, and the aggregated ones that do not agree with them. -/
structure Merge where
  byOpen : List Candle
  conflicts : List CandleConflict := []

/-- A period that has no candle yet takes the aggregated one. -/
def mergeAggregated (symbol : Symbol) (timeframe : Timeframe) (m : Merge) (aggregated : Candle) : Merge :=
  if aggregated.symbol ≠ symbol ∨ aggregated.timeframe ≠ timeframe then m
  else
    match m.byOpen.find? (·.openTime = aggregated.openTime) with
    | none => { m with byOpen := m.byOpen ++ [aggregated] }
    | some existing =>
      if existing = aggregated then m
      else { m with
             conflicts := m.conflicts ++ [⟨⟨symbol, timeframe, aggregated.openTime⟩, existing, aggregated⟩] }

/-- Neither source is preferred silently: where they disagree the native candle stays with a conflict. -/
def mergeNativeAndAggregated (native aggregated : List Candle) (symbol : Symbol) (timeframe : Timeframe) :
    List Candle × List CandleConflict :=
  let byOpen := native.filter fun c => c.symbol = symbol ∧ c.timeframe = timeframe
  let m := aggregated.foldl (mergeAggregated symbol timeframe) { byOpen }
  (sortCandles m.byOpen, m.conflicts)

def resolveHigherTimeframe (r : CandleRepository) (dailyClosed : List Candle) (symbol : Symbol)
    (timeframe : Timeframe) (evaluationTime : Time) (aggregateHigherTimeframes : Bool) :
    Except Exc (List Candle × List CandleConflict) :=
  let native := r.getClosedBefore symbol timeframe evaluationTime
  if !aggregateHigherTimeframes then .ok (native, [])
  else
    match timeframe with
    | .weekly => do
      let aggregated ← aggregateWeeklyFromDaily dailyClosed symbol evaluationTime
      pure (mergeNativeAndAggregated native aggregated symbol timeframe)
    | .monthly => do
      let aggregated ← aggregateMonthlyFromDaily dailyClosed symbol evaluationTime
      pure (mergeNativeAndAggregated native aggregated symbol timeframe)
    | .daily => .ok (native, [])

def filterClosedCandles (candles : List Candle) (evaluationTime : Time) : List Candle :=
  candles.filter fun c => isCandleClosed c.closeTime evaluationTime

def closedReport (closed : List Candle) (symbol : Symbol) (timeframe : Timeframe) (evaluationTime : Time)
    (conflicts : List CandleConflict) : Except Exc DataQualityReport := do
  let gaps ← detectGaps closed symbol timeframe (gapCheckTime closed evaluationTime timeframe)
  validateSeries closed symbol timeframe evaluationTime gaps conflicts

structure Minimums where
  daily : ℕ
  weekly : ℕ
  monthly : ℕ

def Minimums.of (minimum : Minimums) : Timeframe → ℕ
  | .daily => minimum.daily
  | .weekly => minimum.weekly
  | .monthly => minimum.monthly

def buildStrategyBundle (r : CandleRepository) (symbol : Symbol) (evaluationTime : Time) (minimum : Minimums)
    (aggregateHigherTimeframes : Bool) : Except Exc StrategyDataBundle := do
  let dailyClosed := r.getClosedBefore symbol .daily evaluationTime
  let dailyReport ← closedReport dailyClosed symbol .daily evaluationTime
    (conflictsFor r.conflicts symbol .daily)
  let (weeklyAll, weeklyMergeConflicts) ←
    resolveHigherTimeframe r dailyClosed symbol .weekly evaluationTime aggregateHigherTimeframes
  let (monthlyAll, monthlyMergeConflicts) ←
    resolveHigherTimeframe r dailyClosed symbol .monthly evaluationTime aggregateHigherTimeframes
  let weeklyClosed := filterClosedCandles weeklyAll evaluationTime
  let monthlyClosed := filterClosedCandles monthlyAll evaluationTime
  let weeklyReport ← closedReport weeklyClosed symbol .weekly evaluationTime
    (conflictsFor r.conflicts symbol .weekly ++ weeklyMergeConflicts)
  let monthlyReport ← closedReport monthlyClosed symbol .monthly evaluationTime
    (conflictsFor r.conflicts symbol .monthly ++ monthlyMergeConflicts)
  let merged := mergeReports dailyReport [weeklyReport, monthlyReport]
  let insufficient := dailyClosed.length < minimum.daily ∨ weeklyClosed.length < minimum.weekly ∨
    monthlyClosed.length < minimum.monthly
  let report := if insufficient then
      { merged with
        status := if merged.status = .invalid then .invalid else .incomplete
        reasonCodes := (merged.reasonCodes ++ [MarketDataReasonCode.incomplete]).eraseDups }
    else merged
  pure
    { symbol, evaluationTime, report
      daily := toSeries dailyClosed symbol .daily minimum.daily
      weekly := toSeries weeklyClosed symbol .weekly minimum.weekly
      monthly := toSeries monthlyClosed symbol .monthly minimum.monthly }

end Definitions

end TradingBot.Market.AggregatedBundle

namespace TradingBot.Market.Service

open Market.Models Market.Repository Market.Quality Market.Bundle Market.AggregatedBundle Market.Provider Market.Ingest
open Exceptions

abbrev BackfillProvider := Symbol → Timeframe → List CandleGap → ℕ → Except Exc (List RawCandle)

abbrev HistoricalCandleProvider := Symbol → Timeframe → Time → Time → ℕ → Except Exc (List RawCandle)

def reportFromIngest (result : IngestResult) (evaluationTime : Time) : DataQualityReport :=
  { status := if result.rejected ≠ [] ∨ result.conflicts ≠ [] then .invalid else .valid
    reasonCodes := if result.reasonCodes = [] then [.invalid] else result.reasonCodes
    conflicts := result.conflicts
    evaluationTime }

def mergeBackfillReasonCodes (report : DataQualityReport) (gaps : List CandleGap) : DataQualityReport :=
  let codes := report.reasonCodes
  let codes := if gaps ≠ [] ∧ .gapDetected ∉ codes then .gapDetected :: codes else codes
  let codes := if .backfillFailed ∈ codes then codes else codes ++ [.backfillFailed]
  { report with
    status := .incomplete
    reasonCodes := codes.eraseDups }

def normalizeBatchOf (raws : List RawCandle) (evaluationTime : Time) (expectedSymbol : Option Symbol) :
    Except Exc (List Candle) := do
  let normalized ← normalizeBatch raws evaluationTime
  match expectedSymbol with
  | none => pure normalized
  | some expected =>
    match normalized.find? (·.symbol ≠ expected) with
    | some c => .error (.valueError ("Expected symbol " ++ expected.value ++ ", got " ++ c.symbol.value))
    | none => pure normalized

structure MarketDataService where
  repository : CandleRepository := {}
  historical : Option HistoricalCandleProvider := none
  backfill : Option BackfillProvider := none

namespace MarketDataService

def ingestRaw (s : MarketDataService) (raws : List RawCandle) (evaluationTime : Time)
    (expectedSymbol : Option Symbol := none) : Except Exc (MarketDataService × ℕ × Option DataQualityReport) :=
  let rejectedCodes := raws.flatMap validateRawCandle
  let validRaws := raws.filter fun raw => validateRawCandle raw = []
  if rejectedCodes ≠ [] ∧ validRaws = [] then
    .ok (s, 0, some { status := .invalid, reasonCodes := rejectedCodes.eraseDups, evaluationTime })
  else do
    let normalized ← normalizeBatchOf validRaws evaluationTime expectedSymbol
    let g ← ingestNormalized s.repository normalized
    let result := g.result
    let s := { s with repository := g.repository }
    if rejectedCodes ≠ [] then
      pure (s, result.inserted, some
        { status := .invalid
          reasonCodes := (rejectedCodes ++ result.reasonCodes).eraseDups
          conflicts := result.conflicts
          evaluationTime })
    else if result.conflicts ≠ [] then do
      let sample := normalized.head?
      let symbol := expectedSymbol.getD ((sample.map (·.symbol)).getD .BTC)
      let timeframe := (sample.map (·.timeframe)).getD .daily
      let report ← validateSeries (s.repository.getClosedBefore symbol timeframe evaluationTime) symbol timeframe
        evaluationTime [] result.conflicts
      pure (s, result.inserted, some report)
    else if result.rejected ≠ [] then
      pure (s, result.inserted, some (reportFromIngest result evaluationTime))
    else pure (s, result.inserted, none)

def loadHistory (s : MarketDataService) (symbol : Symbol) (timeframe : Timeframe) (start stop evaluationTime : Time)
    (limit : ℕ := 500) : Except Exc (MarketDataService × ℕ × Option DataQualityReport) :=
  match s.historical with
  | none => .error (.runtimeError "Historical provider not configured")
  | some historical => do
    let raws ← historical symbol timeframe start stop limit
    s.ingestRaw raws evaluationTime (some symbol)

/-- Only the report after an ingest looks at the recorded conflicts. -/
def attemptBackfill (s : MarketDataService) (symbol : Symbol) (timeframe : Timeframe) (evaluationTime : Time)
    (limit : ℕ := 500) : Except Exc (MarketDataService × DataQualityReport) := do
  let candles := s.repository.getClosedBefore symbol timeframe evaluationTime
  let gaps ← detectGaps candles symbol timeframe evaluationTime
  match s.backfill with
  | none => do
    let report ← validateSeries candles symbol timeframe evaluationTime gaps []
    pure (s, mergeBackfillReasonCodes report gaps)
  | some backfill =>
    if gaps = [] then do
      let report ← validateSeries candles symbol timeframe evaluationTime [] []
      pure (s, report)
    else do
      let raws ← backfill symbol timeframe gaps limit
      if raws = [] then do
        let report ← validateSeries candles symbol timeframe evaluationTime gaps []
        pure (s, mergeBackfillReasonCodes report gaps)
      else do
        let (s, _) ← s.ingestRaw raws evaluationTime (some symbol)
        let refreshed := s.repository.getClosedBefore symbol timeframe evaluationTime
        let remainingGaps ← detectGaps refreshed symbol timeframe evaluationTime
        let report ← validateSeries refreshed symbol timeframe evaluationTime remainingGaps
          (conflictsFor s.repository.conflicts symbol timeframe)
        pure (s, if remainingGaps ≠ [] then mergeBackfillReasonCodes report remainingGaps else report)

def backfillTimeframe (symbol : Symbol) (evaluationTime : Time) (s : MarketDataService) (timeframe : Timeframe) :
    Except Exc MarketDataService := do
  let (s, _) ← s.attemptBackfill symbol timeframe evaluationTime
  pure s

def buildStrategyBundle (s : MarketDataService) (symbol : Symbol) (evaluationTime : Time) (minimum : Minimums)
    (backfill : Bool := true) (aggregateHigherTimeframes : Bool := true) :
    Except Exc (MarketDataService × StrategyDataBundle) := do
  let s ← if backfill then [Timeframe.daily, .weekly, .monthly].foldlM (backfillTimeframe symbol evaluationTime) s
    else pure s
  let bundle ← AggregatedBundle.buildStrategyBundle s.repository symbol evaluationTime minimum
    aggregateHigherTimeframes
  pure (s, bundle)

def storeNormalized (s : MarketDataService) (candles : List Candle) : Except Exc (MarketDataService × IngestResult) := do
  let g ← ingestNormalized s.repository candles
  pure ({ s with repository := g.repository }, g.result)

end MarketDataService

end TradingBot.Market.Service
