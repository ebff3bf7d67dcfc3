import TradingBot.Market.Repository
import TradingBot.Market.Timeframes

namespace TradingBot.Market.Quality

open Market.Models Market.Repository Market.Timeframes Exceptions

inductive DataQualityStatus
  | valid | stale | incomplete | invalid | disconnected
deriving DecidableEq, Repr

inductive MarketDataReasonCode
  | valid | stale | incomplete | invalid | disconnected | duplicateIdentical | duplicateConflict
  | gapDetected | backfillFailed | openCandleExcluded | futureCandle | invalidOhlc | invalidVolume
  | invalidTimeframe | unknownSymbol
deriving DecidableEq, Repr

structure CandleGap where
  symbol : Symbol
  timeframe : Timeframe
  missingOpenTime : Time
  expectedCloseTime : Time
deriving DecidableEq, Repr

structure DataQualityReport where
  status : DataQualityStatus
  reasonCodes : List MarketDataReasonCode := []
  gaps : List CandleGap := []
  conflicts : List CandleConflict := []
  evaluationTime : Time
deriving DecidableEq, Repr

def sortCandles (candles : List Candle) : List Candle :=
  candles.insertionSort fun a b => a.openTime ≤ b.openTime

section Gaps

/-- The cursor goes from open to open; every step is at least one day, which bounds the steps. -/
def stepsUntil (cursor stop : Time) : ℕ := ((stop - cursor) / day).toNat + 1

def gapAt (symbol : Symbol) (timeframe : Timeframe) (cursor : Time) : Except Exc CandleGap := do
  let close ← expectedCloseTime cursor timeframe
  pure ⟨symbol, timeframe, cursor, close⟩

def gapsBetween (symbol : Symbol) (timeframe : Timeframe) (stop : Time) :
    ℕ → Time → Except Exc (List CandleGap)
  | 0, _ => .ok []
  | fuel + 1, cursor =>
    if stop ≤ cursor then .ok []
    else do
      let gap ← gapAt symbol timeframe cursor
      let rest ← gapsBetween symbol timeframe stop fuel (nextOpenTime cursor timeframe)
      pure (gap :: rest)

def trailingGaps (symbol : Symbol) (timeframe : Timeframe) (evaluationTime : Time) :
    ℕ → Time → Except Exc (List CandleGap)
  | 0, _ => .ok []
  | fuel + 1, cursor =>
    if evaluationTime < cursor then .ok []
    else do
      let gap ← gapAt symbol timeframe cursor
      if evaluationTime < gap.expectedCloseTime then pure []
      else do
        let rest ← trailingGaps symbol timeframe evaluationTime fuel (nextOpenTime cursor timeframe)
        pure (gap :: rest)

def innerGaps (symbol : Symbol) (timeframe : Timeframe) : List Candle → Except Exc (List CandleGap)
  | current :: next :: rest => do
    let cursor := nextOpenTime current.openTime timeframe
    let gaps ← gapsBetween symbol timeframe next.openTime (stepsUntil cursor next.openTime) cursor
    let others ← innerGaps symbol timeframe (next :: rest)
    pure (gaps ++ others)
  | _ => .ok []

def detectGaps (candles : List Candle) (symbol : Symbol) (timeframe : Timeframe)
    (evaluationTime : Time) : Except Exc (List CandleGap) := do
  let sorted := sortCandles candles
  let inner ← innerGaps symbol timeframe sorted
  match sorted.getLast? with
  | none => pure inner
  | some last => do
    let cursor := nextOpenTime last.openTime timeframe
    let trailing ← trailingGaps symbol timeframe evaluationTime (stepsUntil cursor evaluationTime) cursor
    pure (inner ++ trailing)

end Gaps

section Validation

def codeIf (condition : Bool) (code : MarketDataReasonCode) : List MarketDataReasonCode :=
  if condition then [code] else []

/-- Decimals here are finite and symbols known, so those two codes cannot come up. -/
def validateCandleStructure (c : Candle) : Except Exc (List MarketDataReasonCode) := do
  let durationOk ← isValidTimeframeDuration c.openTime c.closeTime c.timeframe
  pure (codeIf (c.openPrice ≤ 0 ∨ c.high ≤ 0 ∨ c.low ≤ 0 ∨ c.close ≤ 0) .invalidOhlc ++
    codeIf (c.volume < 0) .invalidVolume ++
    codeIf (c.high < c.openPrice ∨ c.high < c.close ∨ c.high < c.low) .invalidOhlc ++
    codeIf (c.openPrice < c.low ∨ c.close < c.low ∨ c.high < c.low) .invalidOhlc ++
    codeIf (c.closeTime ≤ c.openTime) .invalidTimeframe ++
    codeIf (!durationOk) .invalidTimeframe).eraseDups

def validateSingleCandle (c : Candle) (evaluationTime : Time) :
    Except Exc (List MarketDataReasonCode) := do
  let codes ← validateCandleStructure c
  pure (codes ++ codeIf (!isCandleClosed c.closeTime evaluationTime) .futureCandle).eraseDups

/-- The codes of the candles in order; `seen` holds the candles before, the last one first. -/
def seriesCodes (symbol : Symbol) (timeframe : Timeframe) (evaluationTime : Time) :
    List Candle → List Candle → Except Exc (List MarketDataReasonCode)
  | _, [] => .ok []
  | seen, c :: cs => do
    let single ← validateSingleCandle c evaluationTime
    let rest ← seriesCodes symbol timeframe evaluationTime (c :: seen) cs
    pure (codeIf (c.symbol ≠ symbol ∨ c.timeframe ≠ timeframe) .invalid ++ single ++
      codeIf (seen.any (·.openTime = c.openTime)) .duplicateConflict ++
      codeIf (seen.head?.any (c.openTime ≤ ·.closeTime)) .invalid ++
      codeIf (seen.head?.any (c.openTime ≤ ·.openTime)) .invalid ++ rest)

def invalidatingCodes : List MarketDataReasonCode :=
  [.invalidOhlc, .invalidVolume, .invalidTimeframe, .duplicateConflict, .unknownSymbol]

def statusOf (codes : List MarketDataReasonCode) : DataQualityStatus :=
  if codes.any invalidatingCodes.contains then .invalid
  else if codes.contains .gapDetected then .incomplete
  else if codes = [] then .valid
  else .invalid

def validateSeries (candles : List Candle) (symbol : Symbol) (timeframe : Timeframe)
    (evaluationTime : Time) (gaps : List CandleGap) (conflicts : List CandleConflict) :
    Except Exc DataQualityReport :=
  if candles = [] then .ok { status := .incomplete, reasonCodes := [.incomplete], evaluationTime }
  else do
    let codes ← seriesCodes symbol timeframe evaluationTime [] (sortCandles candles)
    let codes := (codeIf (sortCandles candles ≠ candles) .invalid ++ codes ++
      codeIf (gaps ≠ []) .gapDetected ++ codeIf (conflicts ≠ []) .duplicateConflict).eraseDups
    let reasonCodes := if codes = [] then [.valid] else codes
    pure { status := statusOf codes, reasonCodes, gaps, conflicts, evaluationTime }

end Validation

end TradingBot.Market.Quality
