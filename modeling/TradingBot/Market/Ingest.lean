import TradingBot.Market.Provider
import TradingBot.Market.Quality

namespace TradingBot.Market.Ingest

open Market.Models Market.Repository Market.Timeframes Market.Quality Market.Provider Exceptions

def canonicalTimeBounds (raw : RawCandle) : Except Exc (Time × Time) :=
  match raw.timeframe with
  | .daily =>
    let openTime := dailyOpen raw.openTime
    .ok (openTime, dailyClose openTime)
  | .weekly => do
    let openTime := weeklyOpenContaining raw.openTime
    let closeTime ← weeklyClose openTime
    pure (openTime, closeTime)
  | .monthly => do
    let date := civilDate (dayNumber raw.openTime)
    let openTime := monthlyOpen date.year date.month
    let closeTime ← monthlyClose openTime
    pure (openTime, closeTime)

def normalizeRawCandle (raw : RawCandle) (evaluationTime : Time) : Except Exc Candle := do
  let symbol ← resolveInternalSymbol raw.providerSymbol
  let (openTime, closeTime) ← canonicalTimeBounds raw
  pure {
    symbol
    timeframe := raw.timeframe
    openTime
    closeTime
    openPrice := raw.openPrice
    high := raw.high
    low := raw.low
    close := raw.close
    volume := raw.volume
    isClosed := raw.isClosed && isCandleClosed closeTime evaluationTime }

/-- Decimals here are finite, so only the sign of the volume is left to look at. -/
def validateRawCandle (raw : RawCandle) : List MarketDataReasonCode :=
  codeIf (raw.volume < 0) .invalidVolume

structure IngestResult where
  inserted : ℕ := 0
  identicalSkipped : ℕ := 0
  rejected : List (List MarketDataReasonCode) := []
  conflicts : List CandleConflict := []
  reasonCodes : List MarketDataReasonCode := []
deriving DecidableEq, Repr

namespace IngestResult

def reject (result : IngestResult) (codes : List MarketDataReasonCode) : IngestResult :=
  { result with
    rejected := result.rejected ++ [codes]
    reasonCodes := result.reasonCodes ++ codes }

/-- What an upsert returned: whether a candle was stored, and the conflict found. -/
def record (result : IngestResult) : Bool × Option CandleConflict → IngestResult
  | (_, some conflict) =>
    { result with
      conflicts := result.conflicts ++ [conflict]
      reasonCodes := result.reasonCodes ++ [.duplicateConflict] }
  | (true, none) => { result with inserted := result.inserted + 1 }
  | (false, none) =>
    { result with
      identicalSkipped := result.identicalSkipped + 1
      reasonCodes := result.reasonCodes ++ [.duplicateIdentical] }

def finish (result : IngestResult) : IngestResult :=
  { result with reasonCodes := result.reasonCodes.eraseDups }

end IngestResult

def upsertReturn (r : CandleRepository) (c : Candle) : Bool × Option CandleConflict :=
  match r.get? c.key with
  | none => (true, none)
  | some existing => if existing = c then (false, none) else (false, some ⟨c.key, existing, c⟩)

def upsertLiveReturn (r : CandleRepository) (c : Candle) (evaluationTime : Time) :
    Bool × Option CandleConflict :=
  match r.get? c.key with
  | none => (true, none)
  | some existing =>
    if existing = c then (false, none)
    else if !existing.isClosed && c.isClosed then (true, none)
    else if !isCandleClosed existing.closeTime evaluationTime then (true, none)
    else (false, some ⟨c.key, existing, c⟩)

structure Ingestion where
  repository : CandleRepository
  result : IngestResult := {}

def ingestNormalizedCandle (g : Ingestion) (c : Candle) : Except Exc Ingestion := do
  let codes ← validateCandleStructure c
  if codes ≠ [] then pure { g with result := g.result.reject codes }
  else pure ⟨g.repository.upsert c, g.result.record (upsertReturn g.repository c)⟩

def ingestNormalized (r : CandleRepository) (candles : List Candle) : Except Exc Ingestion := do
  let g ← candles.foldlM ingestNormalizedCandle { repository := r }
  pure { g with result := g.result.finish }

def ingestLiveCandle (evaluationTime : Time) (g : Ingestion) (raw : RawCandle) : Except Exc Ingestion :=
  if validateRawCandle raw ≠ [] then .ok { g with result := g.result.reject (validateRawCandle raw) }
  else do
    let c ← normalizeRawCandle raw evaluationTime
    let codes ← validateCandleStructure c
    if codes ≠ [] then pure { g with result := g.result.reject codes }
    else pure ⟨g.repository.upsertLive c evaluationTime,
      g.result.record (upsertLiveReturn g.repository c evaluationTime)⟩

def ingestLiveRaw (r : CandleRepository) (raws : List RawCandle) (evaluationTime : Time) :
    Except Exc Ingestion := do
  let g ← raws.foldlM (ingestLiveCandle evaluationTime) { repository := r }
  pure { g with result := g.result.finish }

def normalizeBatch (raws : List RawCandle) (evaluationTime : Time) : Except Exc (List Candle) :=
  raws.mapM (normalizeRawCandle · evaluationTime)

def ingestRawBatch (r : CandleRepository) (raws : List RawCandle) (evaluationTime : Time) :
    Except Exc Ingestion := do
  let normalized ← normalizeBatch (raws.filter fun raw => validateRawCandle raw = []) evaluationTime
  ingestNormalized r normalized

end TradingBot.Market.Ingest
