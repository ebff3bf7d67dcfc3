import TradingBot.Market.ContentHash
import TradingBot.Market.Quality
import TradingBot.Research.Models

namespace TradingBot.Research.DatasetBinding

open Market.Models Market.Quality Market.ContentHash Market.Timeframes Exceptions
open Backtester.Models Research.Models
open Library.Outcome (except_bind_eq_ok)

/-- A published dataset. Its id is derived from its content when the manifest is parsed. -/
structure DatasetManifest where
  symbols : List Symbol
  startTimestamp : Time
  endTimestamp : Time
  contentHash : String
  datasetId : String
  qualityStatus : DataQualityStatus := .valid
  allowQualityWarnings : Bool := false
deriving DecidableEq, Repr

def statusValue : DataQualityStatus → String
  | .valid => "VALID"
  | .stale => "STALE"
  | .incomplete => "INCOMPLETE"
  | .invalid => "INVALID"
  | .disconnected => "DISCONNECTED"

def requireManifestResearchUsable (manifest : DatasetManifest) : Except Exc Unit :=
  match manifest.qualityStatus with
  | .valid => .ok ()
  | .invalid | .disconnected =>
    .error (.valueError ("DatasetManifest quality_status " ++ statusValue manifest.qualityStatus ++
      " is quarantined and cannot be used for research runs"))
  | .stale | .incomplete =>
    if manifest.allowQualityWarnings then .ok ()
    else .error (.valueError ("DatasetManifest quality_status " ++ statusValue manifest.qualityStatus ++
      " requires allow_quality_warnings=true"))

def TimeRange.contains (range : TimeRange) (t : Time) : Bool := range.start ≤ t ∧ t ≤ range.finish

def candleInRange (c : CandleOf String) (range : TimeRange) : Bool := TimeRange.contains range c.openTime

def filterBundleToTimeRange (bundle : HistoricalDataBundle) (range : TimeRange) (symbols : List String) :
    HistoricalDataBundle where
  daily s := if s ∈ symbols then (bundle.daily s).filter (candleInRange · range) else []
  weekly s := if s ∈ symbols then (bundle.weekly s).filter (candleInRange · range) else []
  monthly s := if s ∈ symbols then (bundle.monthly s).filter (candleInRange · range) else []
  funding s := if s ∈ symbols then (bundle.funding s).filter (TimeRange.contains range ·.timestamp) else []

def Symbol.ofValue (value : String) : Option Symbol := [Symbol.BTC, .ETH, .SOL].find? (·.value = value)

def toNormalized (c : CandleOf String) : Except Exc Candle :=
  match Symbol.ofValue c.symbol with
  | none => .error (.valueError ("'" ++ c.symbol ++ "' is not a valid MarketSymbol"))
  | some symbol => .ok
    { symbol, timeframe := c.timeframe, openTime := c.openTime, closeTime := c.closeTime
      openPrice := c.openPrice, high := c.high, low := c.low, close := c.close, volume := c.volume
      isClosed := c.isClosed }

def symbolCandles (bundle : HistoricalDataBundle) (symbols : List String) : List (CandleOf String) :=
  symbols.flatMap fun s => bundle.daily s ++ bundle.weekly s ++ bundle.monthly s

/-- The hash of all rows, whichever series they are filed under. Funding is not part of it. -/
def hashResearchBundle (sha256 : List CandleRow → String) (bundle : HistoricalDataBundle)
    (symbols : List String) : Except Exc String := do
  let candles ← (symbolCandles bundle symbols).mapM toNormalized
  pure (hashNormalizedCandles sha256 candles)

/-- A check of the binding, and the message of its failure. -/
def ensure (holds : Bool) (message : String) : Except Exc Unit :=
  if holds then .ok () else .error (.valueError message)

theorem ensure_eq_ok {holds : Bool} {message : String} {u : Unit} (h : ensure holds message = .ok u) :
    holds = true := by
  unfold ensure at h
  split_ifs at h with hholds
  exact hholds

theorem ensure_ok {holds : Bool} {message : String} (h : holds = true) : ensure holds message = .ok () :=
  if_pos h

def requireManifestPath (ref : DatasetManifestRef) : Except Exc String :=
  match ref.manifestPath with
  | none | some "" => .error (.valueError "dataset_manifest_ref.manifest_path is required to bind input data")
  | some path => .ok path

def bindDatasetToBundle (sha256 : List CandleRow → String) (manifests : String → Except Exc DatasetManifest)
    (spec : ExperimentSpec) (bundle : HistoricalDataBundle) :
    Except Exc (DatasetManifest × HistoricalDataBundle × String) := do
  let ref := spec.datasetManifestRef
  let path ← requireManifestPath ref
  let manifest ← manifests path
  requireManifestResearchUsable manifest
  ensure (manifest.contentHash = ref.contentHash)
    ("dataset content_hash mismatch: spec=" ++ ref.contentHash ++ " manifest=" ++ manifest.contentHash)
  ensure (ref.datasetId = manifest.datasetId)
    ("dataset_id mismatch: spec='" ++ ref.datasetId ++ "' manifest='" ++ manifest.datasetId ++ "'")
  ensure (spec.symbols.all (· ∈ manifest.symbols)) "experiment symbols not subset of manifest symbols"
  ensure (manifest.startTimestamp ≤ spec.timeRange.start)
    "time_range.start is before DatasetManifest.start_timestamp"
  ensure (spec.timeRange.finish ≤ manifest.endTimestamp)
    "time_range.end is after DatasetManifest.end_timestamp"
  let symbols := spec.symbolNames
  let window : TimeRange := ⟨manifest.startTimestamp, manifest.endTimestamp⟩
  ensure ((symbolCandles bundle symbols).all (candleInRange · window))
    "bundle candle is outside DatasetManifest window"
  let slice := filterBundleToTimeRange bundle window symbols
  ensure (symbols.any fun s => !(slice.daily s).isEmpty) "no daily candles in DatasetManifest window"
  let actualHash ← hashResearchBundle sha256 slice symbols
  ensure (actualHash = ref.contentHash)
    ("HistoricalDataBundle content does not match declared content_hash: actual=" ++ actualHash ++
      " declared=" ++ ref.contentHash)
  let filtered := filterBundleToTimeRange bundle spec.timeRange symbols
  ensure (symbols.any fun s => !(filtered.daily s).isEmpty) "no daily candles remain after applying time_range"
  pure (manifest, filtered, actualHash)

variable {sha256 : List CandleRow → String} {manifests : String → Except Exc DatasetManifest}
  {spec : ExperimentSpec} {bundle filtered : HistoricalDataBundle} {manifest : DatasetManifest} {hash : String}

/-- What a successful binding guarantees. -/
structure Bound (sha256 : List CandleRow → String) (spec : ExperimentSpec) (bundle : HistoricalDataBundle)
    (manifest : DatasetManifest) (filtered : HistoricalDataBundle) : Prop where
  inWindow : ∀ c ∈ symbolCandles bundle spec.symbolNames,
    candleInRange c ⟨manifest.startTimestamp, manifest.endTimestamp⟩ = true
  hash : hashResearchBundle sha256 (filterBundleToTimeRange bundle
    ⟨manifest.startTimestamp, manifest.endTimestamp⟩ spec.symbolNames) spec.symbolNames =
      .ok spec.datasetManifestRef.contentHash
  filtered : filtered = filterBundleToTimeRange bundle spec.timeRange spec.symbolNames

theorem bindDatasetToBundle_ok
    (h : bindDatasetToBundle sha256 manifests spec bundle = .ok (manifest, filtered, hash)) :
    Bound sha256 spec bundle manifest filtered ∧ manifest.startTimestamp ≤ spec.timeRange.start ∧
      spec.timeRange.finish ≤ manifest.endTimestamp := by
  obtain ⟨path, _, h⟩ := except_bind_eq_ok.mp h
  obtain ⟨manifest', _, h⟩ := except_bind_eq_ok.mp h
  obtain ⟨_, _, h⟩ := except_bind_eq_ok.mp h
  obtain ⟨_, _, h⟩ := except_bind_eq_ok.mp h
  obtain ⟨_, _, h⟩ := except_bind_eq_ok.mp h
  obtain ⟨_, _, h⟩ := except_bind_eq_ok.mp h
  obtain ⟨_, hstart, h⟩ := except_bind_eq_ok.mp h
  obtain ⟨_, hfinish, h⟩ := except_bind_eq_ok.mp h
  obtain ⟨_, hwindow, h⟩ := except_bind_eq_ok.mp h
  obtain ⟨_, _, h⟩ := except_bind_eq_ok.mp h
  obtain ⟨actual, hactual, h⟩ := except_bind_eq_ok.mp h
  obtain ⟨_, hmatch, h⟩ := except_bind_eq_ok.mp h
  obtain ⟨_, _, h⟩ := except_bind_eq_ok.mp h
  cases h
  have hsame := of_decide_eq_true (ensure_eq_ok hmatch)
  exact ⟨⟨List.all_eq_true.mp (ensure_eq_ok hwindow), hsame ▸ hactual, rfl⟩,
    of_decide_eq_true (ensure_eq_ok hstart), of_decide_eq_true (ensure_eq_ok hfinish)⟩

end TradingBot.Research.DatasetBinding
