import TradingBot.Backtester.Models

namespace TradingBot.Research.Models

open Market.Models Strategy.Models Constraints Exceptions Library.Dictionary Backtester.Models

def stripChars (text : List Char) : List Char :=
  ((text.dropWhile Char.isWhitespace).reverse.dropWhile Char.isWhitespace).reverse

structure DatasetManifestRef where
  datasetId : String
  contentHash : String
  manifestPath : Option String := none
deriving DecidableEq, Repr

/-- A window of instants, both ends included. -/
structure TimeRange where
  start : Time
  finish : Time
deriving DecidableEq, Repr

structure FeeAssumption where
  entryFeeRate : Decimal
  exitFeeRate : Decimal
  modelVersion : String := "1.0"
deriving DecidableEq, Repr

structure SlippageAssumption where
  slippageBps : Decimal
  modelVersion : String := "1.0"
deriving DecidableEq, Repr

structure FundingAssumption where
  enabled : Bool := false
  assumedRate : Option Decimal := none
  modelVersion : String := "1.0"
deriving DecidableEq, Repr

/-- What an experiment pins of a run. The parameters are the effective ones of the strategy, and the symbols
are without repetitions. -/
structure ExperimentSpec where
  parameters : StrategyParameters
  datasetManifestRef : DatasetManifestRef
  symbols : List Symbol
  distinct : symbols.Nodup := by first | exact List.nodup_singleton _ | decide
  timeRange : TimeRange
  startingCapital : Decimal
  feeAssumption : FeeAssumption
  slippageAssumption : SlippageAssumption
  fundingAssumption : FundingAssumption
  symbolConstraints : Dict String SymbolConstraints
  benchmark : String
deriving DecidableEq, Repr

def ExperimentSpec.symbolNames (spec : ExperimentSpec) : List String := spec.symbols.map Symbol.value

def costModelVersion : String := "1.1"

def supportedCostModelVersions : List String := ["1.0", "1.1"]

def requireCostFields (spec : ExperimentSpec) : Except Exc Unit :=
  if stripChars spec.feeAssumption.modelVersion.toList = [] then
    .error (.valueError "fee_assumption.model_version is required")
  else if stripChars spec.slippageAssumption.modelVersion.toList = [] then
    .error (.valueError "slippage_assumption.model_version is required")
  else if stripChars spec.fundingAssumption.modelVersion.toList = [] then
    .error (.valueError "funding_assumption.model_version is required")
  else if spec.fundingAssumption.enabled ∧ spec.fundingAssumption.assumedRate = none then
    .error (.valueError "funding_assumption.assumed_rate required when funding enabled")
  else .ok ()

def fundingModelOf (spec : ExperimentSpec) : FundingModel :=
  ⟨spec.fundingAssumption.enabled, spec.fundingAssumption.assumedRate⟩

def configFromSpec (spec : ExperimentSpec) : Except Exc BacktestConfig := do
  requireCostFields spec
  if spec.symbolConstraints.entries = [] then
    throw (.valueError "ExperimentSpec.symbol_constraints is required for research runs (#363)")
  let missing := spec.symbolNames.filter fun s => s ∉ spec.symbolConstraints.keys
  if missing ≠ [] then
    throw (.valueError ("ExperimentSpec.symbol_constraints missing symbols: ['" ++
      "', '".intercalate missing ++ "']"))
  pure
    { symbols := spec.symbolNames
      initialCash := spec.startingCapital
      strategyParams := spec.parameters
      entryFeeRate := spec.feeAssumption.entryFeeRate
      exitFeeRate := spec.feeAssumption.exitFeeRate
      slippageBps := spec.slippageAssumption.slippageBps
      fundingModel := fundingModelOf spec
      symbolConstraints := spec.symbolConstraints.get? }

theorem assumedRate_of_requireCostFields {spec : ExperimentSpec} (h : requireCostFields spec = .ok ())
    (henabled : spec.fundingAssumption.enabled = true) : spec.fundingAssumption.assumedRate ≠ none := by
  unfold requireCostFields at h
  split_ifs at h with _ _ _ hmissing
  exact fun hnone => hmissing ⟨henabled, hnone⟩

end TradingBot.Research.Models
