import TradingBot.Research.Models
import TradingBot.Backtester.Metrics

namespace TradingBot.Research.Metrics

open Market.Models Exceptions Backtester.Lifecycle Backtester.Models Backtester.Metrics Research.Models
open Library.Outcome (except_bind_eq_ok)

structure BenchmarkRef where
  benchmarkId : String
  benchmarkVersion : String
  periodParity : Bool := true
  datasetParity : Bool := true
  costParity : Bool := true
  costModelVersion : String := ""
  grossReturn : Option Decimal := none
deriving DecidableEq, Repr

/-- `id@version`, or an id alone. The description of the calculation is left out. -/
def parseBenchmarkRef (benchmarkField : String) : Except Exc BenchmarkRef :=
  let text := stripChars benchmarkField.toList
  if text = [] then .error (.valueError "benchmark is required")
  else if '@' ∈ text then
    let bid := text.takeWhile (· ≠ '@')
    let ver := (text.dropWhile (· ≠ '@')).drop 1
    if bid = [] ∨ ver = [] then
      .error (.valueError "benchmark must be 'id@version' or a non-empty id")
    else .ok { benchmarkId := String.ofList bid, benchmarkVersion := String.ofList ver }
  else .ok { benchmarkId := String.ofList text, benchmarkVersion := "1.0" }

def resolveBenchmarkRef (spec : ExperimentSpec) : Except Exc BenchmarkRef := do
  let ref ← parseBenchmarkRef spec.benchmark
  if stripChars ref.benchmarkId.toList = [] ∨ stripChars ref.benchmarkVersion.toList = [] then
    throw (.valueError "benchmark_id/version missing; report remains incomplete/invalid")
  pure ref

/-- The symbol of `buy_and_hold_<SYMBOL>`, in capitals; letters of either case match. -/
def buyHoldSymbol (benchmarkId : String) : Option String :=
  let head := "buy_and_hold_".toList
  let text := benchmarkId.toList
  let name := text.drop head.length
  if (text.take head.length).map Char.toLower = head ∧ name ≠ [] ∧ name.all Char.isAlphanum then
    some (String.ofList (name.map Char.toUpper))
  else none

/-- One round trip under the cost models of the spec. -/
def buyAndHoldNetReturn (startingCapital firstClose lastClose : Decimal) (holdingDays : ℕ)
    (fee : FeeAssumption) (slippageBps : Decimal) (funding : FundingModel) : Except Exc Decimal := do
  if startingCapital ≤ 0 ∨ firstClose ≤ 0 then
    throw (.valueError "benchmark net calculation requires positive capital and first close")
  if holdingDays < 1 then
    throw (.valueError "benchmark net calculation requires at least one holding day")
  let entryFill := applyEntrySlippage firstClose slippageBps
  if entryFill ≤ 0 then
    throw (.valueError "benchmark net calculation failed: non-positive entry fill")
  let shares := startingCapital / entryFill
  let entryFee := computeFee startingCapital fee.entryFeeRate
  let exitFill := applyExitSlippage lastClose slippageBps
  let exitFee := computeFee (shares * exitFill) fee.exitFeeRate
  let fundingCost ←
    if funding.enabled then
      match funding.assumedRate with
      | none => throw (.valueError "funding assumed_rate required when funding enabled for benchmark")
      | some rate => pure (startingCapital * rate * holdingDays)
    else pure 0
  let endEquity := startingCapital - entryFee - exitFee - fundingCost + shares * (exitFill - entryFill)
  pure ((endEquity - startingCapital) / startingCapital)

def computeBenchmarkResult (spec : ExperimentSpec) (bundle : HistoricalDataBundle) :
    Except Exc (BenchmarkRef × Decimal) := do
  requireCostFields spec
  let ref ← resolveBenchmarkRef spec
  let symbol ← match buyHoldSymbol ref.benchmarkId with
    | none => throw (.valueError ("unsupported benchmark_id '" ++ ref.benchmarkId ++
        "'; expected buy_and_hold_<SYMBOL>"))
    | some symbol => pure symbol
  if symbol ∉ spec.symbolNames then
    throw (.valueError ("benchmark dataset parity failed: " ++ symbol ++ " not in experiment symbols"))
  if bundle.daily symbol = [] then
    throw (.valueError ("benchmark dataset parity failed: no daily candles for " ++ symbol))
  match (bundle.daily symbol).filter (·.isClosed) with
  | first :: second :: rest =>
    let last := (second :: rest).getLast (by simp)
    if first.close = 0 then throw .divisionByZero
    let net ← buyAndHoldNetReturn spec.startingCapital first.close last.close (rest.length + 1)
      spec.feeAssumption spec.slippageAssumption.slippageBps (fundingModelOf spec)
    pure ({ ref with costModelVersion := costModelVersion
                     grossReturn := some ((last.close - first.close) / first.close) }, net)
  | _ => throw (.valueError ("benchmark period parity failed: need >=2 closed candles for " ++ symbol))

inductive ReportStatus
  | complete | incomplete | invalid
deriving DecidableEq, Repr

inductive FundingLabel
  | disabled
  | enabled (rate : Option Decimal)
deriving DecidableEq, Repr

def metricsSchemaVersion : String := "1.2"

def supportedMetricsSchemaVersions : List String := ["1.0", "1.1", "1.2"]

/-- The research export of a run, `metrics.json`. -/
structure ResearchMetrics where
  schemaVersion : String := metricsSchemaVersion
  status : ReportStatus := .complete
  startCapital : Decimal
  endCapital : Decimal
  grossPnl : Decimal
  netPnl : Decimal
  fees : Decimal
  slippageCosts : Decimal
  fundingCosts : Decimal
  fundingAssumption : FundingLabel
  signalCount : ℕ
  orderCount : ℕ
  fillCount : ℕ
  closedTrades : ℕ
  hitRate : Option Decimal
  avgWin : Option Decimal
  avgLoss : Option Decimal
  expectancy : Option Decimal
  profitFactor : Option Decimal
  maxDrawdown : Option Decimal
  timeInMarket : Option Decimal
  benchmark : BenchmarkRef
  benchmarkResult : Option Decimal
deriving DecidableEq, Repr

def computeGrossPnl (netPnl fees slippageCosts fundingCosts : Decimal) : Decimal :=
  netPnl + fees + slippageCosts + fundingCosts

def benchmarkViolation (m : ResearchMetrics) : Option String :=
  let version := String.ofList (stripChars m.benchmark.costModelVersion.toList)
  if m.benchmarkResult = none then
    some "benchmark_result required for complete metrics schema 1.2+"
  else if version = "" then
    some "benchmark.cost_model_version required for complete metrics schema 1.2+"
  else if version ∉ supportedCostModelVersions then
    some ("benchmark.cost_model_version '" ++ version ++ "' is not supported; supported=['1.0', '1.1']")
  else if m.benchmark.grossReturn = none then
    some "benchmark.gross_return required for complete metrics schema 1.2+ (benchmark_result is net)"
  else if !m.benchmark.costParity then
    some "benchmark.cost_parity must be true for complete metrics schema 1.2+"
  else if !m.benchmark.periodParity then
    some "benchmark.period_parity must be true for complete metrics schema 1.2+"
  else if !m.benchmark.datasetParity then
    some "benchmark.dataset_parity must be true for complete metrics schema 1.2+"
  else none

def grossViolation (m : ResearchMetrics) : Option String :=
  if m.grossPnl = computeGrossPnl m.netPnl m.fees m.slippageCosts m.fundingCosts then none
  else some "gross_pnl must equal net_pnl + fees + slippage_costs + funding_costs for schema 1.1+"

/-- The first rule of the export that is broken. -/
def metricsViolation (m : ResearchMetrics) : Option String :=
  if m.schemaVersion ∉ supportedMetricsSchemaVersions then
    some ("unsupported metrics schema_version '" ++ m.schemaVersion ++ "'; supported=['1.0', '1.1', '1.2']")
  else if m.status ≠ .complete ∨ m.schemaVersion = "1.0" then none
  else if m.schemaVersion = "1.1" then grossViolation m
  else (benchmarkViolation m).or (grossViolation m)

/-- The validator of the export, run when it is built and again when a sealed file is loaded. -/
def validateMetrics (m : ResearchMetrics) : Except Exc ResearchMetrics :=
  match metricsViolation m with
  | some message => .error (.valueError message)
  | none => .ok m

/-- The check of a sealed file when it is read back. -/
def validateMetricsOrMarkInvalid (m : ResearchMetrics) : Except Exc ResearchMetrics :=
  match metricsViolation m with
  | some message => .error (.valueError ("metrics schema/run validation failed: " ++ message))
  | none =>
    if stripChars m.benchmark.benchmarkId.toList = [] then
      .error (.valueError "benchmark_id missing; report remains incomplete/invalid")
    else .ok m

def metricsFromResult (spec : ExperimentSpec) (result : BacktestResult) (m : BacktestMetrics)
    (bundle : HistoricalDataBundle) : Except Exc ResearchMetrics := do
  let netPnl := result.endCapital - spec.startingCapital
  let benchmark ← computeBenchmarkResult spec bundle
  validateMetrics
    { startCapital := spec.startingCapital
      endCapital := result.endCapital
      grossPnl := computeGrossPnl netPnl result.totalFees result.totalSlippage result.totalFunding
      netPnl
      fees := result.totalFees
      slippageCosts := result.totalSlippage
      fundingCosts := result.totalFunding
      fundingAssumption :=
        if spec.fundingAssumption.enabled then .enabled spec.fundingAssumption.assumedRate else .disabled
      signalCount := result.strategyEvaluations.length
      orderCount := result.trades.length
      fillCount := result.trades.length
      closedTrades := m.tradeCount
      hitRate := m.winRate
      avgWin := m.averageWinner
      avgLoss := m.averageLoser
      expectancy := m.expectancyUsd
      profitFactor := m.profitFactor
      maxDrawdown := some m.maxDrawdownPct
      timeInMarket := m.timeInMarketPct
      benchmark := benchmark.1
      benchmarkResult := some benchmark.2 }

theorem validateMetrics_ok {m m' : ResearchMetrics} (h : validateMetrics m = .ok m') : m' = m := by
  unfold validateMetrics at h
  cases hviolation : metricsViolation m with
  | none =>
    rw [hviolation] at h
    cases h
    rfl
  | some message =>
    rw [hviolation] at h
    cases h

theorem metricsFromResult_maxDrawdown {spec : ExperimentSpec} {result : BacktestResult} {m : BacktestMetrics}
    {bundle : HistoricalDataBundle} {metrics : ResearchMetrics}
    (h : metricsFromResult spec result m bundle = .ok metrics) :
    metrics.maxDrawdown = some m.maxDrawdownPct := by
  unfold metricsFromResult at h
  obtain ⟨benchmark, -, h⟩ := except_bind_eq_ok.mp h
  rw [validateMetrics_ok h]

end TradingBot.Research.Metrics
