import TradingBot.Research.Gates
import TradingBot.Backtester.Structure

namespace TradingBot.Research.DrawdownGate

open Market.Models Exceptions Constraints Library.Dictionary Library.Outcome Library.Drawdown
open Backtester.Models Backtester.Metrics Backtester.Structure
open Research.Models Research.Metrics Research.Gates

variable {policy : GatePolicy} {sealed metrics : ResearchMetrics} {measurements : Measurements}

theorem mergeMeasurements_maxDrawdown (measurements : Measurements)
    (robustness : List (RobustnessTest × Decimal)) :
    (mergeMeasurements measurements robustness).get? "max_drawdown" = measurements.get? "max_drawdown" := by
  induction robustness generalizing measurements with
  | nil => rfl
  | cons r robustness ih =>
    have hkey : "max_drawdown" ≠ r.1.metric := by
      cases r.1 <;> decide
    unfold mergeMeasurements at ih ⊢
    rw [List.foldl_cons, ih, Dict.get?_set_of_ne hkey]

theorem measurementsFromMetrics_maxDrawdown {drawdown : Decimal} (h : metrics.maxDrawdown = some drawdown) :
    (measurementsFromMetrics metrics).get? "max_drawdown" = some drawdown := by
  unfold measurementsFromMetrics
  simp only [h]
  exact Dict.get?_set_self

theorem validateMetricsOrMarkInvalid_ok (h : validateMetricsOrMarkInvalid sealed = .ok metrics) :
    metrics = sealed := by
  unfold validateMetricsOrMarkInvalid at h
  cases hviolation : metricsViolation sealed with
  | some message =>
    rw [hviolation] at h
    cases h
  | none =>
    simp only [hviolation] at h
    split_ifs at h
    cases h
    rfl

theorem maxDrawdownFloor_of_mem (hpolicy : policy ∈ policyRegistry) :
    (∃ g ∈ policy.gates, g.name = "max_drawdown_floor") ∧ ∀ g ∈ policy.gates, g.name = "max_drawdown_floor" →
      g.metric = "max_drawdown" ∧ g.comparator = .gte ∧ g.threshold = -1 / 2 := by
  revert policy
  decide +kernel

theorem evaluateGate_maxDrawdown {gate : GateDefinition} {drawdown : Decimal}
    (hmetric : gate.metric = "max_drawdown") (hcomparator : gate.comparator = .gte)
    (hthreshold : gate.threshold = -1 / 2) (h : measurements.get? "max_drawdown" = some drawdown)
    (hdrawdown : 0 ≤ drawdown) : (evaluateGate measurements gate).outcome = .pass := by
  have hle : (-1 / 2 : Decimal) ≤ drawdown := by linarith
  simp [evaluateGate, hmetric, h, evaluateComparator, hcomparator, hthreshold, hle]

def PassesDrawdownGate (gates : List GateEvaluationResult) : Prop :=
  ∃ g ∈ gates, g.name = "max_drawdown_floor" ∧ g.outcome = .pass

theorem policy_mem_of_getPolicy {version : String} (h : getPolicy version = .ok policy) :
    policy ∈ policyRegistry := by
  unfold getPolicy at h
  cases hfind : policyRegistry.find? (·.version = version) with
  | none =>
    rw [hfind] at h
    cases h
  | some found =>
    rw [hfind] at h
    cases h
    exact List.mem_of_find?_eq_some hfind

theorem runWithMetrics_ok {config : BacktestConfig} {bundle : HistoricalDataBundle} {result : BacktestResult}
    {m : BacktestMetrics} (h : runWithMetrics config bundle = .ok (result, m)) :
    ∃ trades, m = computeMetrics trades result.equityCurve := by
  obtain ⟨rt, -, hresult⟩ := except_bind_eq_ok.mp h
  cases hresult
  exact ⟨_, rfl⟩

theorem evaluateGate_name (measurements : Measurements) (gate : GateDefinition) :
    (evaluateGate measurements gate).name = gate.name := by
  unfold evaluateGate
  split <;> rfl

instance (gates : List GateEvaluationResult) : Decidable (PassesDrawdownGate gates) :=
  inferInstanceAs (Decidable (∃ g ∈ gates, g.name = "max_drawdown_floor" ∧ g.outcome = .pass))

theorem passesDrawdownGate {spec : ExperimentSpec} {result : BacktestResult} {trades : List BacktestTrade}
    {bundle : HistoricalDataBundle} {robustness : List (RobustnessTest × Decimal)}
    {gates : List GateEvaluationResult} (hpolicy : policy ∈ policyRegistry)
    (hmetrics : metricsFromResult spec result (computeMetrics trades result.equityCurve) bundle = .ok sealed)
    (hgates : evaluateSealed policy sealed robustness = .ok gates) : PassesDrawdownGate gates := by
  obtain ⟨metrics, hread, hevaluated⟩ := except_bind_eq_ok.mp hgates
  obtain rfl := validateMetricsOrMarkInvalid_ok hread
  obtain rfl := Except.ok.inj hevaluated
  obtain ⟨⟨gate, hgate, hname⟩, hfloor⟩ := maxDrawdownFloor_of_mem hpolicy
  obtain ⟨hmetric, hcomparator, hthreshold⟩ := hfloor gate hgate hname
  have hdrawdown := measurementsFromMetrics_maxDrawdown (metricsFromResult_maxDrawdown hmetrics)
  rw [← mergeMeasurements_maxDrawdown _ robustness] at hdrawdown
  refine ⟨_, List.mem_map_of_mem hgate, (evaluateGate_name _ gate).trans hname, ?_⟩
  exact evaluateGate_maxDrawdown hmetric hcomparator hthreshold hdrawdown
    (maxDrawdownPct_nonneg result.equityCurve)

/-- The gate tells the runs that lost at most half of a peak from the others only where there are none of
the others: on the curves that never fall below half of an earlier level. -/
theorem drawdown_gate_meaning (spec : ExperimentSpec) (result : BacktestResult) (trades : List BacktestTrade)
    (bundle : HistoricalDataBundle) (policy : GatePolicy) (robustness : List (RobustnessTest × Decimal))
    (sealed : ResearchMetrics) (gates : List GateEvaluationResult)
    (hpositive : ∀ s ∈ result.equityCurve, 0 < s.equity) (hpolicy : policy ∈ policyRegistry)
    (hmetrics : metricsFromResult spec result (computeMetrics trades result.equityCurve) bundle = .ok sealed)
    (hgates : evaluateSealed policy sealed robustness = .ok gates) :
    (PassesDrawdownGate gates ↔ maxDrawdown (result.equityCurve.map (·.equity)) ≤ 1 / 2) ↔
      result.equityCurve.Pairwise fun a b => a.equity / 2 ≤ b.equity := by
  have hpass := passesDrawdownGate hpolicy hmetrics hgates
  have hlevels : ∀ a ∈ result.equityCurve.map (·.equity), 0 < a := List.forall_mem_map.mpr hpositive
  rw [maxDrawdown_le_half_iff hlevels, List.pairwise_map]
  exact iff_true_left hpass

section Collapse

def collapseSpec : ExperimentSpec where
  parameters := sampleConfig.strategyParams
  datasetManifestRef := { datasetId := "sample", contentHash := "sample" }
  symbols := [.BTC]
  timeRange := ⟨0, 3 * day⟩
  startingCapital := 100000
  feeAssumption := { entryFeeRate := 5 / 10000, exitFeeRate := 5 / 10000 }
  slippageAssumption := { slippageBps := 5 }
  fundingAssumption := { enabled := true, assumedRate := some 60 }
  symbolConstraints := Dict.set {} "BTC"
    { quantityStep := 1 / 1000, minimumQuantity := 1 / 1000, priceTickSize := 1 / 10 }
  benchmark := "buy_and_hold_BTC"

def collapse : Except Exc (BacktestResult × ResearchMetrics × List GateEvaluationResult) := do
  let config ← configFromSpec collapseSpec
  let (result, m) ← runWithMetrics config (sampleBundle 0)
  let sealed ← metricsFromResult collapseSpec result m (sampleBundle 0)
  let policy ← getPolicy "1.1"
  let gates ← evaluateSealed policy sealed []
  pure (result, sealed, gates)

/-- The run ends with a third of its capital, and the gate that is to stop it passes. -/
theorem collapse_passes : ∃ result sealed gates, collapse = .ok (result, sealed, gates) ∧
    (∀ s ∈ result.equityCurve, 0 < s.equity) ∧ 3 / 5 < maxDrawdown (result.equityCurve.map (·.equity)) ∧
    PassesDrawdownGate gates := by
  have hcheck : (collapse.map fun (result, _, gates) =>
      decide ((∀ s ∈ result.equityCurve, 0 < s.equity) ∧
        3 / 5 < maxDrawdown (result.equityCurve.map (·.equity)) ∧ PassesDrawdownGate gates)).toOption =
      some true := by
    decide +kernel
  cases hrun : collapse with
  | error e =>
    rw [hrun] at hcheck
    cases hcheck
  | ok out =>
    obtain ⟨result, sealed, gates⟩ := out
    rw [hrun] at hcheck
    exact ⟨result, sealed, gates, rfl, of_decide_eq_true (Option.some.inj hcheck)⟩

theorem collapse_gate_meaning : ∃ result sealed gates, collapse = .ok (result, sealed, gates) ∧
    ((PassesDrawdownGate gates ↔ maxDrawdown (result.equityCurve.map (·.equity)) ≤ 1 / 2) ↔
      result.equityCurve.Pairwise fun a b => a.equity / 2 ≤ b.equity) := by
  obtain ⟨result, sealed, gates, hrun, hpositive, -⟩ := collapse_passes
  refine ⟨result, sealed, gates, hrun, ?_⟩
  obtain ⟨config, -, hrun⟩ := except_bind_eq_ok.mp hrun
  obtain ⟨⟨result', m⟩, hbacktest, hrun⟩ := except_bind_eq_ok.mp hrun
  obtain ⟨sealed', hmetrics, hrun⟩ := except_bind_eq_ok.mp hrun
  obtain ⟨policy, hpolicy, hrun⟩ := except_bind_eq_ok.mp hrun
  obtain ⟨gates', hgates, hrun⟩ := except_bind_eq_ok.mp hrun
  cases hrun
  obtain ⟨trades, rfl⟩ := runWithMetrics_ok hbacktest
  exact drawdown_gate_meaning collapseSpec result trades (sampleBundle 0) policy [] sealed gates hpositive
    (policy_mem_of_getPolicy hpolicy) hmetrics hgates

end Collapse

end TradingBot.Research.DrawdownGate
