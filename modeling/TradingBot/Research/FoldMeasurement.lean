import TradingBot.Backtester.LookAhead
import TradingBot.Research.ChildBinding
import TradingBot.Research.DrawdownGate
import TradingBot.Research.GateEvaluator
import TradingBot.Research.GrossPnl

namespace TradingBot.Research.FoldMeasurement

open Market.Models Market.Timeframes Exceptions Library.Dictionary Library.Increments Library.Outcome
open Backtester.Models Backtester.Simulation Backtester.Structure Backtester.DayRecords Backtester.Metrics
open Research.Models Research.Metrics Research.DatasetBinding Research.RunIdentity Research.GrossPnl
open Research.RobustnessSuite (SuiteSpec RobustnessChildSpec dayStart dayEnd planRequest buildWalkForwardChildSpecs)
open Research.WalkForward (WalkForwardFold planWalkForwardFolds)
open Research.WalkForwardPlan (planWalkForwardFolds_exact FoldExact)
open Research.GateEvaluator
open Research.Robustness (RobustnessChild)
open Backtester.StopPhase (fallingBundle)

section Curve

variable {config : BacktestConfig} {bundle : HistoricalDataBundle}

theorem length_curve_days {days : List Time} {rt rt' : Runtime} (hdays : ∀ t ∈ days, t ∈ buildTimeline config bundle)
    (h : (days.flatMap (daySteps config bundle)).foldlM (applyStep config bundle) rt = .ok rt') :
    rt'.equityCurve.length = rt.equityCurve.length + days.length := by
  induction days generalizing rt with
  | nil =>
    cases h
    rfl
  | cons t days ih =>
    obtain ⟨ht, hdays⟩ := List.forall_mem_cons.mp hdays
    rw [List.flatMap_cons, List.foldlM_append] at h
    obtain ⟨rt₁, hday, h⟩ := except_bind_eq_ok.mp h
    obtain ⟨first, hfirst⟩ := firstCandle_isSome ht
    obtain ⟨⟨snap, hcurve, _⟩, _⟩ := day_records hfirst hday
    rw [ih hdays h, hcurve, List.length_append, List.length_singleton, List.length_cons]
    omega

def foldGain (inWindow : Time → Bool) (config : BacktestConfig) (bundle : HistoricalDataBundle)
    (result : BacktestResult) : Decimal :=
  gainOn inWindow (buildTimeline config bundle) config.initialCash (result.equityCurve.map (·.equity))

theorem length_curve {result : BacktestResult} (h : run config bundle = .ok result) :
    (buildTimeline config bundle).length = result.equityCurve.length := by
  obtain ⟨rt, hrun, hresult⟩ := except_bind_eq_ok.mp h
  have hlength := length_curve_days (fun t ht => ht) hrun
  rw [show (start config).equityCurve.length = 0 from rfl, zero_add] at hlength
  cases hresult
  cases htimeline : buildTimeline config bundle with
  | nil => rfl
  | cons first rest => exact (htimeline ▸ hlength).symm

theorem run_gain {inWindow inOther : Time → Bool} {result : BacktestResult}
    (hparts : ∀ t ∈ buildTimeline config bundle, inWindow t = !inOther t) (h : run config bundle = .ok result) :
    result.endCapital - config.initialCash =
      foldGain inWindow config bundle result + foldGain inOther config bundle result := by
  have hlength : (buildTimeline config bundle).length = (result.equityCurve.map (·.equity)).length := by
    rw [List.length_map, length_curve h]
  have hend : (result.equityCurve.map (·.equity)).getLastD config.initialCash = result.endCapital := by
    rw [List.getLastD_eq_getLast?, List.getLast?_map]
    obtain ⟨_, _, _, hend⟩ := (Backtester.Conservation.backtest_conserves_cash config bundle).2 result h
    cases hend with
    | inl hempty => rw [hempty.1, hempty.2]; rfl
    | inr hlast =>
      obtain ⟨last, snapshot, _, hsnapshot, hcapital, _⟩ := hlast
      rw [hsnapshot, hcapital]
      rfl
  unfold foldGain
  rw [gainOn_split hlength hparts, hend]

end Curve

section Windows

variable (fold : WalkForwardFold)

def inEvaluation (t : Time) : Bool := fold.evalStart ≤ dayNumber t ∧ dayNumber t ≤ fold.evalEnd

/-- The days before the evaluation, which the indicators need. -/
def inContext (t : Time) : Bool := fold.featureContextStart ≤ dayNumber t ∧ dayNumber t ≤ fold.featureContextEnd

def childExperiment (spec : ExperimentSpec) : ExperimentSpec :=
  { spec with timeRange := ⟨dayStart fold.featureContextStart, dayEnd fold.evalEnd⟩ }

/-- The instants whose trading the result of the child counts. -/
def counted (spec : ExperimentSpec) (t : Time) : Bool :=
  TimeRange.contains (childExperiment fold spec).timeRange t

structure Isolated (spec : ExperimentSpec) (folds : List WalkForwardFold) : Prop where
  inside : ∀ t, counted fold spec t = true → inEvaluation fold t = true
  noContext : ∀ t, inContext fold t = true → counted fold spec t = false
  apart : ∀ other ∈ folds, other ≠ fold → ∀ t, counted fold spec t = true → counted other spec t = false

variable {fold} {spec : ExperimentSpec}

/-- The base of a suite is the experiment in what suites change. -/
structure Describes {ρ : Type} (base : SuiteSpec ρ) (spec : ExperimentSpec) : Prop where
  timeRange : base.timeRange = spec.timeRange
  feeAssumption : base.feeAssumption = spec.feeAssumption
  slippageAssumption : base.slippageAssumption = spec.slippageAssumption
  fundingAssumption : base.fundingAssumption = spec.fundingAssumption

theorem describes_children {ρ : Type} {base : SuiteSpec ρ} {nFolds embargoDays monthlyBars : ℤ}
    {children : List (RobustnessChildSpec ρ)} (hbase : Describes base spec)
    (h : buildWalkForwardChildSpecs base nFolds embargoDays monthlyBars = .ok children) :
    ∃ folds, planWalkForwardFolds (planRequest spec.timeRange nFolds embargoDays monthlyBars) = .ok folds ∧
      List.Forall₂ (fun child fold => Describes child.spec (childExperiment fold spec)) children folds := by
  obtain ⟨folds, hplan, rfl⟩ := ChildBinding.buildWalkForwardChildSpecs_ok h
  rw [hbase.timeRange] at hplan
  refine ⟨folds, hplan, ?_⟩
  rw [List.forall₂_map_left_iff, List.forall₂_same]
  exact fun fold _ => ⟨rfl, hbase.feeAssumption, hbase.slippageAssumption, hbase.fundingAssumption⟩

theorem counted_iff {t : Time} : counted fold spec t = true ↔
    dayStart fold.featureContextStart ≤ t ∧ t ≤ dayEnd fold.evalEnd :=
  decide_eq_true_iff

theorem dayNumber_le_iff {t : Time} {d : ℤ} : dayNumber t ≤ d ↔ t < dayStart (d + 1) := by
  unfold dayNumber dayStart
  rw [← Int.lt_add_one_iff, Int.ediv_lt_iff_lt_mul (by decide)]

theorem le_dayNumber_iff {t : Time} {d : ℤ} : d ≤ dayNumber t ↔ dayStart d ≤ t :=
  Int.le_ediv_iff_mul_le (by decide)

theorem dayEnd_lt (d : ℤ) : dayEnd d < dayStart (d + 1) := by
  have hday : (day : ℤ) = 86400 * second := rfl
  have hsecond : (0 : ℤ) < second := by decide
  unfold dayEnd dayStart
  rw [hday]
  linarith

structure Placed (fold : WalkForwardFold) : Prop where
  context : fold.featureContextStart < fold.evalStart
  adjacent : fold.featureContextEnd + 1 = fold.evalStart
  evaluation : fold.evalStart ≤ fold.evalEnd

theorem placed_of_plan {request : WalkForward.PlanRequest} {folds : List WalkForwardFold}
    (h : planWalkForwardFolds request = .ok folds) (hfold : fold ∈ folds) : Placed fold := by
  have hexact := planWalkForwardFolds_exact h
  obtain ⟨_, hembargo, _⟩ := WalkForwardPlan.request_of_plan h
  obtain ⟨first, _, htiles, _⟩ := hexact.tiles
  have hcontexts := hexact.contexts fold hfold
  have hstart := hcontexts.featureStart
  have hlabel := hcontexts.label
  have hlabelStart := hcontexts.labelStart
  have hlabelEnd := hcontexts.labelEnd
  have hpoint := (htiles.within _ (List.mem_map_of_mem hfold)).2.1
  constructor
  case context => omega
  case adjacent => exact hcontexts.featureEnd
  case evaluation => exact Int.lt_add_one_iff.mp hpoint

theorem Placed.counted_of_inContext (h : Placed fold) {t : Time} (ht : inContext fold t = true) :
    counted fold spec t = true := by
  obtain ⟨hlow, hhigh⟩ := of_decide_eq_true ht
  have hadjacent := h.adjacent
  have hevaluation := h.evaluation
  have hbefore := dayNumber_le_iff.mp (show dayNumber t ≤ fold.evalEnd - 1 by omega)
  rw [sub_add_cancel] at hbefore
  have hsecond : (0 : ℤ) ≤ 86399 * second := by decide
  refine counted_iff.mpr ⟨le_dayNumber_iff.mp hlow, hbefore.le.trans ?_⟩
  exact le_add_of_nonneg_right hsecond

theorem Placed.parts (h : Placed fold) {t : Time} (ht : counted fold spec t = true) :
    inContext fold t = !inEvaluation fold t := by
  obtain ⟨hlow, hhigh⟩ := counted_iff.mp ht
  have hlow := le_dayNumber_iff.mpr hlow
  have hhigh := dayNumber_le_iff.mpr (hhigh.trans_lt (dayEnd_lt _))
  have hadjacent := h.adjacent
  unfold inContext inEvaluation
  rw [← decide_not, decide_eq_decide]
  omega

theorem Placed.inContext_first (h : Placed fold) : inContext fold (dayStart fold.featureContextStart) = true := by
  have hday : dayNumber (dayStart fold.featureContextStart) = fold.featureContextStart :=
    Int.mul_ediv_cancel _ (by decide)
  have hcontext := h.context
  have hadjacent := h.adjacent
  unfold inContext
  rw [hday, decide_eq_true_iff]
  omega

end Windows

section Measurement

variable (fold : WalkForwardFold) (spec : ExperimentSpec)

/-- A run of the child of a fold over the part of a history that its range leaves, as the gate evaluation finds it. -/
structure FoldEvidence where
  bundle : HistoricalDataBundle
  result : BacktestResult
  metrics : ResearchMetrics
  config : BacktestConfig
  lookup : RunLookup
  robustnessId : String
  child : RobustnessChild
  runId : String
  shown : ShownRun
  configured : configFromSpec (childExperiment fold spec) = .ok config
  ran : runBound (childExperiment fold spec)
    (filterBundleToTimeRange bundle (childExperiment fold spec).timeRange spec.symbolNames) = .ok (result, metrics)
  named : childRunId child = some runId
  found : lookup runId = .ok shown
  exported : shown.directory.get? ["metrics.json"] = some (.metrics metrics)

variable {fold spec}

def FoldEvidence.gain (evidence : FoldEvidence fold spec) (inWindow : Time → Bool) : Decimal :=
  foldGain inWindow evidence.config
    (filterBundleToTimeRange evidence.bundle (childExperiment fold spec).timeRange spec.symbolNames) evidence.result

def FoldEvidence.countedPnl (evidence : FoldEvidence fold spec) : Except EvaluationError Decimal :=
  childNetPnlFromVerifiedRun evidence.lookup evidence.robustnessId evidence.child

theorem FoldEvidence.countedPnl_ok {evidence : FoldEvidence fold spec} {pnl : Decimal}
    (h : evidence.countedPnl = .ok pnl) : pnl = evidence.metrics.netPnl := by
  unfold FoldEvidence.countedPnl childNetPnlFromVerifiedRun at h
  rw [evidence.named] at h
  obtain ⟨run, hrun, h⟩ := except_bind_eq_ok.mp h
  obtain ⟨raw, hraw, h⟩ := except_bind_eq_ok.mp h
  obtain ⟨metrics, hmetrics, h⟩ := except_bind_eq_ok.mp h
  obtain ⟨_, _, h⟩ := except_bind_eq_ok.mp h
  cases h
  have hrun := mapError_eq_ok_iff.mp hrun
  have hraw := mapError_eq_ok_iff.mp hraw
  have hmetrics := mapError_eq_ok_iff.mp hmetrics
  rw [evidence.found] at hrun
  cases hrun
  unfold loadMetrics at hraw
  rw [evidence.exported] at hraw
  cases hraw
  rw [Research.DrawdownGate.validateMetricsOrMarkInvalid_ok hmetrics]

theorem metricsFromResult_netPnl {result : BacktestResult} {m : BacktestMetrics} {bundle : HistoricalDataBundle}
    {metrics : ResearchMetrics} (h : metricsFromResult spec result m bundle = .ok metrics) :
    metrics.netPnl = result.endCapital - spec.startingCapital := by
  obtain ⟨benchmark, _, h⟩ := except_bind_eq_ok.mp h
  rw [validateMetrics_ok h]

theorem counted_of_mem_timeline {config : BacktestConfig} {bundle : HistoricalDataBundle} {symbols : List String}
    {t : Time} (h : t ∈ buildTimeline config
      (filterBundleToTimeRange bundle (childExperiment fold spec).timeRange symbols)) : counted fold spec t = true := by
  obtain ⟨symbol, _, c, hc, rfl⟩ := Backtester.LookAhead.mem_buildTimeline.mp h
  unfold filterBundleToTimeRange at hc
  dsimp only at hc
  split_ifs at hc
  · exact (List.mem_filter.mp hc).2
  · exact absurd hc List.not_mem_nil

theorem FoldEvidence.countedPnl_eq (evidence : FoldEvidence fold spec) (hfold : Placed fold) {pnl : Decimal}
    (h : evidence.countedPnl = .ok pnl) :
    pnl = evidence.gain (inContext fold) + evidence.gain (inEvaluation fold) := by
  obtain ⟨config, hconfig, hran⟩ := except_bind_eq_ok.mp evidence.ran
  obtain ⟨⟨result, m⟩, hrun, hran⟩ := except_bind_eq_ok.mp hran
  obtain ⟨metrics, hmetrics, hran⟩ := except_bind_eq_ok.mp hran
  obtain ⟨hresult, hexport⟩ := Prod.mk.inj (Except.ok.inj hran)
  have hsame : config = evidence.config := Except.ok.inj (hconfig.symm.trans evidence.configured)
  have hcash := (configFromSpec_ok hconfig).1
  have hgain := run_gain (fun t ht => hfold.parts (counted_of_mem_timeline ht)) (run_of_runWithMetrics hrun)
  rw [FoldEvidence.countedPnl_ok h, ← hexport, metricsFromResult_netPnl hmetrics, ← hcash, hgain, hsame, hresult]
  rfl

/-- No fold of a plan is measured in isolation: what counts for it has its context, and the first days of every other
fold's count as well. -/
theorem fold_measurement_isolation (spec : ExperimentSpec) (nFolds embargoDays monthlyBars : ℤ)
    (folds : List WalkForwardFold)
    (h : planWalkForwardFolds (planRequest spec.timeRange nFolds embargoDays monthlyBars) = .ok folds) :
    ∀ fold ∈ folds, ¬ Isolated fold spec folds ∧
      (∃ t, inContext fold t = true) ∧ (∀ t, inContext fold t = true → counted fold spec t = true) ∧
      (∀ other ∈ folds, ∃ t, counted fold spec t = true ∧ counted other spec t = true) ∧
      ∀ (evidence : FoldEvidence fold spec) pnl, evidence.countedPnl = .ok pnl →
        pnl = evidence.gain (inContext fold) + evidence.gain (inEvaluation fold) := by
  intro fold hfold
  have hplaced := placed_of_plan h hfold
  have hcontext := hplaced.inContext_first
  have hcounted : counted fold spec (dayStart fold.featureContextStart) = true := hplaced.counted_of_inContext hcontext
  refine ⟨?_, ⟨_, hcontext⟩, fun t ht => hplaced.counted_of_inContext ht, ?_, ?_⟩
  · intro hisolated
    have hnot := hisolated.noContext _ hcontext
    rw [hcounted] at hnot
    cases hnot
  · intro other hother
    have hstart : other.featureContextStart = fold.featureContextStart := by
      have hexact := planWalkForwardFolds_exact h
      rw [(hexact.contexts other hother).featureStart, (hexact.contexts fold hfold).featureStart]
    have hother := placed_of_plan h hother
    exact ⟨_, hcounted, hstart ▸ hother.counted_of_inContext hother.inContext_first⟩
  · exact fun evidence pnl hpnl => evidence.countedPnl_eq hplaced hpnl

end Measurement

section Sample

/-- Trading in January of 1970 with two months of context, and the evaluation from the 1st of February on. -/
def winterSpec : ExperimentSpec := { plainSpec with timeRange := ⟨-60 * day, 40 * day⟩ }

def februaryFold : WalkForwardFold where
  foldId := "fold_01"
  featureContextStart := -60
  featureContextEnd := 30
  labelContextStart := -60
  labelContextEnd := 30
  embargoStart := 31
  embargoEnd := 30
  evalStart := 31
  evalEnd := 40

/-- A position that is stopped out in January, and a quiet day in February. -/
def winterBundle : HistoricalDataBundle :=
  { fallingBundle 50 40 with
    daily := fun symbol => (fallingBundle 50 40).daily symbol ++
      [sampleBar .daily (31 * day) (32 * day - 1) 100 101 99 100] }

def winterHistory : HistoricalDataBundle :=
  filterBundleToTimeRange winterBundle (childExperiment februaryFold winterSpec).timeRange winterSpec.symbolNames

def runOf (metrics : ResearchMetrics) : ShownRun where
  entry :=
    { experimentId := "exp_1", runId := "run_1", attemptId := "attempt_1", strategyVersion := "1.0"
      datasetVersion := "btc", costModelVersion := "1.1", benchmarkRef := "buy_and_hold_BTC"
      createdAt := "2024-05-01T00:00:00Z", artifactPath := ["exp_1", "run_1"], checksums := {}, status := .complete }
  directory := Dict.set {} ["metrics.json"] (.metrics metrics)

def foldChild : RobustnessChild := { childId := some "fold_01", status := some "complete", runId := some "run_1" }

theorem februaryFold_planned : planWalkForwardFolds (planRequest winterSpec.timeRange 1 0 2) = .ok [februaryFold] := rfl

theorem exists_context_gain : ∃ (evidence : FoldEvidence februaryFold winterSpec) (pnl : Decimal),
    evidence.countedPnl = .ok pnl ∧ pnl ≠ evidence.gain (inEvaluation februaryFold) := by
  have hdiffers : (do
      let (result, metrics) ← runBound (childExperiment februaryFold winterSpec) winterHistory
      let config ← configFromSpec (childExperiment februaryFold winterSpec)
      pure (decide ((childNetPnlFromVerifiedRun (fun _ => .ok (runOf metrics)) "rob_1" foldChild).toOption =
          some metrics.netPnl ∧
        metrics.netPnl ≠ foldGain (inEvaluation februaryFold) config winterHistory result))).toOption =
      some true := by
    decide +kernel
  cases hrun : runBound (childExperiment februaryFold winterSpec) winterHistory with
  | error exc =>
    rw [hrun] at hdiffers
    cases hdiffers
  | ok out =>
    obtain ⟨result, metrics⟩ := out
    cases hconfig : configFromSpec (childExperiment februaryFold winterSpec) with
    | error exc =>
      rw [hrun, hconfig] at hdiffers
      cases hdiffers
    | ok config =>
      rw [hrun, hconfig] at hdiffers
      obtain ⟨hcounted, hne⟩ := of_decide_eq_true (Option.some.inj hdiffers)
      let evidence : FoldEvidence februaryFold winterSpec :=
        { bundle := winterBundle, result, metrics, config, lookup := fun _ => .ok (runOf metrics)
          robustnessId := "rob_1", child := foldChild, runId := "run_1", shown := runOf metrics
          configured := hconfig, ran := hrun, named := rfl, found := rfl, exported := rfl }
      cases hpnl : evidence.countedPnl with
      | error e =>
        rw [show childNetPnlFromVerifiedRun (fun _ => .ok (runOf metrics)) "rob_1" foldChild = .error e from hpnl]
          at hcounted
        cases hcounted
      | ok pnl => exact ⟨evidence, pnl, hpnl, FoldEvidence.countedPnl_ok hpnl ▸ hne⟩

theorem fold_measurement_isolation_winter : ∃ folds, februaryFold ∈ folds ∧
    planWalkForwardFolds (planRequest winterSpec.timeRange 1 0 2) = .ok folds ∧
      ¬ Isolated februaryFold winterSpec folds :=
  ⟨_, List.mem_singleton_self _, februaryFold_planned,
    (fold_measurement_isolation winterSpec 1 0 2 _ februaryFold_planned _ (List.mem_singleton_self _)).1⟩

theorem january_counts_in_february : ¬ ∀ (spec : ExperimentSpec) (nFolds embargoDays monthlyBars : ℤ)
    (folds : List WalkForwardFold),
    planWalkForwardFolds (planRequest spec.timeRange nFolds embargoDays monthlyBars) = .ok folds →
      ∀ fold ∈ folds, ∀ (evidence : FoldEvidence fold spec) pnl, evidence.countedPnl = .ok pnl →
        pnl = evidence.gain (inEvaluation fold) := by
  intro hclaim
  obtain ⟨evidence, pnl, hpnl, hne⟩ := exists_context_gain
  exact hne (hclaim winterSpec 1 0 2 _ februaryFold_planned _ (List.mem_singleton_self _) evidence pnl hpnl)

end Sample

end TradingBot.Research.FoldMeasurement
