import TradingBot.Research.ArtifactWriter
import TradingBot.Research.Robustness
import TradingBot.Research.WalkForward

namespace TradingBot.Research.RobustnessSuite

open Market.Models Market.Timeframes Library.Dictionary Research.Models Research.Metrics Research.Artifacts
open Research.Registry
open Research.ArtifactWriter (sealedTree)
open Research.Robustness (errorText)
open Library.Outcome (except_bind_eq_ok)
open Research.WalkForward (twoDigits WalkForwardFold PlanRequest planWalkForwardFolds)

/-- An effective parameter: an integer, a decimal by its digits, or another text. -/
inductive ParamValue
  | int (n : ℤ)
  | decimal (coefficient : ℤ) (places : ℕ)
  | text (value : String)
deriving DecidableEq, Repr

/-- An experiment by what the suites change of it; `rest` is the rest of its semantic fields. -/
structure SuiteSpec (ρ : Type) where
  hypothesis : String
  timeRange : TimeRange
  feeAssumption : FeeAssumption
  slippageAssumption : SlippageAssumption
  fundingAssumption : FundingAssumption
  parameters : Dict String ParamValue
  rest : ρ
deriving DecidableEq

/-- A child of a suite; its label is left out. -/
structure RobustnessChildSpec (ρ : Type) where
  childId : String
  spec : SuiteSpec ρ

section Builders

variable {ρ : Type} (base : SuiteSpec ρ)

section WalkForward

def dayStart (date : ℤ) : Time := date * day

def dayEnd (date : ℤ) : Time := date * day + 86399 * second

def walkForwardChild (fold : WalkForwardFold) : RobustnessChildSpec ρ where
  childId := fold.foldId
  spec :=
    { base with
      timeRange := ⟨dayStart fold.featureContextStart, dayEnd fold.evalEnd⟩
      hypothesis := base.hypothesis ++ " [walk_forward:" ++ fold.foldId ++ "]" }

def planRequest (range : TimeRange) (nFolds embargoDays monthlyBars : ℤ) : PlanRequest where
  rangeStart := dayNumber range.start
  rangeEnd := dayNumber range.finish
  nFolds := nFolds
  embargoDays := embargoDays
  featureWarmupMonthlyBars := monthlyBars

def buildWalkForwardChildSpecs (nFolds embargoDays monthlyBars : ℤ) : Except String (List (RobustnessChildSpec ρ)) := do
  let folds ← planWalkForwardFolds (planRequest base.timeRange nFolds embargoDays monthlyBars)
  pure (folds.map (walkForwardChild base))

end WalkForward

section CostStress

/-- A scenario by the factor on the fees and on the slippage, and the funding rate that it assumes in place of the
one of the spec. -/
structure CostStressScenario where
  name : String
  feeFactor : Decimal := 1
  slippageFactor : Decimal := 1
  assumedRate : Option Decimal := none
deriving DecidableEq, Repr

def defaultP5CostStressScenarios : List CostStressScenario :=
  [{ name := "base" },
    { name := "fee_x2", feeFactor := 2 },
    { name := "slippage_x2", slippageFactor := 2 },
    { name := "funding_stress", assumedRate := some (1 / 10000) },
    { name := "combined_elevated", feeFactor := 2, slippageFactor := 2, assumedRate := some (1 / 10000) },
    { name := "combined_extreme", feeFactor := 3, slippageFactor := 3, assumedRate := some (3 / 10000) }]

def costStressChild (scenario : CostStressScenario) : RobustnessChildSpec ρ where
  childId := scenario.name
  spec :=
    { base with
      feeAssumption :=
        { base.feeAssumption with
          entryFeeRate := base.feeAssumption.entryFeeRate * scenario.feeFactor
          exitFeeRate := base.feeAssumption.entryFeeRate * scenario.feeFactor }
      slippageAssumption :=
        { base.slippageAssumption with slippageBps := base.slippageAssumption.slippageBps * scenario.slippageFactor }
      fundingAssumption :=
        match scenario.assumedRate with
        | none => base.fundingAssumption
        | some rate => { base.fundingAssumption with enabled := true, assumedRate := some rate }
      hypothesis := base.hypothesis ++ " [cost_stress:" ++ scenario.name ++ "]" }

def buildCostStressChildSpecs : Except String (List (RobustnessChildSpec ρ)) :=
  if base.fundingAssumption.enabled ∧ base.fundingAssumption.assumedRate = none then
    .error "base_funding_assumed_rate required when base_funding_enabled is true"
  else .ok (defaultP5CostStressScenarios.map (costStressChild base))

end CostStress

section ParameterStability

def ParamValue.toInt : ParamValue → Except String ℤ
  | .int n => .ok n
  | .decimal coefficient 0 => .ok coefficient
  | _ => .error "invalid literal for int() with base 10"

def ParamValue.toDecimal : ParamValue → Except String (ℤ × ℕ)
  | .int n => .ok (n, 0)
  | .decimal coefficient places => .ok (coefficient, places)
  | .text _ => .error "[<class 'decimal.ConversionSyntax'>]"

/-- A sum of two decimals; it is exact up to the precision of 28 digits. -/
def addDecimal (a b : ℤ × ℕ) : ParamValue :=
  let places := max a.2 b.2
  .decimal (a.1 * 10 ^ (places - a.2) + b.1 * 10 ^ (places - b.2)) places

structure NeighborhoodConfig where
  intDeltas : List (String × List ℤ) := []
  decimalRelativeSteps : List (String × List ParamValue) := []
deriving DecidableEq, Repr

def defaultIntDeltas : List (String × List ℤ) :=
  [("daily_ema_period", [-2, 2]), ("breakout_lookback", [-2, 2]), ("atr_period", [-2, 2])]

def defaultDecimalRelativeSteps : List (String × List ParamValue) :=
  [("stop_initial_atr_mult", [.decimal (-1) 1, .decimal 1 1]),
    ("trail_atr_mult", [.decimal (-1) 1, .decimal 1 1]),
    ("pullback_ema_tolerance", [.decimal (-1) 3, .decimal 1 3])]

abbrev Parameters := Dict String ParamValue

/-- The neighbours along one key; a key that the parameters do not have is passed over. -/
def neighborsOf {δ : Type} (frozen : Parameters) (vary : ParamValue → δ → Except String ParamValue)
    (deltas : String × List δ) : Except String (List Parameters) :=
  match frozen.get? deltas.1 with
  | none => .ok []
  | some value => deltas.2.mapM fun delta => do
    let varied ← vary value delta
    pure (frozen.set deltas.1 varied)

def varyInt (value : ParamValue) (delta : ℤ) : Except String ParamValue := do
  let n ← value.toInt
  pure (.int (n + delta))

def varyDecimal (value step : ParamValue) : Except String ParamValue := do
  let a ← value.toDecimal
  let b ← step.toDecimal
  pure (addDecimal a b)

/-- The frozen parameters come first. An empty choice of deltas stands for the default one. -/
def symmetricNeighborhood (frozen : Parameters) (config : NeighborhoodConfig) : Except String (List Parameters) := do
  let ints ← (if config.intDeltas = [] then defaultIntDeltas else config.intDeltas).mapM (neighborsOf frozen varyInt)
  let decimals ← (if config.decimalRelativeSteps = [] then defaultDecimalRelativeSteps
    else config.decimalRelativeSteps).mapM (neighborsOf frozen varyDecimal)
  pure (frozen :: (ints.flatten ++ decimals.flatten))

def stabilityChildId (index : ℕ) : String := if index = 0 then "frozen" else "neighbor_" ++ twoDigits index

def stabilityChild (variant : Parameters × ℕ) : RobustnessChildSpec ρ where
  childId := stabilityChildId variant.2
  spec :=
    { base with
      parameters := variant.1
      hypothesis := base.hypothesis ++ " [parameter_stability:" ++ stabilityChildId variant.2 ++ "]" }

def buildParameterStabilityChildSpecs (config : NeighborhoodConfig) : Except String (List (RobustnessChildSpec ρ)) := do
  let variants ← symmetricNeighborhood base.parameters config
  pure (variants.zipIdx.map (stabilityChild base))

end ParameterStability

/-- The test type of a suite that runs children, with its config. -/
inductive SuiteConfig
  | walkForward (nFolds embargoDays featureWarmupMonthlyBars : ℤ)
  | costStress
  | parameterStability (config : NeighborhoodConfig)
deriving DecidableEq, Repr

def buildChildSpecs : SuiteConfig → Except String (List (RobustnessChildSpec ρ))
  | .walkForward nFolds embargoDays monthlyBars => buildWalkForwardChildSpecs base nFolds embargoDays monthlyBars
  | .costStress => buildCostStressChildSpecs base
  | .parameterStability config => buildParameterStabilityChildSpecs base config

end Builders

section Runs

structure RunIds where
  experimentId : String
  runId : String
deriving DecidableEq, Repr

/-- The parts of `run_experiment` around the run directory: what comes before it up to the ids of the run, and the
files that the backtest gives. -/
structure SuiteContext (ρ : Type) where
  sha256 : Content → String
  identify : SuiteSpec ρ → Except String RunIds
  execute : SuiteSpec ρ → Except String Tree
  strategyVersion : ρ → String
  datasetId : ρ → String
  benchmark : ρ → String

structure ArtifactRoot where
  artifacts : ArtifactStore := {}
  registry : ExperimentRegistry := {}

structure ChildMetrics where
  netPnl : Option Decimal := none
  maxDrawdown : Option Decimal := none
  closedTrades : Option ℕ := none
  profitFactor : Option Decimal := none
deriving DecidableEq, Repr

inductive ChildStatus
  | complete | failed
deriving DecidableEq, Repr

structure RobustnessChildResult where
  childId : String
  ids : Option RunIds := none
  status : ChildStatus
  metrics : ChildMetrics := {}
  error : Option String := none
deriving DecidableEq, Repr

/-- The attempt and the time of a run, which are new each time. -/
structure Stamp where
  attemptId : String
  createdAt : String

variable {ρ : Type} (ctx : SuiteContext ρ)

def runDir (ids : RunIds) : RelPath := [ids.experimentId, ids.runId]

/-- `run_experiment`, with the run directories as it leaves them. A failure has its ids, where it came to them. -/
def runExperiment (artifacts : ArtifactStore) (spec : SuiteSpec ρ) :
    ArtifactStore × Except (Option RunIds × String) (RunIds × Tree) :=
  match ctx.identify spec with
  | .error e => (artifacts, .error (none, e))
  | .ok ids =>
    if (artifacts.get? (runDir ids)).isSome then
      (artifacts, .error (some ids, "refusing to overwrite existing artifacts at " ++ posix (runDir ids)))
    else
      match ctx.execute spec with
      | .error e => (artifacts, .error (some ids, e))
      | .ok work =>
        let tree := sealedTree ctx.sha256 work
        (artifacts.set (runDir ids) tree, .ok (ids, tree))

def readMetrics (tree : Tree) : Except ResearchError ChildMetrics :=
  match tree.get? ["metrics.json"] with
  | some (.metrics m) => .ok ⟨some m.netPnl, m.maxDrawdown, some m.closedTrades, m.profitFactor⟩
  | some (.bytes _) => .error (.valueError "Expecting value")
  | _ => .ok {}

def childRegistration (stamp : Stamp) (spec : SuiteSpec ρ) (ids : RunIds) (costModelVersion : String)
    (checksums : Checksums) : Registration where
  experimentId := ids.experimentId
  runId := ids.runId
  attemptId := stamp.attemptId
  strategyVersion := ctx.strategyVersion spec.rest
  datasetVersion := ctx.datasetId spec.rest
  costModelVersion := costModelVersion
  benchmarkRef := ctx.benchmark spec.rest
  createdAt := stamp.createdAt
  artifactPath := runDir ids
  checksums := checksums

def registerChild (stamp : Stamp) (root : ArtifactRoot) (spec : SuiteSpec ρ) (ids : RunIds) (tree : Tree) :
    Except ResearchError (ExperimentRegistry × ChildMetrics) := do
  let metrics ← readMetrics tree
  let costModelVersion ← ExperimentRegistry.readCostModelVersion tree
  let checksums ← loadChecksums tree
  let registry ← root.registry.registerComplete ctx.sha256 root.artifacts
    (childRegistration ctx stamp spec ids costModelVersion checksums)
  pure (registry, metrics)

/-- One turn of the loop over the children; an exception fails the child and not the suite. -/
def runChild (stamp : Stamp) (root : ArtifactRoot) (child : RobustnessChildSpec ρ) :
    ArtifactRoot × RobustnessChildResult :=
  match runExperiment ctx root.artifacts child.spec with
  | (artifacts, .error (ids, e)) =>
    ({ root with artifacts }, { childId := child.childId, ids, status := .failed, error := some e })
  | (artifacts, .ok (ids, tree)) =>
    match registerChild ctx stamp { root with artifacts } child.spec ids tree with
    | .error e => ({ root with artifacts }, { childId := child.childId, status := .failed, error := some (errorText e) })
    | .ok (registry, metrics) =>
      (⟨artifacts, registry⟩, { childId := child.childId, ids := some ids, status := .complete, metrics })

def runChildren (stamps : String → Stamp) (root : ArtifactRoot) :
    List (RobustnessChildSpec ρ) → ArtifactRoot × List RobustnessChildResult
  | [] => (root, [])
  | child :: children =>
    let (root', result) := runChild ctx (stamps child.childId) root child
    let (root'', results) := runChildren stamps root' children
    (root'', result :: results)

def suiteChildren (base : SuiteSpec ρ) (suite : SuiteConfig) : List (RobustnessChildSpec ρ) :=
  match buildChildSpecs base suite with
  | .error _ => []
  | .ok children => children

def runSuite (stamps : String → Stamp) (base : SuiteSpec ρ) (root : ArtifactRoot) (suite : SuiteConfig) :
    ArtifactRoot × List RobustnessChildResult :=
  runChildren ctx stamps root (suiteChildren base suite)

end Runs

end TradingBot.Research.RobustnessSuite

namespace TradingBot.Research.CostElevation

open Market.Models Research.Models Research.RobustnessSuite

variable {ρ : Type}

/-- What a run under the assumption pays for funding per day, as a rate. -/
def fundingRate (funding : FundingAssumption) : Decimal := if funding.enabled then funding.assumedRate.getD 0 else 0

structure Elevated (base child : SuiteSpec ρ) : Prop where
  entry : base.feeAssumption.entryFeeRate ≤ child.feeAssumption.entryFeeRate
  exit : base.feeAssumption.exitFeeRate ≤ child.feeAssumption.exitFeeRate
  slippage : base.slippageAssumption.slippageBps ≤ child.slippageAssumption.slippageBps
  funding : fundingRate base.fundingAssumption ≤ fundingRate child.fundingAssumption

/-- The base child has the costs of the base, and the other children have them or higher ones. -/
structure OnlyElevates (base : SuiteSpec ρ) (children : List (RobustnessChildSpec ρ)) : Prop where
  exact : ∀ child ∈ children, child.childId = "base" →
    child.spec.feeAssumption = base.feeAssumption ∧ child.spec.slippageAssumption = base.slippageAssumption ∧
      child.spec.fundingAssumption = base.fundingAssumption
  elevated : ∀ child ∈ children, Elevated base child.spec

structure ValidCosts (base : SuiteSpec ρ) : Prop where
  entry : 0 ≤ base.feeAssumption.entryFeeRate
  exit : 0 ≤ base.feeAssumption.exitFeeRate
  slippage : 0 ≤ base.slippageAssumption.slippageBps

theorem fundingRate_costStressChild (base : SuiteSpec ρ) (scenario : CostStressScenario) :
    fundingRate (costStressChild base scenario).spec.fundingAssumption =
      scenario.assumedRate.getD (fundingRate base.fundingAssumption) := by
  cases hrate : scenario.assumedRate with
  | none => simp only [costStressChild, hrate, Option.getD_none]
  | some rate => simp only [costStressChild, hrate, Option.getD_some, fundingRate, if_true]

variable {base : SuiteSpec ρ}

theorem elevated_costStressChild_iff (hvalid : ValidCosts base) {scenario : CostStressScenario}
    (hfee : 1 ≤ scenario.feeFactor) (hslippage : 1 ≤ scenario.slippageFactor) :
    Elevated base (costStressChild base scenario).spec ↔
      base.feeAssumption.exitFeeRate ≤ base.feeAssumption.entryFeeRate * scenario.feeFactor ∧
        fundingRate base.fundingAssumption ≤ scenario.assumedRate.getD (fundingRate base.fundingAssumption) := by
  constructor
  · intro h
    exact ⟨h.exit, fundingRate_costStressChild base scenario ▸ h.funding⟩
  · rintro ⟨hexit, hfunding⟩
    constructor
    case entry => exact le_mul_of_one_le_right hvalid.entry hfee
    case exit => exact hexit
    case slippage => exact le_mul_of_one_le_right hvalid.slippage hslippage
    case funding => exact fundingRate_costStressChild base scenario ▸ hfunding

theorem scenario_bounds : ∀ scenario ∈ defaultP5CostStressScenarios,
    1 ≤ scenario.feeFactor ∧ 1 ≤ scenario.slippageFactor ∧ ∀ rate ∈ scenario.assumedRate, 1 / 10000 ≤ rate := by
  decide +kernel

theorem base_scenario : ∀ scenario ∈ defaultP5CostStressScenarios, scenario.name = "base" →
    scenario = { name := "base" } := by
  decide +kernel

theorem buildCostStressChildSpecs_ok {children : List (RobustnessChildSpec ρ)}
    (h : buildCostStressChildSpecs base = .ok children) :
    children = defaultP5CostStressScenarios.map (costStressChild base) := by
  unfold buildCostStressChildSpecs at h
  split_ifs at h
  exact (Except.ok.inj h).symm

/-- The suite only elevates the costs of specs with one rate for both fees, where they have funding of at most one
basis point a day. -/
theorem cost_stress_only_elevates_iff (base : SuiteSpec ρ) (children : List (RobustnessChildSpec ρ))
    (hvalid : ValidCosts base) (h : buildCostStressChildSpecs base = .ok children) :
    OnlyElevates base children ↔
      base.feeAssumption.exitFeeRate = base.feeAssumption.entryFeeRate ∧
        fundingRate base.fundingAssumption ≤ 1 / 10000 := by
  obtain rfl := buildCostStressChildSpecs_ok h
  constructor
  · intro honly
    have hbase := honly.exact (costStressChild base { name := "base" })
      (List.mem_map_of_mem List.mem_cons_self) rfl
    have hstress := (honly.elevated (costStressChild base
      { name := "funding_stress", assumedRate := some (1 / 10000) })
      (List.mem_map_of_mem (by decide +kernel))).funding
    have hexit := congrArg FeeAssumption.exitFeeRate hbase.1
    rw [fundingRate_costStressChild] at hstress
    exact ⟨hexit.symm.trans (mul_one _), hstress⟩
  · rintro ⟨hexit, hfunding⟩
    constructor
    case exact =>
      intro child hchild hid
      obtain ⟨scenario, hscenario, rfl⟩ := List.mem_map.mp hchild
      rw [base_scenario scenario hscenario hid]
      refine ⟨?_, ?_, rfl⟩
      · simp only [costStressChild, mul_one]
        exact congrArg (fun rate => { base.feeAssumption with exitFeeRate := rate }) hexit.symm
      · simp only [costStressChild, mul_one]
    case elevated =>
      intro child hchild
      obtain ⟨scenario, hscenario, rfl⟩ := List.mem_map.mp hchild
      obtain ⟨hfee, hslippage, hrates⟩ := scenario_bounds scenario hscenario
      refine (elevated_costStressChild_iff hvalid hfee hslippage).mpr ⟨?_, ?_⟩
      · exact hexit.trans_le (le_mul_of_one_le_right hvalid.entry hfee)
      · cases hrate : scenario.assumedRate with
        | none => exact le_rfl
        | some rate => exact hfunding.trans (hrates rate hrate)

section Sample

def feeBase (entryFeeRate exitFeeRate : Decimal) : SuiteSpec Unit where
  hypothesis := "trend"
  timeRange := ⟨0, 400 * day⟩
  feeAssumption := ⟨entryFeeRate, exitFeeRate, "1.0"⟩
  slippageAssumption := ⟨5, "1.0"⟩
  fundingAssumption := { enabled := true, assumedRate := some (1 / 20000) }
  parameters := {}
  rest := ()

theorem cost_stress_only_elevates_sample : ∃ children,
    buildCostStressChildSpecs (feeBase (1 / 2000) (1 / 2000)) = .ok children ∧
      OnlyElevates (feeBase (1 / 2000) (1 / 2000)) children :=
  ⟨_, rfl, (cost_stress_only_elevates_iff (feeBase (1 / 2000) (1 / 2000)) _
    ⟨by decide +kernel, by decide +kernel, by decide +kernel⟩ rfl).mpr ⟨rfl, by decide +kernel⟩⟩

/-- The base child leaves with the fee of an entry as a maker. -/
theorem base_child_lowers_exit_fee : ¬ ∀ (base : SuiteSpec Unit) (children : List (RobustnessChildSpec Unit)),
    ValidCosts base → buildCostStressChildSpecs base = .ok children → OnlyElevates base children := by
  intro hclaim
  have honly := hclaim (feeBase (1 / 5000) (1 / 2000)) _ ⟨by decide +kernel, by decide +kernel, by decide +kernel⟩ rfl
  have hexit := (honly.elevated _ List.mem_cons_self).exit
  exact absurd hexit (by decide +kernel)

end Sample

end TradingBot.Research.CostElevation
