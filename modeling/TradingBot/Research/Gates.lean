import TradingBot.Research.Metrics

namespace TradingBot.Research.Gates

open Market.Models Exceptions Library.Dictionary Research.Metrics

inductive Comparator
  | gte | gt | lte | lt | eq
deriving DecidableEq, Repr

def evaluateComparator (comparator : Comparator) (measured threshold : Decimal) : Bool :=
  match comparator with
  | .gte => threshold ≤ measured
  | .gt => threshold < measured
  | .lte => measured ≤ threshold
  | .lt => measured < threshold
  | .eq => measured = threshold

/-- A gate. The threshold is the number its text spells. -/
structure GateDefinition where
  name : String
  metric : String
  comparator : Comparator
  threshold : Decimal
  description : String := ""
  category : String := ""
deriving DecidableEq, Repr

structure GatePolicy where
  version : String
  description : String
  gates : List GateDefinition
deriving DecidableEq, Repr

/-- The categories in which a gate that does not pass fails the whole evaluation. -/
def criticalGateCategories : List String :=
  ["sample_sufficiency", "oos_net", "drawdown", "walk_forward", "cost_stress", "parameter_fragility",
   "bootstrap", "concentration", "regime_coverage", "execution_realism"]

def isCriticalCategory (category : String) : Bool := category ≠ "" ∧ category ∈ criticalGateCategories

def maxDrawdownFloor : GateDefinition where
  name := "max_drawdown_floor"
  metric := "max_drawdown"
  comparator := .gte
  threshold := -1 / 2
  description := "Max drawdown must not be worse than -50% of starting capital (generic example default)."

def gates1_0 : List GateDefinition :=
  [{ name := "min_closed_trades", metric := "closed_trades", comparator := .gte, threshold := 10
     description := "Sample sufficiency floor (generic example default)." },
   { name := "net_pnl_non_negative", metric := "net_pnl", comparator := .gte, threshold := 0
     description := "Net PnL under base costs must not be negative." },
   maxDrawdownFloor,
   { name := "walk_forward_fold_pass_ratio", metric := "walk_forward_fold_pass_ratio", comparator := .gte
     threshold := 1 / 2
     description := "Share of walk-forward folds (robustness manifest, #247) with net PnL >= 0 under base costs." },
   { name := "cost_stress_combined_elevated_non_negative", metric := "cost_stress_combined_elevated_net_pnl"
     comparator := .gte, threshold := 0
     description := "Cost-stress child 'combined_elevated' net PnL (robustness manifest, #247) must not be negative." },
   { name := "parameter_neighbor_pass_ratio", metric := "parameter_neighbor_pass_ratio", comparator := .gte
     threshold := 1 / 2
     description := "Share of parameter-stability neighbors (robustness manifest, #247) with net PnL >= 0." },
   { name := "bootstrap_q05_net_pnl_non_negative", metric := "bootstrap_q05_net_pnl", comparator := .gte
     threshold := 0
     description := "Bootstrap 5% path net-PnL quantile (robustness manifest, #247) must not be negative." }]

def categoryByGateName : List (String × String) :=
  [("min_closed_trades", "sample_sufficiency"), ("net_pnl_non_negative", "oos_net"),
   ("max_drawdown_floor", "drawdown"), ("walk_forward_fold_pass_ratio", "walk_forward"),
   ("cost_stress_combined_elevated_non_negative", "cost_stress"),
   ("parameter_neighbor_pass_ratio", "parameter_fragility"),
   ("bootstrap_q05_net_pnl_non_negative", "bootstrap")]

def gates1_1 : List GateDefinition :=
  gates1_0.map fun g => { g with category := (categoryByGateName.lookup g.name).getD "" }

def policyRegistry : List GatePolicy :=
  [{ version := "1.0"
     description :=
       "Generic P4.7c example gate policy: structural sufficiency and sign checks over evidence already " ++
       "produced by the research runner and robustness orchestrator. Not the P5 human decision rules " ++
       "(see docs/research/p5/P5_DECISION_RULES.md, #205)."
     gates := gates1_0 },
   { version := "1.1"
     description :=
       "Scorecard integrity profile (#286): same generic thresholds as 1.0 plus Layer-1 critical-gate " ++
       "categories. Integrity status is evaluated separately; missing evidence yields NOT_AVAILABLE, " ++
       "never PASS. Not the P5 human decision rules (#205)."
     gates := gates1_1 }]

def getPolicy (version : String) : Except Exc GatePolicy :=
  match policyRegistry.find? (·.version = version) with
  | some policy => .ok policy
  | none => .error (.lookupError ("unknown gate policy version: '" ++ version ++ "'"))

inductive GateOutcome
  | pass | fail | inconclusive | notAvailable
deriving DecidableEq, Repr

/-- The text that goes with the result of a gate. -/
inductive GateReason
  | noEvidence (metric : String)
  | pass
  | notSatisfied (name : String) (measured : Decimal) (comparator : Comparator) (threshold : Decimal)
deriving DecidableEq, Repr

structure GateEvaluationResult where
  name : String
  threshold : Decimal
  measuredValue : Option Decimal
  outcome : GateOutcome
  reason : GateReason
  category : String
deriving DecidableEq, Repr

/-- Derived from the outcome, so that the two cannot disagree. -/
def GateEvaluationResult.passed (r : GateEvaluationResult) : Bool := r.outcome = .pass

abbrev Measurements := Dict String Decimal

def measurementsFromMetrics (m : ResearchMetrics) : Measurements :=
  let counted := Dict.set (Dict.set {} "closed_trades" (m.closedTrades : Decimal)) "net_pnl" m.netPnl
  match m.maxDrawdown with
  | none => counted
  | some drawdown => counted.set "max_drawdown" drawdown

inductive RobustnessTest
  | walkForward | costStress | parameterStability | bootstrap
deriving DecidableEq, Repr

def RobustnessTest.metric : RobustnessTest → String
  | .walkForward => "walk_forward_fold_pass_ratio"
  | .costStress => "cost_stress_combined_elevated_net_pnl"
  | .parameterStability => "parameter_neighbor_pass_ratio"
  | .bootstrap => "bootstrap_q05_net_pnl"

def mergeMeasurements (m : Measurements) (robustness : List (RobustnessTest × Decimal)) : Measurements :=
  robustness.foldl (fun m r => m.set r.1.metric r.2) m

/-- One turn of the loop over the gates. -/
def evaluateGate (measurements : Measurements) (gate : GateDefinition) : GateEvaluationResult :=
  match measurements.get? gate.metric with
  | none =>
    { name := gate.name, threshold := gate.threshold, measuredValue := none, outcome := .notAvailable
      reason := .noEvidence gate.metric, category := gate.category }
  | some measured =>
    let passed := evaluateComparator gate.comparator measured gate.threshold
    { name := gate.name
      threshold := gate.threshold
      measuredValue := some measured
      outcome := if passed then .pass else .fail
      reason := if passed then .pass else .notSatisfied gate.name measured gate.comparator gate.threshold
      category := gate.category }

def evaluateGates (policy : GatePolicy) (measurements : Measurements) : List GateEvaluationResult :=
  policy.gates.map (evaluateGate measurements)

def evaluateSealed (policy : GatePolicy) (sealed : ResearchMetrics)
    (robustness : List (RobustnessTest × Decimal)) : Except Exc (List GateEvaluationResult) := do
  let metrics ← validateMetricsOrMarkInvalid sealed
  pure (evaluateGates policy (mergeMeasurements (measurementsFromMetrics metrics) robustness))

inductive GateOverallStatus
  | pass | fail
deriving DecidableEq, Repr

def overallStatusFromGates (gates : List GateEvaluationResult) : GateOverallStatus :=
  if gates = [] then .fail
  else if gates.any (·.category ≠ "") then
    if gates.any fun g => g.outcome ≠ .pass ∧ (g.category = "" ∨ isCriticalCategory g.category) then .fail
    else .pass
  else if gates.all (·.passed) then .pass
  else .fail

end TradingBot.Research.Gates
