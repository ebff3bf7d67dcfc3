import TradingBot.Library.Dictionary
import TradingBot.Library.Outcome
import TradingBot.Market.CanonicalTexts

namespace TradingBot.Research.ParameterArea

open Market.Models Market.CanonicalTexts Library.Dictionary Library.Outcome Library.Runs

inductive AreaError
  | parameterAreaError (message : String)
  | parameterAreaPolicyError (message : String)
  | keyError (key : String)
  | invalidOperation
deriving DecidableEq, Repr

section Policy

inductive ParameterAreaLabel
  | broadStablePlateau | narrowStableArea | isolatedPeak | unstable | insufficientEvidence
deriving DecidableEq, Repr

/-- The order of the labels; the two weak ones are alike. -/
def ParameterAreaLabel.rank : ParameterAreaLabel → ℕ
  | .insufficientEvidence => 0
  | .isolatedPeak => 1
  | .unstable => 1
  | .narrowStableArea => 2
  | .broadStablePlateau => 3

structure ParameterAreaPolicy where
  version : String
  minCompleteNeighbors : ℤ
  minNetPnl : Decimal
  maxCostRatio : Decimal
  broadMinContiguous : ℤ
  narrowMinContiguous : ℤ
  steepDropWarn : Decimal
  broadMinStableShare : Decimal
  narrowMinStableShare : Decimal
  broadMinGatePassShare : Decimal
  contiguityRule : String
deriving DecidableEq, Repr

def policy10 : ParameterAreaPolicy where
  version := "1.0"
  minCompleteNeighbors := 2
  minNetPnl := 0
  maxCostRatio := 5 / 10
  broadMinContiguous := 3
  narrowMinContiguous := 2
  steepDropWarn := 50
  broadMinStableShare := 6 / 10
  narrowMinStableShare := 35 / 100
  broadMinGatePassShare := 5 / 10
  contiguityRule := "oat_axis_adjacent_including_frozen_v1"

def getParameterAreaPolicy (version : String) : Except AreaError ParameterAreaPolicy :=
  if version = "1.0" then .ok policy10
  else .error (.parameterAreaPolicyError ("unknown parameter-area policy version: '" ++ version ++ "'"))

end Policy

section Points

/-- A child of the neighborhood. The values of its parameters are of any type with the `==` and the `str` of the
language. -/
structure NeighborObservation (V : Type) where
  childId : String
  label : String
  parameters : Dict String V
  status : String
  netPnl : Option String
  totalCosts : Option String
  gatePass : Option Bool

inductive StableReason
  | notComplete | missingNetPnl | netPnlBelowFloor | missingCosts | costRatioExceeded | missingGatePass | gateFail
  | stable
deriving DecidableEq, Repr

/-- A child with its amounts as numbers and the verdict on it. -/
structure EvaluatedNeighbor (V : Type) where
  childId : String
  label : String
  parameters : Dict String V
  status : String
  netPnl : Option Decimal
  totalCosts : Option Decimal
  gatePass : Option Bool
  stable : Bool
  stableReason : StableReason
  positive : Bool

def decimalOf (text : String) : Except AreaError Decimal :=
  match readDecimal text with
  | none => .error .invalidOperation
  | some d => .ok d.value

def optionalDec : Option String → Except AreaError (Option Decimal)
  | none => .ok none
  | some text => if text = "NOT_AVAILABLE" then .ok none else (decimalOf text).map some

variable {V : Type} (policy : ParameterAreaPolicy) (requireGate : Bool)

def isNeighborStable (status : String) (netPnl totalCosts : Option Decimal) (gatePass : Option Bool) :
    Bool × StableReason :=
  if status ≠ "complete" then (false, .notComplete)
  else match netPnl with
    | none => (false, .missingNetPnl)
    | some net =>
      if net < policy.minNetPnl then (false, .netPnlBelowFloor)
      else match totalCosts with
        | none => (false, .missingCosts)
        | some costs =>
          if policy.maxCostRatio < costs / max |net| 1 then (false, .costRatioExceeded)
          else if requireGate then
            match gatePass with
            | none => (false, .missingGatePass)
            | some false => (false, .gateFail)
            | some true => (true, .stable)
          else (true, .stable)

/-- `_eval`. -/
def evaluateNeighbor (obs : NeighborObservation V) : Except AreaError (EvaluatedNeighbor V) := do
  let net ← optionalDec obs.netPnl
  let costs ← optionalDec obs.totalCosts
  let verdict := isNeighborStable policy requireGate obs.status net costs obs.gatePass
  pure
    { childId := obs.childId
      label := obs.label
      parameters := obs.parameters
      status := obs.status
      netPnl := net
      totalCosts := costs
      gatePass := obs.gatePass
      stable := verdict.1
      stableReason := verdict.2
      positive := net.any (0 < ·) }

end Points

section Graph

structure AxisPoint where
  childId : String
  axis : String
  value : Decimal
  stable : Bool
deriving DecidableEq, Repr

def AxisPoint.before (p q : AxisPoint) : Prop := p.value < q.value ∨ p.value = q.value ∧ p.childId ≤ q.childId

instance : DecidableRel AxisPoint.before := fun _ _ => inferInstanceAs (Decidable (_ ∨ _))

variable {V : Type} [BEq V] (str : V → String)

/-- Two values are equal, or spell one number. -/
def valuesEqual (a b : V) : Bool :=
  a == b || match decimalOf (str a), decimalOf (str b) with
    | .ok x, .ok y => x = y
    | _, _ => false

def equalAt (left right : Dict String V) (key : String) : Bool :=
  match left.get? key, right.get? key with
  | some a, some b => valuesEqual str a b
  | _, _ => false

def parametersEqual (left right : Dict String V) : Bool := (left.keys ++ right.keys).all (equalAt str left right)

def changedAxes (frozen params : Dict String V) : List String :=
  ((frozen.keys ++ params.keys).dedup.insertionSort (· ≤ ·)).filter fun key => !equalAt str frozen params key

omit [BEq V] in
def axisValue (axis : String) (row : EvaluatedNeighbor V) : Except AreaError Decimal :=
  match row.parameters.get? axis with
  | none => .error (.keyError axis)
  | some value => decimalOf (str value)

def axisPoint (axis : String) (row : EvaluatedNeighbor V) : Except AreaError AxisPoint :=
  (axisValue str axis row).map fun value => ⟨row.childId, axis, value, row.stable⟩

def addNeighbor (frozenParameters : Dict String V) (byAxis : Dict String (List AxisPoint)) (row : EvaluatedNeighbor V) :
    Except AreaError (Dict String (List AxisPoint)) :=
  match changedAxes str frozenParameters row.parameters with
  | [axis] => do
    let point ← axisPoint str axis row
    pure (byAxis.set axis ((byAxis.get? axis).getD [] ++ [point]))
  | _ => .ok byAxis

def joinFrozen (points : List AxisPoint) (frozenPoint : AxisPoint) : List AxisPoint :=
  if points.any (·.childId = frozenPoint.childId) then points else points ++ [frozenPoint]

def addFrozen (frozen : EvaluatedNeighbor V) (entry : String × List AxisPoint) :
    Except AreaError (String × List AxisPoint) :=
  if entry.1 ∈ frozen.parameters.keys then do
    let frozenPoint ← axisPoint str entry.1 frozen
    pure (entry.1, (joinFrozen entry.2 frozenPoint).insertionSort AxisPoint.before)
  else .ok entry

def buildAxisPoints (frozen : EvaluatedNeighbor V) (neighbors : List (EvaluatedNeighbor V)) :
    Except AreaError (List (String × List AxisPoint)) := do
  let byAxis ← neighbors.foldlM (addNeighbor str frozen.parameters) {}
  byAxis.entries.mapM (addFrozen str frozen)

def contiguousStableThroughFrozen (points : List AxisPoint) (frozenChildId : String) : ℕ :=
  runThrough (fun p => p.childId = frozenChildId) AxisPoint.stable points

structure RegionMeasurement where
  plateauSize : ℕ
  bestAxis : Option String
  axisContiguousStable : List (String × ℕ)
  contiguousRegionRule : String := "oat_axis_adjacent_including_frozen_v1"
  plateauIncludesFrozen : Bool
deriving DecidableEq, Repr

/-- The longest run, and of several that of the last axis. -/
def longestRun : List (String × ℕ) → Option (String × ℕ)
  | [] => none
  | first :: rest =>
    some (rest.foldl (fun best run => if best.2 < run.2 ∨ best.2 = run.2 ∧ best.1 < run.1 then run else best) first)

def axisRuns (byAxis : List (String × List AxisPoint)) (frozenChildId : String) : List (String × ℕ) :=
  (byAxis.insertionSort fun e e' => e.1 ≤ e'.1).map fun e => (e.1, contiguousStableThroughFrozen e.2 frozenChildId)

def measureContiguousRegions (byAxis : List (String × List AxisPoint)) (frozenChildId : String) : RegionMeasurement :=
  let runs := axisRuns byAxis frozenChildId
  let plateauSize := (runs.map Prod.snd).max?.getD 0
  { plateauSize := plateauSize
    bestAxis := (longestRun runs).map Prod.fst
    axisContiguousStable := runs
    plateauIncludesFrozen := 0 < plateauSize }

end Graph

section Classification

structure AreaEvidence where
  nCompleteNeighbors : ℕ
  stableShare : Decimal
  gatePassShare : Option Decimal
  gatesAvailable : Bool
  plateauSize : ℕ
  frozenStable : Bool
  plateauIncludesFrozen : Bool
  anyStableNeighbor : Bool
  steepestDrop : Option Decimal
deriving DecidableEq, Repr

inductive AreaReason
  | completeNeighbors (count : ℕ) (minimum : ℤ)
  | frozenUnstableDespiteStableNeighbors
  | noStableFrozenOrNeighbors
  | frozenStableWithoutStableNeighbors
  | steepestDrop (drop : Option Decimal) (warn stableShare : Decimal)
  | noContiguousFrozenPlateau
  | plateauSize (size : ℕ) (minimum : ℤ)
  | broad (size : ℕ) (stableShare : Decimal) (gatePassShare : Option Decimal)
  | narrow (size : ℕ) (stableShare : Decimal) (gatesAvailable : Bool)
  | stableShare (share minimum : Decimal)
  | neighborhoodDoesNotMeetDocumentedPlateauRules
deriving DecidableEq, Repr

def classifyParameterArea (policy : ParameterAreaPolicy) (e : AreaEvidence) : ParameterAreaLabel × AreaReason :=
  if (e.nCompleteNeighbors : ℤ) < policy.minCompleteNeighbors then
    (.insufficientEvidence, .completeNeighbors e.nCompleteNeighbors policy.minCompleteNeighbors)
  else if !e.frozenStable then
    if e.anyStableNeighbor then (.unstable, .frozenUnstableDespiteStableNeighbors)
    else (.unstable, .noStableFrozenOrNeighbors)
  else if e.frozenStable && !e.anyStableNeighbor then (.isolatedPeak, .frozenStableWithoutStableNeighbors)
  else if e.steepestDrop.any (policy.steepDropWarn < ·) ∧ e.stableShare < policy.narrowMinStableShare then
    (.unstable, .steepestDrop e.steepestDrop policy.steepDropWarn e.stableShare)
  else if !e.plateauIncludesFrozen ∨ (e.plateauSize : ℤ) < policy.narrowMinContiguous then
    if e.frozenStable && !e.anyStableNeighbor then (.isolatedPeak, .noContiguousFrozenPlateau)
    else if e.frozenStable then (.isolatedPeak, .plateauSize e.plateauSize policy.narrowMinContiguous)
    else (.unstable, .plateauSize e.plateauSize policy.narrowMinContiguous)
  else if policy.broadMinContiguous ≤ e.plateauSize ∧ e.plateauIncludesFrozen ∧ e.frozenStable ∧
      policy.broadMinStableShare ≤ e.stableShare ∧ e.gatesAvailable ∧
      e.gatePassShare.any (policy.broadMinGatePassShare ≤ ·) then
    (.broadStablePlateau, .broad e.plateauSize e.stableShare e.gatePassShare)
  else if policy.narrowMinContiguous ≤ e.plateauSize ∧ e.plateauIncludesFrozen ∧ e.frozenStable ∧
      policy.narrowMinStableShare ≤ e.stableShare then
    (.narrowStableArea, .narrow e.plateauSize e.stableShare e.gatesAvailable)
  else if e.stableShare < policy.narrowMinStableShare then
    (.unstable, .stableShare e.stableShare policy.narrowMinStableShare)
  else (.insufficientEvidence, .neighborhoodDoesNotMeetDocumentedPlateauRules)

end Classification

section Evaluation

variable {V : Type}

def completeNeighbors (neighbors : List (EvaluatedNeighbor V)) : List (EvaluatedNeighbor V) :=
  neighbors.filter (·.status = "complete")

def completeShare (p : EvaluatedNeighbor V → Bool) (neighbors : List (EvaluatedNeighbor V)) : Decimal :=
  if (completeNeighbors neighbors).length = 0 then 0
  else (completeNeighbors neighbors).countP p / (completeNeighbors neighbors).length

def gatesAvailable (neighbors : List (EvaluatedNeighbor V)) : Bool :=
  (completeNeighbors neighbors).countP (·.gatePass.isSome) = (completeNeighbors neighbors).length ∧
    0 < (completeNeighbors neighbors).length

def gatePassShare (neighbors : List (EvaluatedNeighbor V)) : Option Decimal :=
  if gatesAvailable neighbors then some (completeShare (·.gatePass = some true) neighbors) else none

def netsPresent (neighbors : List (EvaluatedNeighbor V)) : List Decimal :=
  (completeNeighbors neighbors).filterMap (·.netPnl)

def median (values : List Decimal) : Option Decimal :=
  let ordered := values.insertionSort (· ≤ ·)
  let mid := ordered.length / 2
  if ordered.length % 2 = 1 then ordered[mid]?
  else do
    let low ← ordered[mid - 1]?
    let high ← ordered[mid]?
    pure ((low + high) / 2)

def dispersion (values : List Decimal) : Option Decimal := do
  let ordered := values.insertionSort (· ≤ ·)
  let last ← ordered.getLast?
  let first ← ordered.head?
  pure (last - first)

def steeper (frozenNet : Decimal) (steepest : Option Decimal) (net : Decimal) : Option Decimal :=
  match steepest with
  | none => some (frozenNet - net)
  | some drop => if drop < frozenNet - net then some (frozenNet - net) else some drop

def steepestDrop (frozenNet : Option Decimal) (nets : List Decimal) : Option Decimal :=
  match frozenNet with
  | none => none
  | some net => nets.foldl (steeper net) none

structure AreaStats where
  nNeighbors : ℕ
  nCompleteNeighbors : ℕ
  sharePositive : Decimal
  shareStable : Decimal
  shareGatePass : Option Decimal
  gatesAvailable : Bool
  medianNeighborNetPnl : Option Decimal
  dispersionNeighborNetPnl : Option Decimal
  steepestLocalDrop : Option Decimal
deriving DecidableEq, Repr

def areaStats (frozen : EvaluatedNeighbor V) (neighbors : List (EvaluatedNeighbor V)) : AreaStats where
  nNeighbors := neighbors.length
  nCompleteNeighbors := (completeNeighbors neighbors).length
  sharePositive := completeShare (·.positive) neighbors
  shareStable := completeShare (·.stable) neighbors
  shareGatePass := gatePassShare neighbors
  gatesAvailable := gatesAvailable neighbors
  medianNeighborNetPnl := median (netsPresent neighbors)
  dispersionNeighborNetPnl := dispersion (netsPresent neighbors)
  steepestLocalDrop := steepestDrop frozen.netPnl (netsPresent neighbors)

def plateauRegion (frozenStable : Bool) (byAxis : List (String × List AxisPoint)) : RegionMeasurement :=
  let region := measureContiguousRegions byAxis "frozen"
  if region.plateauSize = 0 ∧ frozenStable ∧ byAxis = [] then
    { region with plateauSize := 1, plateauIncludesFrozen := true }
  else region

structure ParameterAreaResult (V : Type) where
  frozenPoint : EvaluatedNeighbor V
  neighbors : List (EvaluatedNeighbor V)
  stats : AreaStats
  region : RegionMeasurement
  includesFrozen : Bool
  isolatedOptimum : Bool
  classification : ParameterAreaLabel
  classificationReason : AreaReason

def areaEvidence (frozen : EvaluatedNeighbor V) (neighbors : List (EvaluatedNeighbor V))
    (byAxis : List (String × List AxisPoint)) : AreaEvidence :=
  let stats := areaStats frozen neighbors
  let region := plateauRegion frozen.stable byAxis
  { nCompleteNeighbors := stats.nCompleteNeighbors
    stableShare := stats.shareStable
    gatePassShare := stats.shareGatePass
    gatesAvailable := stats.gatesAvailable
    plateauSize := region.plateauSize
    frozenStable := frozen.stable
    plateauIncludesFrozen := region.plateauIncludesFrozen || (0 < region.plateauSize && frozen.stable)
    anyStableNeighbor := (completeNeighbors neighbors).any (·.stable)
    steepestDrop := stats.steepestLocalDrop }

def areaResult (policy : ParameterAreaPolicy) (frozen : EvaluatedNeighbor V) (neighbors : List (EvaluatedNeighbor V))
    (byAxis : List (String × List AxisPoint)) : ParameterAreaResult V :=
  let evidence := areaEvidence frozen neighbors byAxis
  let verdict := classifyParameterArea policy evidence
  { frozenPoint := frozen
    neighbors := neighbors
    stats := areaStats frozen neighbors
    region := plateauRegion frozen.stable byAxis
    includesFrozen := evidence.plateauIncludesFrozen
    isolatedOptimum := verdict.1 = .isolatedPeak
    classification := verdict.1
    classificationReason := verdict.2 }

/-- What is evaluated. The hashes that the artifact carries are left out. -/
structure AreaInputs (V : Type) where
  robustnessId : String
  frozenParameters : Dict String V
  observations : List (NeighborObservation V)
  requireGateForStable : Bool := false
  evidenceTrusted : Bool := false
  trustedManifestHash : Option String := none

def AreaInputs.observed (inputs : AreaInputs V) (observations : List (NeighborObservation V)) : AreaInputs V :=
  { inputs with observations := observations }

variable [BEq V] (str : V → String)

def frozenObservation (inputs : AreaInputs V) : Except AreaError (NeighborObservation V) :=
  if inputs.robustnessId = "" then .error (.parameterAreaError "robustness_id required")
  else if inputs.frozenParameters.keys = [] then .error (.parameterAreaError "frozen_parameters required")
  else if inputs.evidenceTrusted ∧ inputs.trustedManifestHash.getD "" = "" then
    .error (.parameterAreaError "evidence_trusted=true requires trusted_manifest_hash pin")
  else match inputs.observations.filter (·.childId = "frozen") with
    | [frozen] =>
      if parametersEqual str frozen.parameters inputs.frozenParameters then .ok frozen
      else .error (.parameterAreaError "frozen observation parameters must match frozen_parameters exactly")
    | _ => .error (.parameterAreaError "exactly one frozen observation required")

def evaluateUnder (policy : ParameterAreaPolicy) (inputs : AreaInputs V) : Except AreaError (ParameterAreaResult V) := do
  let frozen ← frozenObservation str inputs
  let frozenEval ← evaluateNeighbor policy inputs.requireGateForStable frozen
  let neighbors ← (inputs.observations.filter (·.childId ≠ "frozen")).mapM
    (evaluateNeighbor policy inputs.requireGateForStable)
  let frozenPoint := { frozenEval with parameters := inputs.frozenParameters }
  let byAxis ← buildAxisPoints str frozenPoint neighbors
  pure (areaResult policy frozenPoint neighbors byAxis)

def evaluateParameterArea (policyVersion : String) (inputs : AreaInputs V) :
    Except AreaError (ParameterAreaResult V) := do
  let policy ← getParameterAreaPolicy policyVersion
  evaluateUnder str policy inputs

end Evaluation

end TradingBot.Research.ParameterArea
