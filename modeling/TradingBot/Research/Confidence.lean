import TradingBot.Exceptions
import TradingBot.Library.Dictionary
import TradingBot.Library.Outcome
import Mathlib.Data.Option.Basic
import Mathlib.Tactic.Linarith

namespace TradingBot.Research.Confidence

open Market.Models Exceptions Library.Dictionary Library.Outcome

section Policy

inductive ConfidenceLabel
  | high | medium | low | insufficient | notAvailable
deriving DecidableEq, Repr

def labelRank : ConfidenceLabel → Option ℕ
  | .insufficient => some 0
  | .low => some 1
  | .medium => some 2
  | .high => some 3
  | .notAvailable => none

structure ConfidenceDimensionFloors where
  name : String
  lowFloor : Decimal
  mediumFloor : Decimal
  highFloor : Decimal
  required : Bool := false
deriving DecidableEq, Repr

structure ConfidencePolicy where
  version : String
  dimensions : List ConfidenceDimensionFloors
  highRequiresDimensions : List String
  highRequiresLimitationsDocumented : List String
  highCapLabel : ConfidenceLabel := .medium
deriving DecidableEq, Repr

def policy10 : ConfidencePolicy where
  version := "1.0"
  dimensions :=
    [{ name := "trade_sample", lowFloor := 10, mediumFloor := 30, highFloor := 100, required := true },
      { name := "time_coverage", lowFloor := 10, mediumFloor := 60, highFloor := 252 },
      { name := "oos_folds", lowFloor := 2, mediumFloor := 3, highFloor := 5 },
      { name := "parameter_plateau", lowFloor := 3, mediumFloor := 5, highFloor := 8 },
      { name := "bootstrap_uncertainty", lowFloor := 2, mediumFloor := 20, highFloor := 60 },
      { name := "regime_coverage", lowFloor := 80 / 100, mediumFloor := 90 / 100, highFloor := 95 / 100 }]
  highRequiresDimensions := ["trade_sample", "time_coverage", "bootstrap_uncertainty"]
  highRequiresLimitationsDocumented := ["multiple_testing"]

def getConfidencePolicy (version : String) : Except Exc ConfidencePolicy :=
  if version = "1.0" then .ok policy10
  else .error (.valueError ("unknown confidence policy version: '" ++ version ++ "'"))

/-- The weaker of two labels that are present. -/
def worseLabel (a b : ConfidenceLabel) : Except Exc ConfidenceLabel :=
  match labelRank a, labelRank b with
  | some i, some j => .ok (if i ≤ j then a else b)
  | _, _ => .error (.valueError "NOT_AVAILABLE cannot participate in worse_label")

def labelFromCount (value : Option Decimal) (floors : ConfidenceDimensionFloors) : ConfidenceLabel :=
  match value with
  | none => .notAvailable
  | some measured =>
    if measured < floors.lowFloor then .insufficient
    else if measured < floors.mediumFloor then .low
    else if measured < floors.highFloor then .medium
    else .high

end Policy

section Inputs

structure ConfidenceEvidenceInputs where
  runStatus : String
  closedTrades : Option ℤ := none
  equityPeriods : Option ℤ := none
  walkForwardFoldsComplete : Option ℤ := none
  walkForwardFoldPassRatio : Option Decimal := none
  parameterNeighborsComplete : Option ℤ := none
  parameterNeighborPassRatio : Option Decimal := none
  bootstrapSeriesLength : Option ℤ := none
  bootstrapBlockLength : Option ℤ := none
  bootstrapAssessed : Bool := false
  regimeCoverageRatio : Option Decimal := none
  regimeEvidenceStatus : Option String := none
  gateIntegrityStatus : Option String := none
  multipleTestingMetadata : Option (Dict String String) := none

inductive LimitationStatus
  | assessedViaBlockBootstrap | limitation | documented
deriving DecidableEq, Repr

structure ConfidenceLimitation where
  code : String
  status : LimitationStatus
  detail : String
deriving DecidableEq, Repr

def serialDependence (inputs : ConfidenceEvidenceInputs) : ConfidenceLimitation :=
  if inputs.bootstrapAssessed ∧ inputs.bootstrapSeriesLength.isSome then
    { code := "serial_dependence"
      status := .assessedViaBlockBootstrap
      detail := "Block bootstrap inputs present; confidence uses series length " ++
        "relative to block_length as a serial-dependence-aware proxy. Full PSR/DSR/PBO/MTRL deferred." }
  else
    { code := "serial_dependence"
      status := .limitation
      detail := "Block-bootstrap serial-dependence assessment not available; " ++
        "dimension bootstrap_uncertainty is NOT_AVAILABLE and must not be treated as PASS/HIGH by omission." }

def multipleTesting (inputs : ConfidenceEvidenceInputs) : ConfidenceLimitation :=
  if inputs.multipleTestingMetadata.isSome then
    { code := "multiple_testing"
      status := .documented
      detail := "Caller-supplied multiple-testing metadata attached." }
  else
    { code := "multiple_testing"
      status := .limitation
      detail := "Number of variants tested / multiple-testing adjustment not documented for this profile; " ++
        "do not interpret confidence as multiple-testing-corrected. PSR/DSR/PBO deferred." }

def integrityContext (inputs : ConfidenceEvidenceInputs) : List ConfidenceLimitation :=
  match inputs.gateIntegrityStatus with
  | none => []
  | some status =>
    if status = "" ∨ status = "VALID" then []
    else
      [{ code := "integrity_context"
         status := .limitation
         detail := "gate_integrity_status='" ++ status ++ "'; trusted quality scoring remains blocked per #286." }]

def buildLimitations (inputs : ConfidenceEvidenceInputs) : List ConfidenceLimitation :=
  [serialDependence inputs, multipleTesting inputs] ++ integrityContext inputs

end Inputs

section Dimensions

inductive DimensionReason
  | runNotComplete (runStatus : String)
  | missing
  | measured (value : Decimal) (label : ConfidenceLabel)
  | bootstrapIncomplete
  | invalidBlockLength (block : ℤ)
  | cannotFormBlocks (block series : ℤ)
  | effectiveBlockCount (series block count : ℤ) (label : ConfidenceLabel)
deriving DecidableEq, Repr

structure DimensionResult where
  name : String
  label : ConfidenceLabel
  required : Bool
  measuredValue : Option Decimal
  reason : DimensionReason
deriving DecidableEq, Repr

def dim (floors : ConfidenceDimensionFloors) (label : ConfidenceLabel) (measured : Option Decimal)
    (reason : DimensionReason) : DimensionResult :=
  ⟨floors.name, label, floors.required, measured, reason⟩

def capWeak (weak : Bool) (label : ConfidenceLabel) : ConfidenceLabel :=
  if weak ∧ label ∈ [ConfidenceLabel.medium, .high] then .low else label

def measuredDimension (floors : ConfidenceDimensionFloors) (value : Option Decimal) (weak : Bool) : DimensionResult :=
  match value with
  | none => dim floors .notAvailable none .missing
  | some measured =>
    let label := capWeak weak (labelFromCount (some measured) floors)
    dim floors label (some measured) (.measured measured label)

def toDecimal (count : Option ℤ) : Option Decimal := count.map fun n => (n : ℚ)

def tradeSample (floors : ConfidenceDimensionFloors) (inputs : ConfidenceEvidenceInputs) : DimensionResult :=
  if inputs.runStatus ≠ "complete" then
    dim floors .notAvailable (toDecimal inputs.closedTrades) (.runNotComplete inputs.runStatus)
  else measuredDimension floors (toDecimal inputs.closedTrades) false

def timeCoverage (floors : ConfidenceDimensionFloors) (inputs : ConfidenceEvidenceInputs) : DimensionResult :=
  measuredDimension floors (toDecimal inputs.equityPeriods) false

/-- A pass ratio that is below a half is weak. -/
def weakRatio (ratio : Option Decimal) : Bool := ratio.any (· < 1 / 2)

def oosFolds (floors : ConfidenceDimensionFloors) (inputs : ConfidenceEvidenceInputs) : DimensionResult :=
  measuredDimension floors (toDecimal inputs.walkForwardFoldsComplete) (weakRatio inputs.walkForwardFoldPassRatio)

def parameterPlateau (floors : ConfidenceDimensionFloors) (inputs : ConfidenceEvidenceInputs) : DimensionResult :=
  measuredDimension floors (toDecimal inputs.parameterNeighborsComplete) (weakRatio inputs.parameterNeighborPassRatio)

def bootstrapUncertainty (floors : ConfidenceDimensionFloors) (inputs : ConfidenceEvidenceInputs) : DimensionResult :=
  if !inputs.bootstrapAssessed then dim floors .notAvailable none .missing
  else
    match inputs.bootstrapSeriesLength, inputs.bootstrapBlockLength with
    | some series, some block =>
      if block < 1 then dim floors .notAvailable none (.invalidBlockLength block)
      else if series ≤ block then dim floors .insufficient (some 0) (.cannotFormBlocks block series)
      else
        let effectiveBlocks := series / block
        let label := labelFromCount (some effectiveBlocks) floors
        dim floors label (some effectiveBlocks) (.effectiveBlockCount series block effectiveBlocks label)
    | _, _ => dim floors .notAvailable none .bootstrapIncomplete

def regimeCoverage (floors : ConfidenceDimensionFloors) (inputs : ConfidenceEvidenceInputs) : DimensionResult :=
  measuredDimension floors inputs.regimeCoverageRatio (inputs.regimeEvidenceStatus = some "INCONCLUSIVE")

def floorsByName (policy : ConfidencePolicy) : Dict String ConfidenceDimensionFloors :=
  policy.dimensions.foldl (fun index d => index.set d.name d) {}

def floorsOf (policy : ConfidencePolicy) (name : String) : Except Exc ConfidenceDimensionFloors :=
  match (floorsByName policy).get? name with
  | none => .error (.lookupError name)
  | some floors => .ok floors

def evaluateDimensions (inputs : ConfidenceEvidenceInputs) (policy : ConfidencePolicy) :
    Except Exc (List DimensionResult) := do
  let ts ← floorsOf policy "trade_sample"
  let tc ← floorsOf policy "time_coverage"
  let oos ← floorsOf policy "oos_folds"
  let pp ← floorsOf policy "parameter_plateau"
  let boot ← floorsOf policy "bootstrap_uncertainty"
  let rc ← floorsOf policy "regime_coverage"
  pure [tradeSample ts inputs, timeCoverage tc inputs, oosFolds oos inputs, parameterPlateau pp inputs,
    bootstrapUncertainty boot inputs, regimeCoverage rc inputs]

end Dimensions

section Aggregation

inductive OverallReason
  | integrityInvalid
  | requiredNotAvailable (names : List String)
  | nothingMeasurable
  | minPresent (names : List String) (label : ConfidenceLabel)
  | capped (names : List String) (label cap : ConfidenceLabel) (missingCore undocumented : List String)
deriving DecidableEq, Repr

def missingHighCore (dimensions : List DimensionResult) (policy : ConfidencePolicy) : List String :=
  let byName : Dict String DimensionResult := dimensions.foldl (fun index d => index.set d.name d) {}
  policy.highRequiresDimensions.filter fun name =>
    match byName.get? name with
    | none => true
    | some d => d.label = .notAvailable

def missingDocumented (limitations : List ConfidenceLimitation) (policy : ConfidencePolicy) : List String :=
  let limByCode : Dict String ConfidenceLimitation := limitations.foldl (fun index lim => index.set lim.code lim) {}
  policy.highRequiresLimitationsDocumented.filter fun code =>
    match limByCode.get? code with
    | none => true
    | some lim => lim.status ≠ .documented

def aggregate (dimensions : List DimensionResult) (integrityStatus : Option String) (policy : ConfidencePolicy)
    (limitations : List ConfidenceLimitation) : Except Exc (ConfidenceLabel × OverallReason) := do
  if integrityStatus = some "INVALID" then pure (.notAvailable, .integrityInvalid)
  else
    let requiredMissing := dimensions.filter fun d => d.required ∧ d.label = .notAvailable
    if requiredMissing ≠ [] then
      pure (.notAvailable, .requiredNotAvailable (requiredMissing.map (·.name)))
    else
      let present := dimensions.filter (·.label ≠ .notAvailable)
      match present with
      | [] => pure (.notAvailable, .nothingMeasurable)
      | first :: rest =>
        let overall ← rest.foldlM (fun overall d => worseLabel overall d.label) first.label
        let names := present.map (·.name)
        let core := missingHighCore dimensions policy
        let undocumented := missingDocumented limitations policy
        if overall = .high ∧ (core ≠ [] ∨ undocumented ≠ []) then
          pure (policy.highCapLabel, .capped names overall policy.highCapLabel core undocumented)
        else pure (overall, .minPresent names overall)

structure ConfidenceResult where
  policyVersion : String
  overallLabel : ConfidenceLabel
  overallReason : OverallReason
  dimensions : List DimensionResult
  limitations : List ConfidenceLimitation
deriving DecidableEq, Repr

def evaluateWith (policy : ConfidencePolicy) (inputs : ConfidenceEvidenceInputs) : Except Exc ConfidenceResult := do
  let dimensions ← evaluateDimensions inputs policy
  let limitations := buildLimitations inputs
  let overall ← aggregate dimensions inputs.gateIntegrityStatus policy limitations
  pure ⟨policy.version, overall.1, overall.2, dimensions, limitations⟩

def evaluateConfidence (inputs : ConfidenceEvidenceInputs) (policyVersion : String) : Except Exc ConfidenceResult := do
  let policy ← getConfidencePolicy policyVersion
  evaluateWith policy inputs

end Aggregation

section Strength

/-- How much a label says; one that is not available says least. -/
def ConfidenceLabel.strength : ConfidenceLabel → ℕ
  | .notAvailable => 0
  | .insufficient => 1
  | .low => 2
  | .medium => 3
  | .high => 4

/-- The second evidence is available where the first is, and at least as strong there. A shorter block is stronger. -/
structure AtLeast (a b : ConfidenceEvidenceInputs) : Prop where
  runStatus : a.runStatus = "complete" ↔ b.runStatus = "complete"
  closedTrades : Option.Rel (· ≤ ·) a.closedTrades b.closedTrades
  equityPeriods : Option.Rel (· ≤ ·) a.equityPeriods b.equityPeriods
  walkForwardFoldsComplete : Option.Rel (· ≤ ·) a.walkForwardFoldsComplete b.walkForwardFoldsComplete
  walkForwardFoldPassRatio : Option.Rel (· ≤ ·) a.walkForwardFoldPassRatio b.walkForwardFoldPassRatio
  parameterNeighborsComplete : Option.Rel (· ≤ ·) a.parameterNeighborsComplete b.parameterNeighborsComplete
  parameterNeighborPassRatio : Option.Rel (· ≤ ·) a.parameterNeighborPassRatio b.parameterNeighborPassRatio
  bootstrapAssessed : a.bootstrapAssessed = b.bootstrapAssessed
  bootstrapSeriesLength : Option.Rel (· ≤ ·) a.bootstrapSeriesLength b.bootstrapSeriesLength
  bootstrapBlockLength : Option.Rel (fun x y => y ≤ x ∧ (1 ≤ x ↔ 1 ≤ y)) a.bootstrapBlockLength b.bootstrapBlockLength
  regimeCoverageRatio : Option.Rel (· ≤ ·) a.regimeCoverageRatio b.regimeCoverageRatio
  regimeEvidenceStatus : b.regimeEvidenceStatus = some "INCONCLUSIVE" → a.regimeEvidenceStatus = some "INCONCLUSIVE"
  gateIntegrityStatus : b.gateIntegrityStatus = some "INVALID" → a.gateIntegrityStatus = some "INVALID"
  multipleTestingMetadata : a.multipleTestingMetadata.isSome → b.multipleTestingMetadata.isSome

/-- The second result is about the same dimension, and its label is not weaker. -/
structure Raises (x y : DimensionResult) : Prop where
  name : x.name = y.name
  required : x.required = y.required
  available : x.label = .notAvailable ↔ y.label = .notAvailable
  strength : x.label.strength ≤ y.label.strength

variable {a b : ConfidenceEvidenceInputs} {floors : ConfidenceDimensionFloors} {x y : Decimal}

theorem one_le_strength {label : ConfidenceLabel} (h : label ≠ .notAvailable) : 1 ≤ label.strength := by
  cases label <;> simp_all [ConfidenceLabel.strength]

theorem labelFromCount_ne (measured : Decimal) (floors : ConfidenceDimensionFloors) :
    labelFromCount (some measured) floors ≠ .notAvailable := by
  simp only [labelFromCount]
  split_ifs <;> simp

theorem labelFromCount_mono (h : x ≤ y) :
    (labelFromCount (some x) floors).strength ≤ (labelFromCount (some y) floors).strength := by
  simp only [labelFromCount]
  by_cases hlow : x < floors.lowFloor
  · rw [if_pos hlow]
    split_ifs <;> simp [ConfidenceLabel.strength]
  · rw [if_neg hlow, if_neg fun hy => hlow (h.trans_lt hy)]
    by_cases hmedium : x < floors.mediumFloor
    · rw [if_pos hmedium]
      split_ifs <;> simp [ConfidenceLabel.strength]
    · rw [if_neg hmedium, if_neg fun hy => hmedium (h.trans_lt hy)]
      by_cases hhigh : x < floors.highFloor
      · rw [if_pos hhigh]
        split_ifs <;> simp [ConfidenceLabel.strength]
      · rw [if_neg hhigh, if_neg fun hy => hhigh (h.trans_lt hy)]

theorem capWeak_eq_notAvailable {weak : Bool} {label : ConfidenceLabel} :
    capWeak weak label = .notAvailable ↔ label = .notAvailable := by
  cases weak <;> cases label <;> decide

theorem capWeak_mono {weak weak' : Bool} {label label' : ConfidenceLabel} (hweak : weak' = true → weak = true)
    (h : label.strength ≤ label'.strength) : (capWeak weak label).strength ≤ (capWeak weak' label').strength := by
  cases weak <;> cases weak' <;> cases label <;> cases label' <;> revert hweak h <;> decide

theorem measuredDimension_raises {value value' : Option Decimal} {weak weak' : Bool}
    (h : Option.Rel (· ≤ ·) value value') (hweak : weak' = true → weak = true) :
    Raises (measuredDimension floors value weak) (measuredDimension floors value' weak') := by
  cases h with
  | none => exact ⟨rfl, rfl, Iff.rfl, le_rfl⟩
  | some hle =>
    refine ⟨rfl, rfl, ?_, capWeak_mono hweak (labelFromCount_mono hle)⟩
    simp only [measuredDimension, dim, capWeak_eq_notAvailable]
    exact iff_of_false (labelFromCount_ne _ floors) (labelFromCount_ne _ floors)

theorem toDecimal_rel {count count' : Option ℤ} (h : Option.Rel (· ≤ ·) count count') :
    Option.Rel (· ≤ ·) (toDecimal count) (toDecimal count') := by
  cases h with
  | none => exact .none
  | some hle => exact .some (Int.cast_le.mpr hle)

theorem weakRatio_mono {ratio ratio' : Option Decimal} (h : Option.Rel (· ≤ ·) ratio ratio') :
    weakRatio ratio' = true → weakRatio ratio = true := by
  cases h with
  | none => exact id
  | some hle =>
    simp only [weakRatio, Option.any_some, decide_eq_true_eq]
    exact fun hweak => hle.trans_lt hweak

theorem tradeSample_raises (h : AtLeast a b) : Raises (tradeSample floors a) (tradeSample floors b) := by
  by_cases hrun : a.runStatus = "complete"
  · rw [tradeSample, tradeSample, if_neg (not_not.mpr hrun), if_neg (not_not.mpr (h.runStatus.mp hrun))]
    exact measuredDimension_raises (toDecimal_rel h.closedTrades) id
  · rw [tradeSample, tradeSample, if_pos hrun, if_pos fun hb => hrun (h.runStatus.mpr hb)]
    exact ⟨rfl, rfl, Iff.rfl, le_rfl⟩

theorem blocks_mono {series series' block block' : ℤ} (hseries : series ≤ series') (hblock : block' ≤ block)
    (hpos : 1 ≤ block') (hlong : block < series) : series / block ≤ series' / block' := by
  rw [Int.le_ediv_iff_mul_le (by omega)]
  have hcount : 0 ≤ series / block := Int.ediv_nonneg (by omega) (by omega)
  calc series / block * block' ≤ series / block * block := Int.mul_le_mul_of_nonneg_left hblock hcount
    _ ≤ series := Int.ediv_mul_le series (by omega)
    _ ≤ series' := hseries

theorem bootstrapUncertainty_raises (h : AtLeast a b) :
    Raises (bootstrapUncertainty floors a) (bootstrapUncertainty floors b) := by
  have hseries := h.bootstrapSeriesLength
  have hblock := h.bootstrapBlockLength
  rw [bootstrapUncertainty, bootstrapUncertainty, h.bootstrapAssessed]
  cases b.bootstrapAssessed with
  | false => exact ⟨rfl, rfl, Iff.rfl, le_rfl⟩
  | true =>
    simp only [Bool.not_true, Bool.false_eq_true, if_false]
    generalize a.bootstrapSeriesLength = series at hseries
    generalize b.bootstrapSeriesLength = series' at hseries
    generalize a.bootstrapBlockLength = block at hblock
    generalize b.bootstrapBlockLength = block' at hblock
    cases hseries with
    | none => exact ⟨rfl, rfl, Iff.rfl, le_rfl⟩
    | some hseries =>
      rename_i series series'
      cases hblock with
      | none => exact ⟨rfl, rfl, Iff.rfl, le_rfl⟩
      | some hblock =>
        rename_i block block'
        obtain ⟨hshorter, hvalid⟩ := hblock
        dsimp only
        by_cases hinvalid : block < 1
        · have hinvalid' : block' < 1 := by omega
          rw [if_pos hinvalid, if_pos hinvalid']
          exact ⟨rfl, rfl, Iff.rfl, le_rfl⟩
        · have hinvalid' : ¬ block' < 1 := by omega
          rw [if_neg hinvalid, if_neg hinvalid']
          by_cases hshort : series ≤ block
          · rw [if_pos hshort]
            by_cases hshort' : series' ≤ block'
            · rw [if_pos hshort']
              exact ⟨rfl, rfl, Iff.rfl, le_rfl⟩
            · rw [if_neg hshort']
              have hne := labelFromCount_ne (series' / block' : ℤ) floors
              exact ⟨rfl, rfl, iff_of_false (by simp [dim]) hne, one_le_strength hne⟩
          · have hlong : ¬ series' ≤ block' := by omega
            rw [if_neg hshort, if_neg hlong]
            have hcount := blocks_mono hseries hshorter (by omega) (by omega)
            exact ⟨rfl, rfl, iff_of_false (labelFromCount_ne _ floors) (labelFromCount_ne _ floors),
              labelFromCount_mono (by exact_mod_cast hcount)⟩

theorem evaluateDimensions_raises {policy : ConfidencePolicy} {dimensions dimensions' : List DimensionResult}
    (h : AtLeast a b) (ha : evaluateDimensions a policy = .ok dimensions)
    (hb : evaluateDimensions b policy = .ok dimensions') : List.Forall₂ Raises dimensions dimensions' := by
  obtain ⟨ts, hts, ha⟩ := except_bind_eq_ok.mp ha
  obtain ⟨tc, htc, ha⟩ := except_bind_eq_ok.mp ha
  obtain ⟨oos, hoos, ha⟩ := except_bind_eq_ok.mp ha
  obtain ⟨pp, hpp, ha⟩ := except_bind_eq_ok.mp ha
  obtain ⟨boot, hboot, ha⟩ := except_bind_eq_ok.mp ha
  obtain ⟨rc, hrc, ha⟩ := except_bind_eq_ok.mp ha
  cases ha
  rw [evaluateDimensions, hts, htc, hoos, hpp, hboot, hrc] at hb
  cases hb
  refine .cons (tradeSample_raises h) (.cons ?_ (.cons ?_ (.cons ?_ (.cons (bootstrapUncertainty_raises h)
    (.cons ?_ .nil)))))
  · exact measuredDimension_raises (toDecimal_rel h.equityPeriods) id
  · exact measuredDimension_raises (toDecimal_rel h.walkForwardFoldsComplete)
      (weakRatio_mono h.walkForwardFoldPassRatio)
  · exact measuredDimension_raises (toDecimal_rel h.parameterNeighborsComplete)
      (weakRatio_mono h.parameterNeighborPassRatio)
  · apply measuredDimension_raises h.regimeCoverageRatio
    simpa using h.regimeEvidenceStatus

end Strength

section Overall

variable {dimensions dimensions' : List DimensionResult} {status status' : Option String} {policy : ConfidencePolicy}
  {limitations limitations' : List ConfidenceLimitation} {label overall overall' : ConfidenceLabel}
  {reason : OverallReason} {inputs : ConfidenceEvidenceInputs}

/-- Nothing can be said. -/
def Blocked (dimensions : List DimensionResult) (status : Option String) : Prop :=
  status = some "INVALID" ∨ (∃ d ∈ dimensions, d.required = true ∧ d.label = .notAvailable) ∨
    ∀ d ∈ dimensions, d.label = .notAvailable

structure Weakest (dimensions : List DimensionResult) (overall : ConfidenceLabel) : Prop where
  present : overall ≠ .notAvailable
  mem : ∃ d ∈ dimensions, d.label = overall
  least : ∀ d ∈ dimensions, d.label ≠ .notAvailable → overall.strength ≤ d.label.strength

def Qualified (dimensions : List DimensionResult) (limitations : List ConfidenceLimitation)
    (policy : ConfidencePolicy) : Prop :=
  missingHighCore dimensions policy = [] ∧ missingDocumented limitations policy = []

theorem worseLabel_eq (ha : label ≠ .notAvailable) (hb : overall ≠ .notAvailable) :
    worseLabel label overall = .ok (if label.strength ≤ overall.strength then label else overall) := by
  cases label <;> cases overall <;> first | rfl | exact absurd rfl ha | exact absurd rfl hb

theorem foldlM_worseLabel {rest : List DimensionResult} {first : ConfidenceLabel}
    (hfirst : first ≠ .notAvailable) (hrest : ∀ d ∈ rest, d.label ≠ .notAvailable)
    (h : rest.foldlM (fun overall d => worseLabel overall d.label) first = .ok overall) :
    overall ≠ .notAvailable ∧ (overall = first ∨ ∃ d ∈ rest, d.label = overall) ∧
      overall.strength ≤ first.strength ∧ ∀ d ∈ rest, overall.strength ≤ d.label.strength := by
  induction rest generalizing first with
  | nil =>
    cases h
    exact ⟨hfirst, .inl rfl, le_rfl, by simp⟩
  | cons d rest ih =>
    obtain ⟨hd, hrest⟩ := List.forall_mem_cons.mp hrest
    rw [List.foldlM_cons, worseLabel_eq hfirst hd] at h
    obtain ⟨next, hnext, h⟩ := except_bind_eq_ok.mp h
    cases hnext
    by_cases hle : first.strength ≤ d.label.strength
    · rw [if_pos hle] at h
      obtain ⟨hpresent, hmem, hfirst', hleast⟩ := ih hfirst hrest h
      refine ⟨hpresent, ?_, hfirst', List.forall_mem_cons.mpr ⟨hfirst'.trans hle, hleast⟩⟩
      cases hmem with
      | inl heq => exact .inl heq
      | inr hlater =>
        obtain ⟨d', hd', heq⟩ := hlater
        exact .inr ⟨d', List.mem_cons_of_mem d hd', heq⟩
    · rw [if_neg hle] at h
      obtain ⟨hpresent, hmem, hd', hleast⟩ := ih hd hrest h
      refine ⟨hpresent, .inr ?_, hd'.trans (not_le.mp hle).le, List.forall_mem_cons.mpr ⟨hd', hleast⟩⟩
      cases hmem with
      | inl heq => exact ⟨d, List.mem_cons_self, heq.symm⟩
      | inr hlater =>
        obtain ⟨d', hlater, heq⟩ := hlater
        exact ⟨d', List.mem_cons_of_mem d hlater, heq⟩

theorem weakest_of_present {first : DimensionResult} {rest : List DimensionResult}
    (hpresent : dimensions.filter (·.label ≠ .notAvailable) = first :: rest)
    (h : rest.foldlM (fun overall d => worseLabel overall d.label) first.label = .ok overall) :
    Weakest dimensions overall := by
  have hpresents : ∀ d ∈ first :: rest, d ∈ dimensions ∧ d.label ≠ .notAvailable := by
    intro d hd
    rw [← hpresent] at hd
    simpa using hd
  obtain ⟨hfirst, hrest⟩ := List.forall_mem_cons.mp hpresents
  obtain ⟨hne, hmem, hle, hleast⟩ := foldlM_worseLabel hfirst.2 (fun d hd => (hrest d hd).2) h
  refine ⟨hne, ?_, fun d hd hlabel => ?_⟩
  · cases hmem with
    | inl heq => exact ⟨first, hfirst.1, heq.symm⟩
    | inr hlater =>
      obtain ⟨d, hd, heq⟩ := hlater
      exact ⟨d, (hrest d hd).1, heq⟩
  · have hlisted : d ∈ first :: rest := by
      rw [← hpresent]
      simpa using ⟨hd, hlabel⟩
    cases List.mem_cons.mp hlisted with
    | inl heq => rwa [heq]
    | inr hlater => exact hleast d hlater

theorem aggregate_cases (h : aggregate dimensions status policy limitations = .ok (label, reason)) :
    (Blocked dimensions status ∧ label = .notAvailable) ∨
      (¬ Blocked dimensions status ∧ ∃ overall, Weakest dimensions overall ∧
        (overall = .high ∧ ¬ Qualified dimensions limitations policy ∧ label = policy.highCapLabel ∨
          (overall = .high → Qualified dimensions limitations policy) ∧ label = overall)) := by
  simp only [aggregate] at h
  by_cases hinvalid : status = some "INVALID"
  · rw [if_pos hinvalid] at h
    cases h
    exact .inl ⟨.inl hinvalid, rfl⟩
  · rw [if_neg hinvalid] at h
    by_cases hrequired : dimensions.filter (fun d => decide (d.required = true ∧ d.label = .notAvailable)) ≠ []
    · rw [if_pos hrequired] at h
      cases h
      obtain ⟨d, hd⟩ := List.exists_mem_of_ne_nil _ hrequired
      obtain ⟨hmem, hd⟩ := List.mem_filter.mp hd
      exact .inl ⟨.inr (.inl ⟨d, hmem, of_decide_eq_true hd⟩), rfl⟩
    · rw [if_neg hrequired] at h
      cases hpresent : dimensions.filter (·.label ≠ .notAvailable) with
      | nil =>
        simp only [hpresent] at h
        cases h
        refine .inl ⟨.inr (.inr fun d hd => ?_), rfl⟩
        simpa using List.filter_eq_nil_iff.mp hpresent d hd
      | cons first rest =>
        simp only [hpresent] at h
        obtain ⟨overall, hoverall, h⟩ := except_bind_eq_ok.mp h
        have hfirst : first ∈ dimensions ∧ first.label ≠ .notAvailable := by
          have hmem : first ∈ dimensions.filter (·.label ≠ .notAvailable) := by
            rw [hpresent]
            exact List.mem_cons_self
          simpa using hmem
        have hopen : ¬ Blocked dimensions status := by
          rintro (hstatus | ⟨d, hd, hmissing⟩ | hall)
          · exact hinvalid hstatus
          · exact hrequired (List.ne_nil_of_mem (List.mem_filter.mpr ⟨hd, decide_eq_true hmissing⟩))
          · exact hfirst.2 (hall first hfirst.1)
        refine .inr ⟨hopen, overall, weakest_of_present hpresent hoverall, ?_⟩
        by_cases hcapped : overall = .high ∧
            (missingHighCore dimensions policy ≠ [] ∨ missingDocumented limitations policy ≠ [])
        · rw [if_pos hcapped] at h
          cases h
          exact .inl ⟨hcapped.1, not_and_or.mpr hcapped.2, rfl⟩
        · rw [if_neg hcapped] at h
          cases h
          refine .inr ⟨fun hhigh => ?_, rfl⟩
          have hboth := not_or.mp fun hmissing => hcapped ⟨hhigh, hmissing⟩
          exact ⟨not_not.mp hboth.1, not_not.mp hboth.2⟩

theorem missingHighCore_raises (h : List.Forall₂ Raises dimensions dimensions') :
    missingHighCore dimensions policy = missingHighCore dimensions' policy := by
  have hindex : ∀ {l l' : List DimensionResult} {d d' : Dict String DimensionResult}, List.Forall₂ Raises l l' →
      (∀ name, Option.Rel Raises (d.get? name) (d'.get? name)) → ∀ name,
        Option.Rel Raises ((l.foldl (fun index d => index.set d.name d) d).get? name)
          ((l'.foldl (fun index d => index.set d.name d) d').get? name) := by
    intro l l' d d' hl
    induction hl generalizing d d' with
    | nil => exact fun hd name => hd name
    | cons hfirst _ ih =>
      intro hd name
      apply ih
      intro other
      rw [Dict.get?_set, Dict.get?_set, hfirst.name]
      split_ifs
      · exact .some hfirst
      · exact hd other
  have hempty : ∀ name, Option.Rel Raises (({} : Dict String DimensionResult).get? name)
      (({} : Dict String DimensionResult).get? name) := fun name => .none
  have hmissing : ∀ {x y : Option DimensionResult}, Option.Rel Raises x y →
      (match x with
        | none => true
        | some d => decide (d.label = ConfidenceLabel.notAvailable)) =
      (match y with
        | none => true
        | some d => decide (d.label = ConfidenceLabel.notAvailable)) := by
    intro x y hxy
    cases hxy with
    | none => rfl
    | some hraises => exact decide_eq_decide.mpr hraises.available
  apply List.filter_congr
  intro name _
  exact hmissing (hindex h hempty name)

theorem serialDependence_facts (inputs : ConfidenceEvidenceInputs) :
    (serialDependence inputs).code = "serial_dependence" ∧ (serialDependence inputs).status ≠ .documented := by
  rw [serialDependence]
  split_ifs <;> exact ⟨rfl, by simp⟩

theorem multipleTesting_facts (inputs : ConfidenceEvidenceInputs) :
    (multipleTesting inputs).code = "multiple_testing" ∧
      ((multipleTesting inputs).status = .documented ↔ inputs.multipleTestingMetadata.isSome) := by
  rw [multipleTesting]
  split_ifs with hmetadata
  · exact ⟨rfl, iff_of_true rfl hmetadata⟩
  · exact ⟨rfl, iff_of_false (by simp) hmetadata⟩

theorem integrityContext_facts (inputs : ConfidenceEvidenceInputs) : integrityContext inputs = [] ∨
    ∃ lim, integrityContext inputs = [lim] ∧ lim.code = "integrity_context" ∧ lim.status ≠ .documented := by
  rw [integrityContext]
  cases inputs.gateIntegrityStatus with
  | none => exact .inl rfl
  | some status =>
    dsimp only
    split_ifs
    · exact .inl rfl
    · exact .inr ⟨_, rfl, rfl, by simp⟩

theorem limitationCodes_nodup (inputs : ConfidenceEvidenceInputs) :
    ((buildLimitations inputs).map (·.code)).Nodup := by
  rw [buildLimitations, List.map_append, List.map_cons, List.map_cons, (serialDependence_facts inputs).1,
    (multipleTesting_facts inputs).1]
  cases integrityContext_facts inputs with
  | inl hnone =>
    rw [hnone]
    decide
  | inr hone =>
    obtain ⟨lim, hlim, hcode, _⟩ := hone
    rw [hlim, List.map_singleton, hcode]
    decide

theorem documented_iff {code : String} :
    (∃ lim ∈ buildLimitations inputs, lim.code = code ∧ lim.status = .documented) ↔
      code = "multiple_testing" ∧ inputs.multipleTestingMetadata.isSome := by
  obtain ⟨_, hserial⟩ := serialDependence_facts inputs
  obtain ⟨hcode, hstatus⟩ := multipleTesting_facts inputs
  simp only [buildLimitations, List.mem_append, List.mem_cons, List.not_mem_nil, or_false]
  constructor
  · rintro ⟨lim, (rfl | rfl) | hlim, rfl, hdocumented⟩
    · exact absurd hdocumented hserial
    · exact ⟨hcode, hstatus.mp hdocumented⟩
    · cases integrityContext_facts inputs with
      | inl hnone =>
        rw [hnone] at hlim
        exact absurd hlim List.not_mem_nil
      | inr hone =>
        obtain ⟨only, honly, _, hne⟩ := hone
        rw [honly, List.mem_singleton] at hlim
        exact absurd (hlim ▸ hdocumented) hne
  · rintro ⟨rfl, hmetadata⟩
    exact ⟨multipleTesting inputs, .inl (.inr rfl), hcode, hstatus.mpr hmetadata⟩

theorem missingDocumented_eq_nil : missingDocumented (buildLimitations inputs) policy = [] ↔
    ∀ code ∈ policy.highRequiresLimitationsDocumented,
      ∃ lim ∈ buildLimitations inputs, lim.code = code ∧ lim.status = .documented := by
  have hget (code : String) (lim : ConfidenceLimitation) :=
    Dict.get?_index (k := code) (a := lim) (limitationCodes_nodup inputs)
  simp only [missingDocumented, List.filter_eq_nil_iff]
  apply forall₂_congr
  intro code _
  cases hlim : ((buildLimitations inputs).foldl (fun index lim => index.set lim.code lim)
      ({} : Dict String ConfidenceLimitation)).get? code with
  | none =>
    simp only [not_true_eq_false, false_iff]
    rintro ⟨lim, hmem, hcode, _⟩
    rw [(hget code lim).mpr ⟨hmem, hcode⟩] at hlim
    cases hlim
  | some lim =>
    obtain ⟨hmem, hcode⟩ := (hget code lim).mp hlim
    simp only [decide_eq_true_eq, not_not]
    constructor
    · exact fun hstatus => ⟨lim, hmem, hcode, hstatus⟩
    · rintro ⟨other, hother, hcode', hstatus⟩
      rw [(hget code other).mpr ⟨hother, hcode'⟩] at hlim
      rwa [← Option.some.inj hlim]

end Overall

section Soundness

variable {policy : ConfidencePolicy} {a b inputs : ConfidenceEvidenceInputs} {result result' : ConfidenceResult}

def StrengthMonotone (policy : ConfidencePolicy) : Prop :=
  ∀ a b result result', evaluateWith policy a = .ok result → evaluateWith policy b = .ok result' →
    AtLeast a b → result.overallLabel.strength ≤ result'.overallLabel.strength

def HighFounded (policy : ConfidencePolicy) (codes : List String) : Prop :=
  ∀ inputs result, evaluateWith policy inputs = .ok result → result.overallLabel = .high →
    (∀ d ∈ result.dimensions, d.label ≠ .notAvailable → d.label = .high) ∧
      (∀ d ∈ result.dimensions, d.required = true → d.label ≠ .notAvailable) ∧
      (∀ name ∈ policy.highRequiresDimensions, ∃ d ∈ result.dimensions, d.name = name ∧ d.label ≠ .notAvailable) ∧
      ∀ code ∈ codes, ∃ lim ∈ result.limitations, lim.code = code ∧ lim.status = .documented

def InvalidGated (policy : ConfidencePolicy) : Prop :=
  ∀ inputs result, evaluateWith policy inputs = .ok result → inputs.gateIntegrityStatus = some "INVALID" →
    result.overallLabel = .notAvailable

structure Sound (policy : ConfidencePolicy) (codes : List String) : Prop where
  monotone : StrengthMonotone policy
  high : HighFounded policy codes
  invalid : InvalidGated policy

theorem evaluateWith_eq_ok (h : evaluateWith policy inputs = .ok result) :
    evaluateDimensions inputs policy = .ok result.dimensions ∧ result.limitations = buildLimitations inputs ∧
      aggregate result.dimensions inputs.gateIntegrityStatus policy (buildLimitations inputs) =
        .ok (result.overallLabel, result.overallReason) := by
  obtain ⟨dimensions, hdimensions, h⟩ := except_bind_eq_ok.mp h
  obtain ⟨overall, hoverall, h⟩ := except_bind_eq_ok.mp h
  cases h
  exact ⟨hdimensions, rfl, hoverall⟩

theorem raises_mem {dimensions dimensions' : List DimensionResult} (h : List.Forall₂ Raises dimensions dimensions')
    {d : DimensionResult} (hd : d ∈ dimensions') : ∃ d' ∈ dimensions, Raises d' d := by
  induction h with
  | nil => exact absurd hd List.not_mem_nil
  | cons hfirst _ ih =>
    cases List.mem_cons.mp hd with
    | inl heq => exact ⟨_, List.mem_cons_self, heq ▸ hfirst⟩
    | inr hlater =>
      obtain ⟨d', hd', hraises⟩ := ih hlater
      exact ⟨d', List.mem_cons_of_mem _ hd', hraises⟩

theorem Blocked.of_raises {dimensions dimensions' : List DimensionResult} {status status' : Option String}
    (hraises : List.Forall₂ Raises dimensions dimensions')
    (hstatus : status' = some "INVALID" → status = some "INVALID") (h : Blocked dimensions' status') :
    Blocked dimensions status := by
  obtain hinvalid | ⟨d, hd, hrequired, hmissing⟩ | hall := h
  · exact .inl (hstatus hinvalid)
  · obtain ⟨d', hd', hraise⟩ := raises_mem hraises hd
    exact .inr (.inl ⟨d', hd', hraise.required.trans hrequired, hraise.available.mpr hmissing⟩)
  · refine .inr (.inr fun d hd => ?_)
    obtain ⟨i, hi, rfl⟩ := List.mem_iff_getElem.mp hd
    obtain ⟨hlength, hpairs⟩ := List.forall₂_iff_get.mp hraises
    exact (hpairs i hi (hlength ▸ hi)).available.mpr (hall _ (List.get_mem _ _))

theorem Weakest.mono {dimensions dimensions' : List DimensionResult} {overall overall' : ConfidenceLabel}
    (hraises : List.Forall₂ Raises dimensions dimensions') (h : Weakest dimensions overall)
    (h' : Weakest dimensions' overall') : overall.strength ≤ overall'.strength := by
  obtain ⟨d, hd, hlabel⟩ := h'.mem
  obtain ⟨d', hd', hraise⟩ := raises_mem hraises hd
  have hpresent : d'.label ≠ .notAvailable := fun hmissing => h'.present (hlabel ▸ hraise.available.mp hmissing)
  calc overall.strength ≤ d'.label.strength := h.least d' hd' hpresent
    _ ≤ d.label.strength := hraise.strength
    _ = overall'.strength := by rw [hlabel]

theorem Qualified.mono {dimensions dimensions' : List DimensionResult}
    (hraises : List.Forall₂ Raises dimensions dimensions') (h : AtLeast a b)
    (hqualified : Qualified dimensions (buildLimitations a) policy) :
    Qualified dimensions' (buildLimitations b) policy := by
  obtain ⟨hcore, hdocumented⟩ := hqualified
  rw [missingHighCore_raises hraises] at hcore
  simp only [missingDocumented_eq_nil, documented_iff] at hdocumented
  refine ⟨hcore, missingDocumented_eq_nil.mpr fun code hcode => documented_iff.mpr ?_⟩
  obtain ⟨heq, hmetadata⟩ := hdocumented code hcode
  exact ⟨heq, h.multipleTestingMetadata hmetadata⟩

theorem strength_le_high (label : ConfidenceLabel) : label.strength ≤ ConfidenceLabel.high.strength := by
  cases label <;> decide

theorem eq_high {label : ConfidenceLabel} (h : ConfidenceLabel.high.strength ≤ label.strength) : label = .high := by
  cases label <;> first | rfl | exact absurd h (by decide)

theorem strength_le_medium {label : ConfidenceLabel} (h : label ≠ .high) :
    label.strength ≤ ConfidenceLabel.medium.strength := by
  cases label <;> first | decide | exact absurd rfl h

theorem strength_mono (hcap : policy.highCapLabel = .medium) (ha : evaluateWith policy a = .ok result)
    (hb : evaluateWith policy b = .ok result') (h : AtLeast a b) :
    result.overallLabel.strength ≤ result'.overallLabel.strength := by
  obtain ⟨hdimensions, _, haggregate⟩ := evaluateWith_eq_ok ha
  obtain ⟨hdimensions', _, haggregate'⟩ := evaluateWith_eq_ok hb
  have hraises := evaluateDimensions_raises h hdimensions hdimensions'
  cases aggregate_cases haggregate with
  | inl hblocked =>
    rw [hblocked.2]
    exact Nat.zero_le _
  | inr hopen =>
    obtain ⟨hopen, overall, hweakest, houtcome⟩ := hopen
    cases aggregate_cases haggregate' with
    | inl hblocked => exact absurd (hblocked.1.of_raises hraises h.gateIntegrityStatus) hopen
    | inr hopen' =>
      obtain ⟨_, overall', hweakest', houtcome'⟩ := hopen'
      have hle := hweakest.mono hraises hweakest'
      obtain ⟨hhigh', hunqualified', hlabel'⟩ | ⟨_, hlabel'⟩ := houtcome'
      · -- the second label is capped
        rw [hlabel', hcap]
        obtain ⟨_, _, hlabel⟩ | ⟨hqualified, hlabel⟩ := houtcome
        · rw [hlabel, hcap]
        · rw [hlabel]
          apply strength_le_medium
          intro hhigh
          exact hunqualified' ((hqualified hhigh).mono hraises h)
      · rw [hlabel']
        obtain ⟨hhigh, _, hlabel⟩ | ⟨_, hlabel⟩ := houtcome
        · rw [hlabel, hcap]
          rw [hhigh] at hle
          exact (strength_le_high .medium).trans hle
        · rwa [hlabel]

theorem high_of_label (hcap : policy.highCapLabel ≠ .high) (h : evaluateWith policy inputs = .ok result)
    (hhigh : result.overallLabel = .high) : ¬ Blocked result.dimensions inputs.gateIntegrityStatus ∧
      Weakest result.dimensions .high ∧ Qualified result.dimensions (buildLimitations inputs) policy := by
  obtain ⟨_, _, haggregate⟩ := evaluateWith_eq_ok h
  rw [hhigh] at haggregate
  cases aggregate_cases haggregate with
  | inl hblocked => cases hblocked.2
  | inr hopen =>
    obtain ⟨hopen, overall, hweakest, houtcome⟩ := hopen
    obtain ⟨_, _, hlabel⟩ | ⟨hqualified, hlabel⟩ := houtcome
    · exact absurd hlabel.symm hcap
    · subst hlabel
      exact ⟨hopen, hweakest, hqualified rfl⟩

/-- A policy that caps an unfounded high label at medium is monotone, and under one that caps it at all a high label
is founded. -/
theorem confidence_sound (policy : ConfidencePolicy) :
    (policy.highCapLabel = .medium → StrengthMonotone policy) ∧
      (policy.highCapLabel ≠ .high → HighFounded policy policy.highRequiresLimitationsDocumented) ∧
      InvalidGated policy := by
  refine ⟨fun hcap a b result result' ha hb h => strength_mono hcap ha hb h, ?_, ?_⟩
  · intro hcap inputs result h hhigh
    obtain ⟨hopen, hweakest, hcore, hdocumented⟩ := high_of_label hcap h hhigh
    refine ⟨fun d hd hpresent => eq_high (hweakest.least d hd hpresent), ?_, ?_, ?_⟩
    · exact fun d hd hrequired hmissing => hopen (.inr (.inl ⟨d, hd, hrequired, hmissing⟩))
    · intro name hname
      have hfound := List.filter_eq_nil_iff.mp hcore name hname
      cases hget : (result.dimensions.foldl (fun index d => index.set d.name d)
          ({} : Dict String DimensionResult)).get? name with
      | none => simp [hget] at hfound
      | some d =>
        simp only [hget, decide_eq_true_eq] at hfound
        cases Dict.get?_foldl_set hget with
        | inr hempty => cases hempty
        | inl hitem =>
          obtain ⟨d', hd', heq, rfl⟩ := hitem
          exact ⟨d', hd', heq, hfound⟩
    · rw [(evaluateWith_eq_ok h).2.1]
      exact missingDocumented_eq_nil.mp hdocumented
  · intro inputs result h hinvalid
    obtain ⟨_, _, haggregate⟩ := evaluateWith_eq_ok h
    cases aggregate_cases haggregate with
    | inl hblocked => exact hblocked.2
    | inr hopen => exact absurd (.inl hinvalid) hopen.1

/-- The registered policy: a high label has the testing of variants documented. -/
theorem confidence_sound_policy10 : Sound policy10 ["multiple_testing"] :=
  ⟨(confidence_sound policy10).1 rfl, (confidence_sound policy10).2.1 (by decide), (confidence_sound policy10).2.2⟩

def tradesOnly (closedTrades : ℤ) : ConfidenceEvidenceInputs :=
  { runStatus := "complete", closedTrades := some closedTrades }

theorem tradesOnly_atLeast {m n : ℤ} (h : m ≤ n) : AtLeast (tradesOnly m) (tradesOnly n) where
  runStatus := Iff.rfl
  closedTrades := .some h
  equityPeriods := .none
  walkForwardFoldsComplete := .none
  walkForwardFoldPassRatio := .none
  parameterNeighborsComplete := .none
  parameterNeighborPassRatio := .none
  bootstrapAssessed := rfl
  bootstrapSeriesLength := .none
  bootstrapBlockLength := .none
  regimeCoverageRatio := .none
  regimeEvidenceStatus := id
  gateIntegrityStatus := id
  multipleTestingMetadata := id

/-- Under a policy that caps below medium, more trades weaken the label. -/
theorem not_sound_lowCap : ¬ ∀ policy, Sound policy ["multiple_testing"] := by
  intro hsound
  have hlabels : (evaluateWith { policy10 with highCapLabel := .insufficient } (tradesOnly 30)).map (·.overallLabel) =
        .ok .medium ∧
      (evaluateWith { policy10 with highCapLabel := .insufficient } (tradesOnly 100)).map (·.overallLabel) =
        .ok .insufficient := by
    decide +kernel
  cases hfew : evaluateWith { policy10 with highCapLabel := .insufficient } (tradesOnly 30) with
  | error e => simp [hfew, Except.map] at hlabels
  | ok few =>
    cases hmany : evaluateWith { policy10 with highCapLabel := .insufficient } (tradesOnly 100) with
    | error e => simp [hmany, Except.map] at hlabels
    | ok many =>
      simp only [hfew, hmany, Except.map, Except.ok.injEq] at hlabels
      have hmono := (hsound { policy10 with highCapLabel := .insufficient }).monotone _ _ few many hfew hmany
        (tradesOnly_atLeast (by decide))
      rw [hlabels.1, hlabels.2] at hmono
      exact absurd hmono (by decide)

end Soundness

end TradingBot.Research.Confidence
