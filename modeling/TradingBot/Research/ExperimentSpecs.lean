import TradingBot.Research.SpecValues

namespace TradingBot.Research.ExperimentSpecs

open Library.DecimalNumbers Market.Models Market.CanonicalTexts Research.SpecValues

section Validation

/-- What pydantic makes of a value for a field of a type, where it accepts the value. Of the values that a JSON file
can hold it takes one of the type itself as it is, and a number or an instant from the text that spells it. -/
structure Pydantic where
  text : Value → Option String
  bool : Value → Option Bool
  int : Value → Option ℤ
  decimal : Value → Option Dec
  datetime : Value → Option (Option Time)
  items : Value → Option (List Value)
  text_text : ∀ s, text (.text s) = some s
  bool_bool : ∀ b, bool (.bool b) = some b
  int_int : ∀ n, int (.int n) = some n
  decimal_text : ∀ s d, readDecimal s = some d → decimal (.text s) = some d
  datetime_text : ∀ s t, readTimestamp s = some t → datetime (.text s) = some (some t)
  items_list : ∀ vs, items (.list vs) = some vs

def asDict : Value → Except String Entries
  | .dict entries => .ok entries
  | _ => .error "Input should be a valid dictionary"

def orInvalid {α : Type} (x : Option α) : Except String α :=
  match x with
  | none => .error "Input should be valid"
  | some a => .ok a

def required {α : Type} (entries : Entries) (field : String) (read : Value → Except String α) : Except String α :=
  match get? entries field with
  | none => .error (field ++ ": Field required")
  | some v => read v

def optional {α : Type} (entries : Entries) (field : String) (default : α) (read : Value → Except String α) :
    Except String α :=
  match get? entries field with
  | none => .ok default
  | some v => read v

def forbidExtra (entries : Entries) (fields : List String) : Except String Unit :=
  match entries.find? fun e => e.1 ∉ fields with
  | none => .ok ()
  | some e => .error (e.1 ++ ": Extra inputs are not permitted")

def ensure {α : Type} (p : α → Prop) [DecidablePred p] (message : String) (a : α) : Except String {a : α // p a} :=
  if h : p a then .ok ⟨a, h⟩ else .error message

abbrev NonEmptyText := {s : String // s ≠ ""}

abbrev NonnegDec := {d : Dec // d.IsNonneg}

abbrev PositiveDec := {d : Dec // d.IsPositive}

abbrev Instant := {t : Time // InYears t}

variable (P : Pydantic)

def readText (v : Value) : Except String String := orInvalid (P.text v)

def readNonEmptyText (v : Value) : Except String NonEmptyText := do
  let s ← readText P v
  ensure (· ≠ "") "String should have at least 1 character" s

def readDec (v : Value) : Except String Dec := orInvalid (P.decimal v)

def readNonnegDec (v : Value) : Except String NonnegDec := do
  let d ← readDec P v
  ensure Dec.IsNonneg "Input should be greater than or equal to 0" d

def readPositiveDec (v : Value) : Except String PositiveDec := do
  let d ← readDec P v
  ensure Dec.IsPositive "Input should be greater than 0" d

/-- `_utc_aware`. -/
def readInstant (v : Value) : Except String Instant := do
  match ← orInvalid (P.datetime v) with
  | none => .error "timestamp must be timezone-aware"
  | some t => ensure InYears "date value out of range" t

def readNullable {α : Type} (read : Value → Except String α) (v : Value) : Except String (Option α) :=
  match v with
  | .null => .ok none
  | v => (read v).map some

end Validation

section Classes

def IsHash (s : String) : Prop := s.length = 64 ∧ s.toList.all fun c => c.isDigit || ('a' ≤ c && c ≤ 'f')

instance (s : String) : Decidable (IsHash s) := inferInstanceAs (Decidable (_ ∧ _))

structure DatasetManifestRef where
  datasetId : NonEmptyText
  contentHash : {s : String // IsHash s}
  manifestPath : Option String

structure TimeRange where
  start : Instant
  finish : Instant
  endAfterStart : start.1 < finish.1

structure FeeAssumption where
  entryFeeRate : NonnegDec
  exitFeeRate : NonnegDec
  modelVersion : NonEmptyText

structure SlippageAssumption where
  slippageBps : NonnegDec
  modelVersion : NonEmptyText

structure FundingAssumption where
  enabled : Bool
  assumedRate : Option Dec
  modelVersion : NonEmptyText

structure CostScenarioSpec where
  name : NonEmptyText
  feeAssumption : FeeAssumption
  slippageAssumption : SlippageAssumption
  fundingAssumption : FundingAssumption

structure SymbolConstraintPin where
  quantityStep : PositiveDec
  minimumQuantity : PositiveDec
  minimumNotional : NonnegDec
  priceTickSize : PositiveDec

variable (P : Pydantic)

def defaultVersion : NonEmptyText := ⟨"1.0", by decide⟩

def readDatasetManifestRef (v : Value) : Except String DatasetManifestRef := do
  let entries ← asDict v
  forbidExtra entries ["dataset_id", "content_hash", "manifest_path"]
  let datasetId ← required entries "dataset_id" (readNonEmptyText P)
  let hash ← required entries "content_hash" (readText P)
  let contentHash ← ensure IsHash "String should match pattern '^[0-9a-f]\x7b64\x7d$'" hash
  let manifestPath ← optional entries "manifest_path" none (readNullable (readText P))
  pure { datasetId, contentHash, manifestPath }

def readTimeRange (v : Value) : Except String TimeRange := do
  let entries ← asDict v
  forbidExtra entries ["start", "end"]
  let start ← required entries "start" (readInstant P)
  let finish ← required entries "end" (readInstant P)
  if h : start.1 < finish.1 then .ok ⟨start, finish, h⟩
  else .error "time_range.end must be after time_range.start"

def readFeeAssumption (v : Value) : Except String FeeAssumption := do
  let entries ← asDict v
  forbidExtra entries ["entry_fee_rate", "exit_fee_rate", "model_version"]
  let entryFeeRate ← required entries "entry_fee_rate" (readNonnegDec P)
  let exitFeeRate ← required entries "exit_fee_rate" (readNonnegDec P)
  let modelVersion ← optional entries "model_version" defaultVersion (readNonEmptyText P)
  pure { entryFeeRate, exitFeeRate, modelVersion }

def readSlippageAssumption (v : Value) : Except String SlippageAssumption := do
  let entries ← asDict v
  forbidExtra entries ["slippage_bps", "model_version"]
  let slippageBps ← required entries "slippage_bps" (readNonnegDec P)
  let modelVersion ← optional entries "model_version" defaultVersion (readNonEmptyText P)
  pure { slippageBps, modelVersion }

def readFundingAssumption (v : Value) : Except String FundingAssumption := do
  let entries ← asDict v
  forbidExtra entries ["enabled", "assumed_rate", "model_version"]
  let enabled ← optional entries "enabled" false fun v => orInvalid (P.bool v)
  let assumedRate ← optional entries "assumed_rate" none (readNullable (readDec P))
  let modelVersion ← optional entries "model_version" defaultVersion (readNonEmptyText P)
  pure { enabled, assumedRate, modelVersion }

def readCostScenarioSpec (v : Value) : Except String CostScenarioSpec := do
  let entries ← asDict v
  forbidExtra entries ["name", "fee_assumption", "slippage_assumption", "funding_assumption"]
  let name ← required entries "name" (readNonEmptyText P)
  let feeAssumption ← required entries "fee_assumption" (readFeeAssumption P)
  let slippageAssumption ← required entries "slippage_assumption" (readSlippageAssumption P)
  let fundingAssumption ← required entries "funding_assumption" (readFundingAssumption P)
  pure { name, feeAssumption, slippageAssumption, fundingAssumption }

def readSymbolConstraintPin (v : Value) : Except String SymbolConstraintPin := do
  let entries ← asDict v
  forbidExtra entries ["quantity_step", "minimum_quantity", "minimum_notional", "price_tick_size"]
  let quantityStep ← required entries "quantity_step" (readPositiveDec P)
  let minimumQuantity ← required entries "minimum_quantity" (readPositiveDec P)
  let minimumNotional ← required entries "minimum_notional" (readNonnegDec P)
  let priceTickSize ← required entries "price_tick_size" (readPositiveDec P)
  pure { quantityStep, minimumQuantity, minimumNotional, priceTickSize }

end Classes

section Parameters

inductive IntParameter
  | monthlyEmaPeriod | weeklyEmaFast | weeklyEmaSlow | dailyEmaPeriod | breakoutLookback | atrPeriod | volumeSmaPeriod
deriving DecidableEq, Repr

def IntParameter.all : List IntParameter :=
  [.monthlyEmaPeriod, .weeklyEmaFast, .weeklyEmaSlow, .dailyEmaPeriod, .breakoutLookback, .atrPeriod, .volumeSmaPeriod]

def IntParameter.name : IntParameter → String
  | .monthlyEmaPeriod => "monthly_ema_period"
  | .weeklyEmaFast => "weekly_ema_fast"
  | .weeklyEmaSlow => "weekly_ema_slow"
  | .dailyEmaPeriod => "daily_ema_period"
  | .breakoutLookback => "breakout_lookback"
  | .atrPeriod => "atr_period"
  | .volumeSmaPeriod => "volume_sma_period"

def IntParameter.default : IntParameter → ℤ
  | .weeklyEmaSlow => 50
  | .atrPeriod => 14
  | .monthlyEmaPeriod | .weeklyEmaFast | .dailyEmaPeriod | .breakoutLookback | .volumeSmaPeriod => 20

inductive DecimalParameter
  | volumeRatioMin | pullbackEmaTolerance | stopInitialAtrMult | trailAtrMult
deriving DecidableEq, Repr

def DecimalParameter.all : List DecimalParameter :=
  [.volumeRatioMin, .pullbackEmaTolerance, .stopInitialAtrMult, .trailAtrMult]

def DecimalParameter.name : DecimalParameter → String
  | .volumeRatioMin => "volume_ratio_min"
  | .pullbackEmaTolerance => "pullback_ema_tolerance"
  | .stopInitialAtrMult => "stop_initial_atr_mult"
  | .trailAtrMult => "trail_atr_mult"

def DecimalParameter.default : DecimalParameter → Dec
  | .volumeRatioMin => ⟨false, 100, -2⟩
  | .pullbackEmaTolerance => ⟨false, 5, -3⟩
  | .stopInitialAtrMult => ⟨false, 25, -1⟩
  | .trailAtrMult => ⟨false, 30, -1⟩

def equalsDec (d : Dec) (n : ℤ) : Bool :=
  let c : ℤ := if d.negative then -d.coefficient else d.coefficient
  if 0 ≤ d.exponent then c * 10 ^ d.exponent.toNat = n else c = n * 10 ^ (-d.exponent).toNat

def equalsInt : Value → ℤ → Bool
  | .int m, n => m = n
  | .bool b, n => (if b then 1 else 0) = n
  | .float _ whole, n => whole = some n
  | .decimal d, n => equalsDec d n
  | _, _ => false

variable (P : Pydantic)

/-- A value that is kept for an integer parameter: one that is read as the integer and is equal to it. -/
structure Whole where
  value : Value
  number : ℤ
  reads : P.int value = some number
  equals : equalsInt value number = true

variable {P}

def Whole.ofInt (n : ℤ) : Whole P where
  value := .int n
  number := n
  reads := P.int_int n
  equals := by simp [equalsInt]

instance : Inhabited (Whole P) := ⟨Whole.ofInt 0⟩

instance : Inhabited Dec := ⟨⟨false, 0, 0⟩⟩

def readWhole (v : Value) : Except String (Whole P) :=
  match h : P.int v with
  | none => .error "Input should be a valid integer"
  | some n => if he : equalsInt v n = true then .ok ⟨v, n, h, he⟩ else .ok (Whole.ofInt n)

def readAll {ι α : Type} [Inhabited α] (fields : List ι) (read : ι → Except String α) : Except String (ι → α) := do
  forM fields fun field => (read field).map fun _ => ()
  pure fun field => (read field).toOption.getD default

variable (P)

structure EffectiveParameters where
  ints : IntParameter → Whole P
  decimals : DecimalParameter → Dec
  strategyId : Option Value

variable {P}

def EffectiveParameters.entries (p : EffectiveParameters P) : Entries :=
  IntParameter.all.map (fun field => (field.name, (p.ints field).value)) ++
    DecimalParameter.all.map (fun field => (field.name, .text (decimalText (p.decimals field)))) ++
    p.strategyId.toList.map fun v => ("strategy_id", v)

def parameterNames : List String :=
  IntParameter.all.map IntParameter.name ++ DecimalParameter.all.map DecimalParameter.name

variable (P)

/-- The integer of a parameter is given, by a value equal to it. -/
def sameInt (entries : Entries) (field : IntParameter) : Bool :=
  match get? entries field.name with
  | none => false
  | some v => (P.int v).any fun n => equalsInt v n

def sameDecimal (entries : Entries) (field : DecimalParameter) : Bool :=
  match get? entries field.name with
  | some (.text s) => (P.decimal (.text s)).any fun d => decimalText d = s
  | _ => false

def unchanged (entries : Entries) : Bool :=
  (get? entries "strategy_version").isNone && IntParameter.all.all (sameInt P entries) &&
    DecimalParameter.all.all (sameDecimal P entries)

/-- `bind_effective_parameters`, and what the spec makes of its result: parameters that are equal to the effective
ones stay as they were given. A strategy version among the parameters is checked and dropped. -/
def bindEffectiveParameters (entries : Entries) : Except String (EffectiveParameters P) := do
  forbidExtra entries ("strategy_version" :: "strategy_id" :: parameterNames)
  let _ ← optional entries "strategy_version" "" (readText P)
  let ints ← readAll IntParameter.all fun field =>
    optional entries field.name (Whole.ofInt field.default) readWhole
  let decimals ← readAll DecimalParameter.all fun field =>
    optional entries field.name field.default (readDec P)
  pure
    { ints := if unchanged P entries then ints else fun field => Whole.ofInt (ints field).number
      decimals
      strategyId := get? entries "strategy_id" }

end Parameters

section Spec

abbrev SymbolTuple := {symbols : List Symbol // symbols ≠ [] ∧ symbolProcessingOrder.filter (· ∈ symbols) = symbols}

variable (P : Pydantic)

/-- A spec that was accepted; its schema version is always the one that is supported. The constraints are those of its
symbols, in their order. -/
structure ExperimentSpec where
  hypothesis : NonEmptyText
  strategyVersion : NonEmptyText
  parameters : EffectiveParameters P
  datasetManifestRef : DatasetManifestRef
  symbols : SymbolTuple
  timeRange : TimeRange
  startingCapital : PositiveDec
  feeAssumption : FeeAssumption
  slippageAssumption : SlippageAssumption
  fundingAssumption : FundingAssumption
  symbolConstraints : {pins : List (Symbol × SymbolConstraintPin) // pins.map Prod.fst = symbols.1}
  costScenarios : List CostScenarioSpec
  benchmark : NonEmptyText
  randomSeed : Option ℤ
  expectedArtifacts : List String
  notes : String
  owner : NonEmptyText

def schemaVersion : String := "1.0"

/-- `_supported_schema`. -/
def readSchemaVersion (v : Value) : Except String {s : String // s = schemaVersion} := do
  let s ← readText P v
  ensure (· = schemaVersion) ("unsupported schema_version '" ++ s ++ "'; expected '" ++ schemaVersion ++ "'") s

def readSymbol : Value → Except String Symbol
  | .text s => orInvalid (symbolProcessingOrder.find? fun symbol => symbol.value = s)
  | _ => .error "Input should be 'BTC', 'ETH' or 'SOL'"

/-- `_btc_eth_sol_only`: the symbols once each, in their order. -/
def readSymbols (v : Value) : Except String SymbolTuple := do
  let items ← orInvalid (P.items v)
  let symbols ← items.mapM readSymbol
  ensure (fun symbols => symbols ≠ [] ∧ symbolProcessingOrder.filter (· ∈ symbols) = symbols)
    "Tuple should have at least 1 item after validation" (symbolProcessingOrder.filter (· ∈ symbols))

def namesText (names : List String) : String := "[" ++ ", ".intercalate (names.map fun name => "'" ++ name ++ "'") ++ "]"

/-- `_symbol_constraints_cover_exactly`. -/
def checkCover (symbols : List Symbol) (entries : Entries) : Except String Unit :=
  let missing := (symbols.map Symbol.value).filter (· ∉ entries.map Prod.fst)
  let extra := ((entries.map Prod.fst).filter (· ∉ symbols.map Symbol.value)).insertionSort (· ≤ ·)
  if missing = [] ∧ extra = [] then .ok ()
  else .error ("symbol_constraints must cover exactly Spec symbols; missing=" ++ namesText missing ++ " extra=" ++
    namesText extra)

def readPins (entries : Entries) :
    (symbols : List Symbol) → Except String {pins : List (Symbol × SymbolConstraintPin) // pins.map Prod.fst = symbols}
  | [] => .ok ⟨[], rfl⟩
  | symbol :: symbols => do
    let pin ← required entries symbol.value (readSymbolConstraintPin P)
    let pins ← readPins entries symbols
    pure ⟨(symbol, pin) :: pins.1, by rw [List.map_cons, pins.2]⟩

def specFields : List String :=
  ["schema_version", "hypothesis", "strategy_version", "parameters", "dataset_manifest_ref", "symbols", "time_range",
    "starting_capital", "fee_assumption", "slippage_assumption", "funding_assumption", "symbol_constraints",
    "cost_scenarios", "benchmark", "random_seed", "expected_artifacts", "notes", "owner"]

def readTuple {α : Type} (read : Value → Except String α) (v : Value) : Except String (List α) := do
  let items ← orInvalid (P.items v)
  items.mapM read

def modelValidate (data : Value) : Except String (ExperimentSpec P) := do
  let entries ← asDict data
  forbidExtra entries specFields
  let _ ← optional entries "schema_version" ⟨schemaVersion, rfl⟩ (readSchemaVersion P)
  let hypothesis ← required entries "hypothesis" (readNonEmptyText P)
  let strategyVersion ← required entries "strategy_version" (readNonEmptyText P)
  let rawParameters ← optional entries "parameters" [] asDict
  let datasetManifestRef ← required entries "dataset_manifest_ref" (readDatasetManifestRef P)
  let symbols ← required entries "symbols" (readSymbols P)
  let timeRange ← required entries "time_range" (readTimeRange P)
  let startingCapital ← required entries "starting_capital" (readPositiveDec P)
  let feeAssumption ← required entries "fee_assumption" (readFeeAssumption P)
  let slippageAssumption ← required entries "slippage_assumption" (readSlippageAssumption P)
  let fundingAssumption ← required entries "funding_assumption" (readFundingAssumption P)
  let rawConstraints ← required entries "symbol_constraints" asDict
  let costScenarios ← optional entries "cost_scenarios" [] (readTuple P (readCostScenarioSpec P))
  let benchmark ← required entries "benchmark" (readNonEmptyText P)
  let randomSeed ← optional entries "random_seed" none (readNullable fun v => orInvalid (P.int v))
  let expectedArtifacts ← optional entries "expected_artifacts" [] (readTuple P (readText P))
  let notes ← optional entries "notes" "" (readText P)
  let owner ← required entries "owner" (readNonEmptyText P)
  checkCover symbols.1 rawConstraints
  let symbolConstraints ← readPins P rawConstraints symbols.1
  let parameters ← bindEffectiveParameters P rawParameters
  pure
    { hypothesis, strategyVersion, parameters, datasetManifestRef, symbols, timeRange, startingCapital, feeAssumption,
      slippageAssumption, fundingAssumption, symbolConstraints, costScenarios, benchmark, randomSeed,
      expectedArtifacts, notes, owner }

/-- `parse_experiment_spec`, which does not look at the JSON schema unless it is asked to. -/
def parseExperimentSpec (data : Value) : Except String (ExperimentSpec P) := do
  assertNoSecrets data
  modelValidate P data

end Spec

section Dump

def DatasetManifestRef.dump (ref : DatasetManifestRef) : Value :=
  .dict
    [("dataset_id", .text ref.datasetId.1), ("content_hash", .text ref.contentHash.1),
      ("manifest_path", (ref.manifestPath.map Value.text).getD .null)]

def TimeRange.dump (range : TimeRange) : Value :=
  .dict [("start", .datetime (some range.start.1)), ("end", .datetime (some range.finish.1))]

def FeeAssumption.dump (fee : FeeAssumption) : Value :=
  .dict
    [("entry_fee_rate", .decimal fee.entryFeeRate.1), ("exit_fee_rate", .decimal fee.exitFeeRate.1),
      ("model_version", .text fee.modelVersion.1)]

def SlippageAssumption.dump (slippage : SlippageAssumption) : Value :=
  .dict [("slippage_bps", .decimal slippage.slippageBps.1), ("model_version", .text slippage.modelVersion.1)]

def FundingAssumption.dump (funding : FundingAssumption) : Value :=
  .dict
    [("enabled", .bool funding.enabled), ("assumed_rate", (funding.assumedRate.map Value.decimal).getD .null),
      ("model_version", .text funding.modelVersion.1)]

def CostScenarioSpec.dump (scenario : CostScenarioSpec) : Value :=
  .dict
    [("name", .text scenario.name.1), ("fee_assumption", scenario.feeAssumption.dump),
      ("slippage_assumption", scenario.slippageAssumption.dump), ("funding_assumption", scenario.fundingAssumption.dump)]

def SymbolConstraintPin.dump (pin : SymbolConstraintPin) : Value :=
  .dict
    [("quantity_step", .decimal pin.quantityStep.1), ("minimum_quantity", .decimal pin.minimumQuantity.1),
      ("minimum_notional", .decimal pin.minimumNotional.1), ("price_tick_size", .decimal pin.priceTickSize.1)]

variable {P : Pydantic}

def ExperimentSpec.modelDump (spec : ExperimentSpec P) : Entries :=
  [("schema_version", .text schemaVersion), ("hypothesis", .text spec.hypothesis.1),
    ("strategy_version", .text spec.strategyVersion.1), ("parameters", .dict spec.parameters.entries),
    ("dataset_manifest_ref", spec.datasetManifestRef.dump),
    ("symbols", .tuple (spec.symbols.1.map fun symbol => .text symbol.value)), ("time_range", spec.timeRange.dump),
    ("starting_capital", .decimal spec.startingCapital.1), ("fee_assumption", spec.feeAssumption.dump),
    ("slippage_assumption", spec.slippageAssumption.dump), ("funding_assumption", spec.fundingAssumption.dump),
    ("symbol_constraints", .dict (spec.symbolConstraints.1.map fun pin => (pin.1.value, pin.2.dump))),
    ("cost_scenarios", .tuple (spec.costScenarios.map CostScenarioSpec.dump)), ("benchmark", .text spec.benchmark.1),
    ("random_seed", (spec.randomSeed.map Value.int).getD .null),
    ("expected_artifacts", .tuple (spec.expectedArtifacts.map Value.text)), ("notes", .text spec.notes),
    ("owner", .text spec.owner.1)]

def toCanonicalDict (spec : ExperimentSpec P) : Except String Value := canonicalValue (.dict spec.modelDump)

end Dump

section Files

variable (P : Pydantic)

/-- The content of the file that `save_experiment_spec` writes as JSON. -/
def saveExperimentSpec {P : Pydantic} (spec : ExperimentSpec P) : Except String Value := do
  let canonical ← toCanonicalDict spec
  dumps canonical

def loadExperimentSpec (content : Value) : Except String (ExperimentSpec P) :=
  match content with
  | .dict entries => parseExperimentSpec P (.dict entries)
  | _ => .error "ExperimentSpec root must be a mapping/object"

end Files

section Identity

variable {P : Pydantic}

def nonSemanticSpecKeys : List String := ["owner", "notes"]

def without (keys : List String) : Value → Value
  | .dict entries => .dict (entries.filter fun e => e.1 ∉ keys)
  | v => v

def semanticSpecDict (spec : ExperimentSpec P) : Except String Value :=
  (toCanonicalDict spec).map (without nonSemanticSpecKeys)

def computeExperimentId (sha256 : Value → String) (spec : ExperimentSpec P) : Except String String := do
  let semantic ← semanticSpecDict spec
  let content ← dumps semantic
  pure ("exp_" ++ sha256 content)

end Identity

end TradingBot.Research.ExperimentSpecs
