import TradingBot.Research.ExperimentSpecs

namespace TradingBot.Research.SpecForms

open Library.DecimalNumbers Library.Outcome Market.Models Market.CanonicalTexts
open Research.SpecValues Research.ExperimentSpecs

def InRange (d : Dec) : Prop := (defaultContext.normalize d).isSome = true

instance (d : Dec) : Decidable (InRange d) := inferInstanceAs (Decidable (_ = true))

section Costs

def FeeAssumption.costs (fee : FeeAssumption) : List Dec := [fee.entryFeeRate.1, fee.exitFeeRate.1]

def SlippageAssumption.costs (slippage : SlippageAssumption) : List Dec := [slippage.slippageBps.1]

def FundingAssumption.costs (funding : FundingAssumption) : List Dec := funding.assumedRate.toList

def CostScenarioSpec.costs (scenario : CostScenarioSpec) : List Dec :=
  FeeAssumption.costs scenario.feeAssumption ++ SlippageAssumption.costs scenario.slippageAssumption ++
    FundingAssumption.costs scenario.fundingAssumption

def SymbolConstraintPin.costs (pin : SymbolConstraintPin) : List Dec :=
  [pin.quantityStep.1, pin.minimumQuantity.1, pin.minimumNotional.1, pin.priceTickSize.1]

/-- The decimals of a spec, but for those of its parameters. -/
def ExperimentSpec.costs {P : Pydantic} (spec : ExperimentSpec P) : List Dec :=
  spec.startingCapital.1 :: (FeeAssumption.costs spec.feeAssumption ++
    SlippageAssumption.costs spec.slippageAssumption ++ FundingAssumption.costs spec.fundingAssumption ++
    (spec.symbolConstraints.1.flatMap fun pin => SymbolConstraintPin.costs pin.2) ++
    spec.costScenarios.flatMap CostScenarioSpec.costs)

end Costs

section Fields

@[simp] theorem IntParameter.mem_all (field : IntParameter) : field ∈ IntParameter.all := by
  cases field <;> decide

@[simp] theorem DecimalParameter.mem_all (field : DecimalParameter) : field ∈ DecimalParameter.all := by
  cases field <;> decide

theorem symbolValues_nodup (symbols : SymbolTuple) : (symbols.1.map Symbol.value).Nodup := by
  rw [← symbols.2.2]
  exact List.Nodup.map Symbol.value_injective (List.Nodup.filter _ (by decide))

/-- The keys of the dictionaries that a spec consists of. -/
def fieldNames : List String :=
  specFields ++ parameterNames ++ symbolProcessingOrder.map Symbol.value ++
    ["strategy_id", "dataset_id", "content_hash", "manifest_path", "start", "end", "entry_fee_rate", "exit_fee_rate",
      "model_version", "slippage_bps", "enabled", "assumed_rate", "name", "fee_assumption", "slippage_assumption",
      "funding_assumption", "quantity_step", "minimum_quantity", "minimum_notional", "price_tick_size"]

theorem harmless_fieldNames : ∀ name ∈ fieldNames, harmless name = true := by decide +kernel

variable {admitted : String → Bool} (hadmitted : ∀ name ∈ fieldNames, admitted name = true)

theorem values_of_pins {symbols : List Symbol}
    (pins : {pins : List (Symbol × SymbolConstraintPin) // pins.map Prod.fst = symbols}) :
    (pins.1.map fun pin => (pin.1.value, pin.2.dump)).map Prod.fst = symbols.map Symbol.value := by
  obtain ⟨pins, rfl⟩ := pins
  simp

include hadmitted

theorem passes_fields {names : List String} {entries : Entries} (hfields : names ⊆ fieldNames) (hnodup : names.Nodup)
    (hnames : entries.map Prod.fst = names) :
    Passes admitted (.dict entries) ↔ ∀ e ∈ entries, Passes admitted e.2 := by
  rw [passes_record (hnames ▸ hnodup)]
  constructor
  · intro h e he
    exact (h e he).2
  · intro h e he
    exact ⟨hadmitted _ (hfields (hnames ▸ List.mem_map_of_mem he)), h e he⟩

theorem passes_fee (fee : FeeAssumption) : Passes admitted fee.dump ↔ ∀ d ∈ FeeAssumption.costs fee, InRange d := by
  have hnames : ["entry_fee_rate", "exit_fee_rate", "model_version"] ⊆ fieldNames := by decide
  rw [FeeAssumption.dump, passes_fields hadmitted hnames (by decide) rfl]
  simp [FeeAssumption.costs, InRange]

theorem passes_slippage (slippage : SlippageAssumption) :
    Passes admitted slippage.dump ↔ ∀ d ∈ SlippageAssumption.costs slippage, InRange d := by
  have hnames : ["slippage_bps", "model_version"] ⊆ fieldNames := by decide
  rw [SlippageAssumption.dump, passes_fields hadmitted hnames (by decide) rfl]
  simp [SlippageAssumption.costs, InRange]

theorem passes_funding (funding : FundingAssumption) :
    Passes admitted funding.dump ↔ ∀ d ∈ FundingAssumption.costs funding, InRange d := by
  have hnames : ["enabled", "assumed_rate", "model_version"] ⊆ fieldNames := by decide
  rw [FundingAssumption.dump, passes_fields hadmitted hnames (by decide) rfl]
  cases hrate : funding.assumedRate with
  | none => simp [FundingAssumption.costs, hrate]
  | some rate => simp [FundingAssumption.costs, hrate, InRange]

theorem passes_scenario (scenario : CostScenarioSpec) :
    Passes admitted scenario.dump ↔ ∀ d ∈ CostScenarioSpec.costs scenario, InRange d := by
  have hnames : ["name", "fee_assumption", "slippage_assumption", "funding_assumption"] ⊆ fieldNames := by decide
  rw [CostScenarioSpec.dump, passes_fields hadmitted hnames (by decide) rfl]
  simp only [List.forall_mem_cons, List.not_mem_nil, false_imp_iff, implies_true, passes_text, true_and, and_true,
    passes_fee hadmitted, passes_slippage hadmitted, passes_funding hadmitted, CostScenarioSpec.costs,
    List.forall_mem_append, and_assoc]

theorem passes_pin (pin : SymbolConstraintPin) :
    Passes admitted pin.dump ↔ ∀ d ∈ SymbolConstraintPin.costs pin, InRange d := by
  have hnames : ["quantity_step", "minimum_quantity", "minimum_notional", "price_tick_size"] ⊆ fieldNames := by decide
  rw [SymbolConstraintPin.dump, passes_fields hadmitted hnames (by decide) rfl]
  simp [SymbolConstraintPin.costs, InRange]

theorem passes_manifest (ref : DatasetManifestRef) : Passes admitted ref.dump := by
  have hnames : ["dataset_id", "content_hash", "manifest_path"] ⊆ fieldNames := by decide
  rw [DatasetManifestRef.dump, passes_fields hadmitted hnames (by decide) rfl]
  cases hpath : ref.manifestPath <;> simp

theorem passes_range (range : TimeRange) : Passes admitted range.dump := by
  have hnames : ["start", "end"] ⊆ fieldNames := by decide
  rw [TimeRange.dump, passes_fields hadmitted hnames (by decide) rfl]
  simp

theorem passes_parameters {P : Pydantic} (p : EffectiveParameters P) :
    Passes admitted (.dict p.entries) ↔
      (∀ field, Passes admitted (p.ints field).value) ∧ ∀ v ∈ p.strategyId, Passes admitted v := by
  have hnames : parameterNames ++ p.strategyId.toList.map (fun _ => "strategy_id") ⊆ fieldNames := by
    cases p.strategyId <;> simp only [Option.toList, List.map_nil, List.map_cons] <;> decide
  have hnodup : (parameterNames ++ p.strategyId.toList.map fun _ => "strategy_id").Nodup := by
    cases p.strategyId <;> simp only [Option.toList, List.map_nil, List.map_cons] <;> decide
  rw [passes_fields hadmitted hnames hnodup (by simp [EffectiveParameters.entries, parameterNames, Function.comp_def])]
  simp only [EffectiveParameters.entries, List.forall_mem_append, List.forall_mem_map, passes_text, implies_true,
    and_true, Option.mem_toList, IntParameter.mem_all, forall_true_left, Option.mem_def]

theorem passes_pins (symbols : SymbolTuple)
    (pins : {pins : List (Symbol × SymbolConstraintPin) // pins.map Prod.fst = symbols.1}) :
    Passes admitted (.dict (pins.1.map fun pin => (pin.1.value, pin.2.dump))) ↔
      ∀ pin ∈ pins.1, ∀ d ∈ SymbolConstraintPin.costs pin.2, InRange d := by
  have hnames : symbols.1.map Symbol.value ⊆ fieldNames := by
    intro name hname
    obtain ⟨symbol, _, rfl⟩ := List.mem_map.mp hname
    cases symbol <;> decide
  rw [passes_fields hadmitted hnames (symbolValues_nodup symbols) (values_of_pins pins),
    List.forall_mem_map]
  simp only [passes_pin hadmitted]

theorem passes_spec {P : Pydantic} (s : ExperimentSpec P) :
    Passes admitted (.dict s.modelDump) ↔ (∀ d ∈ ExperimentSpec.costs s, InRange d) ∧
      (∀ field, Passes admitted (s.parameters.ints field).value) ∧
        (∀ v ∈ s.parameters.strategyId, Passes admitted v) ∧ ∀ n ∈ s.randomSeed, Writable n := by
  have hnames : specFields ⊆ fieldNames := by decide
  have hseed : Passes admitted ((s.randomSeed.map Value.int).getD .null) ↔ ∀ n ∈ s.randomSeed, Writable n := by
    cases s.randomSeed <;> simp
  rw [passes_fields hadmitted hnames (by decide) rfl]
  simp only [ExperimentSpec.modelDump, List.forall_mem_cons, List.not_mem_nil, false_imp_iff, implies_true, and_true,
    passes_text, true_and, passes_parameters hadmitted, passes_manifest hadmitted, passes_tuple, List.forall_mem_map,
    passes_range hadmitted, passes_decimal, passes_fee hadmitted, passes_slippage hadmitted, passes_funding hadmitted,
    passes_pins hadmitted, passes_scenario hadmitted, hseed, ExperimentSpec.costs, List.forall_mem_append,
    List.forall_mem_flatMap]
  constructor
  · rintro ⟨⟨hints, hid⟩, hcapital, hfee, hslippage, hfunding, hpins, hscenarios, hseed⟩
    exact ⟨⟨hcapital, ⟨⟨⟨hfee, hslippage⟩, hfunding⟩, hpins⟩, hscenarios⟩, hints, hid, hseed⟩
  · rintro ⟨⟨hcapital, ⟨⟨⟨hfee, hslippage⟩, hfunding⟩, hpins⟩, hscenarios⟩, hints, hid, hseed⟩
    exact ⟨⟨hints, hid⟩, hcapital, hfee, hslippage, hfunding, hpins, hscenarios, hseed⟩

end Fields

section Rereading

def Vanishes (d : Dec) : Prop := ∃ n, defaultContext.normalize d = some n ∧ n.coefficient = 0

instance (d : Dec) : Decidable (Vanishes d) :=
  decidable_of_iff ((defaultContext.normalize d).any (·.coefficient = 0)) (by simp [Vanishes, Option.any_eq_true])

def Rereads {α : Type} (read : Value → Except String α) (dump : α → Value) (x : α) : Prop :=
  ∀ w, canonicalValue (dump x) = .ok w → ∃ y, read w = .ok y ∧ canonicalValue (dump y) = .ok w

def Restores {α : Type} (read : Value → Except String α) (dump : α → Value) (x : α) : Prop :=
  ∀ w, canonicalValue (dump x) = .ok w → read w = .ok x

theorem Restores.rereads {α : Type} {read : Value → Except String α} {dump : α → Value} {x : α}
    (h : Restores read dump x) : Rereads read dump x := by
  intro w hw
  exact ⟨x, h w hw, hw⟩

structure CanonicalFields (entries items : Entries) : Prop where
  fields : ∀ e ∈ entries, ∃ v, canonicalValue e.2 = .ok v ∧ get? items e.1 = some v
  keys : ∀ key, key ∈ items.map Prod.fst ↔ key ∈ entries.map Prod.fst

variable {entries items : Entries} {w : Value}

theorem canonicalFields (hnodup : (entries.map Prod.fst).Nodup) (h : canonicalValue (.dict entries) = .ok w) :
    ∃ items, w = .dict items ∧ CanonicalFields entries items := by
  obtain ⟨items, hw, hfields, hkeys⟩ := canonical_record hnodup h
  exact ⟨items, hw, hfields, hkeys⟩

theorem CanonicalFields.forbidExtra (h : CanonicalFields entries items) {names : List String}
    (hnames : entries.map Prod.fst ⊆ names) : forbidExtra items names = .ok () := by
  have hnone : (items.find? fun e => e.1 ∉ names) = none := by
    rw [List.find?_eq_none]
    intro e he
    have hkey := hnames ((h.keys e.1).mp (List.mem_map_of_mem he))
    simpa using hkey
  rw [ExperimentSpecs.forbidExtra, hnone]

variable {α : Type} {read : Value → Except String α} {dump : α → Value} {x : α}

theorem CanonicalFields.required (h : CanonicalFields entries items) (key : String) (hread : Rereads read dump x)
    (hmem : (key, dump x) ∈ entries) :
    ∃ y, required items key read = .ok y ∧ canonicalValue (dump y) = canonicalValue (dump x) := by
  obtain ⟨v, hv, hget⟩ := h.fields _ hmem
  obtain ⟨y, hy, hsame⟩ := hread v hv
  refine ⟨y, ?_, hsame.trans hv.symm⟩
  rw [ExperimentSpecs.required, hget]
  exact hy

theorem CanonicalFields.required_restored (h : CanonicalFields entries items) (key : String)
    (hread : Restores read dump x) (hmem : (key, dump x) ∈ entries) : ExperimentSpecs.required items key read = .ok x := by
  obtain ⟨v, hv, hget⟩ := h.fields _ hmem
  rw [ExperimentSpecs.required, hget]
  exact hread v hv

theorem CanonicalFields.optional (h : CanonicalFields entries items) (key : String) (default : α)
    (hread : Rereads read dump x) (hmem : (key, dump x) ∈ entries) :
    ∃ y, optional items key default read = .ok y ∧ canonicalValue (dump y) = canonicalValue (dump x) := by
  obtain ⟨v, hv, hget⟩ := h.fields _ hmem
  obtain ⟨y, hy, hsame⟩ := hread v hv
  refine ⟨y, ?_, hsame.trans hv.symm⟩
  rw [ExperimentSpecs.optional, hget]
  exact hy

end Rereading

section Leaves

variable (P : Pydantic) {d : Dec}

theorem restores_text (s : String) : Restores (readText P) .text s := by
  intro w hw
  cases hw
  exact congrArg orInvalid (P.text_text s)

theorem restores_nonEmptyText (s : NonEmptyText) : Restores (readNonEmptyText P) (fun s => .text s.1) s := by
  intro w hw
  cases hw
  rw [readNonEmptyText, readText, P.text_text]
  exact dif_pos s.2

theorem restores_bool (b : Bool) : Restores (fun v => orInvalid (P.bool v)) .bool b := by
  intro w hw
  cases hw
  exact congrArg orInvalid (P.bool_bool b)

theorem restores_int (n : ℤ) : Restores (fun v => orInvalid (P.int v)) .int n := by
  intro w hw
  cases hw
  exact congrArg orInvalid (P.int_int n)

theorem restores_instant (t : Instant) : Restores (readInstant P) (fun t => .datetime (some t.1)) t := by
  intro w hw
  cases hw
  rw [readInstant, P.datetime_text _ _ (readTimestamp_canonicalTimestamp t.2)]
  exact dif_pos t.2

theorem readNullable_of_ne {α : Type} {read : Value → Except String α} {v : Value} (h : v ≠ .null) :
    readNullable read v = (read v).map some := by
  cases v with
  | null => exact absurd rfl h
  | _ => rfl

theorem reread_nullable {α : Type} {read : Value → Except String α} {dump : α → Value} (x : Option α)
    (hnull : ∀ a w, canonicalValue (dump a) = .ok w → w ≠ .null) (hread : ∀ a ∈ x, Rereads read dump a) :
    Rereads (readNullable read) (fun x => (x.map dump).getD .null) x := by
  intro w hw
  cases x with
  | none =>
    cases hw
    exact ⟨none, rfl, rfl⟩
  | some a =>
    obtain ⟨b, hb, hsame⟩ := hread a rfl w hw
    refine ⟨some b, ?_, hsame⟩
    rw [readNullable_of_ne (hnull a w hw), hb]
    rfl

theorem reread_spelled {w : Value} (h : canonicalValue (.decimal d) = .ok w) :
    ∃ d', readDec P w = .ok d' ∧ canonicalValue (.decimal d') = .ok w ∧ d'.negative = d.negative ∧
      (d'.coefficient = 0 ↔ Vanishes d) := by
  obtain ⟨n, hn, rfl⟩ := canonicalValue_decimal.mp h
  obtain ⟨hread, hsame⟩ := read_canonicalDecimal hn
  refine ⟨Library.DecimalTexts.spelled n, ?_, ?_, ?_, ?_⟩
  · rw [ExperimentSpecs.readDec, P.decimal_text _ _ hread, orInvalid]
  · rw [canonicalValue, hsame]
    rfl
  · have hnegative : (Library.DecimalTexts.spelled n).negative = n.negative := rfl
    exact hnegative.trans (Context.normalize_negative hn)
  · have hspelled : (Library.DecimalTexts.spelled n).coefficient = 0 ↔ n.coefficient = 0 := by
      simp [Library.DecimalTexts.spelled]
    rw [hspelled]
    constructor
    · intro hzero
      exact ⟨n, hn, hzero⟩
    · rintro ⟨n', hn', hzero⟩
      rw [hn, Option.some.injEq] at hn'
      rw [hn', hzero]

theorem reread_dec (d : Dec) : Rereads (readDec P) .decimal d := by
  intro w hw
  obtain ⟨d', hread, hsame, _⟩ := reread_spelled P hw
  exact ⟨d', hread, hsame⟩

theorem vanishes_of_zero (h : d.coefficient = 0) : Vanishes d := by
  obtain ⟨negative, coefficient, exponent⟩ := d
  cases h
  exact ⟨_, defaultContext.normalize_zero negative exponent, rfl⟩

theorem reread_nonneg (d : NonnegDec) : Rereads (readNonnegDec P) (fun d => .decimal d.1) d := by
  intro w hw
  obtain ⟨d', hread, hsame, hnegative, hzero⟩ := reread_spelled P hw
  have hnonneg : d'.IsNonneg := by
    cases d.2 with
    | inl h => exact .inl (hnegative.trans h)
    | inr h => exact .inr (hzero.mpr (vanishes_of_zero h))
  refine ⟨⟨d', hnonneg⟩, ?_, hsame⟩
  rw [readNonnegDec, hread]
  exact dif_pos hnonneg

theorem readPositive_iff (d : PositiveDec) {w : Value} (h : canonicalValue (.decimal d.1) = .ok w) :
    (∃ d', readPositiveDec P w = .ok d') ↔ ¬Vanishes d.1 := by
  obtain ⟨d', hread, _, hnegative, hzero⟩ := reread_spelled P h
  have hpositive : d'.IsPositive ↔ ¬Vanishes d.1 := by
    rw [Dec.IsPositive, hnegative, Ne, hzero]
    simp [d.2.1]
  rw [← hpositive, readPositiveDec, hread]
  constructor
  · rintro ⟨y, hy⟩
    by_contra hnot
    cases (dif_neg hnot).symm.trans hy
  · intro h
    exact ⟨⟨d', h⟩, dif_pos h⟩

theorem reread_positive (d : PositiveDec) (h : ¬Vanishes d.1) :
    Rereads (readPositiveDec P) (fun d => .decimal d.1) d := by
  intro w hw
  obtain ⟨d', hread, hsame, hnegative, hzero⟩ := reread_spelled P hw
  have hpositive : d'.IsPositive := ⟨hnegative.trans d.2.1, hzero.not.mpr h⟩
  refine ⟨⟨d', hpositive⟩, ?_, hsame⟩
  rw [readPositiveDec, hread]
  exact dif_pos hpositive

end Leaves

section Classes

variable (P : Pydantic)

theorem reread_fee (fee : FeeAssumption) : Rereads (readFeeAssumption P) FeeAssumption.dump fee := by
  intro w hw
  obtain ⟨items, rfl, hitems⟩ := canonicalFields (by simp) hw
  have hextra : forbidExtra items ["entry_fee_rate", "exit_fee_rate", "model_version"] = .ok () :=
    hitems.forbidExtra (List.Subset.refl _)
  obtain ⟨entry, hentry, hentry'⟩ := hitems.required "entry_fee_rate" (reread_nonneg P fee.entryFeeRate) (by simp)
  obtain ⟨exit, hexit, hexit'⟩ := hitems.required "exit_fee_rate" (reread_nonneg P fee.exitFeeRate) (by simp)
  obtain ⟨version, hversion, hversion'⟩ :=
    hitems.optional "model_version" defaultVersion (restores_nonEmptyText P fee.modelVersion).rereads (by simp)
  refine ⟨⟨entry, exit, version⟩, ?_, ?_⟩
  · simp only [readFeeAssumption, asDict, except_ok_bind, hextra, hentry, hexit, hversion]
    rfl
  · rw [← hw]
    apply canonicalValue_dict_congr
    simp [hentry', hexit', hversion']

theorem reread_slippage (slippage : SlippageAssumption) :
    Rereads (readSlippageAssumption P) SlippageAssumption.dump slippage := by
  intro w hw
  obtain ⟨items, rfl, hitems⟩ := canonicalFields (by simp) hw
  have hextra : forbidExtra items ["slippage_bps", "model_version"] = .ok () :=
    hitems.forbidExtra (List.Subset.refl _)
  obtain ⟨bps, hbps, hbps'⟩ := hitems.required "slippage_bps" (reread_nonneg P slippage.slippageBps) (by simp)
  obtain ⟨version, hversion, hversion'⟩ :=
    hitems.optional "model_version" defaultVersion (restores_nonEmptyText P slippage.modelVersion).rereads (by simp)
  refine ⟨⟨bps, version⟩, ?_, ?_⟩
  · simp only [readSlippageAssumption, asDict, except_ok_bind, hextra, hbps, hversion]
    rfl
  · rw [← hw]
    apply canonicalValue_dict_congr
    simp [hbps', hversion']

theorem reread_funding (funding : FundingAssumption) :
    Rereads (readFundingAssumption P) FundingAssumption.dump funding := by
  intro w hw
  obtain ⟨items, rfl, hitems⟩ := canonicalFields (by simp) hw
  have hextra : forbidExtra items ["enabled", "assumed_rate", "model_version"] = .ok () :=
    hitems.forbidExtra (List.Subset.refl _)
  obtain ⟨enabled, henabled, henabled'⟩ :=
    hitems.optional "enabled" false (restores_bool P funding.enabled).rereads (by simp)
  have hdec (d : Dec) (w : Value) (h : canonicalValue (.decimal d) = .ok w) : w ≠ .null := by
    obtain ⟨n, _, rfl⟩ := canonicalValue_decimal.mp h
    simp
  obtain ⟨rate, hrate, hrate'⟩ := hitems.optional "assumed_rate" none
    (reread_nullable funding.assumedRate hdec fun d _ => reread_dec P d) (by simp)
  obtain ⟨version, hversion, hversion'⟩ :=
    hitems.optional "model_version" defaultVersion (restores_nonEmptyText P funding.modelVersion).rereads (by simp)
  refine ⟨⟨enabled, rate, version⟩, ?_, ?_⟩
  · simp only [readFundingAssumption, asDict, except_ok_bind, hextra, henabled, hrate, hversion]
    rfl
  · rw [← hw]
    apply canonicalValue_dict_congr
    simp [henabled', hrate', hversion']

theorem reread_scenario (scenario : CostScenarioSpec) :
    Rereads (readCostScenarioSpec P) CostScenarioSpec.dump scenario := by
  intro w hw
  obtain ⟨items, rfl, hitems⟩ := canonicalFields (by simp) hw
  have hextra : forbidExtra items ["name", "fee_assumption", "slippage_assumption", "funding_assumption"] = .ok () :=
    hitems.forbidExtra (List.Subset.refl _)
  obtain ⟨name, hname, hname'⟩ := hitems.required "name" (restores_nonEmptyText P scenario.name).rereads (by simp)
  obtain ⟨fee, hfee, hfee'⟩ := hitems.required "fee_assumption" (reread_fee P scenario.feeAssumption) (by simp)
  obtain ⟨slippage, hslippage, hslippage'⟩ :=
    hitems.required "slippage_assumption" (reread_slippage P scenario.slippageAssumption) (by simp)
  obtain ⟨funding, hfunding, hfunding'⟩ :=
    hitems.required "funding_assumption" (reread_funding P scenario.fundingAssumption) (by simp)
  refine ⟨⟨name, fee, slippage, funding⟩, ?_, ?_⟩
  · simp only [readCostScenarioSpec, asDict, except_ok_bind, hextra, hname, hfee, hslippage, hfunding]
    rfl
  · rw [← hw]
    apply canonicalValue_dict_congr
    simp [hname', hfee', hslippage', hfunding']

theorem reread_manifest (ref : DatasetManifestRef) :
    Rereads (readDatasetManifestRef P) DatasetManifestRef.dump ref := by
  intro w hw
  obtain ⟨items, rfl, hitems⟩ := canonicalFields (by simp) hw
  have hextra : forbidExtra items ["dataset_id", "content_hash", "manifest_path"] = .ok () :=
    hitems.forbidExtra (List.Subset.refl _)
  obtain ⟨datasetId, hid, hid'⟩ := hitems.required "dataset_id" (restores_nonEmptyText P ref.datasetId).rereads (by simp)
  have hhash := hitems.required_restored "content_hash" (restores_text P ref.contentHash.1) (by simp)
  have hcontent : ensure IsHash "String should match pattern '^[0-9a-f]\x7b64\x7d$'" ref.contentHash.1 =
      .ok ref.contentHash := dif_pos ref.contentHash.2
  have htext (s : String) (w : Value) (h : canonicalValue (.text s) = .ok w) : w ≠ .null := by
    cases h
    simp
  obtain ⟨path, hpath, hpath'⟩ := hitems.optional "manifest_path" none
    (reread_nullable ref.manifestPath htext fun s _ => (restores_text P s).rereads) (by simp)
  refine ⟨⟨datasetId, ref.contentHash, path⟩, ?_, ?_⟩
  · simp only [readDatasetManifestRef, asDict, except_ok_bind, hextra, hid, hhash, hcontent, hpath]
    rfl
  · rw [← hw]
    apply canonicalValue_dict_congr
    simp [hid', hpath']

theorem restores_range (range : TimeRange) : Restores (readTimeRange P) TimeRange.dump range := by
  intro w hw
  obtain ⟨items, rfl, hitems⟩ := canonicalFields (by simp) hw
  have hextra : forbidExtra items ["start", "end"] = .ok () := hitems.forbidExtra (List.Subset.refl _)
  have hstart := hitems.required_restored "start" (restores_instant P range.start) (by simp)
  have hend := hitems.required_restored "end" (restores_instant P range.finish) (by simp)
  simp only [readTimeRange, asDict, except_ok_bind, hextra, hstart, hend]
  exact dif_pos range.endAfterStart

def Lasting (pin : SymbolConstraintPin) : Prop :=
  ¬Vanishes pin.quantityStep.1 ∧ ¬Vanishes pin.minimumQuantity.1 ∧ ¬Vanishes pin.priceTickSize.1

instance (pin : SymbolConstraintPin) : Decidable (Lasting pin) := inferInstanceAs (Decidable (_ ∧ _ ∧ _))

theorem reread_pin (pin : SymbolConstraintPin) (h : Lasting pin) :
    Rereads (readSymbolConstraintPin P) SymbolConstraintPin.dump pin := by
  intro w hw
  obtain ⟨items, rfl, hitems⟩ := canonicalFields (by simp) hw
  have hextra : forbidExtra items ["quantity_step", "minimum_quantity", "minimum_notional", "price_tick_size"] =
      .ok () := hitems.forbidExtra (List.Subset.refl _)
  obtain ⟨step, hstep, hstep'⟩ :=
    hitems.required "quantity_step" (reread_positive P pin.quantityStep h.1) (by simp)
  obtain ⟨quantity, hquantity, hquantity'⟩ :=
    hitems.required "minimum_quantity" (reread_positive P pin.minimumQuantity h.2.1) (by simp)
  obtain ⟨notional, hnotional, hnotional'⟩ :=
    hitems.required "minimum_notional" (reread_nonneg P pin.minimumNotional) (by simp)
  obtain ⟨tick, htick, htick'⟩ := hitems.required "price_tick_size" (reread_positive P pin.priceTickSize h.2.2) (by simp)
  refine ⟨⟨step, quantity, notional, tick⟩, ?_, ?_⟩
  · simp only [readSymbolConstraintPin, asDict, except_ok_bind, hextra, hstep, hquantity, hnotional, htick]
    rfl
  · rw [← hw]
    apply canonicalValue_dict_congr
    simp [hstep', hquantity', hnotional', htick']

end Classes

end TradingBot.Research.SpecForms
