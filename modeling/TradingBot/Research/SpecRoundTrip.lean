import TradingBot.Research.SpecForms

namespace TradingBot.Research.SpecRoundTrip

open Library.DecimalNumbers Library.Outcome Market.Models Market.CanonicalTexts
open Research.SpecValues Research.ExperimentSpecs Research.SpecForms

section Validated

variable {P : Pydantic}

structure Validated (entries : Entries) (s : ExperimentSpec P) : Prop where
  extra : forbidExtra entries specFields = .ok ()
  schema : ∃ v, optional entries "schema_version" ⟨schemaVersion, rfl⟩ (readSchemaVersion P) = .ok v
  hypothesis : required entries "hypothesis" (readNonEmptyText P) = .ok s.hypothesis
  strategyVersion : required entries "strategy_version" (readNonEmptyText P) = .ok s.strategyVersion
  parameters : ∃ raw, optional entries "parameters" [] asDict = .ok raw ∧ bindEffectiveParameters P raw = .ok s.parameters
  datasetManifestRef : required entries "dataset_manifest_ref" (readDatasetManifestRef P) = .ok s.datasetManifestRef
  symbols : required entries "symbols" (readSymbols P) = .ok s.symbols
  timeRange : required entries "time_range" (readTimeRange P) = .ok s.timeRange
  startingCapital : required entries "starting_capital" (readPositiveDec P) = .ok s.startingCapital
  feeAssumption : required entries "fee_assumption" (readFeeAssumption P) = .ok s.feeAssumption
  slippageAssumption : required entries "slippage_assumption" (readSlippageAssumption P) = .ok s.slippageAssumption
  fundingAssumption : required entries "funding_assumption" (readFundingAssumption P) = .ok s.fundingAssumption
  symbolConstraints : ∃ raw, required entries "symbol_constraints" asDict = .ok raw ∧
    checkCover s.symbols.1 raw = .ok () ∧ readPins P raw s.symbols.1 = .ok s.symbolConstraints
  costScenarios : optional entries "cost_scenarios" [] (readTuple P (readCostScenarioSpec P)) = .ok s.costScenarios
  benchmark : required entries "benchmark" (readNonEmptyText P) = .ok s.benchmark
  randomSeed : optional entries "random_seed" none (readNullable fun v => orInvalid (P.int v)) = .ok s.randomSeed
  expectedArtifacts : optional entries "expected_artifacts" [] (readTuple P (readText P)) = .ok s.expectedArtifacts
  notes : optional entries "notes" "" (readText P) = .ok s.notes
  owner : required entries "owner" (readNonEmptyText P) = .ok s.owner

theorem modelValidate_eq_ok {entries : Entries} {s : ExperimentSpec P} :
    modelValidate P (.dict entries) = .ok s ↔ Validated entries s := by
  constructor
  · intro h
    obtain ⟨_, hentries, h⟩ := except_bind_eq_ok.mp h
    cases hentries
    obtain ⟨_, hextra, h⟩ := except_bind_eq_ok.mp h
    obtain ⟨version, hschema, h⟩ := except_bind_eq_ok.mp h
    obtain ⟨_, hhypothesis, h⟩ := except_bind_eq_ok.mp h
    obtain ⟨_, hversion, h⟩ := except_bind_eq_ok.mp h
    obtain ⟨rawParameters, hraw, h⟩ := except_bind_eq_ok.mp h
    obtain ⟨_, hmanifest, h⟩ := except_bind_eq_ok.mp h
    obtain ⟨_, hsymbols, h⟩ := except_bind_eq_ok.mp h
    obtain ⟨_, hrange, h⟩ := except_bind_eq_ok.mp h
    obtain ⟨_, hcapital, h⟩ := except_bind_eq_ok.mp h
    obtain ⟨_, hfee, h⟩ := except_bind_eq_ok.mp h
    obtain ⟨_, hslippage, h⟩ := except_bind_eq_ok.mp h
    obtain ⟨_, hfunding, h⟩ := except_bind_eq_ok.mp h
    obtain ⟨rawConstraints, hconstraints, h⟩ := except_bind_eq_ok.mp h
    obtain ⟨_, hscenarios, h⟩ := except_bind_eq_ok.mp h
    obtain ⟨_, hbenchmark, h⟩ := except_bind_eq_ok.mp h
    obtain ⟨_, hseed, h⟩ := except_bind_eq_ok.mp h
    obtain ⟨_, hartifacts, h⟩ := except_bind_eq_ok.mp h
    obtain ⟨_, hnotes, h⟩ := except_bind_eq_ok.mp h
    obtain ⟨_, howner, h⟩ := except_bind_eq_ok.mp h
    obtain ⟨_, hcover, h⟩ := except_bind_eq_ok.mp h
    obtain ⟨_, hpins, h⟩ := except_bind_eq_ok.mp h
    obtain ⟨_, hbound, h⟩ := except_bind_eq_ok.mp h
    cases h
    exact ⟨hextra, ⟨version, hschema⟩, hhypothesis, hversion, ⟨rawParameters, hraw, hbound⟩, hmanifest, hsymbols, hrange,
      hcapital, hfee, hslippage, hfunding, ⟨rawConstraints, hconstraints, hcover, hpins⟩, hscenarios, hbenchmark,
      hseed, hartifacts, hnotes, howner⟩
  · intro h
    obtain ⟨_, hschema⟩ := h.schema
    obtain ⟨_, hraw, hbound⟩ := h.parameters
    obtain ⟨_, hconstraints, hcover, hpins⟩ := h.symbolConstraints
    simp only [modelValidate, asDict, except_ok_bind, h.extra, hschema, h.hypothesis, h.strategyVersion, hraw,
      h.datasetManifestRef, h.symbols, h.timeRange, h.startingCapital, h.feeAssumption, h.slippageAssumption,
      h.fundingAssumption, hconstraints, h.costScenarios, h.benchmark, h.randomSeed, h.expectedArtifacts, h.notes,
      h.owner, hcover, hpins, hbound]
    rfl

end Validated

section Lists

variable (P : Pydantic)

theorem mapM_rereads {α : Type} {read : Value → Except String α} {dump : α → Value} {xs : List α}
    (h : ∀ x ∈ xs, Rereads read dump x) {ws : List Value} (hws : (xs.map dump).mapM canonicalValue = .ok ws) :
    ∃ ys, ws.mapM read = .ok ys ∧ (ys.map dump).mapM canonicalValue = .ok ws := by
  induction xs generalizing ws with
  | nil =>
    cases hws
    exact ⟨[], rfl, rfl⟩
  | cons x xs ih =>
    rw [List.map_cons, List.mapM_cons, except_bind_eq_ok] at hws
    obtain ⟨w, hw, hws⟩ := hws
    obtain ⟨ws', hws', hws⟩ := except_bind_eq_ok.mp hws
    cases hws
    obtain ⟨y, hy, hy'⟩ := h x List.mem_cons_self w hw
    obtain ⟨ys, hys, hys'⟩ := ih (fun x hx => h x (List.mem_cons_of_mem _ hx)) hws'
    refine ⟨y :: ys, ?_, ?_⟩
    · rw [List.mapM_cons, hy, except_ok_bind, hys]
      rfl
    · rw [List.map_cons, List.mapM_cons, hy', except_ok_bind, hys']
      rfl

theorem reread_tuple {α : Type} {read : Value → Except String α} {dump : α → Value} {xs : List α}
    (h : ∀ x ∈ xs, Rereads read dump x) : Rereads (readTuple P read) (fun xs => .tuple (xs.map dump)) xs := by
  intro w hw
  obtain ⟨ws, hws, rfl⟩ := except_map_eq_ok.mp (canonicalValue_tuple.symm.trans hw)
  obtain ⟨ys, hys, hys'⟩ := mapM_rereads h hws
  refine ⟨ys, ?_, ?_⟩
  · rw [readTuple, P.items_list, orInvalid, except_ok_bind, hys]
  · rw [canonicalValue_tuple, hys']
    rfl

theorem restores_symbols (symbols : SymbolTuple) :
    Restores (readSymbols P) (fun symbols => .tuple (symbols.1.map fun symbol => .text symbol.value)) symbols := by
  intro w hw
  obtain ⟨ws, hws, rfl⟩ := except_map_eq_ok.mp (canonicalValue_tuple.symm.trans hw)
  have htexts : (symbols.1.map fun symbol => Value.text symbol.value).mapM canonicalValue =
      .ok ((symbols.1.map fun symbol => Value.text symbol.value).map id) := by
    apply mapM_ok
    intro v hv
    obtain ⟨symbol, _, rfl⟩ := List.mem_map.mp hv
    rfl
  rw [htexts, List.map_id, Except.ok.injEq] at hws
  have hread : ws.mapM readSymbol = .ok symbols.1 := by
    rw [← hws, List.mapM_map]
    have hall : symbols.1.mapM (readSymbol ∘ fun symbol => Value.text symbol.value) = .ok (symbols.1.map id) := by
      apply mapM_ok
      intro symbol _
      cases symbol <;> rfl
    rw [hall, List.map_id]
  rw [readSymbols, P.items_list, orInvalid, except_ok_bind, hread, except_ok_bind, ensure, dif_pos]
  · exact congrArg Except.ok (Subtype.ext symbols.2.2)
  · rw [symbols.2.2]
    exact symbols.2

end Lists

section Pins

variable (P : Pydantic) {items : Entries}

theorem checkCover_of_keys {symbols : List Symbol}
    (h : ∀ key, key ∈ items.map Prod.fst ↔ key ∈ symbols.map Symbol.value) : checkCover symbols items = .ok () := by
  have hmissing : (symbols.map Symbol.value).filter (· ∉ items.map Prod.fst) = [] := by
    rw [List.filter_eq_nil_iff]
    intro key hkey
    simpa using (h key).mpr hkey
  have hextra : (items.map Prod.fst).filter (· ∉ symbols.map Symbol.value) = [] := by
    rw [List.filter_eq_nil_iff]
    intro key hkey
    simpa using (h key).mp hkey
  rw [checkCover, hmissing, hextra]
  exact if_pos ⟨rfl, rfl⟩

theorem readPins_mem {symbols : List Symbol}
    {pins : {pins : List (Symbol × SymbolConstraintPin) // pins.map Prod.fst = symbols}}
    (h : readPins P items symbols = .ok pins) :
    ∀ symbol ∈ symbols, ∃ pin, required items symbol.value (readSymbolConstraintPin P) = .ok pin := by
  induction symbols with
  | nil => simp
  | cons symbol symbols ih =>
    rw [readPins, except_bind_eq_ok] at h
    obtain ⟨pin, hpin, h⟩ := h
    obtain ⟨rest, hrest, _⟩ := except_bind_eq_ok.mp h
    intro other hother
    cases List.mem_cons.mp hother with
    | inl heq => exact ⟨pin, heq ▸ hpin⟩
    | inr hmem => exact ih hrest other hmem

theorem readPins_same {pins : List (Symbol × SymbolConstraintPin)} {symbols : List Symbol}
    (hsymbols : pins.map Prod.fst = symbols)
    (h : ∀ pin ∈ pins, ∃ y, required items pin.1.value (readSymbolConstraintPin P) = .ok y ∧
      canonicalValue y.dump = canonicalValue pin.2.dump) :
    ∃ pins', readPins P items symbols = .ok pins' ∧
      List.Forall₂ (fun a b => a.1 = b.1 ∧ canonicalValue a.2.dump = canonicalValue b.2.dump) pins'.1 pins := by
  induction pins generalizing symbols with
  | nil =>
    cases hsymbols
    exact ⟨⟨[], rfl⟩, rfl, .nil⟩
  | cons pin pins ih =>
    cases symbols with
    | nil => cases hsymbols
    | cons symbol rest =>
      obtain ⟨rfl, rfl⟩ := List.cons.inj hsymbols
      obtain ⟨y, hy, hsame⟩ := h pin List.mem_cons_self
      obtain ⟨pins', hpins', hall⟩ := ih rfl fun pin hpin => h pin (List.mem_cons_of_mem _ hpin)
      refine ⟨⟨(pin.1, y) :: pins'.1, by rw [List.map_cons, pins'.2]⟩, ?_, .cons ⟨rfl, hsame⟩ hall⟩
      rw [readPins, hy, except_ok_bind, hpins', except_ok_bind]
      rfl

end Pins

section Parameters

variable {P : Pydantic} {items : Entries}

theorem readAll_eq_ok {ι α : Type} [Inhabited α] {fields : List ι} {read : ι → Except String α} {f : ι → α}
    (h : ∀ field, read field = .ok (f field)) : readAll fields read = .ok f := by
  have hloop : (forM fields fun field => (read field).map fun _ => ()) = (.ok () : Except String Unit) := by
    induction fields with
    | nil => rfl
    | cons field fields ih =>
      rw [List.forM_cons, h, Except.map, except_ok_bind, ih]
  rw [readAll, hloop, except_ok_bind]
  apply congrArg Except.ok
  funext field
  rw [h]
  rfl

theorem readWhole_value (w : Whole P) : readWhole w.value = .ok w := by
  unfold readWhole
  split
  · rename_i hnone
    rw [w.reads] at hnone
    cases hnone
  · rename_i n hread
    obtain rfl : w.number = n := Option.some.inj (w.reads.symm.trans hread)
    exact dif_pos w.equals

theorem readWhole_text {t : String} {w : Whole P} (h : readWhole (.text t) = .ok w) : ∃ n, w.value = .int n := by
  unfold readWhole at h
  split at h
  · cases h
  · rename_i n _
    cases (dif_neg (by simp [equalsInt])).symm.trans h
    exact ⟨n, rfl⟩

structure StoredParameters (p : EffectiveParameters P) (items : Entries) : Prop where
  keys : items.map Prod.fst ⊆ "strategy_id" :: parameterNames
  ints : ∀ field, get? items field.name = some (p.ints field).value
  decimals : ∀ field, get? items field.name = some (.text (decimalText (p.decimals field)))
  strategyId : get? items "strategy_id" = p.strategyId

theorem StoredParameters.unchanged {p : EffectiveParameters P} (h : StoredParameters p items) :
    unchanged P items = true := by
  have hversion : get? items "strategy_version" = none := by
    rw [get?_eq_none_iff]
    intro hmem
    exact absurd (h.keys hmem) (by decide)
  simp only [ExperimentSpecs.unchanged, hversion, Option.isNone_none, Bool.true_and, Bool.and_eq_true, List.all_eq_true]
  constructor
  · intro field _
    simp [sameInt, h.ints, (p.ints field).reads, (p.ints field).equals]
  · intro field _
    simp [sameDecimal, h.decimals, P.decimal_text _ _ (readDecimal_decimalText (p.decimals field))]

theorem StoredParameters.bind {p : EffectiveParameters P} (h : StoredParameters p items) :
    bindEffectiveParameters P items = .ok p := by
  have hversion : get? items "strategy_version" = none := by
    rw [get?_eq_none_iff]
    intro hmem
    exact absurd (h.keys hmem) (by decide)
  have hextra : forbidExtra items ("strategy_version" :: "strategy_id" :: parameterNames) = .ok () := by
    have hnone : (items.find? fun e => e.1 ∉ "strategy_version" :: "strategy_id" :: parameterNames) = none := by
      rw [List.find?_eq_none]
      intro e he
      have hmem : e.1 ∈ "strategy_version" :: "strategy_id" :: parameterNames :=
        List.mem_cons_of_mem _ (h.keys (List.mem_map_of_mem he))
      simpa only [decide_not, Bool.not_eq_true', decide_eq_false_iff_not, not_not] using hmem
    rw [forbidExtra, hnone]
  have hints : readAll IntParameter.all (fun field =>
      optional items field.name (Whole.ofInt field.default) readWhole) = .ok p.ints := by
    apply readAll_eq_ok
    intro field
    rw [ExperimentSpecs.optional, h.ints]
    exact readWhole_value (p.ints field)
  have hdecimals : readAll DecimalParameter.all (fun field =>
      optional items field.name field.default (readDec P)) = .ok p.decimals := by
    apply readAll_eq_ok
    intro field
    rw [ExperimentSpecs.optional, h.decimals]
    exact congrArg orInvalid (P.decimal_text _ _ (readDecimal_decimalText (p.decimals field)))
  have hnoVersion : optional items "strategy_version" "" (readText P) = .ok "" := by
    rw [ExperimentSpecs.optional, hversion]
  rw [bindEffectiveParameters, hextra, except_ok_bind, hnoVersion, except_ok_bind, hints, except_ok_bind, hdecimals,
    except_ok_bind, h.unchanged, h.strategyId]
  rfl

theorem readAll_mem {ι α : Type} [Inhabited α] {fields : List ι} {read : ι → Except String α} {f : ι → α}
    (h : readAll fields read = .ok f) {field : ι} (hmem : field ∈ fields) : read field = .ok (f field) := by
  obtain ⟨_, hloop, hf⟩ := except_bind_eq_ok.mp h
  cases hf
  have hok : ∃ a, read field = .ok a := by
    clear h
    induction fields with
    | nil => exact absurd hmem List.not_mem_nil
    | cons first fields ih =>
      rw [List.forM_cons, except_bind_eq_ok] at hloop
      obtain ⟨_, hfirst, hloop⟩ := hloop
      cases List.mem_cons.mp hmem with
      | inl heq =>
        obtain ⟨a, ha, _⟩ := except_map_eq_ok.mp hfirst
        exact ⟨a, heq ▸ ha⟩
      | inr hmem => exact ih hmem hloop
  obtain ⟨a, ha⟩ := hok
  change read field = .ok ((read field).toOption.getD default)
  rw [ha]
  rfl

theorem bind_text {p : EffectiveParameters P} (h : bindEffectiveParameters P items = .ok p) {field : IntParameter}
    {t : String} (hget : get? items field.name = some (.text t)) : ∃ n, (p.ints field).value = .int n := by
  obtain ⟨_, _, h⟩ := except_bind_eq_ok.mp h
  obtain ⟨_, _, h⟩ := except_bind_eq_ok.mp h
  obtain ⟨ints, hints, h⟩ := except_bind_eq_ok.mp h
  obtain ⟨_, _, h⟩ := except_bind_eq_ok.mp h
  cases h
  by_cases hsame : unchanged P items = true
  · have hread := readAll_mem hints (IntParameter.mem_all field)
    rw [ExperimentSpecs.optional, hget] at hread
    rw [if_pos hsame]
    exact readWhole_text hread
  · rw [if_neg hsame]
    exact ⟨_, rfl⟩

def JsonNumber (w : Whole P) : Prop := isJson (fun _ => true) w.value = true

instance (w : Whole P) : Decidable (JsonNumber w) := inferInstanceAs (Decidable (_ = true))

theorem JsonNumber.canonical {w : Whole P} (h : JsonNumber w) : canonicalValue w.value = .ok w.value := by
  obtain ⟨value, number, reads, equals⟩ := w
  cases value with
  | int | bool | float => rfl
  | null | text | datetime | list | tuple | dict | other => cases equals
  | decimal => cases h

theorem jsonNumber_or_decimal (w : Whole P) (h : Passes (fun _ => true) w.value) :
    JsonNumber w ∨ ∃ d, w.value = .decimal d := by
  obtain ⟨value, number, reads, equals⟩ := w
  cases value with
  | int n => exact .inl (decide_eq_true (passes_int.mp h))
  | bool | float => exact .inl rfl
  | null | text | datetime | list | tuple | dict | other => cases equals
  | decimal d => exact .inr ⟨d, rfl⟩

theorem entries_keys (p : EffectiveParameters P) :
    p.entries.map Prod.fst = parameterNames ++ p.strategyId.toList.map fun _ => "strategy_id" := by
  simp [EffectiveParameters.entries, parameterNames, Function.comp_def]

theorem entries_nodup (p : EffectiveParameters P) : (p.entries.map Prod.fst).Nodup := by
  rw [entries_keys]
  cases p.strategyId <;> simp only [Option.toList, List.map_nil, List.map_cons] <;> decide

theorem ints_mem (p : EffectiveParameters P) (field : IntParameter) : (field.name, (p.ints field).value) ∈ p.entries :=
  List.mem_append_left _ (List.mem_append_left _ (List.mem_map.mpr ⟨field, IntParameter.mem_all field, rfl⟩))

theorem decimals_mem (p : EffectiveParameters P) (field : DecimalParameter) :
    (field.name, .text (decimalText (p.decimals field))) ∈ p.entries :=
  List.mem_append_left _ (List.mem_append_right _ (List.mem_map.mpr ⟨field, DecimalParameter.mem_all field, rfl⟩))

theorem storedParameters {p : EffectiveParameters P} {items : Entries} (hitems : CanonicalFields p.entries items)
    (h : ∀ field, JsonNumber (p.ints field)) :
    ∃ strategyId, StoredParameters ⟨p.ints, p.decimals, strategyId⟩ items ∧
      Option.Rel (fun v w => canonicalValue v = .ok w) p.strategyId strategyId := by
  have hkeys : ∀ key, key ∈ items.map Prod.fst ↔
      key ∈ parameterNames ++ p.strategyId.toList.map fun _ => "strategy_id" := by
    intro key
    rw [hitems.keys, entries_keys]
  refine ⟨get? items "strategy_id", ⟨?_, ?_, ?_, rfl⟩, ?_⟩
  · intro key hkey
    cases List.mem_append.mp ((hkeys key).mp hkey) with
    | inl hname => exact List.mem_cons_of_mem _ hname
    | inr hid =>
      obtain ⟨_, _, rfl⟩ := List.mem_map.mp hid
      exact List.mem_cons_self
  · intro field
    obtain ⟨v, hv, hget⟩ := hitems.fields _ (ints_mem p field)
    cases ((h field).canonical.symm.trans hv)
    exact hget
  · intro field
    obtain ⟨v, hv, hget⟩ := hitems.fields _ (decimals_mem p field)
    cases hv
    exact hget
  · cases hid : p.strategyId with
    | none =>
      have hnone : get? items "strategy_id" = none := by
        rw [get?_eq_none_iff, hkeys, hid]
        decide
      rw [hnone]
      exact .none
    | some v =>
      have hmem : ("strategy_id", v) ∈ p.entries := by
        simp [EffectiveParameters.entries, hid]
      obtain ⟨w, hw, hget⟩ := hitems.fields _ hmem
      rw [hget]
      exact .some hw

theorem JsonNumber.passes {admitted : String → Bool} {w : Whole P} (h : JsonNumber w) : Passes admitted w.value := by
  refine ⟨w.value, h.canonical, ?_⟩
  obtain ⟨value, number, reads, equals⟩ := w
  cases value with
  | int | bool | float => exact h
  | null | text | datetime | list | tuple | dict | other => cases equals
  | decimal => cases h

theorem reread_parameters {p : EffectiveParameters P} (h : ∀ field, JsonNumber (p.ints field)) {w : Value}
    (hw : canonicalValue (.dict p.entries) = .ok w) :
    ∃ raw p', w = .dict raw ∧ bindEffectiveParameters P raw = .ok p' ∧
      canonicalValue (.dict p'.entries) = canonicalValue (.dict p.entries) := by
  obtain ⟨raw, rfl, hraw⟩ := canonicalFields (entries_nodup p) hw
  obtain ⟨strategyId, hstored, hid⟩ := storedParameters hraw h
  obtain ⟨ints, decimals, givenId⟩ := p
  refine ⟨raw, _, rfl, hstored.bind, ?_⟩
  apply canonicalValue_dict_congr
  have hsame : List.Forall₂ (fun e e' : String × Value => e.1 = e'.1 ∧ canonicalValue e.2 = canonicalValue e'.2)
      (strategyId.toList.map fun v => ("strategy_id", v)) (givenId.toList.map fun v => ("strategy_id", v)) := by
    cases hid with
    | none => exact .nil
    | some hv => exact .cons ⟨rfl, (canonicalValue_fixed hv).trans hv.symm⟩ .nil
  exact List.rel_append (List.forall₂_same.mpr fun e _ => ⟨rfl, rfl⟩) hsame

end Parameters

section RoundTrip

variable {P : Pydantic} {s : ExperimentSpec P}

def RoundTrips (sha256 : Value → String) (s : ExperimentSpec P) : Prop :=
  ∃ content loaded canonical id, saveExperimentSpec s = .ok content ∧ loadExperimentSpec P content = .ok loaded ∧
    toCanonicalDict s = .ok canonical ∧ toCanonicalDict loaded = .ok canonical ∧
      computeExperimentId sha256 s = .ok id ∧ computeExperimentId sha256 loaded = .ok id

/-- No cost overflows and none that must be positive vanishes on normalization, the integers are JSON numbers, and the
id of the strategy has a canonical form without secrets. -/
structure Savable (s : ExperimentSpec P) : Prop where
  inRange : ∀ d ∈ ExperimentSpec.costs s, InRange d
  capital : ¬Vanishes s.startingCapital.1
  pins : ∀ pin ∈ s.symbolConstraints.1, Lasting pin.2
  ints : ∀ field, JsonNumber (s.parameters.ints field)
  strategyId : ∀ v ∈ s.parameters.strategyId, Passes harmless v
  seed : ∀ n ∈ s.randomSeed, Writable n

theorem savable_iff : Savable s ↔ (∀ d ∈ ExperimentSpec.costs s, InRange d) ∧ ¬Vanishes s.startingCapital.1 ∧
    (∀ pin ∈ s.symbolConstraints.1, Lasting pin.2) ∧ (∀ field ∈ IntParameter.all, JsonNumber (s.parameters.ints field)) ∧
    (∀ v ∈ s.parameters.strategyId, Passes harmless v) ∧ ∀ n ∈ s.randomSeed, Writable n := by
  constructor
  · rintro ⟨hrange, hcapital, hpins, hints, hid, hseed⟩
    exact ⟨hrange, hcapital, hpins, fun field _ => hints field, hid, hseed⟩
  · rintro ⟨hrange, hcapital, hpins, hints, hid, hseed⟩
    exact ⟨hrange, hcapital, hpins, fun field => hints field (by cases field <;> decide), hid, hseed⟩

instance : Decidable (Savable s) := decidable_of_iff _ savable_iff.symm

theorem restores_schemaVersion (P : Pydantic) :
    Restores (readSchemaVersion P) (fun v => .text v.1) ⟨schemaVersion, rfl⟩ := by
  intro w hw
  cases hw
  rw [readSchemaVersion, readText, P.text_text, orInvalid, except_ok_bind]
  exact dif_pos rfl

theorem modelDump_nodup (s : ExperimentSpec P) : (s.modelDump.map Prod.fst).Nodup := by
  have hnodup : specFields.Nodup := by decide
  exact hnodup

theorem pins_nodup (s : ExperimentSpec P) :
    ((s.symbolConstraints.1.map fun pin => (pin.1.value, pin.2.dump)).map Prod.fst).Nodup := by
  rw [values_of_pins]
  exact symbolValues_nodup s.symbols

theorem modelValidate_canonical (h : Savable s) {items : Entries} (hitems : CanonicalFields s.modelDump items) :
    ∃ loaded, modelValidate P (.dict items) = .ok loaded ∧
      canonicalValue (.dict loaded.modelDump) = canonicalValue (.dict s.modelDump) := by
  have hextra : forbidExtra items specFields = .ok () := hitems.forbidExtra (List.Subset.refl _)
  unfold ExperimentSpec.modelDump at hitems
  obtain ⟨schema, hschema, _⟩ :=
    hitems.optional "schema_version" ⟨schemaVersion, rfl⟩ (restores_schemaVersion P).rereads (by simp)
  have hhypothesis := hitems.required_restored "hypothesis" (restores_nonEmptyText P s.hypothesis) (by simp)
  have hversion := hitems.required_restored "strategy_version" (restores_nonEmptyText P s.strategyVersion) (by simp)
  obtain ⟨parameters, hparameters, hgetParameters⟩ := hitems.fields ("parameters", .dict s.parameters.entries) (by simp)
  obtain ⟨rawParameters, effective, rfl, hbound, heffective⟩ := reread_parameters h.ints hparameters
  obtain ⟨manifest, hmanifest, hmanifest'⟩ :=
    hitems.required "dataset_manifest_ref" (reread_manifest P s.datasetManifestRef) (by simp)
  have hsymbols := hitems.required_restored "symbols" (restores_symbols P s.symbols) (by simp)
  have hrange := hitems.required_restored "time_range" (restores_range P s.timeRange) (by simp)
  obtain ⟨capital, hcapital, hcapital'⟩ :=
    hitems.required "starting_capital" (reread_positive P s.startingCapital h.capital) (by simp)
  obtain ⟨fee, hfee, hfee'⟩ := hitems.required "fee_assumption" (reread_fee P s.feeAssumption) (by simp)
  obtain ⟨slippage, hslippage, hslippage'⟩ :=
    hitems.required "slippage_assumption" (reread_slippage P s.slippageAssumption) (by simp)
  obtain ⟨funding, hfunding, hfunding'⟩ :=
    hitems.required "funding_assumption" (reread_funding P s.fundingAssumption) (by simp)
  obtain ⟨constraints, hconstraints, hgetConstraints⟩ := hitems.fields
    ("symbol_constraints", .dict (s.symbolConstraints.1.map fun pin => (pin.1.value, pin.2.dump))) (by simp)
  obtain ⟨rawConstraints, rfl, hrawConstraints⟩ := canonicalFields (pins_nodup s) hconstraints
  have hcover : checkCover s.symbols.1 rawConstraints = .ok () := by
    apply checkCover_of_keys
    intro key
    rw [hrawConstraints.keys, values_of_pins]
  obtain ⟨pins, hpins, hpins'⟩ : ∃ pins, readPins P rawConstraints s.symbols.1 = .ok pins ∧
      List.Forall₂ (fun a b => a.1 = b.1 ∧ canonicalValue a.2.dump = canonicalValue b.2.dump) pins.1
        s.symbolConstraints.1 := by
    apply readPins_same P s.symbolConstraints.2
    intro pin hpin
    exact hrawConstraints.required pin.1.value (reread_pin P pin.2 (h.pins pin hpin)) (List.mem_map_of_mem hpin)
  obtain ⟨scenarios, hscenarios, hscenarios'⟩ := hitems.optional "cost_scenarios" []
    (reread_tuple P fun scenario (_ : scenario ∈ s.costScenarios) => reread_scenario P scenario) (by simp)
  have hbenchmark := hitems.required_restored "benchmark" (restores_nonEmptyText P s.benchmark) (by simp)
  have hint (n : ℤ) (w : Value) (h : canonicalValue (.int n) = .ok w) : w ≠ .null := by
    cases h
    simp
  obtain ⟨seed, hseed, hseed'⟩ := hitems.optional "random_seed" none
    (reread_nullable s.randomSeed hint fun n _ => (restores_int P n).rereads) (by simp)
  obtain ⟨artifacts, hartifacts, hartifacts'⟩ := hitems.optional "expected_artifacts" []
    (reread_tuple P fun text (_ : text ∈ s.expectedArtifacts) => (restores_text P text).rereads) (by simp)
  obtain ⟨notes, hnotes, hnotes'⟩ := hitems.optional "notes" "" (restores_text P s.notes).rereads (by simp)
  have howner := hitems.required_restored "owner" (restores_nonEmptyText P s.owner) (by simp)
  have hrawParameters : optional items "parameters" [] asDict = .ok rawParameters := by
    rw [ExperimentSpecs.optional, hgetParameters]
    rfl
  have hraw : required items "symbol_constraints" asDict = .ok rawConstraints := by
    rw [ExperimentSpecs.required, hgetConstraints]
    rfl
  refine ⟨⟨s.hypothesis, s.strategyVersion, effective, manifest, s.symbols, s.timeRange, capital, fee, slippage, funding,
    pins, scenarios, s.benchmark, seed, artifacts, notes, s.owner⟩, modelValidate_eq_ok.mpr ?_, ?_⟩
  · exact ⟨hextra, ⟨_, hschema⟩, hhypothesis, hversion, ⟨_, hrawParameters, hbound⟩, hmanifest, hsymbols, hrange,
      hcapital, hfee, hslippage, hfunding, ⟨_, hraw, hcover, hpins⟩, hscenarios, hbenchmark, hseed, hartifacts, hnotes,
      howner⟩
  · have hpinDicts : canonicalValue (.dict (pins.1.map fun pin => (pin.1.value, pin.2.dump))) =
        canonicalValue (.dict (s.symbolConstraints.1.map fun pin => (pin.1.value, pin.2.dump))) := by
      apply canonicalValue_dict_congr
      rw [List.forall₂_map_left_iff, List.forall₂_map_right_iff]
      exact hpins'.imp fun a b hab => ⟨congrArg Symbol.value hab.1, hab.2⟩
    apply canonicalValue_dict_congr
    simp only [ExperimentSpec.modelDump, List.forall₂_cons, List.forall₂_nil_left_iff, heffective, hmanifest', hcapital',
      hfee', hslippage', hfunding', hpinDicts, hscenarios', hseed', hartifacts', hnotes', and_self]

theorem computeExperimentId_ok (sha256 : Value → String) {canonical : Value} (h : toCanonicalDict s = .ok canonical)
    (hjson : isJson (fun _ => true) canonical = true) : ∃ id, computeExperimentId sha256 s = .ok id := by
  have hsemantic : isJson (fun _ => true) (without nonSemanticSpecKeys canonical) = true := by
    cases canonical with
    | dict entries =>
      apply entriesJson_iff.mpr
      intro e he
      exact entriesJson_iff.mp hjson e (List.mem_of_mem_filter he)
    | _ => exact hjson
  rw [computeExperimentId, semanticSpecDict, h, Except.map, except_ok_bind, dumps, if_pos hsemantic]
  exact ⟨_, rfl⟩

theorem roundTrips_of_savable (sha256 : Value → String) (h : Savable s) : RoundTrips sha256 s := by
  obtain ⟨content, hcanonical, hharmless⟩ := (passes_spec harmless_fieldNames s).mpr
    ⟨h.inRange, fun field => (h.ints field).passes, h.strategyId, h.seed⟩
  obtain ⟨hjson, hsecrets⟩ := (isJson_harmless content "").mp hharmless
  obtain ⟨items, rfl, hitems⟩ := canonicalFields (modelDump_nodup s) hcanonical
  obtain ⟨loaded, hloaded, hsame⟩ := modelValidate_canonical h hitems
  have hcanonical' : toCanonicalDict loaded = .ok (.dict items) := hsame.trans hcanonical
  obtain ⟨id, hid⟩ := computeExperimentId_ok sha256 hcanonical hjson
  obtain ⟨id', hid'⟩ := computeExperimentId_ok sha256 hcanonical' hjson
  have hids : computeExperimentId sha256 loaded = computeExperimentId sha256 s := by
    rw [computeExperimentId, computeExperimentId, semanticSpecDict, semanticSpecDict, hcanonical']
    rw [← hcanonical]
    rfl
  refine ⟨.dict items, loaded, .dict items, id, ?_, ?_, hcanonical, hcanonical', hid, hids.trans hid⟩
  · rw [saveExperimentSpec, toCanonicalDict, hcanonical, except_ok_bind, dumps, if_pos hjson]
  · rw [loadExperimentSpec, parseExperimentSpec, assertNoSecrets, hsecrets, except_ok_bind, hloaded]

theorem not_vanishes_of_read {entries items : Entries} (hitems : CanonicalFields entries items) {key : String}
    {d y : PositiveDec} (hmem : (key, .decimal d.1) ∈ entries)
    (hread : required items key (readPositiveDec P) = .ok y) : ¬Vanishes d.1 := by
  obtain ⟨v, hv, hget⟩ := hitems.fields _ hmem
  rw [ExperimentSpecs.required, hget] at hread
  exact (readPositive_iff P d hv).mp ⟨y, hread⟩

theorem lasting_of_read {pin y : SymbolConstraintPin} {w : Value} (hw : canonicalValue pin.dump = .ok w)
    (hread : readSymbolConstraintPin P w = .ok y) : Lasting pin := by
  obtain ⟨items, rfl, hitems⟩ := canonicalFields (by simp) hw
  obtain ⟨_, hentries, h⟩ := except_bind_eq_ok.mp hread
  cases hentries
  obtain ⟨_, _, h⟩ := except_bind_eq_ok.mp h
  obtain ⟨step, hstep, h⟩ := except_bind_eq_ok.mp h
  obtain ⟨quantity, hquantity, h⟩ := except_bind_eq_ok.mp h
  obtain ⟨_, _, h⟩ := except_bind_eq_ok.mp h
  obtain ⟨tick, htick, _⟩ := except_bind_eq_ok.mp h
  exact ⟨not_vanishes_of_read hitems (by simp) hstep, not_vanishes_of_read hitems (by simp) hquantity,
    not_vanishes_of_read hitems (by simp) htick⟩

theorem canonical_ne_of_decimal {p p' : EffectiveParameters P} {raw : Entries} {field : IntParameter} {d : Dec}
    (hraw : CanonicalFields p.entries raw) (hbound : bindEffectiveParameters P raw = .ok p')
    (hfield : (p.ints field).value = .decimal d) : canonicalValue (.dict p'.entries) ≠ .ok (.dict raw) := by
  intro hsame
  obtain ⟨v, hv, hget⟩ := hraw.fields _ (ints_mem p field)
  rw [hfield] at hv
  obtain ⟨n, hn, rfl⟩ := canonicalValue_decimal.mp hv
  obtain ⟨m, hm⟩ := bind_text hbound hget
  obtain ⟨raw', heq, hraw'⟩ := canonicalFields (entries_nodup p') hsame
  cases heq
  obtain ⟨v', hv', hget'⟩ := hraw'.fields _ (ints_mem p' field)
  rw [hm] at hv'
  cases hv'
  cases hget.symm.trans hget'

theorem savable_of_roundTrips {sha256 : Value → String} (h : RoundTrips sha256 s) : Savable s := by
  obtain ⟨content, loaded, canonical, _, hsave, hload, hcanonical, hcanonical', _, _⟩ := h
  obtain ⟨_, hdict, hdumps⟩ := except_bind_eq_ok.mp hsave
  obtain rfl := Except.ok.inj (hcanonical.symm.trans hdict)
  have hjson : isJson (fun _ => true) canonical = true := by
    by_contra hnot
    cases (if_neg hnot).symm.trans hdumps
  obtain rfl : canonical = content := Except.ok.inj ((if_pos hjson).symm.trans hdumps)
  obtain ⟨hinRange, hints, _, hseed⟩ := (passes_spec (fun _ _ => rfl) s).mp ⟨canonical, hcanonical, hjson⟩
  obtain ⟨items, rfl, hitems⟩ := canonicalFields (modelDump_nodup s) hcanonical
  obtain ⟨_, hsecrets, hvalidate⟩ := except_bind_eq_ok.mp hload
  have hvalidated := modelValidate_eq_ok.mp hvalidate
  have hsecret : collectSecretKeys "" (.dict items) = [] := by
    unfold assertNoSecrets at hsecrets
    split at hsecrets
    · assumption
    · cases hsecrets
  have hharmless := (isJson_harmless _ "").mpr ⟨hjson, hsecret⟩
  obtain ⟨_, _, hid, _⟩ := (passes_spec harmless_fieldNames s).mp ⟨_, hcanonical, hharmless⟩
  obtain ⟨items', heq, hitems'⟩ := canonicalFields (modelDump_nodup loaded) hcanonical'
  cases heq
  refine ⟨hinRange, ?_, ?_, ?_, hid, hseed⟩
  · exact not_vanishes_of_read hitems (by simp [ExperimentSpec.modelDump]) hvalidated.startingCapital
  · intro pin hpin
    obtain ⟨raw, hraw, _, hpins⟩ := hvalidated.symbolConstraints
    have hsymbols : loaded.symbols = s.symbols := by
      have hread := hitems.required_restored "symbols" (restores_symbols P s.symbols) (by simp [ExperimentSpec.modelDump])
      exact Except.ok.inj (hvalidated.symbols.symm.trans hread)
    obtain ⟨v, hv, hget⟩ := hitems.fields
      ("symbol_constraints", .dict (s.symbolConstraints.1.map fun pin => (pin.1.value, pin.2.dump)))
      (by simp [ExperimentSpec.modelDump])
    obtain ⟨constraints, rfl, hconstraints⟩ := canonicalFields (pins_nodup s) hv
    rw [ExperimentSpecs.required, hget] at hraw
    cases hraw
    have hsymbol : pin.1 ∈ loaded.symbols.1 := by
      rw [hsymbols, ← s.symbolConstraints.2]
      exact List.mem_map_of_mem hpin
    obtain ⟨y, hy⟩ := readPins_mem P hpins pin.1 hsymbol
    obtain ⟨w, hw, hgetPin⟩ := hconstraints.fields _ (List.mem_map_of_mem hpin)
    rw [ExperimentSpecs.required, hgetPin] at hy
    exact lasting_of_read hw hy
  · intro field
    cases jsonNumber_or_decimal _ (hints field) with
    | inl h => exact h
    | inr h =>
      obtain ⟨d, hd⟩ := h
      obtain ⟨raw, hraw, hbound⟩ := hvalidated.parameters
      obtain ⟨v, hv, hget⟩ := hitems.fields ("parameters", .dict s.parameters.entries) (by simp [ExperimentSpec.modelDump])
      obtain ⟨v', hv', hget'⟩ :=
        hitems'.fields ("parameters", .dict loaded.parameters.entries) (by simp [ExperimentSpec.modelDump])
      obtain ⟨parameters, rfl, hparameters⟩ := canonicalFields (entries_nodup s.parameters) hv
      obtain rfl := Option.some.inj (hget.symm.trans hget')
      rw [ExperimentSpecs.optional, hget] at hraw
      cases hraw
      exact absurd hv' (canonical_ne_of_decimal hparameters hbound hd)

/-- A spec that was accepted comes back from its file exactly if it is savable. -/
theorem roundTrips_iff (sha256 : Value → String) {data : Value} {s : ExperimentSpec P}
    (_ : parseExperimentSpec P data = .ok s) : RoundTrips sha256 s ↔ Savable s :=
  ⟨savable_of_roundTrips, roundTrips_of_savable sha256⟩

/-- Values of the type itself, and numbers and instants from their texts. -/
def plainPydantic : Pydantic where
  text
    | .text s => some s
    | _ => none
  bool
    | .bool b => some b
    | _ => none
  int
    | .int n => some n
    | .float _ whole => whole
    | _ => none
  decimal
    | .text s => readDecimal s
    | .int n => some ⟨n < 0, n.natAbs, 0⟩
    | .decimal d => some d
    | _ => none
  datetime
    | .text s => (readTimestamp s).map some
    | .datetime utc => some utc
    | _ => none
  items
    | .list vs | .tuple vs => some vs
    | _ => none
  text_text _ := rfl
  bool_bool _ := rfl
  int_int _ := rfl
  decimal_text _ _ h := h
  datetime_text _ _ h := by simp [h]
  items_list _ := rfl

/-- A spec with the defaults of all optional fields. -/
def specEntries (parameters : Entries) (capital : String) : Entries :=
  [("hypothesis", .text "Trends persist"), ("strategy_version", .text "1.0"), ("parameters", .dict parameters),
    ("dataset_manifest_ref",
      .dict [("dataset_id", .text "daily"), ("content_hash", .text (String.ofList (List.replicate 64 '0')))]),
    ("symbols", .list [.text "BTC"]),
    ("time_range", .dict [("start", .datetime (some 0)), ("end", .datetime (some day))]),
    ("starting_capital", .text capital),
    ("fee_assumption", .dict [("entry_fee_rate", .text "0.001"), ("exit_fee_rate", .text "0.001")]),
    ("slippage_assumption", .dict [("slippage_bps", .text "5")]), ("funding_assumption", .dict []),
    ("symbol_constraints",
      .dict
        [("BTC", .dict
          [("quantity_step", .text "0.001"), ("minimum_quantity", .text "0.001"), ("minimum_notional", .text "10"),
            ("price_tick_size", .text "0.1")])]),
    ("benchmark", .text "buy and hold"), ("owner", .text "research")]

def specData (parameters : Entries) (capital : String) : Value := .dict (specEntries parameters capital)

theorem specData_accepted : ∃ s, parseExperimentSpec plainPydantic (specData [] "1E+1000000") = .ok s :=
  exists_of_isOk (by decide +kernel)

/-- A capital that overflows on normalization is accepted, but it is not savable; an ordinary one is. -/
theorem roundTrips_iff_overflow : (∃ s, parseExperimentSpec plainPydantic (specData [] "1E+1000000") = .ok s ∧
      (RoundTrips (fun _ => "") s ↔ Savable s)) ∧
    ∃ s, parseExperimentSpec plainPydantic (specData [] "10000") = .ok s ∧ RoundTrips (fun _ => "") s ∧ Savable s := by
  obtain ⟨s, hs⟩ := specData_accepted
  have hordinary : ((parseExperimentSpec plainPydantic (specData [] "10000")).toOption.any fun s => Savable s) = true := by
    decide +kernel
  obtain ⟨s', hparse, hsavable⟩ := exists_of_any hordinary
  rw [decide_eq_true_eq] at hsavable
  exact ⟨⟨s, hs, roundTrips_iff _ hs⟩, s', hparse, (roundTrips_iff _ hparse).mpr hsavable, hsavable⟩

theorem not_roundTrips_overflow : ∃ s, parseExperimentSpec plainPydantic (specData [] "1E+1000000") = .ok s ∧
    ∀ sha256, ¬RoundTrips sha256 s := by
  obtain ⟨s, hs⟩ := specData_accepted
  refine ⟨s, hs, ?_⟩
  intro sha256 h
  obtain ⟨_, _, hvalidate⟩ := except_bind_eq_ok.mp hs
  have hcapital := (modelValidate_eq_ok.mp hvalidate).startingCapital
  have hread : required (specEntries [] "1E+1000000") "starting_capital" (readPositiveDec plainPydantic) =
      .ok ⟨⟨false, 1, 1000000⟩, by decide⟩ := by rfl
  have hinRange := (savable_of_roundTrips h).inRange s.startingCapital.1 List.mem_cons_self
  rw [← Except.ok.inj (hread.symm.trans hcapital)] at hinRange
  exact absurd hinRange (by decide +kernel)

end RoundTrip

end TradingBot.Research.SpecRoundTrip
