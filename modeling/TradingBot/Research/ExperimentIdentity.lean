import TradingBot.Library.Grouping
import TradingBot.Market.CanonicalPayload
import TradingBot.Research.SpecRoundTrip

namespace TradingBot.Research.ExperimentIdentity

open Library.DecimalNumbers Library.Outcome Market.Models Market.CanonicalTexts
open Market.CanonicalPayload (SameValue SameRounded)
open Research.SpecValues Research.ExperimentSpecs Research.SpecForms Research.SpecRoundTrip

section Forms

variable {entries entries' items : Entries} {vs vs' : List Value} {d d' : Dec}

def SameForm (v v' : Value) : Prop := ∃ w, canonicalValue v = .ok w ∧ canonicalValue v' = .ok w

def SameCost (x y : Dec) : Prop := InRange x ∧ SameRounded x y

theorem sameForm_record (hkeys : entries.map Prod.fst = entries'.map Prod.fst)
    (hnodup : (entries.map Prod.fst).Nodup) :
    SameForm (.dict entries) (.dict entries') ↔ List.Forall₂ (fun e e' => SameForm e.2 e'.2) entries entries' := by
  have hpairs : List.Forall₂ (fun e e' : String × Value => e.1 = e'.1) entries entries' := by
    rw [← List.forall₂_eq_eq_eq, List.forall₂_map_left_iff, List.forall₂_map_right_iff] at hkeys
    exact hkeys
  constructor
  · rintro ⟨w, hw, hw'⟩
    obtain ⟨items, rfl, hitems⟩ := canonicalFields hnodup hw
    obtain ⟨items', heq, hitems'⟩ := canonicalFields (hkeys ▸ hnodup) hw'
    cases heq
    refine List.forall₂_iff_zip.mpr ⟨hpairs.length_eq, fun {e e'} hmem => ?_⟩
    obtain ⟨v, hv, hget⟩ := hitems.fields e (List.of_mem_zip hmem).1
    obtain ⟨v', hv', hget'⟩ := hitems'.fields e' (List.of_mem_zip hmem).2
    rw [(List.forall₂_iff_zip.mp hpairs).2 hmem, hget', Option.some.injEq] at hget
    exact ⟨v', hget ▸ hv, hv'⟩
  · intro hsame
    have hentry : ∀ e ∈ sortByKey entries, ∃ e', canonicalEntry e = .ok e' := by
      intro e he
      obtain ⟨_, _, w, hw, _⟩ := Library.Runs.exists_related hsame ((sortByKey_perm entries).mem_iff.mp he)
      exact ⟨(e.1, w), canonicalEntry_eq_ok.mpr ⟨rfl, hw⟩⟩
    obtain ⟨items, hitems⟩ := returns_mapM hentry
    have hcanonical : canonicalValue (.dict entries) = .ok (.dict (dictOf items)) := by
      rw [canonicalValue_dict, hitems]
      rfl
    refine ⟨_, hcanonical, (canonicalValue_dict_congr ?_).symm.trans hcanonical⟩
    refine List.forall₂_iff_zip.mpr ⟨hsame.length_eq, fun hmem => ?_⟩
    obtain ⟨w, hw, hw'⟩ := (List.forall₂_iff_zip.mp hsame).2 hmem
    exact ⟨(List.forall₂_iff_zip.mp hpairs).2 hmem, hw.trans hw'.symm⟩

theorem sameForm_tuple : SameForm (.tuple vs) (.tuple vs') ↔ List.Forall₂ SameForm vs vs' := by
  refine Iff.trans ?_ mapM_same
  simp only [SameForm, canonicalValue_tuple, except_map_eq_ok]
  constructor
  · rintro ⟨_, ⟨ws, hws, rfl⟩, ws', hws', heq⟩
    cases heq
    exact ⟨ws, hws, hws'⟩
  · rintro ⟨ws, hws, hws'⟩
    exact ⟨_, ⟨ws, hws, rfl⟩, ws, hws', rfl⟩

@[simp] theorem sameForm_decimal : SameForm (.decimal d) (.decimal d') ↔ SameCost d d' := by
  simp only [SameForm, SameCost, canonicalValue_decimal, InRange, Option.isSome_iff_exists]
  constructor
  · rintro ⟨_, ⟨n, hn, rfl⟩, n', hn', htext⟩
    have hplain := canonicalDecimal_eq_ok.mpr ⟨n, hn, rfl⟩
    have hplain' := canonicalDecimal_eq_ok.mpr ⟨n', hn', rfl⟩
    exact ⟨⟨n, hn⟩, (canonicalDecimal_eq_iff hplain hplain').mp (Value.text.inj htext)⟩
  · rintro ⟨⟨n, hn⟩, hsame⟩
    exact ⟨_, ⟨n, hn, rfl⟩, n, hsame.symm.trans hn, rfl⟩

@[simp] theorem sameForm_text {t t' : String} : SameForm (.text t) (.text t') ↔ t = t' := by
  simp [SameForm, canonicalValue, eq_comm]

@[simp] theorem sameForm_bool {b b' : Bool} : SameForm (.bool b) (.bool b') ↔ b = b' := by
  simp [SameForm, canonicalValue, eq_comm]

@[simp] theorem sameForm_instant {t t' : Instant} :
    SameForm (.datetime (some t.1)) (.datetime (some t'.1)) ↔ t = t' := by
  constructor
  · rintro ⟨_, hw, hw'⟩
    cases hw
    have hread := readTimestamp_canonicalTimestamp t'.2
    rw [Value.text.inj (Except.ok.inj hw'), readTimestamp_canonicalTimestamp t.2] at hread
    exact Subtype.ext (Option.some.inj hread)
  · rintro rfl
    exact ⟨_, rfl, rfl⟩

theorem sameForm_nullable {α : Type} {dump : α → Value} {R : α → α → Prop} (x y : Option α)
    (hnull : ∀ a, canonicalValue (dump a) ≠ .ok .null) (hdump : ∀ a b, SameForm (dump a) (dump b) ↔ R a b) :
    SameForm ((x.map dump).getD .null) ((y.map dump).getD .null) ↔ Option.Rel R x y := by
  cases x with
  | none =>
    cases y with
    | none => exact ⟨fun _ => .none, fun _ => ⟨.null, rfl, rfl⟩⟩
    | some b =>
      refine ⟨fun h => ?_, fun h => by cases h⟩
      obtain ⟨_, hw, hw'⟩ := h
      exact absurd (hw'.trans hw.symm) (hnull b)
  | some a =>
    cases y with
    | none =>
      refine ⟨fun h => ?_, fun h => by cases h⟩
      obtain ⟨_, hw, hw'⟩ := h
      exact absurd (hw.trans hw'.symm) (hnull a)
    | some b =>
      rw [Option.rel_some_some, ← hdump a b]
      rfl

end Forms

section Agreement

variable (R : Dec → Dec → Prop)

def FeeAgrees (a b : FeeAssumption) : Prop :=
  R a.entryFeeRate.1 b.entryFeeRate.1 ∧ R a.exitFeeRate.1 b.exitFeeRate.1 ∧ a.modelVersion = b.modelVersion

def SlippageAgrees (a b : SlippageAssumption) : Prop :=
  R a.slippageBps.1 b.slippageBps.1 ∧ a.modelVersion = b.modelVersion

def FundingAgrees (a b : FundingAssumption) : Prop :=
  a.enabled = b.enabled ∧ Option.Rel R a.assumedRate b.assumedRate ∧ a.modelVersion = b.modelVersion

def ScenarioAgrees (a b : CostScenarioSpec) : Prop :=
  a.name = b.name ∧ FeeAgrees R a.feeAssumption b.feeAssumption ∧
    SlippageAgrees R a.slippageAssumption b.slippageAssumption ∧
    FundingAgrees R a.fundingAssumption b.fundingAssumption

def PinAgrees (a b : SymbolConstraintPin) : Prop :=
  R a.quantityStep.1 b.quantityStep.1 ∧ R a.minimumQuantity.1 b.minimumQuantity.1 ∧
    R a.minimumNotional.1 b.minimumNotional.1 ∧ R a.priceTickSize.1 b.priceTickSize.1

variable {P : Pydantic}

structure Comparison (P : Pydantic) where
  cost : Dec → Dec → Prop
  decimal : Dec → Dec → Prop
  whole : Whole P → Whole P → Prop
  strategy : Value → Value → Prop

structure ParametersAgree (c : Comparison P) (a b : EffectiveParameters P) : Prop where
  ints : ∀ field, c.whole (a.ints field) (b.ints field)
  decimals : ∀ field, c.decimal (a.decimals field) (b.decimals field)
  strategyId : Option.Rel c.strategy a.strategyId b.strategyId

/-- The specs agree on every field but the owner and the notes. -/
structure Agree (c : Comparison P) (s s' : ExperimentSpec P) : Prop where
  hypothesis : s.hypothesis = s'.hypothesis
  strategyVersion : s.strategyVersion = s'.strategyVersion
  parameters : ParametersAgree c s.parameters s'.parameters
  datasetManifestRef : s.datasetManifestRef = s'.datasetManifestRef
  symbols : s.symbols = s'.symbols
  timeRange : s.timeRange = s'.timeRange
  startingCapital : c.cost s.startingCapital.1 s'.startingCapital.1
  feeAssumption : FeeAgrees c.cost s.feeAssumption s'.feeAssumption
  slippageAssumption : SlippageAgrees c.cost s.slippageAssumption s'.slippageAssumption
  fundingAssumption : FundingAgrees c.cost s.fundingAssumption s'.fundingAssumption
  symbolConstraints : List.Forall₂ (fun a b => PinAgrees c.cost a.2 b.2) s.symbolConstraints.1 s'.symbolConstraints.1
  costScenarios : List.Forall₂ (ScenarioAgrees c.cost) s.costScenarios s'.costScenarios
  benchmark : s.benchmark = s'.benchmark
  randomSeed : s.randomSeed = s'.randomSeed
  expectedArtifacts : s.expectedArtifacts = s'.expectedArtifacts

/-- Decimals and integers are compared as numbers, and the ids of the strategies, which may be anything, in a way of
their own. -/
def byNumber (same : Value → Value → Prop) : Comparison P :=
  ⟨SameValue, SameValue, fun a b => a.number = b.number, same⟩

/-- What a file has of them: costs are rounded, and parameters keep their spelling. -/
def asWritten : Comparison P := ⟨SameCost, (· = ·), fun a b => SameForm a.value b.value, SameForm⟩

end Agreement

section Records

theorem relOption_eq {α : Type} {x y : Option α} : Option.Rel (· = ·) x y ↔ x = y := by
  cases x <;> cases y <;> simp

theorem sameForm_fee (a b : FeeAssumption) : SameForm a.dump b.dump ↔ FeeAgrees SameCost a b := by
  refine (sameForm_record ?_ (by simp)).trans ?_
  · rfl
  · simp [FeeAgrees, Subtype.ext_iff]

theorem sameForm_slippage (a b : SlippageAssumption) : SameForm a.dump b.dump ↔ SlippageAgrees SameCost a b := by
  refine (sameForm_record ?_ (by simp)).trans ?_
  · rfl
  · simp [SlippageAgrees, Subtype.ext_iff]

theorem sameForm_funding (a b : FundingAssumption) : SameForm a.dump b.dump ↔ FundingAgrees SameCost a b := by
  have hnull (d : Dec) : canonicalValue (.decimal d) ≠ .ok .null := by
    intro h
    obtain ⟨n, _, hn⟩ := canonicalValue_decimal.mp h
    cases hn
  refine (sameForm_record ?_ (by simp)).trans ?_
  · rfl
  · simp [FundingAgrees, Subtype.ext_iff, sameForm_nullable _ _ hnull fun _ _ => sameForm_decimal]

theorem sameForm_scenario (a b : CostScenarioSpec) : SameForm a.dump b.dump ↔ ScenarioAgrees SameCost a b := by
  refine (sameForm_record ?_ (by simp)).trans ?_
  · rfl
  · simp [ScenarioAgrees, Subtype.ext_iff, sameForm_fee, sameForm_slippage, sameForm_funding]

theorem sameForm_pin (a b : SymbolConstraintPin) : SameForm a.dump b.dump ↔ PinAgrees SameCost a b := by
  refine (sameForm_record ?_ (by simp)).trans ?_
  · rfl
  · simp [PinAgrees]

theorem sameForm_manifest (a b : DatasetManifestRef) : SameForm a.dump b.dump ↔ a = b := by
  have hnull (t : String) : canonicalValue (.text t) ≠ .ok .null := by simp [canonicalValue]
  refine (sameForm_record ?_ (by simp)).trans ?_
  · rfl
  · obtain ⟨id, hash, path⟩ := a
    obtain ⟨id', hash', path'⟩ := b
    simp [Subtype.ext_iff, sameForm_nullable _ _ hnull fun _ _ => sameForm_text, relOption_eq]

theorem sameForm_range (a b : TimeRange) : SameForm a.dump b.dump ↔ a = b := by
  refine (sameForm_record ?_ (by simp)).trans ?_
  · rfl
  · obtain ⟨start, finish, _⟩ := a
    obtain ⟨start', finish', _⟩ := b
    simp

end Records

section Specs

variable {P : Pydantic} {p p' : EffectiveParameters P} {s s' : ExperimentSpec P} {entries items : Entries}

theorem strategyId_key (p : EffectiveParameters P) : "strategy_id" ∈ p.entries.map Prod.fst ↔ p.strategyId.isSome := by
  have hnames : "strategy_id" ∉ parameterNames := by decide
  rw [entries_keys, List.mem_append]
  cases p.strategyId <;> simp [hnames]

theorem decimalText_inj {d d' : Dec} : decimalText d = decimalText d' ↔ d = d' := by
  constructor
  · intro h
    have hread := readDecimal_decimalText d
    rw [h, readDecimal_decimalText] at hread
    exact (Option.some.inj hread).symm
  · rintro rfl
    rfl

theorem parametersAgree_iff {c : Comparison P} : ParametersAgree c p p' ↔
    (∀ field ∈ IntParameter.all, c.whole (p.ints field) (p'.ints field)) ∧
      (∀ field ∈ DecimalParameter.all, c.decimal (p.decimals field) (p'.decimals field)) ∧
        Option.Rel c.strategy p.strategyId p'.strategyId := by
  simp only [IntParameter.mem_all, DecimalParameter.mem_all, forall_true_left]
  exact ⟨fun h => ⟨h.1, h.2, h.3⟩, fun h => ⟨h.1, h.2.1, h.2.2⟩⟩

theorem sameForm_parameters (p p' : EffectiveParameters P) :
    SameForm (.dict p.entries) (.dict p'.entries) ↔ ParametersAgree asWritten p p' := by
  have hid : SameForm (.dict p.entries) (.dict p'.entries) → (p.strategyId.isSome ↔ p'.strategyId.isSome) := by
    rintro ⟨w, hw, hw'⟩
    obtain ⟨items, rfl, hitems⟩ := canonicalFields (entries_nodup p) hw
    obtain ⟨items', heq, hitems'⟩ := canonicalFields (entries_nodup p') hw'
    cases heq
    rw [← strategyId_key, ← strategyId_key, ← hitems.keys, ← hitems'.keys]
  have hrecord (hkeys : p.entries.map Prod.fst = p'.entries.map Prod.fst) := sameForm_record hkeys (entries_nodup p)
  rw [entries_keys, entries_keys] at hrecord
  rw [parametersAgree_iff]
  cases hp : p.strategyId with
  | none =>
    cases hp' : p'.strategyId with
    | none =>
      rw [hrecord (by rw [hp, hp'])]
      simp [EffectiveParameters.entries, IntParameter.all, DecimalParameter.all, hp, hp', asWritten, decimalText_inj,
        and_assoc]
    | some v => simpa [hp, hp'] using hid
  | some v =>
    cases hp' : p'.strategyId with
    | none => simpa [hp, hp'] using hid
    | some v' =>
      rw [hrecord (by rw [hp, hp']; rfl)]
      simp [EffectiveParameters.entries, IntParameter.all, DecimalParameter.all, hp, hp', asWritten, decimalText_inj,
        and_assoc]

theorem canonicalValue_filter (keep : String → Bool) (hnodup : (entries.map Prod.fst).Nodup)
    (h : canonicalValue (.dict entries) = .ok (.dict items)) :
    canonicalValue (.dict (entries.filter fun e => keep e.1)) = .ok (.dict (items.filter fun e => keep e.1)) := by
  obtain ⟨items', hitems, heq⟩ := except_map_eq_ok.mp (canonicalValue_dict.symm.trans h)
  have hkeys := nodup_of_canonical hitems hnodup
  rw [dictOf_of_nodup hkeys, Value.dict.injEq] at heq
  subst heq
  have htotal (a b : String × Value) : a.1 ≤ b.1 ∨ b.1 ≤ a.1 := le_total a.1 b.1
  have htrans (a b c : String × Value) (hab : a.1 ≤ b.1) (hbc : b.1 ≤ c.1) : a.1 ≤ c.1 := hab.trans hbc
  have hsort : sortByKey (entries.filter fun e => keep e.1) = (sortByKey entries).filter fun e => keep e.1 :=
    (Library.Grouping.filter_insertionSort htotal htrans entries).symm
  have hfiltered : ((sortByKey entries).filter fun e => keep e.1).mapM canonicalEntry =
      .ok (items'.filter fun e => keep e.1) := by
    apply mapM_eq_ok_iff.mpr
    apply Library.Runs.forall₂_filter (mapM_eq_ok_iff.mp hitems)
    intro e e' he
    rw [(canonicalEntry_eq_ok.mp he).1]
  rw [canonicalValue_dict, hsort, hfiltered]
  exact congrArg Except.ok (congrArg Value.dict (dictOf_of_nodup (hkeys.sublist (List.filter_sublist.map _))))

end Specs

section Identity

variable {P : Pydantic} {s s' : ExperimentSpec P} {entries items : Entries}

theorem sameForm_texts {α : Type} {text : α → String} (hinj : Function.Injective text) (l l' : List α) :
    SameForm (.tuple (l.map fun a => .text (text a))) (.tuple (l'.map fun a => .text (text a))) ↔ l = l' := by
  rw [sameForm_tuple, List.forall₂_map_left_iff, List.forall₂_map_right_iff]
  simp only [sameForm_text, hinj.eq_iff, List.forall₂_eq_eq_eq]

theorem sameForm_seed (x y : Option ℤ) :
    SameForm ((x.map Value.int).getD .null) ((y.map Value.int).getD .null) ↔ x = y := by
  have hnull (n : ℤ) : canonicalValue (.int n) ≠ .ok .null := by simp [canonicalValue]
  have hint (m n : ℤ) : SameForm (.int m) (.int n) ↔ m = n := by simp [SameForm, canonicalValue, eq_comm]
  rw [sameForm_nullable x y hnull hint, relOption_eq]

theorem sameForm_pins (hsymbols : s.symbols = s'.symbols) :
    SameForm (.dict (s.symbolConstraints.1.map fun pin => (pin.1.value, pin.2.dump)))
        (.dict (s'.symbolConstraints.1.map fun pin => (pin.1.value, pin.2.dump))) ↔
      List.Forall₂ (fun a b => PinAgrees SameCost a.2 b.2) s.symbolConstraints.1 s'.symbolConstraints.1 := by
  have hkeys : (s.symbolConstraints.1.map fun pin => (pin.1.value, pin.2.dump)).map Prod.fst =
      (s'.symbolConstraints.1.map fun pin => (pin.1.value, pin.2.dump)).map Prod.fst := by
    rw [values_of_pins, values_of_pins, hsymbols]
  rw [sameForm_record hkeys (pins_nodup s), List.forall₂_map_left_iff, List.forall₂_map_right_iff]
  simp only [sameForm_pin]

theorem sameForm_scenarios : SameForm (.tuple (s.costScenarios.map CostScenarioSpec.dump))
    (.tuple (s'.costScenarios.map CostScenarioSpec.dump)) ↔
      List.Forall₂ (ScenarioAgrees SameCost) s.costScenarios s'.costScenarios := by
  rw [sameForm_tuple, List.forall₂_map_left_iff, List.forall₂_map_right_iff]
  simp only [sameForm_scenario]

def semanticFields (s : ExperimentSpec P) : Entries := s.modelDump.filter fun e => e.1 ∉ nonSemanticSpecKeys

theorem semanticFields_eq (s : ExperimentSpec P) : semanticFields s = s.modelDump.take 16 := rfl

theorem semanticFields_keys (s : ExperimentSpec P) : (semanticFields s).map Prod.fst = specFields.take 16 := rfl

theorem semanticFields_nodup (s : ExperimentSpec P) : ((semanticFields s).map Prod.fst).Nodup :=
  (modelDump_nodup s).sublist (List.filter_sublist.map Prod.fst)

theorem sameForm_semantic : SameForm (.dict (semanticFields s)) (.dict (semanticFields s')) ↔ Agree asWritten s s' := by
  have hartifacts := sameForm_texts Function.injective_id s.expectedArtifacts s'.expectedArtifacts
  have hkeys := (semanticFields_keys s).trans (semanticFields_keys s').symm
  refine (sameForm_record hkeys (semanticFields_nodup s)).trans ?_
  rw [semanticFields_eq, semanticFields_eq]
  simp only [ExperimentSpec.modelDump, List.take_succ_cons, List.take_zero, List.forall₂_cons,
    List.forall₂_nil_left_iff, sameForm_text, sameForm_decimal, sameForm_seed, sameForm_parameters, sameForm_manifest,
    sameForm_texts Symbol.value_injective, sameForm_range, sameForm_fee, sameForm_slippage, sameForm_funding,
    sameForm_scenarios, true_and, and_true]
  constructor
  · rintro ⟨hhypothesis, hversion, hparameters, hmanifest, hsymbols, hrange, hcapital, hfee, hslippage, hfunding,
      hconstraints, hscenarios, hbenchmark, hseed, hexpected⟩
    have heq : s.symbols = s'.symbols := Subtype.ext hsymbols
    exact
      { hypothesis := Subtype.ext hhypothesis
        strategyVersion := Subtype.ext hversion
        parameters := hparameters
        datasetManifestRef := hmanifest
        symbols := heq
        timeRange := hrange
        startingCapital := hcapital
        feeAssumption := hfee
        slippageAssumption := hslippage
        fundingAssumption := hfunding
        symbolConstraints := (sameForm_pins heq).mp hconstraints
        costScenarios := hscenarios
        benchmark := Subtype.ext hbenchmark
        randomSeed := hseed
        expectedArtifacts := hartifacts.mp hexpected }
  · intro hagree
    exact ⟨congrArg Subtype.val hagree.hypothesis, congrArg Subtype.val hagree.strategyVersion, hagree.parameters,
      hagree.datasetManifestRef, congrArg Subtype.val hagree.symbols, hagree.timeRange, hagree.startingCapital,
      hagree.feeAssumption, hagree.slippageAssumption, hagree.fundingAssumption,
      (sameForm_pins hagree.symbols).mpr hagree.symbolConstraints, hagree.costScenarios,
      congrArg Subtype.val hagree.benchmark, hagree.randomSeed, hartifacts.mpr hagree.expectedArtifacts⟩

end Identity

section Ids

variable {P : Pydantic} {s s' : ExperimentSpec P} {sha256 : Value → String}
  {same : Value → Value → Prop} {id id' : String}

structure Identifiable (s : ExperimentSpec P) : Prop where
  inRange : ∀ d ∈ ExperimentSpec.costs s, InRange d
  ints : ∀ field, Passes (fun _ => true) (s.parameters.ints field).value
  strategyId : ∀ v ∈ s.parameters.strategyId, Passes (fun _ => true) v
  seed : ∀ n ∈ s.randomSeed, Writable n

theorem identifiable_iff : Identifiable s ↔ Passes (fun _ => true) (.dict s.modelDump) := by
  rw [passes_spec fun _ _ => rfl]
  exact ⟨fun h => ⟨h.inRange, h.ints, h.strategyId, h.seed⟩, fun h => ⟨h.1, h.2.1, h.2.2.1, h.2.2.2⟩⟩

/-- No two dictionaries that the ids are computed from have one digest. -/
def TellsApart (sha256 : Value → String) (s s' : ExperimentSpec P) : Prop :=
  ∀ v v', semanticSpecDict s = .ok v → semanticSpecDict s' = .ok v' → sha256 v = sha256 v' → v = v'

def Identified (sha256 : Value → String) (same : Value → Value → Prop) (s s' : ExperimentSpec P) : Prop :=
  ∃ id id', computeExperimentId sha256 s = .ok id ∧ computeExperimentId sha256 s' = .ok id' ∧
    (id = id' ↔ Agree (byNumber same) s s')

theorem computeExperimentId_content (h : computeExperimentId sha256 s = .ok id) :
    ∃ content, semanticSpecDict s = .ok content ∧ canonicalValue (.dict (semanticFields s)) = .ok content ∧
      isJson (fun _ => true) content = true ∧ "exp_" ++ sha256 content = id := by
  obtain ⟨content, hcontent, h⟩ := except_bind_eq_ok.mp h
  obtain ⟨written, hdumps, h⟩ := except_bind_eq_ok.mp h
  have hjson : isJson (fun _ => true) content = true := by
    by_contra hnot
    cases (if_neg hnot).symm.trans hdumps
  obtain rfl : content = written := Except.ok.inj ((if_pos hjson).symm.trans hdumps)
  obtain ⟨canonical, hcanonical, hwithout⟩ := except_map_eq_ok.mp hcontent
  obtain ⟨items, rfl, _⟩ := canonicalFields (modelDump_nodup s) hcanonical
  have hfilter := canonicalValue_filter (fun key => key ∉ nonSemanticSpecKeys) (modelDump_nodup s) hcanonical
  exact ⟨content, hcontent, hfilter.trans (congrArg Except.ok hwithout), hjson, Except.ok.inj h⟩

theorem identifiable_of_id (h : computeExperimentId sha256 s = .ok id) : Identifiable s := by
  obtain ⟨content, _, hfields, hjson, _⟩ := computeExperimentId_content h
  have hsemantic := (passes_record (semanticFields_nodup s)).mp ⟨content, hfields, hjson⟩
  rw [identifiable_iff, passes_record (modelDump_nodup s)]
  intro e he
  refine ⟨rfl, ?_⟩
  by_cases hkey : e.1 ∈ nonSemanticSpecKeys
  · have htexts : ∀ e ∈ s.modelDump, e.1 ∈ nonSemanticSpecKeys → ∃ t, e.2 = .text t := by
      simp [ExperimentSpec.modelDump, nonSemanticSpecKeys]
    obtain ⟨t, ht⟩ := htexts e he hkey
    rw [ht]
    exact passes_text t
  · exact (hsemantic e (List.mem_filter.mpr ⟨he, by simpa using hkey⟩)).2

theorem id_of_identifiable (sha256 : Value → String) (h : Identifiable s) :
    ∃ id, computeExperimentId sha256 s = .ok id := by
  obtain ⟨canonical, hcanonical, hjson⟩ := identifiable_iff.mp h
  exact computeExperimentId_ok sha256 hcanonical hjson

theorem id_eq_iff (hsha : TellsApart sha256 s s') (h : computeExperimentId sha256 s = .ok id)
    (h' : computeExperimentId sha256 s' = .ok id') : id = id' ↔ Agree asWritten s s' := by
  obtain ⟨content, hcontent, hfields, _, rfl⟩ := computeExperimentId_content h
  obtain ⟨content', hcontent', hfields', _, rfl⟩ := computeExperimentId_content h'
  rw [← sameForm_semantic]
  constructor
  · intro hid
    obtain rfl := hsha _ _ hcontent hcontent' ((String.append_right_inj "exp_").mp hid)
    exact ⟨content, hfields, hfields'⟩
  · rintro ⟨w, hw, hw'⟩
    rw [Except.ok.inj (hfields.symm.trans hw), Except.ok.inj (hfields'.symm.trans hw')]

/-- The ids tell specs apart up to the spelling of their numbers exactly if the specs have ids, and agree as they are
written if and only if they agree as numbers. -/
theorem identified_iff (hsha : TellsApart sha256 s s') :
    Identified sha256 same s s' ↔ Identifiable s ∧ Identifiable s' ∧
      (Agree asWritten s s' ↔ Agree (byNumber same) s s') := by
  constructor
  · rintro ⟨id, id', hid, hid', hiff⟩
    exact ⟨identifiable_of_id hid, identifiable_of_id hid', (id_eq_iff hsha hid hid').symm.trans hiff⟩
  · rintro ⟨hs, hs', hiff⟩
    obtain ⟨id, hid⟩ := id_of_identifiable sha256 hs
    obtain ⟨id', hid'⟩ := id_of_identifiable sha256 hs'
    exact ⟨id, id', hid, hid', (id_eq_iff hsha hid hid').trans hiff⟩

end Ids

section Spellings

variable {P : Pydantic} {s : ExperimentSpec P} {p p' : EffectiveParameters P} {raw raw' : Entries} {capital : String}
  {same : Value → Value → Prop}

theorem validated_withParameters (h : Validated (specEntries raw capital) s)
    (hraw : bindEffectiveParameters P raw' = .ok p') :
    Validated (specEntries raw' capital) { s with parameters := p' } :=
  { h with parameters := ⟨raw', rfl, hraw⟩ }

theorem agree_withParameters (h : ParametersAgree (byNumber same) s.parameters p') :
    Agree (byNumber same) s { s with parameters := p' } := by
  have hoption (x : Option Dec) : Option.Rel SameValue x x := by
    cases x with
    | none => exact .none
    | some d => exact .some rfl
  exact
    { hypothesis := rfl
      strategyVersion := rfl
      parameters := h
      datasetManifestRef := rfl
      symbols := rfl
      timeRange := rfl
      startingCapital := rfl
      feeAssumption := ⟨rfl, rfl, rfl⟩
      slippageAssumption := ⟨rfl, rfl⟩
      fundingAssumption := ⟨rfl, hoption _, rfl⟩
      symbolConstraints := List.forall₂_same.mpr fun _ _ => ⟨rfl, rfl, rfl, rfl⟩
      costScenarios := List.forall₂_same.mpr fun _ _ => ⟨rfl, ⟨rfl, rfl, rfl⟩, ⟨rfl, rfl⟩, rfl, hoption _, rfl⟩
      benchmark := rfl
      randomSeed := rfl
      expectedArtifacts := rfl }

def ratioParameters (ratio : Dec) : EffectiveParameters plainPydantic where
  ints field := Whole.ofInt field.default
  decimals field := if field = .volumeRatioMin then ratio else field.default
  strategyId := none

def ratioData (ratio : Dec) : Value := specData (ratioParameters ratio).entries "1000"

theorem bind_ratio (ratio : Dec) :
    bindEffectiveParameters plainPydantic (ratioParameters ratio).entries = .ok (ratioParameters ratio) := by
  apply StoredParameters.bind
  refine ⟨?_, ?_, ?_, rfl⟩
  · rw [entries_keys]
    exact fun key hkey => List.mem_cons_of_mem _ (by simpa [ratioParameters] using hkey)
  · intro field
    cases field <;> rfl
  · intro field
    cases field <;> rfl

theorem ratios_accepted : ∃ spec : Dec → ExperimentSpec plainPydantic, ∀ ratio,
    parseExperimentSpec plainPydantic (ratioData ratio) = .ok (spec ratio) ∧
      (spec ratio).parameters = ratioParameters ratio ∧
      ∀ ratio' same, ratio.value = ratio'.value → Agree (byNumber same) (spec ratio) (spec ratio') := by
  have hok : (parseExperimentSpec plainPydantic (ratioData ⟨false, 25, -1⟩)).isOk = true := by decide +kernel
  obtain ⟨s, hs⟩ := exists_of_isOk hok
  obtain ⟨_, _, hvalidate⟩ := except_bind_eq_ok.mp hs
  have hvalidated := modelValidate_eq_ok.mp hvalidate
  refine ⟨fun ratio => { s with parameters := ratioParameters ratio }, fun ratio =>
    ⟨except_bind_eq_ok.mpr ⟨(), by rfl, ?_⟩, rfl, fun ratio' same hvalue => agree_withParameters ?_⟩⟩
  · exact modelValidate_eq_ok.mpr (validated_withParameters hvalidated (bind_ratio ratio))
  · refine ⟨fun _ => rfl, fun field => ?_, .none⟩
    by_cases hfield : field = .volumeRatioMin
    · subst hfield
      exact hvalue
    · simp only [ratioParameters, if_neg hfield]
      rfl

theorem exists_tellsApart (s s' : ExperimentSpec P) : ∃ sha256, TellsApart sha256 s s' := by
  classical
  refine ⟨fun v => if semanticSpecDict s = .ok v then "0" else "1", fun v v' hv _ heq => ?_⟩
  by_cases h : semanticSpecDict s = .ok v'
  · exact Except.ok.inj (hv.symm.trans h)
  · dsimp only at heq
    rw [if_pos hv, if_neg h] at heq
    exact absurd heq (by decide)

theorem identifiable_of_parsed {data : Value} {s : ExperimentSpec plainPydantic}
    (hs : parseExperimentSpec plainPydantic data = .ok s)
    (hok : (parseExperimentSpec plainPydantic data >>= computeExperimentId fun _ => "").isOk = true) :
    Identifiable s := by
  rw [hs, except_ok_bind] at hok
  obtain ⟨id, hid⟩ := exists_of_isOk hok
  exact identifiable_of_id hid

/-- The ratio 2.5 is spelled in two ways; the ratio 3 is another one, and has another id. -/
theorem identified_iff_spelling :
    (∃ s s', parseExperimentSpec plainPydantic (ratioData ⟨false, 25, -1⟩) = .ok s ∧
      parseExperimentSpec plainPydantic (ratioData ⟨false, 250, -2⟩) = .ok s' ∧ ∃ sha256, TellsApart sha256 s s' ∧
        (Identified sha256 Eq s s' ↔ Identifiable s ∧ Identifiable s' ∧
          (Agree asWritten s s' ↔ Agree (byNumber Eq) s s'))) ∧
    ∃ s s', parseExperimentSpec plainPydantic (ratioData ⟨false, 25, -1⟩) = .ok s ∧
      parseExperimentSpec plainPydantic (ratioData ⟨false, 3, 0⟩) = .ok s' ∧ ∃ sha256, TellsApart sha256 s s' ∧
        Identified sha256 Eq s s' := by
  obtain ⟨spec, hspec⟩ := ratios_accepted
  constructor
  · obtain ⟨sha256, hsha⟩ := exists_tellsApart (spec ⟨false, 25, -1⟩) (spec ⟨false, 250, -2⟩)
    exact ⟨_, _, (hspec _).1, (hspec _).1, sha256, hsha, identified_iff hsha⟩
  · obtain ⟨sha256, hsha⟩ := exists_tellsApart (spec ⟨false, 25, -1⟩) (spec ⟨false, 3, 0⟩)
    have hfirst : Identifiable (spec ⟨false, 25, -1⟩) := identifiable_of_parsed (hspec _).1 (by decide +kernel)
    have hsecond : Identifiable (spec ⟨false, 3, 0⟩) := identifiable_of_parsed (hspec _).1 (by decide +kernel)
    have hwritten : ¬Agree asWritten (spec ⟨false, 25, -1⟩) (spec ⟨false, 3, 0⟩) := by
      intro h
      have hratio := h.parameters.decimals .volumeRatioMin
      rw [(hspec _).2.1, (hspec _).2.1] at hratio
      exact absurd (show (⟨false, 25, -1⟩ : Dec) = ⟨false, 3, 0⟩ from hratio) (by decide)
    have hnumbers : ¬Agree (byNumber Eq) (spec ⟨false, 25, -1⟩) (spec ⟨false, 3, 0⟩) := by
      intro h
      have hratio := h.parameters.decimals .volumeRatioMin
      rw [(hspec _).2.1, (hspec _).2.1] at hratio
      have hvalue : Dec.value ⟨false, 25, -1⟩ = Dec.value ⟨false, 3, 0⟩ := hratio
      norm_num [Dec.value] at hvalue
    exact ⟨_, _, (hspec _).1, (hspec _).1, sha256, hsha,
      (identified_iff hsha).mpr ⟨hfirst, hsecond, iff_of_false hwritten hnumbers⟩⟩

theorem not_identified_spelling : ∃ s s', parseExperimentSpec plainPydantic (ratioData ⟨false, 25, -1⟩) = .ok s ∧
    parseExperimentSpec plainPydantic (ratioData ⟨false, 250, -2⟩) = .ok s' ∧
      ∀ sha256 same, TellsApart sha256 s s' → ¬Identified sha256 same s s' := by
  obtain ⟨spec, hspec⟩ := ratios_accepted
  refine ⟨_, _, (hspec _).1, (hspec _).1, ?_⟩
  rintro sha256 same hsha ⟨id, id', hid, hid', hiff⟩
  have hnumbers := (hspec ⟨false, 25, -1⟩).2.2 ⟨false, 250, -2⟩ same (by norm_num [Dec.value])
  have hratio := ((id_eq_iff hsha hid hid').mp (hiff.mpr hnumbers)).parameters.decimals .volumeRatioMin
  rw [(hspec _).2.1, (hspec _).2.1] at hratio
  exact absurd (show (⟨false, 25, -1⟩ : Dec) = ⟨false, 250, -2⟩ from hratio) (by decide)

end Spellings

end TradingBot.Research.ExperimentIdentity
