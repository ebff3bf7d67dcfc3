import TradingBot.Research.RegimeBehaviour

namespace TradingBot.Research.EvidenceIdentity

open Library.Dictionary Library.Digests Library.Outcome Research.RegimeQuality Research.RegimeBehaviour

variable {D : Type} {lang : RegimeQuality.Language D}

/-- The digests tell their payloads apart. -/
structure QualityDistinct (digests : QualityDigests) : Prop where
  scorePolicy : Function.Injective digests.scorePolicy
  quality : Function.Injective digests.quality

structure BehaviourDistinct (digests : BehaviourDigests) : Prop where
  policy : Function.Injective digests.policy
  evidence : Function.Injective digests.evidence
  behaviour : Function.Injective digests.behaviour

section Slices

variable {cellId : String} {trades : List TradeRow} {equity : List EquityRow} {timeline : List TaggedPoint}
  {closes : Option (Dict ℤ D)}

def sliceDelta (lang : RegimeQuality.Language D) (cellId : String) (trades : List TradeRow) (equity : List EquityRow)
    (timeline : List TaggedPoint) (closes : Option (Dict ℤ D)) : Except EvidenceError (Option String) :=
  let closed := trades.filter (·.netPnl ≠ .null)
  if closed.isEmpty && equity.isEmpty then .ok none else computeBenchmarkDelta lang cellId timeline closed closes

theorem computeBenchmarkDelta_none : computeBenchmarkDelta lang cellId timeline trades none = pure none := rfl

theorem computeSliceMetrics_eq : computeSliceMetrics lang cellId trades equity timeline closes =
    (do
      let base ← computeSliceMetrics lang cellId trades equity timeline none
      let delta ← sliceDelta lang cellId trades equity timeline closes
      pure { base with benchmarkDelta := delta }) := by
  by_cases hinactive : ((trades.filter (·.netPnl ≠ .null)).isEmpty && equity.isEmpty) = true
  · simp only [computeSliceMetrics, sliceDelta, hinactive, if_true]
    rfl
  · simp only [computeSliceMetrics, sliceDelta, hinactive, Bool.false_eq_true, if_false, computeBenchmarkDelta_none,
      bind_assoc, pure_bind]

theorem computeSliceMetrics_ok_iff {raw : RegimeSliceRaw D} :
    computeSliceMetrics lang cellId trades equity timeline closes = .ok raw ↔
      ∃ base delta, computeSliceMetrics lang cellId trades equity timeline none = .ok base ∧
        sliceDelta lang cellId trades equity timeline closes = .ok delta ∧
        { base with benchmarkDelta := delta } = raw := by
  rw [computeSliceMetrics_eq, except_bind_eq_ok]
  constructor
  · rintro ⟨base, hbase, h⟩
    obtain ⟨delta, hdelta, h⟩ := except_bind_eq_ok.mp h
    cases h
    exact ⟨base, delta, hbase, hdelta, rfl⟩
  · rintro ⟨base, delta, hbase, hdelta, rfl⟩
    exact ⟨base, hbase, except_bind_eq_ok.mpr ⟨delta, hdelta, rfl⟩⟩

end Slices

section Comparisons

variable {cellId : String} {trades : List TradeRow} {timeline : List TaggedPoint} {closes : Option (Dict ℤ D)}
  {first last : ℤ} {ret : D}

/-- A cell with a first and a last day, and what the strategy returned over its starting equity. -/
structure Comparable (lang : RegimeQuality.Language D) (cellId : String) (trades : List TradeRow)
    (timeline : List TaggedPoint) (first last : ℤ) (ret : D) : Prop where
  twoDays : 2 ≤ (cellDays cellId timeline).length
  first : (cellDays cellId timeline).head? = some first
  last : (cellDays cellId timeline).getLast? = some last
  ret : ∃ net point start, TradeAttribution.netPnlOf lang trades = .ok net ∧
    (timeline.filter (·.cell = some cellId)).head? = some point ∧ lang.parse point.snap.equity.str = .ok start ∧
    lang.le start lang.zero = false ∧ ret = lang.div net start

/-- What the strategy returned beyond the benchmark. -/
def comparison (lang : RegimeQuality.Language D) (closes : Option (Dict ℤ D)) (first last : ℤ) (ret : D) :
    Option String :=
  (closes.bind fun closes => buyAndHold lang closes first last).map fun bh => lang.text (lang.sub ret bh)

theorem buyAndHold_empty {closes : Dict ℤ D} (h : closes.entries.isEmpty = true) :
    buyAndHold lang closes first last = none := by
  simp [buyAndHold, Dict.get?, List.isEmpty_iff.mp h]

theorem computeBenchmarkDelta_of_comparable (h : Comparable lang cellId trades timeline first last ret) :
    computeBenchmarkDelta lang cellId timeline trades closes = .ok (comparison lang closes first last ret) := by
  obtain ⟨net, point, start, hnet, hpoint, hstart, hpositive, hret⟩ := h.ret
  cases closes with
  | none => rfl
  | some closes =>
    by_cases hempty : closes.entries.isEmpty = true
    · simp [computeBenchmarkDelta, comparison, hempty, buyAndHold_empty hempty]
    · have hdays : ¬ (cellDays cellId timeline).length < 2 := not_lt.mpr h.twoDays
      simp only [computeBenchmarkDelta, comparison, hempty, hdays, h.first, h.last, Bool.false_eq_true, if_false,
        Option.bind_some]
      cases buyAndHold lang closes first last with
      | none => rfl
      | some bh =>
        simp only [hnet, hpoint, hstart, bind, Except.bind, hpositive, Bool.false_eq_true, if_false, hret]
        rfl

theorem computeBenchmarkDelta_eq_none {delta : Option String}
    (h : ∀ first last ret, ¬ Comparable lang cellId trades timeline first last ret)
    (hok : computeBenchmarkDelta lang cellId timeline trades closes = .ok delta) : delta = none := by
  cases closes with
  | none =>
    cases hok
    rfl
  | some closes =>
    simp only [computeBenchmarkDelta] at hok
    split_ifs at hok with hempty hdays
    · cases hok
      rfl
    · cases hok
      rfl
    · split at hok
      · rename_i first last hfirst hlast
        split at hok
        · cases hok
          rfl
        · rename_i bh _
          obtain ⟨net, hnet, hok⟩ := except_bind_eq_ok.mp hok
          split at hok
          · cases hok
            rfl
          · rename_i point hpoint
            obtain ⟨start, hstart, hok⟩ := except_bind_eq_ok.mp hok
            split_ifs at hok with hpositive
            · cases hok
              rfl
            · refine absurd ?_ (h first last (lang.div net start))
              exact ⟨not_lt.mp hdays, hfirst, hlast, net, point, start, hnet, hpoint, hstart,
                Bool.eq_false_iff.mpr hpositive, rfl⟩
      · cases hok
        rfl

theorem computeBenchmarkDelta_of_unknown {closes : Dict ℤ D}
    (h : ∀ day ∈ cellDays cellId timeline, closes.get? day = none) :
    computeBenchmarkDelta lang cellId timeline trades (some closes) = .ok none := by
  simp only [computeBenchmarkDelta]
  split_ifs
  · rfl
  · rfl
  · split
    · rename_i first last hfirst _
      have hunknown : buyAndHold lang closes first last = none := by
        simp only [buyAndHold, h first (List.mem_of_mem_head? hfirst)]
      rw [hunknown]
    · rfl

def oneOn (lang : RegimeQuality.Language D) (first last : ℤ) : Dict ℤ D :=
  (Dict.set {} first lang.one).set last lang.one

theorem get?_oneOn {day : ℤ} :
    (oneOn lang first last).get? day = if day = last ∨ day = first then some lang.one else none := by
  simp only [oneOn, Dict.get?_set]
  by_cases hlast : day = last
  · simp [hlast]
  · by_cases hfirst : day = first
    · simp [hfirst]
    · simp [hlast, hfirst, Dict.get?]

theorem comparison_oneOn (hone : lang.lt lang.zero lang.one = true) :
    comparison lang (some (oneOn lang first last)) first last ret ≠ none := by
  have hle : lang.le lang.one lang.zero = false := by simp [RegimeQuality.Language.le, hone]
  simp [comparison, buyAndHold, get?_oneOn, hle]

end Comparisons

section Timeline

theorem mem_push_self {α : Type} {buckets : Dict String (List α)} {key : String} {row : α} :
    row ∈ ((push buckets key row).get? key).getD [] := by
  simp [push, Dict.get?_set]

theorem mem_push {α : Type} {buckets : Dict String (List α)} {key key' : String} {row row' : α}
    (h : row' ∈ (buckets.get? key').getD []) : row' ∈ ((push buckets key row).get? key').getD [] := by
  by_cases hkey : key' = key
  · subst hkey
    simp [push, Dict.get?_set, h]
  · simpa [push, Dict.get?_set, hkey] using h

def Tagged (index : DayIndex) (attribution : EquityAttribution) : Prop :=
  ∀ point ∈ attribution.timeline, ∀ cellId, point.cell = some cellId →
    bucketOf index point.day = .cell cellId ∧ point.snap ∈ (attribution.byCell.get? cellId).getD []

theorem tagged_attributePoint {index : DayIndex} {attribution attribution' : EquityAttribution} {snap : EquityRow}
    (h : Tagged index attribution) (hok : attributePoint lang index attribution snap = .ok attribution') :
    Tagged index attribution' := by
  simp only [attributePoint] at hok
  split_ifs at hok
  · cases hok
    exact h
  · obtain ⟨day, _, hok⟩ := except_bind_eq_ok.mp hok
    cases hbucket : bucketOf index day with
    | unlabeled =>
      simp only [hbucket] at hok
      cases hok
      intro point hpoint cellId hcell
      cases List.mem_append.mp hpoint with
      | inl hold => exact h point hold cellId hcell
      | inr hnew =>
        rw [List.mem_singleton.mp hnew] at hcell
        cases hcell
    | insufficient =>
      simp only [hbucket] at hok
      cases hok
      intro point hpoint cellId hcell
      cases List.mem_append.mp hpoint with
      | inl hold => exact h point hold cellId hcell
      | inr hnew =>
        rw [List.mem_singleton.mp hnew] at hcell
        cases hcell
    | cell own =>
      simp only [hbucket] at hok
      cases hok
      intro point hpoint cellId hcell
      cases List.mem_append.mp hpoint with
      | inl hold =>
        obtain ⟨hday, hmem⟩ := h point hold cellId hcell
        exact ⟨hday, mem_push hmem⟩
      | inr hnew =>
        rw [List.mem_singleton.mp hnew] at hcell ⊢
        cases hcell
        exact ⟨hbucket, mem_push_self⟩

theorem tagged_attributeEquity {index : DayIndex} {equity : List EquityRow} {attribution : EquityAttribution}
    (h : attributeEquity lang equity index = .ok attribution) : Tagged index attribution := by
  obtain ⟨result, hresult, h⟩ := except_bind_eq_ok.mp h
  cases h
  have hempty : Tagged index {} := fun point hpoint => absurd hpoint List.not_mem_nil
  have htagged := foldlM_preserves (fun _ _ _ hinv hstep => tagged_attributePoint hinv hstep) hempty hresult
  intro point hpoint
  exact htagged point ((List.mem_insertionSort _).mp hpoint)

theorem mem_cellDays {cellId : String} {timeline : List TaggedPoint} {day : ℤ} :
    day ∈ cellDays cellId timeline ↔ ∃ point ∈ timeline, point.cell = some cellId ∧ point.day = day := by
  simp only [cellDays, List.mem_insertionSort, List.mem_dedup, List.mem_map, List.mem_filter, decide_eq_true_eq,
    and_assoc]

end Timeline

section Artifacts

variable {digests : QualityDigests} {run : SealedRun} {dsId dsHash : String} {tradeAttr : TradeAttribution}
  {equityAttr : EquityAttribution} {policy : QualityScorePolicy} {slices slices' : List (RegimeSliceRaw D)}
  {artifact artifact' : RegimeMetrics}

def eraseDelta (raw : RegimeSliceRaw D) : RegimeSliceRaw D := { raw with benchmarkDelta := none }

def eraseRow (row : RegimeRow × QualitySummary) : RegimeRow × QualitySummary :=
  ({ row.1 with benchmarkDelta := none }, row.2)

def withoutBenchmark (metrics : RegimeMetrics) : RegimeMetrics :=
  { metrics with regimes := metrics.regimes.map eraseRow }

theorem firstExtreme_erase (mode : ExtremeMode) :
    firstExtreme lang mode (slices.map eraseDelta) = (firstExtreme lang mode slices).map eraseDelta := by
  cases slices with
  | nil => rfl
  | cons first rest =>
    simp only [List.map_cons, firstExtreme, Option.map_some, Option.some.injEq, List.foldl_map]
    apply List.foldl_hom
    intro chosen raw
    cases mode with
    | worst => exact (apply_ite eraseDelta _ _ _).symm
    | strongest => exact (apply_ite eraseDelta _ _ _).symm

theorem pickExtreme_erase (mode : ExtremeMode) (status : EvidenceStatus) :
    pickExtreme lang (slices.map eraseDelta) mode status = pickExtreme lang slices mode status := by
  have hfilter : (slices.map eraseDelta).filter (fun raw => !raw.zeroActivity && raw.status = .ok) =
      (slices.filter fun raw => !raw.zeroActivity && raw.status = .ok).map eraseDelta := List.filter_map
  simp only [pickExtreme, hfilter, firstExtreme_erase]
  split_ifs
  · rfl
  · cases firstExtreme lang mode (slices.filter fun raw => !raw.zeroActivity && raw.status = .ok) with
    | none => rfl
    | some chosen => rfl

theorem buildRegimeMetrics_erase :
    buildRegimeMetrics lang digests run dsId dsHash tradeAttr equityAttr policy (slices.map eraseDelta) =
      (buildRegimeMetrics lang digests run dsId dsHash tradeAttr equityAttr policy slices).map withoutBenchmark := by
  have hrows : ((slices.map eraseDelta).mapM fun raw => do
      pure (raw.toDict lang, ← summarizeSliceScore lang raw policy (digests.scorePolicy policy))) =
      (slices.mapM fun raw => do
        pure (raw.toDict lang, ← summarizeSliceScore lang raw policy (digests.scorePolicy policy))).map
          (List.map eraseRow) := by
    rw [List.mapM_map, ← mapM_map]
    apply mapM_congr
    intro raw _
    have hsame : summarizeSliceScore lang (eraseDelta raw) policy (digests.scorePolicy policy) =
        summarizeSliceScore lang raw policy (digests.scorePolicy policy) := rfl
    simp only [Function.comp_apply, hsame]
    cases summarizeSliceScore lang raw policy (digests.scorePolicy policy) with
    | error e => rfl
    | ok summary => rfl
  have hsymbols : symbolTotals lang (slices.map eraseDelta) = symbolTotals lang slices := by
    simp only [symbolTotals, List.flatMap_map]
    rfl
  have hsum (g : RegimeSliceRaw D → D) (hg : ∀ raw, g (eraseDelta raw) = g raw) :
      (slices.map eraseDelta).map g = slices.map g := by
    rw [List.map_map]
    exact List.map_congr_left fun raw _ => hg raw
  simp only [buildRegimeMetrics, hrows, hsymbols, hsum (·.grossPnl) fun _ => rfl, hsum (·.fees) fun _ => rfl,
    hsum (·.slippageCosts) fun _ => rfl, hsum (·.fundingCosts) fun _ => rfl, pickExtreme_erase]
  cases slices.mapM fun raw => do
      pure (raw.toDict lang, ← summarizeSliceScore lang raw policy (digests.scorePolicy policy)) with
  | error e => rfl
  | ok rows =>
    cases tradeAttr.attributedNetPnl lang with
    | error e => rfl
    | ok attributed =>
      cases tradeAttr.sourceNetPnl lang with
      | error e => rfl
      | ok source =>
        cases tradeAttr.excludedNetPnl lang with
        | error e => rfl
        | ok excluded => rfl

/-- What slices give an artifact under one benchmark give one under another, and the two differ in nothing else. -/
theorem buildRegimeMetrics_other (herase : slices.map eraseDelta = slices'.map eraseDelta)
    (h : buildRegimeMetrics lang digests run dsId dsHash tradeAttr equityAttr policy slices = .ok artifact) :
    ∃ artifact', buildRegimeMetrics lang digests run dsId dsHash tradeAttr equityAttr policy slices' = .ok artifact' ∧
      withoutBenchmark artifact = withoutBenchmark artifact' := by
  have hsame : (buildRegimeMetrics lang digests run dsId dsHash tradeAttr equityAttr policy slices).map withoutBenchmark =
      (buildRegimeMetrics lang digests run dsId dsHash tradeAttr equityAttr policy slices').map withoutBenchmark := by
    rw [← buildRegimeMetrics_erase, herase, buildRegimeMetrics_erase]
  cases hother : buildRegimeMetrics lang digests run dsId dsHash tradeAttr equityAttr policy slices' with
  | error e =>
    rw [h, hother] at hsame
    cases hsame
  | ok artifact' =>
    rw [h, hother] at hsame
    exact ⟨artifact', rfl, Except.ok.inj hsame⟩

theorem buildRegimeMetrics_rows
    (h : buildRegimeMetrics lang digests run dsId dsHash tradeAttr equityAttr policy slices = .ok artifact) :
    artifact.regimes.map (·.1) = slices.map (RegimeSliceRaw.toDict lang) := by
  obtain ⟨rows, hrows, h⟩ := except_bind_eq_ok.mp h
  obtain ⟨_, _, h⟩ := except_bind_eq_ok.mp h
  obtain ⟨_, _, h⟩ := except_bind_eq_ok.mp h
  obtain ⟨_, _, h⟩ := except_bind_eq_ok.mp h
  cases h
  refine (map_eq_of_mapM_ok ?_ hrows).symm
  intro raw row hrow
  obtain ⟨_, _, hrow⟩ := except_bind_eq_ok.mp hrow
  cases hrow
  rfl

theorem buildRegimeMetrics_qualityId
    (h : buildRegimeMetrics lang digests run dsId dsHash tradeAttr equityAttr policy slices = .ok artifact) :
    artifact.qualityId = computeQualityId digests
      { runId := run.runId
        datasetId := dsId
        datasetContentHash := dsHash
        classificationId := run.labels.classificationId.strOr ""
        classifierContentHash := run.labels.classifierContentHash.strOr ""
        scorePolicyVersion := policy.version
        scorePolicyContentHash := digests.scorePolicy policy } := by
  obtain ⟨_, _, h⟩ := except_bind_eq_ok.mp h
  obtain ⟨_, _, h⟩ := except_bind_eq_ok.mp h
  obtain ⟨_, _, h⟩ := except_bind_eq_ok.mp h
  obtain ⟨_, _, h⟩ := except_bind_eq_ok.mp h
  cases h
  rfl

theorem eq_of_erase_eq (herase : slices.map eraseDelta = slices'.map eraseDelta)
    (hdelta : slices.map (·.benchmarkDelta) = slices'.map (·.benchmarkDelta)) : slices = slices' := by
  induction slices generalizing slices' with
  | nil => exact (List.map_eq_nil_iff.mp herase.symm).symm
  | cons raw rest ih =>
    cases slices' with
    | nil => cases herase
    | cons raw' rest' =>
      simp only [List.map_cons, List.cons.injEq] at herase hdelta
      have hraw : raw = raw' := by
        calc raw = { eraseDelta raw with benchmarkDelta := raw.benchmarkDelta } := rfl
          _ = { eraseDelta raw' with benchmarkDelta := raw'.benchmarkDelta } := by rw [herase.1, hdelta.1]
          _ = raw' := rfl
      rw [hraw, ih herase.2 hdelta.2]

theorem artifact_eq_iff (herase : slices.map eraseDelta = slices'.map eraseDelta)
    (h : buildRegimeMetrics lang digests run dsId dsHash tradeAttr equityAttr policy slices = .ok artifact)
    (h' : buildRegimeMetrics lang digests run dsId dsHash tradeAttr equityAttr policy slices' = .ok artifact') :
    artifact = artifact' ↔ slices = slices' := by
  constructor
  · intro heq
    apply eq_of_erase_eq herase
    have hrows := (buildRegimeMetrics_rows h).symm.trans (heq ▸ buildRegimeMetrics_rows h')
    have hdeltas := congrArg (List.map (·.benchmarkDelta)) hrows
    rw [List.map_map, List.map_map] at hdeltas
    exact hdeltas
  · intro heq
    subst heq
    exact Except.ok.inj (h.symm.trans h')

end Artifacts

section Evaluations

variable {digests : QualityDigests} {run : SealedRun} {arguments arguments' : QualityArguments D}
  {result result' : RegimeQualityResult D} {index index' : DayIndex} {tradeAttr tradeAttr' : TradeAttribution}
  {equityAttr equityAttr' : EquityAttribution} {closes closes' : Option (Dict ℤ D)} {cellId : String} {first last : ℤ}
  {ret : D}

structure Joined (lang : RegimeQuality.Language D) (run : SealedRun) (index : DayIndex) (tradeAttr : TradeAttribution)
    (equityAttr : EquityAttribution) : Prop where
  labels : indexDayLabels lang run.labels.dayLabels = .ok index
  trades : attributeTrades lang run.trades index = .ok tradeAttr
  equity : attributeEquity lang run.equity index = .ok equityAttr

theorem Joined.unique (h : Joined lang run index tradeAttr equityAttr)
    (h' : Joined lang run index' tradeAttr' equityAttr') :
    index = index' ∧ tradeAttr = tradeAttr' ∧ equityAttr = equityAttr' := by
  have hindex : index = index' := Except.ok.inj (h.labels.symm.trans h'.labels)
  subst hindex
  exact ⟨rfl, Except.ok.inj (h.trades.symm.trans h'.trades), Except.ok.inj (h.equity.symm.trans h'.equity)⟩

def closedIn (tradeAttr : TradeAttribution) (cellId : String) : List TradeRow :=
  ((tradeAttr.byCell.get? cellId).getD []).filter (·.netPnl ≠ .null)

def sliceIn (lang : RegimeQuality.Language D) (tradeAttr : TradeAttribution) (equityAttr : EquityAttribution)
    (closes : Option (Dict ℤ D)) (cellId : String) : Except EvidenceError (RegimeSliceRaw D) :=
  computeSliceMetrics lang cellId ((tradeAttr.byCell.get? cellId).getD []) ((equityAttr.byCell.get? cellId).getD [])
    equityAttr.timeline closes

def deltaIn (lang : RegimeQuality.Language D) (tradeAttr : TradeAttribution) (equityAttr : EquityAttribution)
    (closes : Option (Dict ℤ D)) (cellId : String) : Except EvidenceError (Option String) :=
  sliceDelta lang cellId ((tradeAttr.byCell.get? cellId).getD []) ((equityAttr.byCell.get? cellId).getD [])
    equityAttr.timeline closes

theorem resolveDatasetPins_ok {datasetId datasetContentHash : Option String} {pins : String × String}
    (h : resolveDatasetPins run.labels datasetId datasetContentHash = .ok pins) :
    pins = (run.labels.datasetId.strOr "", run.labels.datasetContentHash.strOr "") := by
  simp only [resolveDatasetPins] at h
  split_ifs at h
  cases h
  rfl

/-- What an evaluation that returns went through. -/
structure Evaluated (lang : RegimeQuality.Language D) (digests : QualityDigests) (run : SealedRun)
    (arguments : QualityArguments D) (tradeAttr : TradeAttribution) (equityAttr : EquityAttribution)
    (policy : QualityScorePolicy) (result : RegimeQualityResult D) : Prop where
  exPost : run.labels.pointInTimeSafe ≠ .bool true
  pins : resolveDatasetPins run.labels arguments.datasetId arguments.datasetContentHash =
    .ok (run.labels.datasetId.strOr "", run.labels.datasetContentHash.strOr "")
  slices : (cellIds run.labels tradeAttr equityAttr).mapM (sliceIn lang tradeAttr equityAttr arguments.benchmarkCloses) =
    .ok result.slices
  known : getScorePolicy arguments.scorePolicyVersion = .ok policy
  artifact : buildRegimeMetrics lang digests run (run.labels.datasetId.strOr "")
    (run.labels.datasetContentHash.strOr "") tradeAttr equityAttr policy result.slices = .ok result.artifact
  qualityId : result.qualityId = result.artifact.qualityId

theorem evaluateRegimeQuality_ok_iff : evaluateRegimeQuality lang digests run arguments = .ok result ↔
    ∃ index tradeAttr equityAttr policy, Joined lang run index tradeAttr equityAttr ∧
      Evaluated lang digests run arguments tradeAttr equityAttr policy result := by
  simp only [evaluateRegimeQuality]
  constructor
  · intro h
    split_ifs at h with hlabels
    obtain ⟨pins, hpins, h⟩ := except_bind_eq_ok.mp h
    obtain ⟨index, hindex, h⟩ := except_bind_eq_ok.mp h
    obtain ⟨tradeAttr, htrades, h⟩ := except_bind_eq_ok.mp h
    obtain ⟨equityAttr, hequity, h⟩ := except_bind_eq_ok.mp h
    obtain ⟨slices, hslices, h⟩ := except_bind_eq_ok.mp h
    obtain ⟨policy, hpolicy, h⟩ := except_bind_eq_ok.mp h
    obtain ⟨artifact, hartifact, h⟩ := except_bind_eq_ok.mp h
    cases h
    have hown := resolveDatasetPins_ok hpins
    subst hown
    exact ⟨index, tradeAttr, equityAttr, policy, ⟨hindex, htrades, hequity⟩,
      ⟨hlabels, hpins, hslices, hpolicy, hartifact, rfl⟩⟩
  · rintro ⟨index, tradeAttr, equityAttr, policy, hjoined, h⟩
    rw [if_neg h.exPost]
    refine except_bind_eq_ok.mpr ⟨_, h.pins, except_bind_eq_ok.mpr ⟨index, hjoined.labels, ?_⟩⟩
    refine except_bind_eq_ok.mpr ⟨tradeAttr, hjoined.trades, except_bind_eq_ok.mpr ⟨equityAttr, hjoined.equity, ?_⟩⟩
    refine except_bind_eq_ok.mpr ⟨result.slices, h.slices, except_bind_eq_ok.mpr ⟨policy, h.known, ?_⟩⟩
    refine except_bind_eq_ok.mpr ⟨result.artifact, h.artifact, ?_⟩
    rw [← h.qualityId]
    rfl

/-- The cell's comparison: the strategy's return over the first and the last of at least two labelled days, where the
equity starts above zero. -/
def Measured (lang : RegimeQuality.Language D) (run : SealedRun) (cellId : String) (first last : ℤ) (ret : D) : Prop :=
  ∃ index tradeAttr equityAttr, Joined lang run index tradeAttr equityAttr ∧
    Comparable lang cellId (closedIn tradeAttr cellId) equityAttr.timeline first last ret

theorem measured_iff (h : Joined lang run index tradeAttr equityAttr) :
    Measured lang run cellId first last ret ↔
      Comparable lang cellId (closedIn tradeAttr cellId) equityAttr.timeline first last ret := by
  constructor
  · rintro ⟨index', tradeAttr', equityAttr', h', hcomparable⟩
    obtain ⟨_, htrades, hequity⟩ := h'.unique h
    subst htrades hequity
    exact hcomparable
  · intro hcomparable
    exact ⟨index, tradeAttr, equityAttr, h, hcomparable⟩

theorem Comparable.points (h : Comparable lang cellId (closedIn tradeAttr cellId) equityAttr.timeline first last ret)
    (hjoined : Joined lang run index tradeAttr equityAttr) : ((equityAttr.byCell.get? cellId).getD []) ≠ [] := by
  obtain ⟨point, hpoint, hcell, _⟩ := mem_cellDays.mp (List.mem_of_mem_head? h.first)
  obtain ⟨_, hmem⟩ := tagged_attributeEquity hjoined.equity point hpoint cellId hcell
  exact List.ne_nil_of_mem hmem

theorem Comparable.mem_cellIds
    (h : Comparable lang cellId (closedIn tradeAttr cellId) equityAttr.timeline first last ret)
    (hjoined : Joined lang run index tradeAttr equityAttr) : cellId ∈ cellIds run.labels tradeAttr equityAttr := by
  have hkey : cellId ∈ equityAttr.byCell.keys := by
    apply Dict.get?_isSome_iff.mp
    cases hget : equityAttr.byCell.get? cellId with
    | none => exact absurd (by rw [hget]; rfl) (h.points hjoined)
    | some rows => rfl
  simp only [cellIds, List.mem_insertionSort, List.mem_dedup, List.mem_append, hkey, or_true, true_or]

theorem deltaIn_of_comparable
    (h : Comparable lang cellId (closedIn tradeAttr cellId) equityAttr.timeline first last ret)
    (hjoined : Joined lang run index tradeAttr equityAttr) :
    deltaIn lang tradeAttr equityAttr closes cellId = .ok (comparison lang closes first last ret) := by
  have hactive : ((equityAttr.byCell.get? cellId).getD []).isEmpty = false :=
    Bool.eq_false_iff.mpr fun hempty => h.points hjoined (List.isEmpty_iff.mp hempty)
  simp only [deltaIn, sliceDelta, hactive, Bool.and_false, Bool.false_eq_true, if_false]
  exact computeBenchmarkDelta_of_comparable h

theorem deltaIn_eq_none {delta : Option String}
    (h : ∀ first last ret, ¬ Comparable lang cellId (closedIn tradeAttr cellId) equityAttr.timeline first last ret)
    (hok : deltaIn lang tradeAttr equityAttr closes cellId = .ok delta) : delta = none := by
  simp only [deltaIn, sliceDelta] at hok
  split_ifs at hok
  · cases hok
    rfl
  · exact computeBenchmarkDelta_eq_none h hok

/-- Two benchmarks that no comparison of the run tells apart. -/
def SameComparisons (lang : RegimeQuality.Language D) (run : SealedRun) (closes closes' : Option (Dict ℤ D)) : Prop :=
  ∀ cellId first last ret, Measured lang run cellId first last ret →
    comparison lang closes first last ret = comparison lang closes' first last ret

theorem sliceIn_erase {raw raw' : RegimeSliceRaw D} (h : sliceIn lang tradeAttr equityAttr closes cellId = .ok raw)
    (h' : sliceIn lang tradeAttr equityAttr closes' cellId = .ok raw') : eraseDelta raw = eraseDelta raw' := by
  obtain ⟨base, delta, hbase, _, hraw⟩ := computeSliceMetrics_ok_iff.mp h
  obtain ⟨base', delta', hbase', _, hraw'⟩ := computeSliceMetrics_ok_iff.mp h'
  have hsame : base = base' := Except.ok.inj (hbase.symm.trans hbase')
  subst hsame hraw hraw'
  rfl

theorem sliceIn_delta {raw : RegimeSliceRaw D} (h : sliceIn lang tradeAttr equityAttr closes cellId = .ok raw) :
    deltaIn lang tradeAttr equityAttr closes cellId = .ok raw.benchmarkDelta := by
  obtain ⟨base, delta, _, hdelta, hraw⟩ := computeSliceMetrics_ok_iff.mp h
  subst hraw
  exact hdelta

theorem slices_erase {cells : List String} {slices slices' : List (RegimeSliceRaw D)}
    (h : cells.mapM (sliceIn lang tradeAttr equityAttr closes) = .ok slices)
    (h' : cells.mapM (sliceIn lang tradeAttr equityAttr closes') = .ok slices') :
    slices.map eraseDelta = slices'.map eraseDelta := by
  have hpairs := mapM_eq_ok_iff.mp h
  have hpairs' := mapM_eq_ok_iff.mp h'
  clear h h'
  induction hpairs generalizing slices' with
  | nil =>
    cases hpairs'
    rfl
  | cons hraw _ ih =>
    cases hpairs' with
    | cons hraw' hrest' => rw [List.map_cons, List.map_cons, sliceIn_erase hraw hraw', ih hrest']

theorem slices_delta {cells : List String} {slices : List (RegimeSliceRaw D)}
    (h : cells.mapM (sliceIn lang tradeAttr equityAttr closes) = .ok slices) :
    cells.mapM (deltaIn lang tradeAttr equityAttr closes) = .ok (slices.map (·.benchmarkDelta)) := by
  rw [mapM_eq_ok_iff, List.forall₂_map_right_iff]
  exact (mapM_eq_ok_iff.mp h).imp fun _ _ hraw => sliceIn_delta hraw

/-- The slices under two benchmarks are equal exactly when no comparison tells the benchmarks apart. -/
theorem slices_eq_iff (hjoined : Joined lang run index tradeAttr equityAttr)
    {slices slices' : List (RegimeSliceRaw D)}
    (h : (cellIds run.labels tradeAttr equityAttr).mapM (sliceIn lang tradeAttr equityAttr closes) = .ok slices)
    (h' : (cellIds run.labels tradeAttr equityAttr).mapM (sliceIn lang tradeAttr equityAttr closes') = .ok slices') :
    slices = slices' ↔ SameComparisons lang run closes closes' := by
  have hdelta := slices_delta h
  have hdelta' := slices_delta h'
  constructor
  · intro heq cellId first last ret hmeasured
    rw [measured_iff hjoined] at hmeasured
    rw [← heq] at hdelta'
    have hcell := mapM_same_mem hdelta hdelta' (hmeasured.mem_cellIds hjoined)
    rw [deltaIn_of_comparable hmeasured hjoined, deltaIn_of_comparable hmeasured hjoined] at hcell
    exact Except.ok.inj hcell
  · intro hsame
    apply eq_of_erase_eq (slices_erase h h')
    have hcells : ∀ cellId ∈ cellIds run.labels tradeAttr equityAttr,
        deltaIn lang tradeAttr equityAttr closes cellId = deltaIn lang tradeAttr equityAttr closes' cellId := by
      intro cellId hcell
      by_cases hcomparable : ∃ first last ret,
          Comparable lang cellId (closedIn tradeAttr cellId) equityAttr.timeline first last ret
      · obtain ⟨first, last, ret, hcomparable⟩ := hcomparable
        rw [deltaIn_of_comparable hcomparable hjoined, deltaIn_of_comparable hcomparable hjoined,
          hsame cellId first last ret ((measured_iff hjoined).mpr hcomparable)]
      · simp only [not_exists] at hcomparable
        obtain ⟨delta, _, hok⟩ := mapM_mem_ok hdelta hcell
        obtain ⟨delta', _, hok'⟩ := mapM_mem_ok hdelta' hcell
        rw [hok, hok', deltaIn_eq_none hcomparable hok, deltaIn_eq_none hcomparable hok']
    rw [mapM_congr hcells, hdelta'] at hdelta
    exact (Except.ok.inj hdelta).symm

theorem policy_eq_of_qualityId (hdistinct : QualityDistinct digests) {policy policy' : QualityScorePolicy}
    (h : Evaluated lang digests run arguments tradeAttr equityAttr policy result)
    (h' : Evaluated lang digests run arguments' tradeAttr equityAttr policy' result')
    (hid : result.qualityId = result'.qualityId) : policy = policy' := by
  rw [h.qualityId, h'.qualityId, buildRegimeMetrics_qualityId h.artifact, buildRegimeMetrics_qualityId h'.artifact]
    at hid
  have hpins := hdistinct.quality ((String.append_right_inj _).mp hid)
  exact hdistinct.scorePolicy (congrArg QualityPins.scorePolicyContentHash hpins)

theorem bucketOf_cellDays (hjoined : Joined lang run index tradeAttr equityAttr) {day : ℤ}
    (h : day ∈ cellDays cellId equityAttr.timeline) : bucketOf index day = .cell cellId := by
  obtain ⟨point, hpoint, hcell, hday⟩ := mem_cellDays.mp h
  subst hday
  exact (tagged_attributeEquity hjoined.equity point hpoint cellId hcell).1

theorem deltaIn_oneOn (hjoined : Joined lang run index tradeAttr equityAttr)
    (h : Comparable lang cellId (closedIn tradeAttr cellId) equityAttr.timeline first last ret) (other : String) :
    ∃ delta, deltaIn lang tradeAttr equityAttr (some (oneOn lang first last)) other = .ok delta := by
  by_cases hother : other = cellId
  · subst hother
    exact ⟨_, deltaIn_of_comparable h hjoined⟩
  · have hunknown : ∀ day ∈ cellDays other equityAttr.timeline, (oneOn lang first last).get? day = none := by
      intro day hday
      have hbucket := bucketOf_cellDays hjoined hday
      have hfirst := bucketOf_cellDays hjoined (List.mem_of_mem_head? h.first)
      have hlast := bucketOf_cellDays hjoined (List.mem_of_mem_getLast? h.last)
      have hdays : ¬ (day = last ∨ day = first) := by
        rintro (heq | heq)
        · rw [heq, hlast] at hbucket
          exact hother (Bucket.cell.inj hbucket).symm
        · rw [heq, hfirst] at hbucket
          exact hother (Bucket.cell.inj hbucket).symm
      rw [get?_oneOn, if_neg hdays]
    simp only [deltaIn, sliceDelta]
    split_ifs
    · exact ⟨none, rfl⟩
    · exact ⟨none, computeBenchmarkDelta_of_unknown hunknown⟩

theorem Evaluated.withBenchmark (h : Evaluated lang digests run arguments tradeAttr equityAttr policy result)
    (hdelta : ∀ cellId, ∃ delta, deltaIn lang tradeAttr equityAttr closes cellId = .ok delta) :
    ∃ result', Evaluated lang digests run { arguments with benchmarkCloses := closes } tradeAttr equityAttr policy
      result' := by
  have hall : ∀ cellId ∈ cellIds run.labels tradeAttr equityAttr,
      ∃ raw, sliceIn lang tradeAttr equityAttr closes cellId = .ok raw ∧ True := by
    intro cellId hcell
    obtain ⟨raw, _, hraw⟩ := mapM_mem_ok h.slices hcell
    obtain ⟨base, _, hbase, _, _⟩ := computeSliceMetrics_ok_iff.mp hraw
    obtain ⟨delta, hdelta⟩ := hdelta cellId
    exact ⟨_, computeSliceMetrics_ok_iff.mpr ⟨base, delta, hbase, hdelta, rfl⟩, trivial⟩
  obtain ⟨slices, hslices, _⟩ := mapM_all hall
  obtain ⟨artifact, hartifact, _⟩ := buildRegimeMetrics_other (slices_erase h.slices hslices) h.artifact
  exact ⟨⟨artifact, artifact.qualityId, slices⟩, h.exPost, h.pins, hslices, h.known, hartifact, rfl⟩

/-- Two evaluations of a run under one id went through the same records and the same policy. -/
theorem evaluated_of_qualityId (hdistinct : QualityDistinct digests)
    (h : evaluateRegimeQuality lang digests run arguments = .ok result)
    (h' : evaluateRegimeQuality lang digests run arguments' = .ok result') (hid : result.qualityId = result'.qualityId) :
    ∃ index tradeAttr equityAttr policy, Joined lang run index tradeAttr equityAttr ∧
      Evaluated lang digests run arguments tradeAttr equityAttr policy result ∧
      Evaluated lang digests run arguments' tradeAttr equityAttr policy result' := by
  obtain ⟨index, tradeAttr, equityAttr, policy, hjoined, h⟩ := evaluateRegimeQuality_ok_iff.mp h
  obtain ⟨_, _, _, policy', hjoined', h'⟩ := evaluateRegimeQuality_ok_iff.mp h'
  obtain ⟨_, htrades, hequity⟩ := hjoined.unique hjoined'
  subst htrades hequity
  have hsame := policy_eq_of_qualityId hdistinct h h' hid
  subst hsame
  exact ⟨index, tradeAttr, equityAttr, policy, hjoined, h, h'⟩

/-- Under equal ids two evaluations give equal artifacts exactly when no comparison tells their benchmarks apart. -/
theorem artifact_eq_iff_sameComparisons (hdistinct : QualityDistinct digests)
    (h : evaluateRegimeQuality lang digests run arguments = .ok result)
    (h' : evaluateRegimeQuality lang digests run arguments' = .ok result') (hid : result.qualityId = result'.qualityId) :
    result.artifact = result'.artifact ↔
      SameComparisons lang run arguments.benchmarkCloses arguments'.benchmarkCloses := by
  obtain ⟨index, tradeAttr, equityAttr, policy, hjoined, h, h'⟩ := evaluated_of_qualityId hdistinct h h' hid
  rw [artifact_eq_iff (slices_erase h.slices h'.slices) h.artifact h'.artifact, slices_eq_iff hjoined h.slices h'.slices]

theorem withoutBenchmark_eq (hdistinct : QualityDistinct digests)
    (h : evaluateRegimeQuality lang digests run arguments = .ok result)
    (h' : evaluateRegimeQuality lang digests run arguments' = .ok result') (hid : result.qualityId = result'.qualityId) :
    withoutBenchmark result.artifact = withoutBenchmark result'.artifact := by
  obtain ⟨_, _, _, _, _, h, h'⟩ := evaluated_of_qualityId hdistinct h h' hid
  obtain ⟨artifact, hartifact, hwithout⟩ := buildRegimeMetrics_other (slices_erase h.slices h'.slices) h.artifact
  rw [h'.artifact] at hartifact
  rw [hwithout, Except.ok.inj hartifact]

/-- Equal quality ids mean equal artifacts, for every two evaluations of the run. -/
def QualityIdentity (lang : RegimeQuality.Language D) (digests : QualityDigests) (run : SealedRun) : Prop :=
  ∀ arguments arguments' result result', evaluateRegimeQuality lang digests run arguments = .ok result →
    evaluateRegimeQuality lang digests run arguments' = .ok result' → result.qualityId = result'.qualityId →
    result.artifact = result'.artifact

theorem not_qualityIdentity (hone : lang.lt lang.zero lang.one = true)
    (hdistinct : QualityDistinct digests)
    (h : evaluateRegimeQuality lang digests run arguments = .ok result)
    (hmeasured : Measured lang run cellId first last ret) : ¬ QualityIdentity lang digests run := by
  obtain ⟨index, tradeAttr, equityAttr, policy, hjoined, h⟩ := evaluateRegimeQuality_ok_iff.mp h
  have hcomparable := (measured_iff hjoined).mp hmeasured
  obtain ⟨plain, hplain⟩ : ∃ plain, Evaluated lang digests run { arguments with benchmarkCloses := none } tradeAttr
      equityAttr policy plain := by
    apply h.withBenchmark
    intro cellId
    simp only [deltaIn, sliceDelta]
    split_ifs
    · exact ⟨none, rfl⟩
    · exact ⟨none, rfl⟩
  obtain ⟨compared, hcompared⟩ := h.withBenchmark (deltaIn_oneOn hjoined hcomparable)
  have hreturns := evaluateRegimeQuality_ok_iff.mpr ⟨index, tradeAttr, equityAttr, policy, hjoined, hplain⟩
  have hreturns' := evaluateRegimeQuality_ok_iff.mpr ⟨index, tradeAttr, equityAttr, policy, hjoined, hcompared⟩
  have hid : plain.qualityId = compared.qualityId := by
    rw [hplain.qualityId, hcompared.qualityId, buildRegimeMetrics_qualityId hplain.artifact,
      buildRegimeMetrics_qualityId hcompared.artifact]
  intro hidentity
  have hsame := (artifact_eq_iff_sameComparisons hdistinct hreturns hreturns' hid).mp
    (hidentity _ _ _ _ hreturns hreturns' hid)
  exact comparison_oneOn hone (hsame cellId first last ret hmeasured).symm

theorem qualityIdentity_of_unmeasured (hdistinct : QualityDistinct digests)
    (h : ∀ cellId first last ret, ¬ Measured lang run cellId first last ret) :
    QualityIdentity lang digests run := by
  intro arguments arguments' result result' hresult hresult' hid
  apply (artifact_eq_iff_sameComparisons hdistinct hresult hresult' hid).mpr
  intro cellId first last ret hmeasured
  exact absurd hmeasured (h cellId first last ret)

end Evaluations

section Behaviour

variable {digests : BehaviourDigests} {metrics metrics' : RegimeMetrics} {arguments arguments' : BehaviourArguments}
  {profile profile' : BehaviourProfileResult} {policy : BehaviourPolicy}

theorem evaluateBehaviourProfile_withoutBenchmark :
    evaluateBehaviourProfile lang digests (withoutBenchmark metrics) arguments =
      evaluateBehaviourProfile lang digests metrics arguments := by
  have hregimes (policy : BehaviourPolicy) (evidenceTrusted : Bool) :
      ((withoutBenchmark metrics).regimes.mapM fun row => behaviourRow lang policy evidenceTrusted row.1) =
        metrics.regimes.mapM fun row => behaviourRow lang policy evidenceTrusted row.1 := by
    simp only [withoutBenchmark, List.mapM_map]
    rfl
  simp only [evaluateBehaviourProfile, hregimes]
  rfl

def evidenceRow (evidence : TradeEvidence) : TradeRow where
  exitTime := evidence.exitTime
  netPnl := evidence.netPnl
  fees := evidence.fees
  slippageCost := evidence.slippageCost
  funding := evidence.funding
  quantity := evidence.quantity
  entryFillPrice := evidence.entryFillPrice

theorem buildTransitionRiskProfile_evidence {transitions : List TransitionRow} {dayEvents : List DayEventRow}
    {trades : List TradeRow} {evidenceTrusted : Bool} :
    buildTransitionRiskProfile lang transitions dayEvents trades policy evidenceTrusted =
      buildTransitionRiskProfile lang transitions dayEvents ((trades.map tradeEvidence).map evidenceRow) policy
        evidenceTrusted := by
  have hwindow (window : Window D) : trades.foldlM (windowTrade lang (eventByDay dayEvents)) window =
      ((trades.map tradeEvidence).map evidenceRow).foldlM (windowTrade lang (eventByDay dayEvents)) window := by
    rw [List.foldlM_map, List.foldlM_map]
    rfl
  simp only [buildTransitionRiskProfile, hwindow]

def transitionsOf (arguments : BehaviourArguments) : List TransitionRow :=
  (arguments.regimeLabels.map (·.transitions)).getD []

def dayEventsOf (arguments : BehaviourArguments) : List DayEventRow :=
  (arguments.regimeLabels.map (·.dayEvents)).getD []

def tradesOf (arguments : BehaviourArguments) : List TradeRow := arguments.trades.getD []

theorem evaluateBehaviourProfile_ok (h : evaluateBehaviourProfile lang digests metrics arguments = .ok profile) :
    ∃ policy regimes risk,
      (metrics.regimes.mapM fun row => behaviourRow lang policy (decide (metrics.evidenceStatus = .ok)) row.1) =
        .ok regimes ∧
      buildTransitionRiskProfile lang (transitionsOf arguments) (dayEventsOf arguments) (tradesOf arguments) policy
        (decide (metrics.evidenceStatus = .ok)) = .ok risk ∧
      profile.artifact = buildBehaviourProfile digests metrics policy regimes
        (computeTransitionEvidenceHash digests (transitionsOf arguments) (dayEventsOf arguments) (tradesOf arguments))
        risk ∧
      profile.behaviourId = profile.artifact.behaviourId := by
  simp only [evaluateBehaviourProfile] at h
  split_ifs at h
  obtain ⟨policy, _, h⟩ := except_bind_eq_ok.mp h
  obtain ⟨_, _, h⟩ := except_bind_eq_ok.mp h
  obtain ⟨_, _, h⟩ := except_bind_eq_ok.mp h
  obtain ⟨_, _, h⟩ := except_bind_eq_ok.mp h
  obtain ⟨_, _, h⟩ := except_bind_eq_ok.mp h
  obtain ⟨_, _, h⟩ := except_bind_eq_ok.mp h
  obtain ⟨_, _, h⟩ := except_bind_eq_ok.mp h
  obtain ⟨_, _, h⟩ := except_bind_eq_ok.mp h
  obtain ⟨regimes, hregimes, h⟩ := except_bind_eq_ok.mp h
  obtain ⟨risk, hrisk, h⟩ := except_bind_eq_ok.mp h
  cases h
  exact ⟨policy, regimes, risk, hregimes, hrisk, rfl, rfl⟩

theorem pins_eq_of_behaviourId (hdistinct : BehaviourDistinct digests) {policy policy' : BehaviourPolicy}
    {regimes regimes' : List RegimeBehaviourRow} {hash hash' : String} {risk risk' : TransitionRisk}
    (hid : (buildBehaviourProfile digests metrics policy regimes hash risk).behaviourId =
      (buildBehaviourProfile digests metrics' policy' regimes' hash' risk').behaviourId) :
    metrics.qualityId = metrics'.qualityId ∧ policy = policy' ∧ hash = hash' := by
  have hpins := hdistinct.behaviour ((String.append_right_inj _).mp hid)
  exact ⟨congrArg BehaviourPins.qualityId hpins, hdistinct.policy (congrArg BehaviourPins.policyContentHash hpins),
    congrArg BehaviourPins.transitionEvidenceHash hpins⟩

theorem behaviourProfile_eq_same (hdistinct : BehaviourDistinct digests)
    (h : evaluateBehaviourProfile lang digests metrics arguments = .ok profile)
    (h' : evaluateBehaviourProfile lang digests metrics arguments' = .ok profile')
    (hid : profile.behaviourId = profile'.behaviourId) : profile.artifact = profile'.artifact := by
  obtain ⟨policy, regimes, risk, hregimes, hrisk, hartifact, hown⟩ := evaluateBehaviourProfile_ok h
  obtain ⟨policy', regimes', risk', hregimes', hrisk', hartifact', hown'⟩ := evaluateBehaviourProfile_ok h'
  rw [hown, hown', hartifact, hartifact'] at hid
  obtain ⟨_, hpolicy, hhash⟩ := pins_eq_of_behaviourId hdistinct hid
  subst hpolicy
  have hsameRegimes : regimes = regimes' := Except.ok.inj (hregimes.symm.trans hregimes')
  have hevidence := hdistinct.evidence hhash
  simp only [TransitionEvidence.mk.injEq] at hevidence
  obtain ⟨hevents, htrades, htransitions⟩ := hevidence
  rw [buildTransitionRiskProfile_evidence, hevents, htrades, htransitions, ← buildTransitionRiskProfile_evidence,
    hrisk'] at hrisk
  rw [hartifact, hartifact', hhash, hsameRegimes, Except.ok.inj hrisk]

theorem behaviourProfile_eq (hdistinct : BehaviourDistinct digests)
    (hmetrics : metrics.qualityId = metrics'.qualityId → withoutBenchmark metrics = withoutBenchmark metrics')
    (h : evaluateBehaviourProfile lang digests metrics arguments = .ok profile)
    (h' : evaluateBehaviourProfile lang digests metrics' arguments' = .ok profile')
    (hid : profile.behaviourId = profile'.behaviourId) : profile.artifact = profile'.artifact := by
  have hquality : metrics.qualityId = metrics'.qualityId := by
    obtain ⟨_, _, _, _, _, hartifact, hown⟩ := evaluateBehaviourProfile_ok h
    obtain ⟨_, _, _, _, _, hartifact', hown'⟩ := evaluateBehaviourProfile_ok h'
    have hids := hid
    rw [hown, hown', hartifact, hartifact'] at hids
    exact (pins_eq_of_behaviourId hdistinct hids).1
  rw [← evaluateBehaviourProfile_withoutBenchmark, hmetrics hquality, evaluateBehaviourProfile_withoutBenchmark] at h
  exact behaviourProfile_eq_same hdistinct h h' hid

end Behaviour

section Identity

variable {digests : QualityDigests} {behaviourDigests : BehaviourDigests} {run : SealedRun}

def BehaviourIdentity (lang : RegimeQuality.Language D) (digests : QualityDigests) (behaviourDigests : BehaviourDigests)
    (run : SealedRun) : Prop :=
  ∀ arguments arguments' result result', evaluateRegimeQuality lang digests run arguments = .ok result →
    evaluateRegimeQuality lang digests run arguments' = .ok result' →
    ∀ behaviourArguments behaviourArguments' profile profile',
      evaluateBehaviourProfile lang behaviourDigests result.artifact behaviourArguments = .ok profile →
      evaluateBehaviourProfile lang behaviourDigests result'.artifact behaviourArguments' = .ok profile' →
      profile.behaviourId = profile'.behaviourId → profile.artifact = profile'.artifact

theorem evaluated_qualityId {arguments : QualityArguments D} {result : RegimeQualityResult D}
    (h : evaluateRegimeQuality lang digests run arguments = .ok result) :
    result.qualityId = result.artifact.qualityId := by
  obtain ⟨_, _, _, _, _, h⟩ := evaluateRegimeQuality_ok_iff.mp h
  exact h.qualityId

theorem behaviourIdentity (hdistinct : QualityDistinct digests) (hbehaviour : BehaviourDistinct behaviourDigests) :
    BehaviourIdentity lang digests behaviourDigests run := by
  intro arguments arguments' result result' hresult hresult' behaviourArguments behaviourArguments' profile profile' h h'
  apply behaviourProfile_eq hbehaviour _ h h'
  intro hid
  rw [← evaluated_qualityId hresult, ← evaluated_qualityId hresult'] at hid
  exact withoutBenchmark_eq hdistinct hresult hresult' hid

/-- A run's quality ids bind its artifacts exactly when none of its cells can be compared with a benchmark; its
behaviour ids always bind their profiles. -/
theorem evidence_identity (lang : RegimeQuality.Language D) (hone : lang.lt lang.zero lang.one = true)
    (digests : QualityDigests) (behaviourDigests : BehaviourDigests) (hdistinct : QualityDistinct digests)
    (hbehaviour : BehaviourDistinct behaviourDigests) (run : SealedRun) :
    ((∃ arguments result, evaluateRegimeQuality lang digests run arguments = .ok result) →
      (QualityIdentity lang digests run ∧ BehaviourIdentity lang digests behaviourDigests run ↔
        ∀ cellId first last ret, ¬ Measured lang run cellId first last ret)) ∧
    (∀ arguments arguments' result result', evaluateRegimeQuality lang digests run arguments = .ok result →
      evaluateRegimeQuality lang digests run arguments' = .ok result' → result.qualityId = result'.qualityId →
      (result.artifact = result'.artifact ↔
        SameComparisons lang run arguments.benchmarkCloses arguments'.benchmarkCloses)) ∧
    BehaviourIdentity lang digests behaviourDigests run := by
  refine ⟨?_, ?_, behaviourIdentity hdistinct hbehaviour⟩
  · rintro ⟨arguments, result, h⟩
    constructor
    · intro hidentity cellId first last ret hmeasured
      exact not_qualityIdentity hone hdistinct h hmeasured hidentity.1
    · intro hunmeasured
      exact ⟨qualityIdentity_of_unmeasured hdistinct hunmeasured, behaviourIdentity hdistinct hbehaviour⟩
  · intro arguments arguments' result result' h h' hid
    exact artifact_eq_iff_sameComparisons hdistinct h h' hid

end Identity

section Sample

def wholeNumbers : RegimeQuality.Language ℤ where
  decimal text := if text = "100" then some 100 else if text = "0" then some 0 else none
  fromIsoFormat text := if text = "2024-01-01" then some 0 else if text = "2024-01-02" then some 1 else none
  int _ := some 0
  ofInt n := n
  text n := if n = 0 then "0" else if n = -1 then "-1" else "1"
  add a b := a + b
  sub a b := a - b
  mul a b := a * b
  div a b := a / b
  abs a := a.natAbs
  pow a n := a ^ n
  sqrt a := a
  quantize a _ := a
  lt a b := a < b

def labelledDay (date : String) : DayRow where
  asOf := .string date
  trend := .string "BULL"
  vol := .string "LOW_VOL"
  status := .string "OK"

def idleRun : SealedRun where
  labels :=
    { datasetId := .string "d1"
      datasetContentHash := .string "h1"
      classificationId := .string "c1"
      classifierContentHash := .string "k1"
      dayLabels := [some (labelledDay "2024-01-01"), some (labelledDay "2024-01-02")] }
  trades := []
  equity := [⟨.string "2024-01-01", .string "100", .number "0"⟩, ⟨.string "2024-01-02", .string "100", .number "0"⟩]
  runId := "run"
  experimentId := "exp"

def sampleCloses (last : ℤ) : Dict ℤ ℤ := (Dict.set {} 0 100).set 1 last

theorem idleRun_rows (digests : QualityDigests) : ∃ result result',
    evaluateRegimeQuality wholeNumbers digests idleRun { benchmarkCloses := some (sampleCloses 100) } = .ok result ∧
    evaluateRegimeQuality wholeNumbers digests idleRun { benchmarkCloses := some (sampleCloses 200) } = .ok result' ∧
    result.qualityId = result'.qualityId ∧ result.artifact.regimes.map (·.1.benchmarkDelta) = [some "0"] ∧
    result'.artifact.regimes.map (·.1.benchmarkDelta) = [some "-1"] :=
  ⟨_, _, rfl, rfl, rfl, rfl, rfl⟩

theorem exists_distinct :
    ∃ digests behaviourDigests, QualityDistinct digests ∧ BehaviourDistinct behaviourDigests := by
  obtain ⟨scorePolicy, hscorePolicy⟩ := exists_injective_text QualityScorePolicy
  obtain ⟨quality, hquality⟩ := exists_injective_text QualityPins
  obtain ⟨policy, hpolicy⟩ := exists_injective_text BehaviourPolicy
  obtain ⟨evidence, hevidence⟩ := exists_injective_text TransitionEvidence
  obtain ⟨behaviour, hbehaviour⟩ := exists_injective_text BehaviourPins
  exact ⟨⟨scorePolicy, quality⟩, ⟨policy, evidence, behaviour⟩, ⟨hscorePolicy, hquality⟩,
    ⟨hpolicy, hevidence, hbehaviour⟩⟩

/-- The idle run has different artifacts under one id. -/
theorem benchmark_outside_quality_id : ¬ ∀ (digests : QualityDigests) (behaviourDigests : BehaviourDigests)
    (run : SealedRun), QualityDistinct digests → BehaviourDistinct behaviourDigests →
      QualityIdentity wholeNumbers digests run ∧ BehaviourIdentity wholeNumbers digests behaviourDigests run := by
  intro hall
  obtain ⟨digests, behaviourDigests, hdistinct, hbehaviour⟩ := exists_distinct
  obtain ⟨result, result', h, h', hid, hrows, hrows'⟩ := idleRun_rows digests
  have hsame := (hall digests behaviourDigests idleRun hdistinct hbehaviour).1 _ _ _ _ h h' hid
  rw [hsame, hrows'] at hrows
  exact absurd hrows (by decide)

/-- The idle run's benchmarks are told apart, and its profiles are bound. -/
theorem evidence_identity_idleRun : ∃ digests behaviourDigests,
    QualityDistinct digests ∧ BehaviourDistinct behaviourDigests ∧
      ¬ SameComparisons wholeNumbers idleRun (some (sampleCloses 100)) (some (sampleCloses 200)) ∧
      BehaviourIdentity wholeNumbers digests behaviourDigests idleRun := by
  obtain ⟨digests, behaviourDigests, hdistinct, hbehaviour⟩ := exists_distinct
  obtain ⟨_, hpairs, hprofiles⟩ := evidence_identity wholeNumbers (by decide) digests behaviourDigests hdistinct
    hbehaviour idleRun
  obtain ⟨result, result', h, h', hid, hrows, hrows'⟩ := idleRun_rows digests
  refine ⟨digests, behaviourDigests, hdistinct, hbehaviour, ?_, hprofiles⟩
  intro hsame
  rw [(hpairs _ _ _ _ h h' hid).mpr hsame, hrows'] at hrows
  exact absurd hrows (by decide)

end Sample

end TradingBot.Research.EvidenceIdentity
