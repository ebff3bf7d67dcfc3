import TradingBot.Research.DatasetBinding
import TradingBot.Research.Metrics
import TradingBot.Backtester.Structure

namespace TradingBot.Research.RunIdentity

open Market.Models Market.ContentHash Exceptions Library.Outcome Library.Dictionary
open Backtester.Models Backtester.Simulation Backtester.Metrics Backtester.Structure
open Research.Models Research.Metrics Research.DatasetBinding

section Run

def runBound (spec : ExperimentSpec) (filtered : HistoricalDataBundle) :
    Except Exc (BacktestResult × ResearchMetrics) := do
  let config ← configFromSpec spec
  let (result, m) ← runWithMetrics config filtered
  let metrics ← metricsFromResult spec result m filtered
  pure (result, metrics)

def researchRun (sha256 : List CandleRow → String) (manifests : String → Except Exc DatasetManifest)
    (spec : ExperimentSpec) (bundle : HistoricalDataBundle) : Except Exc (BacktestResult × ResearchMetrics) := do
  requireCostFields spec
  let (_, filtered, _) ← bindDatasetToBundle sha256 manifests spec bundle
  runBound spec filtered

end Run

section Funding

variable {config : BacktestConfig} {bundle : HistoricalDataBundle} (funding : String → List FundingEvent)

/-- Without an assumed rate the events of the history would be charged. -/
def UsesEvents (model : FundingModel) : Prop := model.enabled = true ∧ model.assumedRate = none

theorem applyStep_funding (hrate : config.fundingModel.assumedRate ≠ none) (rt : Runtime) (step : Step) :
    applyStep config { bundle with funding } rt step = applyStep config bundle rt step := by
  cases step with
  | funding t symbol =>
    obtain ⟨rate, hrate⟩ := Option.ne_none_iff_exists'.mp hrate
    have hrates : ∀ candle, fundingRates config { bundle with funding } symbol candle =
        fundingRates config bundle symbol candle := by
      intro candle
      simp only [fundingRates, hrate]
    simp only [applyStep, applyFunding, hrates]
    rfl
  | fill t symbol => rfl
  | stop t symbol => rfl
  | strategy t symbol => rfl
  | trailing t evalTime symbol => rfl
  | snapshot t evalTime => rfl

theorem applyStep_of_mem_steps (henabled : config.fundingModel.enabled = false) {step : Step}
    (hstep : step ∈ steps config bundle) (rt : Runtime) :
    applyStep config { bundle with funding } rt step = applyStep config bundle rt step := by
  cases step with
  | funding t symbol =>
    obtain ⟨day, -, hday⟩ := List.mem_flatMap.mp hstep
    unfold daySteps at hday
    split at hday
    · exact absurd hday List.not_mem_nil
    · simp [henabled] at hday
  | fill t symbol => rfl
  | stop t symbol => rfl
  | strategy t symbol => rfl
  | trailing t evalTime symbol => rfl
  | snapshot t evalTime => rfl

theorem runWithMetrics_funding (h : ¬UsesEvents config.fundingModel) :
    runWithMetrics config { bundle with funding } = runWithMetrics config bundle := by
  have hsteps : runSteps config { bundle with funding } (steps config { bundle with funding }) =
      runSteps config bundle (steps config bundle) := by
    refine foldlM_congr ?_ _
    intro step hmem rt
    have hstep : step ∈ steps config bundle := hmem
    cases henabled : config.fundingModel.enabled with
    | false => exact applyStep_of_mem_steps funding henabled hstep rt
    | true => exact applyStep_funding funding (fun hnone => h ⟨henabled, hnone⟩) rt step
  unfold runWithMetrics
  rw [hsteps]
  rfl

theorem configFromSpec_fundingModel {spec : ExperimentSpec} (h : configFromSpec spec = .ok config) :
    ¬UsesEvents config.fundingModel := by
  unfold configFromSpec at h
  obtain ⟨_, hcosts, h⟩ := except_bind_eq_ok.mp h
  have hmodel : config.fundingModel = fundingModelOf spec := by
    simp only [bind, Except.bind, pure, Except.pure, throw, throwThe, MonadExceptOf.throw] at h
    split_ifs at h
    cases h
    rfl
  rw [hmodel]
  rintro ⟨henabled, hnone⟩
  exact assumedRate_of_requireCostFields hcosts henabled hnone

theorem runBound_funding (spec : ExperimentSpec) :
    runBound spec { bundle with funding } = runBound spec bundle := by
  unfold runBound
  cases hconfig : configFromSpec spec with
  | error e => rfl
  | ok config =>
    simp only [bind, Except.bind]
    rw [runWithMetrics_funding funding (configFromSpec_fundingModel hconfig)]
    rfl

end Funding

section Filing

variable {symbols : List String} {bundle bundle' : HistoricalDataBundle} {symbol : String}

def series (bundle : HistoricalDataBundle) : Timeframe → String → List (CandleOf String)
  | .daily => bundle.daily
  | .weekly => bundle.weekly
  | .monthly => bundle.monthly

/-- A bundle whose candles are filed under their own symbol and timeframe, in the order of their open times and
no time twice, with numbers of no more digits than the hash keeps. -/
structure Filed (symbols : List String) (bundle : HistoricalDataBundle) : Prop where
  own : ∀ s ∈ symbols, ∀ tf, ∀ c ∈ series bundle tf s, c.symbol = s ∧ c.timeframe = tf
  rising : ∀ s ∈ symbols, ∀ tf, (series bundle tf s).Pairwise fun a b => a.openTime < b.openTime
  exact : ∀ s ∈ symbols, ∀ tf, ∀ c ∈ series bundle tf s, Exact c

def rowsOf (symbol : String) (tf : Timeframe) (candles : List (CandleOf String)) : List (CandleOf String) :=
  candles.filter fun c => c.symbol = symbol ∧ c.timeframe = tf

theorem mem_symbolCandles {c : CandleOf String} :
    c ∈ symbolCandles bundle symbols ↔ ∃ s ∈ symbols, ∃ tf, c ∈ series bundle tf s := by
  simp only [symbolCandles, List.mem_flatMap, List.mem_append]
  constructor
  · rintro ⟨s, hs, (h | h) | h⟩
    · exact ⟨s, hs, .daily, h⟩
    · exact ⟨s, hs, .weekly, h⟩
    · exact ⟨s, hs, .monthly, h⟩
  · rintro ⟨s, hs, tf, h⟩
    cases tf with
    | daily => exact ⟨s, hs, .inl (.inl h)⟩
    | weekly => exact ⟨s, hs, .inl (.inr h)⟩
    | monthly => exact ⟨s, hs, .inr h⟩

theorem rowsOf_series (h : Filed symbols bundle) {s : String} (hs : s ∈ symbols) (tf tf' : Timeframe) :
    rowsOf symbol tf (series bundle tf' s) = if s = symbol ∧ tf' = tf then series bundle tf s else [] := by
  unfold rowsOf
  split_ifs with hsame
  · obtain ⟨rfl, rfl⟩ := hsame
    exact List.filter_eq_self.mpr fun c hc => decide_eq_true (h.own s hs tf' c hc)
  · refine List.filter_eq_nil_iff.mpr fun c hc hown => hsame ?_
    obtain ⟨hsymbol, htf⟩ := h.own s hs tf' c hc
    obtain ⟨hsymbol', htf'⟩ := of_decide_eq_true hown
    exact ⟨hsymbol.symm.trans hsymbol', htf.symm.trans htf'⟩

theorem rowsOf_symbolCandles (h : Filed symbols bundle) (hnodup : symbols.Nodup) (hsymbol : symbol ∈ symbols)
    (tf : Timeframe) : rowsOf symbol tf (symbolCandles bundle symbols) = series bundle tf symbol := by
  have hone : ∀ s ∈ symbols, rowsOf symbol tf (bundle.daily s ++ bundle.weekly s ++ bundle.monthly s) =
      if s = symbol then series bundle tf symbol else [] := by
    intro s hs
    have happend : ∀ l l' : List (CandleOf String), rowsOf symbol tf (l ++ l') =
        rowsOf symbol tf l ++ rowsOf symbol tf l' := fun l l' => List.filter_append ..
    have hrows : ∀ tf', rowsOf symbol tf (series bundle tf' s) =
        if s = symbol ∧ tf' = tf then series bundle tf s else [] := fun tf' => rowsOf_series h hs tf tf'
    have hdaily := hrows .daily
    have hweekly := hrows .weekly
    have hmonthly := hrows .monthly
    simp only [series] at hdaily hweekly hmonthly
    rw [happend, happend, hdaily, hweekly, hmonthly]
    by_cases hsame : s = symbol
    · subst hsame
      cases tf <;> simp [series]
    · simp [hsame]
  have hflat : rowsOf symbol tf (symbolCandles bundle symbols) =
      symbols.flatMap fun s => if s = symbol then series bundle tf symbol else [] := by
    unfold symbolCandles
    rw [rowsOf, List.filter_flatMap]
    exact List.flatMap_congr hone
  rw [hflat]
  clear hflat hone h
  induction symbols with
  | nil => exact absurd hsymbol List.not_mem_nil
  | cons s symbols ih =>
    rw [List.nodup_cons] at hnodup
    rw [List.flatMap_cons]
    rcases List.mem_cons.mp hsymbol with rfl | hmem
    · have hrest : (symbols.flatMap fun s => if s = symbol then series bundle tf symbol else []) = [] := by
        rw [List.flatMap_eq_nil_iff]
        intro s hs
        exact if_neg fun heq : s = symbol => hnodup.1 (heq ▸ hs)
      rw [hrest, if_pos rfl, List.append_nil]
    · have hne : s ≠ symbol := fun heq => hnodup.1 (heq ▸ hmem)
      rw [if_neg hne, List.nil_append]
      exact ih hnodup.2 hmem

theorem toNormalized_ok {c : CandleOf String} {n : Candle} (h : toNormalized c = .ok n) :
    c = { n with symbol := n.symbol.value } := by
  unfold toNormalized at h
  cases hvalue : Symbol.ofValue c.symbol with
  | none =>
    rw [hvalue] at h
    cases h
  | some symbol =>
    rw [hvalue] at h
    cases h
    have hname : symbol.value = c.symbol := by simpa using List.find?_some hvalue
    cases c
    simp only at hname
    rw [hname]

theorem symbolCandles_eq_map {candles : List Candle}
    (h : (symbolCandles bundle symbols).mapM toNormalized = .ok candles) :
    symbolCandles bundle symbols = candles.map fun n => { n with symbol := n.symbol.value } :=
  eq_map_of_mapM_ok (fun _ _ => toNormalized_ok) h

theorem exact_of_normalized (hfiled : Filed symbols bundle) {candles : List Candle}
    (h : (symbolCandles bundle symbols).mapM toNormalized = .ok candles) : ∀ n ∈ candles, Exact n := by
  intro n hn
  obtain ⟨c, hc, hnormal⟩ := mapM_ok_mem h hn
  obtain ⟨s, hs, tf, hseries⟩ := mem_symbolCandles.mp hc
  have hexact := hfiled.exact s hs tf c hseries
  rw [toNormalized_ok hnormal] at hexact
  exact ⟨hexact.openPrice, hexact.high, hexact.low, hexact.close, hexact.volume⟩

theorem series_eq_of_hash_eq {sha256 : List CandleRow → String} (hsha : Function.Injective sha256)
    (hnodup : symbols.Nodup) (hfiled : Filed symbols bundle) (hfiled' : Filed symbols bundle') {hash : String}
    (h : hashResearchBundle sha256 bundle symbols = .ok hash)
    (h' : hashResearchBundle sha256 bundle' symbols = .ok hash) (hsymbol : symbol ∈ symbols) (tf : Timeframe) :
    series bundle tf symbol = series bundle' tf symbol := by
  obtain ⟨candles, hcandles, h⟩ := except_bind_eq_ok.mp h
  obtain ⟨candles', hcandles', h'⟩ := except_bind_eq_ok.mp h'
  have hsame : hashNormalizedCandles sha256 candles = hashNormalizedCandles sha256 candles' :=
    (Except.ok.inj h).trans (Except.ok.inj h').symm
  have hperm : (symbolCandles bundle symbols).Perm (symbolCandles bundle' symbols) := by
    rw [symbolCandles_eq_map hcandles, symbolCandles_eq_map hcandles']
    exact (perm_of_hash_eq hsha (exact_of_normalized hfiled hcandles) (exact_of_normalized hfiled' hcandles')
      hsame).map _
  have hrows : (series bundle tf symbol).Perm (series bundle' tf symbol) := by
    rw [← rowsOf_symbolCandles hfiled hnodup hsymbol, ← rowsOf_symbolCandles hfiled' hnodup hsymbol]
    exact hperm.filter _
  exact eq_of_perm_of_rising hrows (hfiled.rising symbol hsymbol tf) (hfiled'.rising symbol hsymbol tf)

end Filing

section Identity

variable {spec : ExperimentSpec} {bundle bundle' filtered filtered' : HistoricalDataBundle}
  {manifest : DatasetManifest} {sha256 : List CandleRow → String}

theorem series_slice (h : Bound sha256 spec bundle manifest filtered) {s : String}
    (hs : s ∈ spec.symbolNames) (tf : Timeframe) :
    series (filterBundleToTimeRange bundle ⟨manifest.startTimestamp, manifest.endTimestamp⟩ spec.symbolNames)
      tf s = series bundle tf s := by
  have hall : ∀ c ∈ series bundle tf s,
      candleInRange c ⟨manifest.startTimestamp, manifest.endTimestamp⟩ = true := fun c hc =>
    h.inWindow c (mem_symbolCandles.mpr ⟨s, hs, tf, hc⟩)
  cases tf with
  | daily => exact (if_pos hs).trans (List.filter_eq_self.mpr hall)
  | weekly => exact (if_pos hs).trans (List.filter_eq_self.mpr hall)
  | monthly => exact (if_pos hs).trans (List.filter_eq_self.mpr hall)

theorem filed_slice (h : Bound sha256 spec bundle manifest filtered)
    (hfiled : Filed spec.symbolNames bundle) :
    Filed spec.symbolNames (filterBundleToTimeRange bundle ⟨manifest.startTimestamp, manifest.endTimestamp⟩
      spec.symbolNames) where
  own s hs tf c hc := hfiled.own s hs tf c (series_slice h hs tf ▸ hc)
  rising s hs tf := by
    rw [series_slice h hs tf]
    exact hfiled.rising s hs tf
  exact s hs tf c hc := hfiled.exact s hs tf c (series_slice h hs tf ▸ hc)

theorem symbolNames_nodup (spec : ExperimentSpec) : spec.symbolNames.Nodup := by
  refine spec.distinct.map ?_
  intro a b hab
  cases a <;> cases b <;> first | rfl | exact absurd hab (by decide)

theorem filterBundleToTimeRange_eq {range : TimeRange} {symbols : List String}
    (h : ∀ s ∈ symbols, ∀ tf, series bundle tf s = series bundle' tf s) :
    filterBundleToTimeRange bundle range symbols =
      { filterBundleToTimeRange bundle' range symbols with
        funding := (filterBundleToTimeRange bundle range symbols).funding } := by
  have hcut : ∀ tf s, (if s ∈ symbols then (series bundle tf s).filter (candleInRange · range) else []) =
      if s ∈ symbols then (series bundle' tf s).filter (candleInRange · range) else [] := by
    intro tf s
    by_cases hs : s ∈ symbols
    · rw [if_pos hs, if_pos hs, h s hs tf]
    · rw [if_neg hs, if_neg hs]
  unfold filterBundleToTimeRange
  congr 1
  · exact funext (hcut .daily)
  · exact funext (hcut .weekly)
  · exact funext (hcut .monthly)

/-- Two filed bundles that bind to one manifest give the same trades, equity curve and metrics. -/
theorem run_identity_determines_result (sha256 : List CandleRow → String) (hsha : Function.Injective sha256)
    (manifests manifests' : String → Except Exc DatasetManifest) (spec : ExperimentSpec)
    (bundle bundle' filtered filtered' : HistoricalDataBundle) (manifest : DatasetManifest)
    (hash hash' : String)
    (hbind : bindDatasetToBundle sha256 manifests spec bundle = .ok (manifest, filtered, hash))
    (hbind' : bindDatasetToBundle sha256 manifests' spec bundle' = .ok (manifest, filtered', hash'))
    (hfiled : Filed spec.symbolNames bundle) (hfiled' : Filed spec.symbolNames bundle') :
    researchRun sha256 manifests spec bundle = researchRun sha256 manifests' spec bundle' := by
  have hbound := (bindDatasetToBundle_ok hbind).1
  have hbound' := (bindDatasetToBundle_ok hbind').1
  have hseries : ∀ s ∈ spec.symbolNames, ∀ tf, series bundle tf s = series bundle' tf s := by
    intro s hs tf
    have h := series_eq_of_hash_eq hsha (symbolNames_nodup spec) (filed_slice hbound hfiled)
      (filed_slice hbound' hfiled') hbound.hash hbound'.hash hs tf
    rwa [series_slice hbound hs tf, series_slice hbound' hs tf] at h
  have hruns : runBound spec filtered = runBound spec filtered' := by
    rw [hbound.filtered, hbound'.filtered, filterBundleToTimeRange_eq hseries]
    exact runBound_funding _ spec
  unfold researchRun
  simp only [hbind, hbind', bind, Except.bind, hruns]

end Identity

section Sample

def pinnedSpec (contentHash : String) : ExperimentSpec where
  parameters := sampleConfig.strategyParams
  datasetManifestRef := { datasetId := "sample", contentHash, manifestPath := some "manifest.json" }
  symbols := [.BTC]
  timeRange := ⟨-60 * day, 3 * day⟩
  startingCapital := 100000
  feeAssumption := { entryFeeRate := 5 / 10000, exitFeeRate := 5 / 10000 }
  slippageAssumption := { slippageBps := 5 }
  fundingAssumption := {}
  symbolConstraints := Dict.set {} "BTC"
    { quantityStep := 1 / 1000, minimumQuantity := 1 / 1000, priceTickSize := 1 / 10 }
  benchmark := "buy_and_hold_BTC"

def pinnedManifest (contentHash : String) : DatasetManifest where
  symbols := [.BTC]
  startTimestamp := -60 * day
  endTimestamp := 3 * day
  contentHash
  datasetId := "sample"

def window : TimeRange := ⟨-60 * day, 3 * day⟩

structure Matches (rows : List CandleRow) (bundle : HistoricalDataBundle) : Prop where
  inWindow : (symbolCandles bundle ["BTC"]).all (candleInRange · window) = true
  daily : (["BTC"].any fun s => !((filterBundleToTimeRange bundle window ["BTC"]).daily s).isEmpty) = true
  rows : (((symbolCandles (filterBundleToTimeRange bundle window ["BTC"]) ["BTC"]).mapM toNormalized).map
    fun candles => sortCandleRows (candles.map canonicalCandleRow)).toOption = some rows

theorem Matches.bind {rows : List CandleRow} {bundle : HistoricalDataBundle} (h : Matches rows bundle)
    (sha256 : List CandleRow → String) :
    bindDatasetToBundle sha256 (fun _ => .ok (pinnedManifest (sha256 rows))) (pinnedSpec (sha256 rows)) bundle =
      .ok (pinnedManifest (sha256 rows), filterBundleToTimeRange bundle window ["BTC"], sha256 rows) := by
  have hhash : hashResearchBundle sha256 (filterBundleToTimeRange bundle window ["BTC"]) ["BTC"] =
      .ok (sha256 rows) := by
    have hrows := h.rows
    unfold hashResearchBundle
    cases hcandles : (symbolCandles (filterBundleToTimeRange bundle window ["BTC"]) ["BTC"]).mapM
        toNormalized with
    | error e =>
      rw [hcandles] at hrows
      cases hrows
    | ok candles =>
      rw [hcandles] at hrows
      exact congrArg (fun r => Except.ok (sha256 r)) (Option.some.inj hrows)
  refine except_bind_eq_ok.mpr ⟨"manifest.json", rfl, ?_⟩
  refine except_bind_eq_ok.mpr ⟨pinnedManifest (sha256 rows), rfl, ?_⟩
  refine except_bind_eq_ok.mpr ⟨(), rfl, ?_⟩
  refine except_bind_eq_ok.mpr ⟨(), ensure_ok (decide_eq_true rfl), ?_⟩
  refine except_bind_eq_ok.mpr ⟨(), ensure_ok (decide_eq_true rfl), ?_⟩
  refine except_bind_eq_ok.mpr ⟨(), ensure_ok rfl, ?_⟩
  refine except_bind_eq_ok.mpr ⟨(), ensure_ok (decide_eq_true le_rfl), ?_⟩
  refine except_bind_eq_ok.mpr ⟨(), ensure_ok (decide_eq_true le_rfl), ?_⟩
  refine except_bind_eq_ok.mpr ⟨(), ensure_ok h.inWindow, ?_⟩
  refine except_bind_eq_ok.mpr ⟨(), ensure_ok h.daily, ?_⟩
  refine except_bind_eq_ok.mpr ⟨sha256 rows, hhash, ?_⟩
  refine except_bind_eq_ok.mpr ⟨(), ensure_ok (decide_eq_true rfl), ?_⟩
  refine except_bind_eq_ok.mpr ⟨(), ensure_ok h.daily, ?_⟩
  rfl

def reversedBundle : HistoricalDataBundle :=
  { sampleBundle 0 with daily := fun s => ((sampleBundle 0).daily s).reverse }

def sampleRows : List CandleRow :=
  sortCandleRows (((symbolCandles (sampleBundle 0) ["BTC"]).filterMap fun c =>
    (toNormalized c).toOption).map canonicalCandleRow)

theorem matches_sampleBundle : Matches sampleRows (sampleBundle 0) where
  inWindow := by decide +kernel
  daily := by decide +kernel
  rows := by decide +kernel

theorem matches_reversedBundle : Matches sampleRows reversedBundle where
  inWindow := by decide +kernel
  daily := by decide +kernel
  rows := by decide +kernel

theorem filed_sampleBundle : Filed ["BTC"] (sampleBundle 0) where
  own := by
    intro s hs tf
    rw [List.mem_singleton.mp hs]
    cases tf <;> decide +kernel
  rising := by
    intro s hs tf
    rw [List.mem_singleton.mp hs]
    cases tf <;> decide +kernel
  exact := by
    intro s hs tf
    rw [List.mem_singleton.mp hs]
    cases tf <;> decide +kernel

theorem runBound_pinnedSpec (contentHash : String) (filtered : HistoricalDataBundle) :
    runBound (pinnedSpec contentHash) filtered = runBound (pinnedSpec "") filtered := rfl

theorem requireCostFields_pinnedSpec (contentHash : String) :
    requireCostFields (pinnedSpec contentHash) = .ok () := by
  have hcosts : (requireCostFields (pinnedSpec "")).toOption = some () := by
    decide +kernel
  change requireCostFields (pinnedSpec "") = .ok ()
  cases hresult : requireCostFields (pinnedSpec "") with
  | error e =>
    rw [hresult] at hcosts
    cases hcosts
  | ok u => rfl

theorem Matches.researchRun {rows : List CandleRow} {bundle : HistoricalDataBundle} (h : Matches rows bundle)
    (sha256 : List CandleRow → String) :
    RunIdentity.researchRun sha256 (fun _ => .ok (pinnedManifest (sha256 rows))) (pinnedSpec (sha256 rows))
      bundle = runBound (pinnedSpec "") (filterBundleToTimeRange bundle window ["BTC"]) := by
  unfold RunIdentity.researchRun
  rw [h.bind sha256, requireCostFields_pinnedSpec]
  exact runBound_pinnedSpec _ _

theorem runBound_check (bundle : HistoricalDataBundle) (p : BacktestResult × ResearchMetrics → Prop)
    [DecidablePred p]
    (h : ((runBound (pinnedSpec "") (filterBundleToTimeRange bundle window ["BTC"])).toOption.any
      fun r => decide (p r)) = true) :
    ∃ r, runBound (pinnedSpec "") (filterBundleToTimeRange bundle window ["BTC"]) = .ok r ∧ p r := by
  obtain ⟨r, hrun, hr⟩ := exists_of_any h
  exact ⟨r, hrun, of_decide_eq_true hr⟩

/-- The reversed history has the hash of the sample, and the run over it trades nothing. -/
theorem reversed_run_differs : ∃ (sha256 : List CandleRow → String)
    (manifests : String → Except Exc DatasetManifest) (spec : ExperimentSpec) (manifest : DatasetManifest)
    (filtered filtered' : HistoricalDataBundle) (hash hash' : String) (r r' : BacktestResult × ResearchMetrics),
    Function.Injective sha256 ∧
    bindDatasetToBundle sha256 manifests spec (sampleBundle 0) = .ok (manifest, filtered, hash) ∧
    bindDatasetToBundle sha256 manifests spec reversedBundle = .ok (manifest, filtered', hash') ∧
    researchRun sha256 manifests spec (sampleBundle 0) = .ok r ∧
    researchRun sha256 manifests spec reversedBundle = .ok r' ∧
    r.1.trades ≠ r'.1.trades ∧ r.1.equityCurve ≠ r'.1.equityCurve ∧
    r.2.benchmarkResult ≠ r'.2.benchmarkResult := by
  obtain ⟨sha256, hsha⟩ := exists_injective_digest
  obtain ⟨r, hr, htrades, hcurve, hbenchmark⟩ := runBound_check (sampleBundle 0)
    (fun r => r.1.trades.length = 1 ∧ (r.1.equityCurve.getLast?.map (·.equity)) ≠ some 100000 ∧
      r.2.benchmarkResult = some (514261 / 3480000)) (by decide +kernel)
  obtain ⟨r', hr', htrades', hcurve', hbenchmark'⟩ := runBound_check reversedBundle
    (fun r => r.1.trades.length = 0 ∧ (r.1.equityCurve.getLast?.map (·.equity)) = some 100000 ∧
      r.2.benchmarkResult ≠ some (514261 / 3480000)) (by decide +kernel)
  refine ⟨sha256, _, _, _, _, _, _, _, r, r', hsha, matches_sampleBundle.bind sha256,
    matches_reversedBundle.bind sha256, (matches_sampleBundle.researchRun sha256).trans hr,
    (matches_reversedBundle.researchRun sha256).trans hr', ?_, ?_, ?_⟩
  · intro heq
    rw [heq, htrades'] at htrades
    exact absurd htrades (by decide)
  · intro heq
    rw [heq] at hcurve
    exact hcurve hcurve'
  · rw [hbenchmark]
    exact hbenchmark'.symm

/-- Two histories that differ in their funding events, with the same results. -/
theorem funding_events_do_not_matter : ∃ (sha256 : List CandleRow → String)
    (manifests : String → Except Exc DatasetManifest) (spec : ExperimentSpec),
    (sampleBundle 0).funding "BTC" ≠ (sampleBundle 1).funding "BTC" ∧
    researchRun sha256 manifests spec (sampleBundle 0) = researchRun sha256 manifests spec (sampleBundle 1) := by
  obtain ⟨sha256, hsha⟩ := exists_injective_digest
  have hmatches : Matches sampleRows (sampleBundle 1) :=
    ⟨matches_sampleBundle.inWindow, matches_sampleBundle.daily, matches_sampleBundle.rows⟩
  have hfiled : Filed ["BTC"] (sampleBundle 1) :=
    ⟨filed_sampleBundle.own, filed_sampleBundle.rising, filed_sampleBundle.exact⟩
  exact ⟨sha256, _, _, by decide +kernel, run_identity_determines_result sha256 hsha _ _ _ (sampleBundle 0)
    (sampleBundle 1) _ _ _ _ _ (matches_sampleBundle.bind sha256) (hmatches.bind sha256) filed_sampleBundle
    hfiled⟩

end Sample

end TradingBot.Research.RunIdentity
