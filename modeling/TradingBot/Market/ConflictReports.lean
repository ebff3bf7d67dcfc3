import TradingBot.Market.ClosedCandles
import TradingBot.Market.RuntimeFacts
import TradingBot.Market.Service

namespace TradingBot.Market.ConflictReports

open Market.Models Market.Repository Market.Timeframes Market.Quality Market.Bundle Market.AggregatedBundle
open Market.BundleFacts Market.Provider Market.Ingest Market.IngestFacts Market.ClosedCandles Market.Service
open Market.Runtime Market.Runtime.MarketDataRuntime Market.RuntimeFacts Exceptions Library Library.Outcome

section Claimed

def Recorded (r : CandleRepository) (symbol : Symbol) (timeframe : Timeframe) : Prop :=
  conflictsFor r.conflicts symbol timeframe ≠ []

instance (r : CandleRepository) (symbol : Symbol) (timeframe : Timeframe) :
    Decidable (Recorded r symbol timeframe) := by
  unfold Recorded
  infer_instance

inductive ReportCall
  | attemptBackfill (backfill : Option BackfillProvider) (evaluationTime : Time) (limit : ℕ)
  | strategyBundle (evaluationTime : Time) (minimum : Minimums) (aggregateHigherTimeframes : Bool)
  | backfillSymbol (raws : List RawCandle) (evaluationTime : Time)
  | status (evaluationTime : Time)

def ReportCall.report (r : CandleRepository) (symbol : Symbol) (timeframe : Timeframe) :
    ReportCall → Except Exc DataQualityReport
  | .attemptBackfill backfill evaluationTime limit => do
    let (_, report) ← ({ repository := r, backfill } : MarketDataService).attemptBackfill symbol timeframe
      evaluationTime limit
    pure report
  | .strategyBundle evaluationTime minimum aggregateHigherTimeframes => do
    let bundle ← buildStrategyBundle r symbol evaluationTime minimum aggregateHigherTimeframes
    pure bundle.report
  | .backfillSymbol raws evaluationTime => do
    let g ← ingestLiveRaw r raws evaluationTime
    seriesReport g.repository evaluationTime symbol timeframe
  | .status evaluationTime => seriesReport r evaluationTime symbol timeframe

end Claimed

section Condition

def bundleSeries (r : CandleRepository) (symbol : Symbol) (evaluationTime : Time) (aggregateHigherTimeframes : Bool)
    (timeframe : Timeframe) : Except Exc (List Candle × List CandleConflict) :=
  let daily := r.getClosedBefore symbol .daily evaluationTime
  match timeframe with
  | .daily => .ok (daily, conflictsFor r.conflicts symbol .daily)
  | timeframe => do
    let (candles, merged) ← resolveHigherTimeframe r daily symbol timeframe evaluationTime aggregateHigherTimeframes
    pure (filterClosedCandles candles evaluationTime, conflictsFor r.conflicts symbol timeframe ++ merged)

def InvalidSeries (symbol : Symbol) (timeframe : Timeframe) (evaluationTime : Time)
    (series : List Candle × List CandleConflict) : Prop :=
  ∃ report, closedReport series.1 symbol timeframe evaluationTime series.2 = .ok report ∧ report.status = .invalid

def BackfillShows (backfill : BackfillProvider) (r : CandleRepository) (symbol : Symbol) (timeframe : Timeframe)
    (evaluationTime : Time) (limit : ℕ) : Prop :=
  let candles := r.getClosedBefore symbol timeframe evaluationTime
  (detectGaps candles symbol timeframe evaluationTime = .ok [] ∧
    ∃ report, validateSeries candles symbol timeframe evaluationTime [] [] = .ok report ∧ report.status = .invalid) ∨
  ∃ gaps raws s n, detectGaps candles symbol timeframe evaluationTime = .ok gaps ∧ gaps ≠ [] ∧
    backfill symbol timeframe gaps limit = .ok raws ∧ raws ≠ [] ∧
    ({ repository := r, backfill } : MarketDataService).ingestRaw raws evaluationTime (some symbol) = .ok (s, n) ∧
    detectGaps (s.repository.getClosedBefore symbol timeframe evaluationTime) symbol timeframe evaluationTime = .ok []

def ReportCall.Shows (r : CandleRepository) (symbol : Symbol) (timeframe : Timeframe) : ReportCall → Prop
  | .attemptBackfill none _ _ => False
  | .attemptBackfill (some backfill) evaluationTime limit =>
    BackfillShows backfill r symbol timeframe evaluationTime limit
  | .strategyBundle evaluationTime _ aggregateHigherTimeframes =>
    (∃ series, bundleSeries r symbol evaluationTime aggregateHigherTimeframes timeframe = .ok series ∧
      series.1 ≠ []) ∨
    ∃ other ≠ timeframe, ∃ series,
      bundleSeries r symbol evaluationTime aggregateHigherTimeframes other = .ok series ∧
      InvalidSeries symbol other evaluationTime series
  | .backfillSymbol raws evaluationTime => ∃ g, ingestLiveRaw r raws evaluationTime = .ok g ∧
      g.repository.getClosedBefore symbol timeframe evaluationTime ≠ []
  | .status evaluationTime => r.getClosedBefore symbol timeframe evaluationTime ≠ []

end Condition

section Reports

variable {candles : List Candle} {symbol : Symbol} {timeframe : Timeframe} {evaluationTime : Time}
  {gaps : List CandleGap} {conflicts : List CandleConflict} {report : DataQualityReport}

theorem statusOf_duplicateConflict {codes : List MarketDataReasonCode} (h : .duplicateConflict ∈ codes) :
    statusOf codes = .invalid := by
  have hany : codes.any invalidatingCodes.contains = true := List.any_eq_true.mpr ⟨_, h, by decide⟩
  simp only [statusOf, hany, if_true]

theorem validateSeries_nil (h : validateSeries [] symbol timeframe evaluationTime gaps conflicts = .ok report) :
    report.status = .incomplete := by
  cases h
  rfl

theorem validateSeries_conflict (h : validateSeries candles symbol timeframe evaluationTime gaps conflicts = .ok report)
    (hconflicts : conflicts ≠ []) : report.status = .invalid ↔ candles ≠ [] := by
  constructor
  · intro hinvalid hnil
    subst hnil
    rw [validateSeries_nil h] at hinvalid
    cases hinvalid
  · intro hne
    simp only [validateSeries, hne, if_false] at h
    obtain ⟨codes, _, h⟩ := except_bind_eq_ok.mp h
    cases h
    apply statusOf_duplicateConflict
    simp only [List.mem_eraseDups, List.mem_append]
    exact .inr (by simp [codeIf, hconflicts])

theorem worse_eq_invalid {worst status : Quality.DataQualityStatus} :
    (if statusPriority worst < statusPriority status then status else worst) = .invalid ↔
      worst = .invalid ∨ status = .invalid := by
  cases worst <;> cases status <;> decide

theorem worstStatus_eq_invalid (first : DataQualityReport) (rest : List DataQualityReport) :
    worstStatus first rest = .invalid ↔ ∃ r ∈ first :: rest, r.status = .invalid := by
  have hfold : ∀ (rest : List DataQualityReport) (status : Quality.DataQualityStatus),
      rest.foldl (fun worst r => if statusPriority worst < statusPriority r.status then r.status else worst) status =
        .invalid ↔ status = .invalid ∨ ∃ r ∈ rest, r.status = .invalid := by
    intro rest
    induction rest with
    | nil => simp
    | cons r rest ih =>
      intro status
      rw [List.foldl_cons, ih, worse_eq_invalid]
      simp only [List.mem_cons, exists_eq_or_imp, or_assoc]
  simp only [worstStatus, hfold, List.mem_cons, exists_eq_or_imp]

end Reports

section Bundle

variable {r : CandleRepository} {symbol : Symbol} {timeframe : Timeframe} {evaluationTime : Time}
  {minimum : Minimums} {aggregate : Bool}

theorem invalidSeries_iff {series : List Candle × List CandleConflict} {report : DataQualityReport}
    (h : closedReport series.1 symbol timeframe evaluationTime series.2 = .ok report) :
    InvalidSeries symbol timeframe evaluationTime series ↔ report.status = .invalid := by
  constructor
  · intro ⟨report', h', hinvalid⟩
    cases h.symm.trans h'
    exact hinvalid
  · intro hinvalid
    exact ⟨report, h, hinvalid⟩

theorem insufficient_invalid_iff (merged : DataQualityReport) (insufficient : Prop) [Decidable insufficient] :
    (if insufficient then
      { merged with
        status := if merged.status = .invalid then .invalid else .incomplete
        reasonCodes := (merged.reasonCodes ++ [MarketDataReasonCode.incomplete]).eraseDups }
    else merged).status = .invalid ↔ merged.status = .invalid := by
  by_cases hinvalid : merged.status = .invalid
  · split_ifs
    · exact iff_of_true rfl hinvalid
    · exact Iff.rfl
  · split_ifs
    · exact iff_of_false (by simp) hinvalid
    · exact Iff.rfl

theorem buildStrategyBundle_reports {bundle : StrategyDataBundle}
    (h : buildStrategyBundle r symbol evaluationTime minimum aggregate = .ok bundle) :
    ∃ (series : Timeframe → List Candle × List CandleConflict) (reports : Timeframe → DataQualityReport),
      (∀ timeframe, bundleSeries r symbol evaluationTime aggregate timeframe = .ok (series timeframe) ∧
        closedReport (series timeframe).1 symbol timeframe evaluationTime (series timeframe).2 =
          .ok (reports timeframe)) ∧
      (bundle.report.status = .invalid ↔ ∃ timeframe, (reports timeframe).status = .invalid) := by
  obtain ⟨daily, hdaily, h⟩ := except_bind_eq_ok.mp h
  obtain ⟨⟨weeklyAll, weeklyMerged⟩, hweeklyAll, h⟩ := except_bind_eq_ok.mp h
  obtain ⟨⟨monthlyAll, monthlyMerged⟩, hmonthlyAll, h⟩ := except_bind_eq_ok.mp h
  obtain ⟨weekly, hweekly, h⟩ := except_bind_eq_ok.mp h
  obtain ⟨monthly, hmonthly, h⟩ := except_bind_eq_ok.mp h
  cases h
  refine ⟨byTimeframe (r.getClosedBefore symbol .daily evaluationTime, conflictsFor r.conflicts symbol .daily)
    (filterClosedCandles weeklyAll evaluationTime, conflictsFor r.conflicts symbol .weekly ++ weeklyMerged)
    (filterClosedCandles monthlyAll evaluationTime, conflictsFor r.conflicts symbol .monthly ++ monthlyMerged),
    byTimeframe daily weekly monthly, ?_, ?_⟩
  · intro timeframe
    cases timeframe with
    | daily => exact ⟨rfl, hdaily⟩
    | weekly => exact ⟨except_bind_eq_ok.mpr ⟨_, hweeklyAll, rfl⟩, hweekly⟩
    | monthly => exact ⟨except_bind_eq_ok.mpr ⟨_, hmonthlyAll, rfl⟩, hmonthly⟩
  · have hmerged : (mergeReports daily [weekly, monthly]).status = .invalid ↔
        daily.status = .invalid ∨ weekly.status = .invalid ∨ monthly.status = .invalid := by
      simp only [mergeReports, worstStatus_eq_invalid, List.mem_cons, List.not_mem_nil, or_false, exists_eq_or_imp,
        exists_eq_left]
    have hany : (∃ timeframe, (byTimeframe daily weekly monthly timeframe).status = .invalid) ↔
          daily.status = .invalid ∨ weekly.status = .invalid ∨ monthly.status = .invalid := by
      constructor
      · rintro ⟨timeframe, htimeframe⟩
        cases timeframe with
        | daily => exact .inl htimeframe
        | weekly => exact .inr (.inl htimeframe)
        | monthly => exact .inr (.inr htimeframe)
      · intro hinvalid
        cases hinvalid with
        | inl hdaily => exact ⟨.daily, hdaily⟩
        | inr hhigher =>
          cases hhigher with
          | inl hweekly => exact ⟨.weekly, hweekly⟩
          | inr hmonthly => exact ⟨.monthly, hmonthly⟩
    rw [hany, ← hmerged]
    exact insufficient_invalid_iff _ _

theorem bundleSeries_conflicts {series : List Candle × List CandleConflict} (hrecorded : Recorded r symbol timeframe)
    (h : bundleSeries r symbol evaluationTime aggregate timeframe = .ok series) : series.2 ≠ [] := by
  cases timeframe with
  | daily =>
    cases h
    exact hrecorded
  | weekly =>
    obtain ⟨resolved, _, hseries⟩ := except_bind_eq_ok.mp h
    cases hseries
    exact List.append_ne_nil_of_left_ne_nil hrecorded _
  | monthly =>
    obtain ⟨resolved, _, hseries⟩ := except_bind_eq_ok.mp h
    cases hseries
    exact List.append_ne_nil_of_left_ne_nil hrecorded _

theorem strategyBundle_iff {bundle : StrategyDataBundle} (hrecorded : Recorded r symbol timeframe)
    (h : buildStrategyBundle r symbol evaluationTime minimum aggregate = .ok bundle) :
    bundle.report.status = .invalid ↔
      ReportCall.Shows r symbol timeframe (.strategyBundle evaluationTime minimum aggregate) := by
  obtain ⟨series, reports, hreports, hworst⟩ := buildStrategyBundle_reports h
  have hown : (reports timeframe).status = .invalid ↔ (series timeframe).1 ≠ [] := by
    obtain ⟨hseries, hreport⟩ := hreports timeframe
    obtain ⟨gaps, _, hvalidate⟩ := except_bind_eq_ok.mp hreport
    exact validateSeries_conflict hvalidate (bundleSeries_conflicts hrecorded hseries)
  rw [hworst]
  constructor
  · intro ⟨other, hinvalid⟩
    by_cases hsame : other = timeframe
    · subst hsame
      exact .inl ⟨series other, (hreports other).1, hown.mp hinvalid⟩
    · exact .inr ⟨other, hsame, series other, (hreports other).1, (invalidSeries_iff (hreports other).2).mpr hinvalid⟩
  · intro hshows
    cases hshows with
    | inl hcandles =>
      obtain ⟨own, hseries, hne⟩ := hcandles
      cases (hreports timeframe).1.symm.trans hseries
      exact ⟨timeframe, hown.mpr hne⟩
    | inr hother =>
      obtain ⟨other, _, own, hseries, hinvalid⟩ := hother
      cases (hreports other).1.symm.trans hseries
      exact ⟨other, (invalidSeries_iff (hreports other).2).mp hinvalid⟩

end Bundle

section Persistence

variable {r r' : CandleRepository} {symbol : Symbol} {timeframe : Timeframe} {evaluationTime : Time}

/-- Neither a candle nor a conflict is lost. -/
structure Grows (r r' : CandleRepository) : Prop where
  store : r.store ⊆ r'.store
  conflicts : r.conflicts ⊆ r'.conflicts

theorem grows_upsert (h : Grows r r') (c : Candle) : Grows r (r'.upsert c) := by
  constructor
  · intro d hd
    have hget := get?_of_mem (h.store hd)
    have hkept : (r'.upsert c).get? d.key = some d := by
      rw [get?_upsert]
      by_cases hkey : d.key = c.key
      · rw [if_pos hkey, ← hkey, hget]
        rfl
      · rw [if_neg hkey]
        exact hget
    exact mem_of_get? hkept
  · rw [conflicts_upsert]
    exact List.Subset.trans h.conflicts (List.subset_append_left _ _)

theorem ingestNormalized_upserts {candles : List Candle} {g : Ingestion} (h : ingestNormalized r candles = .ok g) :
    ∃ cs, g.repository = upsertMany r cs := by
  obtain ⟨g', hfold, hfinish⟩ := except_bind_eq_ok.mp h
  cases hfinish
  have hstep : ∀ (g : Ingestion) (c : Candle) (g' : Ingestion), (∃ cs, g.repository = upsertMany r cs) →
      ingestNormalizedCandle g c = .ok g' → ∃ cs, g'.repository = upsertMany r cs := by
    intro g c g' hg hcandle
    obtain ⟨cs, hcs⟩ := hg
    obtain ⟨codes, _, hcandle⟩ := except_bind_eq_ok.mp hcandle
    by_cases hcodes : codes = []
    · rw [if_neg (not_not.mpr hcodes)] at hcandle
      cases hcandle
      exact ⟨cs ++ [c], by simp [hcs, upsertMany]⟩
    · rw [if_pos hcodes] at hcandle
      cases hcandle
      exact ⟨cs, hcs⟩
  obtain ⟨cs, hcs⟩ := foldlM_preserves hstep ⟨[], rfl⟩ hfold
  exact ⟨cs, hcs⟩

theorem ingestRaw_upserts {s s' : MarketDataService} {raws : List RawCandle} {expectedSymbol : Option Symbol}
    {result : ℕ × Option DataQualityReport}
    (h : s.ingestRaw raws evaluationTime expectedSymbol = .ok (s', result)) :
    ∃ cs, s'.repository = upsertMany s.repository cs := by
  simp only [MarketDataService.ingestRaw] at h
  by_cases hnone : raws.flatMap validateRawCandle ≠ [] ∧ (raws.filter fun raw => validateRawCandle raw = []) = []
  · rw [if_pos hnone] at h
    cases h
    exact ⟨[], rfl⟩
  · rw [if_neg hnone] at h
    obtain ⟨normalized, _, h⟩ := except_bind_eq_ok.mp h
    obtain ⟨g, hg, h⟩ := except_bind_eq_ok.mp h
    have hrepository : s'.repository = g.repository := by
      split_ifs at h
      · cases h
        rfl
      · obtain ⟨report, _, h⟩ := except_bind_eq_ok.mp h
        cases h
        rfl
      · cases h
        rfl
      · cases h
        rfl
    rw [hrepository]
    exact ingestNormalized_upserts hg

theorem grows_upsertMany (r : CandleRepository) (cs : List Candle) : Grows r (upsertMany r cs) := by
  have hfold : ∀ r', Grows r r' → Grows r (upsertMany r' cs) := by
    induction cs with
    | nil => exact fun _ h => h
    | cons c cs ih => exact fun r' h => ih _ (grows_upsert h c)
  exact hfold r ⟨List.Subset.refl _, List.Subset.refl _⟩

theorem Recorded.grows (hrecorded : Recorded r symbol timeframe) (h : r.conflicts ⊆ r'.conflicts) :
    Recorded r' symbol timeframe := by
  obtain ⟨conflict, hmem⟩ := List.exists_mem_of_ne_nil _ hrecorded
  obtain ⟨hconflict, hseries⟩ := List.mem_filter.mp hmem
  exact List.ne_nil_of_mem (List.mem_filter.mpr ⟨h hconflict, hseries⟩)

theorem conflicts_run (r : CandleRepository) (w : Write) : r.conflicts ⊆ (w.run r).conflicts := by
  cases w with
  | historical c t =>
    simp only [Write.run, conflicts_upsert]
    exact List.subset_append_left _ _
  | live c t =>
    simp only [Write.run, conflicts_upsertLive]
    exact List.subset_append_left _ _

theorem conflicts_runWrites (r : CandleRepository) (ws : List Write) : r.conflicts ⊆ (runWrites r ws).conflicts := by
  induction ws generalizing r with
  | nil => exact List.Subset.refl _
  | cons w ws ih => exact List.Subset.trans (conflicts_run r w) (ih (w.run r))

theorem conflicts_kept_ingested (evaluationTime : Time) (r : CandleRepository) (raw : RawCandle) :
    r.conflicts ⊆ (ingested evaluationTime r raw).conflicts := by
  simp only [ingested]
  split_ifs
  · rw [conflicts_upsertLive]
    exact List.subset_append_left _ _
  · exact List.Subset.refl _

theorem conflicts_ingestLiveRaw {raws : List RawCandle} {g : Ingestion}
    (h : ingestLiveRaw r raws evaluationTime = .ok g) : r.conflicts ⊆ g.repository.conflicts := by
  have hfold : ∀ (raws : List RawCandle) (r' : CandleRepository), r.conflicts ⊆ r'.conflicts →
      r.conflicts ⊆ (raws.foldl (ingested evaluationTime) r').conflicts := by
    intro raws
    induction raws with
    | nil => exact fun _ hkept => hkept
    | cons raw raws ih =>
      intro r' hkept
      exact ih _ (List.Subset.trans hkept (conflicts_kept_ingested evaluationTime r' raw))
  obtain ⟨result, hresult⟩ := ingestLiveRaw_eq r raws evaluationTime
  cases h.symm.trans hresult
  exact hfold raws r (List.Subset.refl _)

end Persistence

section Calls

variable {r : CandleRepository} {symbol : Symbol} {timeframe : Timeframe} {evaluationTime : Time}
  {report : DataQualityReport}

theorem seriesReport_iff (hrecorded : Recorded r symbol timeframe)
    (h : seriesReport r evaluationTime symbol timeframe = .ok report) :
    report.status = .invalid ↔ r.getClosedBefore symbol timeframe evaluationTime ≠ [] := by
  obtain ⟨gaps, _, hvalidate⟩ := except_bind_eq_ok.mp h
  exact validateSeries_conflict hvalidate hrecorded

theorem ne_nil_of_detectGaps {candles : List Candle} {gaps : List CandleGap}
    (h : detectGaps candles symbol timeframe evaluationTime = .ok gaps) (hgaps : gaps ≠ []) : candles ≠ [] := by
  intro hnil
  subst hnil
  cases h
  exact hgaps rfl

theorem getClosedBefore_grows {r' : CandleRepository} (h : Grows r r')
    (hne : r.getClosedBefore symbol timeframe evaluationTime ≠ []) :
    r'.getClosedBefore symbol timeframe evaluationTime ≠ [] := by
  obtain ⟨c, hc⟩ := List.exists_mem_of_ne_nil _ hne
  obtain ⟨hstore, hseries⟩ := mem_getClosedBefore.mp hc
  exact List.ne_nil_of_mem (mem_getClosedBefore.mpr ⟨h.store hstore, hseries⟩)

section Backfill

variable {backfill : BackfillProvider} {limit : ℕ} {gaps : List CandleGap} {raws : List RawCandle}
  {s : MarketDataService}

theorem backfillShows_noGaps
    (hgaps : detectGaps (r.getClosedBefore symbol timeframe evaluationTime) symbol timeframe evaluationTime = .ok [])
    (h : validateSeries (r.getClosedBefore symbol timeframe evaluationTime) symbol timeframe evaluationTime [] [] =
      .ok report) :
    BackfillShows backfill r symbol timeframe evaluationTime limit ↔ report.status = .invalid := by
  constructor
  · intro hshows
    cases hshows with
    | inl hown =>
      obtain ⟨_, own, hown, hinvalid⟩ := hown
      cases h.symm.trans hown
      exact hinvalid
    | inr hclosed =>
      obtain ⟨gaps, _, _, _, hgaps', hne, _⟩ := hclosed
      cases hgaps.symm.trans hgaps'
      exact absurd rfl hne
  · intro hinvalid
    exact .inl ⟨hgaps, report, h, hinvalid⟩

theorem backfillShows_gaps
    (hgaps : detectGaps (r.getClosedBefore symbol timeframe evaluationTime) symbol timeframe evaluationTime = .ok gaps)
    (hne : gaps ≠ []) (hraws : backfill symbol timeframe gaps limit = .ok raws) :
    BackfillShows backfill r symbol timeframe evaluationTime limit ↔ raws ≠ [] ∧ ∃ s n,
      ({ repository := r, backfill } : MarketDataService).ingestRaw raws evaluationTime (some symbol) = .ok (s, n) ∧
      detectGaps (s.repository.getClosedBefore symbol timeframe evaluationTime) symbol timeframe evaluationTime =
        .ok [] := by
  constructor
  · intro hshows
    cases hshows with
    | inl hown =>
      cases hgaps.symm.trans hown.1
      exact absurd rfl hne
    | inr hclosed =>
      obtain ⟨gaps', raws', s, n, hgaps', _, hraws', hsome, hclosed⟩ := hclosed
      cases hgaps.symm.trans hgaps'
      cases hraws.symm.trans hraws'
      exact ⟨hsome, s, n, hclosed⟩
  · intro ⟨hsome, s, n, hclosed⟩
    exact .inr ⟨gaps, raws, s, n, hgaps, hne, hraws, hsome, hclosed⟩

theorem mergeBackfillReasonCodes_ne_invalid (report : DataQualityReport) (gaps : List CandleGap) :
    (mergeBackfillReasonCodes report gaps).status ≠ .invalid := by
  have hstatus : (mergeBackfillReasonCodes report gaps).status = .incomplete := rfl
  simp [hstatus]

theorem refreshedReport_iff {after : CandleRepository} (hgrows : Grows r after) (hrecorded : Recorded r symbol timeframe)
    (hne : r.getClosedBefore symbol timeframe evaluationTime ≠ [])
    (h : validateSeries (after.getClosedBefore symbol timeframe evaluationTime) symbol timeframe evaluationTime gaps
      (conflictsFor after.conflicts symbol timeframe) = .ok report) :
    (if gaps ≠ [] then mergeBackfillReasonCodes report gaps else report).status = .invalid ↔ gaps = [] := by
  by_cases hgaps : gaps = []
  · rw [if_neg (not_not.mpr hgaps)]
    have hinvalid := (validateSeries_conflict h (hrecorded.grows hgrows.conflicts)).mpr (getClosedBefore_grows hgrows hne)
    exact iff_of_true hinvalid hgaps
  · rw [if_pos hgaps]
    exact iff_of_false (mergeBackfillReasonCodes_ne_invalid _ _) hgaps

end Backfill

theorem attemptBackfill_iff {backfill : Option BackfillProvider} {limit : ℕ} {s : MarketDataService}
    (hrecorded : Recorded r symbol timeframe)
    (h : ({ repository := r, backfill } : MarketDataService).attemptBackfill symbol timeframe evaluationTime limit =
      .ok (s, report)) :
    report.status = .invalid ↔
      ReportCall.Shows r symbol timeframe (.attemptBackfill backfill evaluationTime limit) := by
  obtain ⟨gaps, hgaps, h⟩ := except_bind_eq_ok.mp h
  cases backfill with
  | none =>
    obtain ⟨own, _, h⟩ := except_bind_eq_ok.mp h
    cases h
    exact iff_of_false (mergeBackfillReasonCodes_ne_invalid _ _) id
  | some backfill =>
    simp only at h
    by_cases hnone : gaps = []
    · subst hnone
      rw [if_pos rfl] at h
      obtain ⟨own, hvalidate, h⟩ := except_bind_eq_ok.mp h
      cases h
      exact (backfillShows_noGaps hgaps hvalidate).symm
    · rw [if_neg hnone] at h
      obtain ⟨raws, hraws, h⟩ := except_bind_eq_ok.mp h
      have hshows := backfillShows_gaps hgaps hnone hraws
      by_cases hempty : raws = []
      · rw [if_pos hempty] at h
        obtain ⟨own, _, h⟩ := except_bind_eq_ok.mp h
        cases h
        exact iff_of_false (mergeBackfillReasonCodes_ne_invalid _ _) fun hshown => (hshows.mp hshown).1 hempty
      · rw [if_neg hempty] at h
        obtain ⟨⟨after, n⟩, hingest, h⟩ := except_bind_eq_ok.mp h
        obtain ⟨remaining, hremaining, h⟩ := except_bind_eq_ok.mp h
        obtain ⟨own, hvalidate, h⟩ := except_bind_eq_ok.mp h
        cases h
        obtain ⟨cs, hcs⟩ := ingestRaw_upserts hingest
        have hgrows : Grows r after.repository := hcs ▸ grows_upsertMany r cs
        have hcandles := ne_nil_of_detectGaps hgaps hnone
        apply (refreshedReport_iff hgrows hrecorded hcandles hvalidate).trans
        apply Iff.trans _ hshows.symm
        constructor
        · intro hclosed
          exact ⟨hempty, after, n, hingest, hclosed ▸ hremaining⟩
        · intro ⟨_, after', n', hingest', hclosed⟩
          cases hingest.symm.trans hingest'
          cases hremaining.symm.trans hclosed
          rfl

theorem report_iff {call : ReportCall} (hrecorded : Recorded r symbol timeframe)
    (h : call.report r symbol timeframe = .ok report) : report.status = .invalid ↔ call.Shows r symbol timeframe := by
  cases call with
  | attemptBackfill backfill evaluationTime limit =>
    obtain ⟨⟨s, own⟩, hbackfill, h⟩ := except_bind_eq_ok.mp h
    cases h
    exact attemptBackfill_iff hrecorded hbackfill
  | strategyBundle evaluationTime minimum aggregateHigherTimeframes =>
    obtain ⟨bundle, hbundle, h⟩ := except_bind_eq_ok.mp h
    cases h
    exact strategyBundle_iff hrecorded hbundle
  | backfillSymbol raws evaluationTime =>
    obtain ⟨g, hg, h⟩ := except_bind_eq_ok.mp h
    apply (seriesReport_iff (hrecorded.grows (conflicts_ingestLiveRaw hg)) h).trans
    constructor
    · intro hcandles
      exact ⟨g, hg, hcandles⟩
    · intro ⟨g', hg', hcandles⟩
      cases hg.symm.trans hg'
      exact hcandles
  | status evaluationTime => exact seriesReport_iff hrecorded h

end Calls

section Runs

variable {r r' r'' : CandleRepository} {symbol : Symbol} {timeframe : Timeframe} {evaluationTime : Time}

/-- In every run, whatever was written since a conflict was recorded, a call reports an invalid series exactly when
it shows the conflict. -/
theorem conflict_reported_iff (past later : List Write) (symbol : Symbol) (timeframe : Timeframe)
    (hrecorded : Recorded (runWrites {} past) symbol timeframe) (call : ReportCall) (report : DataQualityReport)
    (h : call.report (runWrites {} (past ++ later)) symbol timeframe = .ok report) :
    report.status = .invalid ↔ call.Shows (runWrites {} (past ++ later)) symbol timeframe := by
  have hkept : (runWrites {} past).conflicts ⊆ (runWrites {} (past ++ later)).conflicts := by
    simp only [runWrites, List.foldl_append]
    exact conflicts_runWrites (runWrites {} past) later
  exact report_iff (hrecorded.grows hkept) h

end Runs

section Samples

def dayCorrected : List Write :=
  [.historical (candleOfDay 104 true) (19745 * day), .historical (candleOfDay 103 true) (19745 * day)]

theorem dayCorrected_recorded : Recorded (runWrites {} dayCorrected) .BTC .daily := by decide +kernel

theorem dayCorrected_status_invalid : ∃ report,
    ReportCall.report (runWrites {} (dayCorrected ++ [])) .BTC .daily (.status (19745 * day)) = .ok report ∧
      report.status = .invalid := by
  have hreturns : (ReportCall.report (runWrites {} (dayCorrected ++ [])) .BTC .daily
      (.status (19745 * day))).isOk = true := by decide +kernel
  obtain ⟨report, hreport⟩ := Library.Outcome.exists_of_isOk hreturns
  have hcandles : (runWrites {} (dayCorrected ++ [])).getClosedBefore .BTC .daily (19745 * day) ≠ [] := by
    decide +kernel
  exact ⟨report, hreport,
    (conflict_reported_iff dayCorrected [] .BTC .daily dayCorrected_recorded _ report hreport).mpr hcandles⟩

/-- A backfill that finds no gap reports a valid series, although a conflict is recorded for it. -/
theorem conflict_masked : ¬ ∀ (past later : List Write) (symbol : Symbol) (timeframe : Timeframe),
    Recorded (runWrites {} past) symbol timeframe → ∀ (call : ReportCall) (report : DataQualityReport),
      call.report (runWrites {} (past ++ later)) symbol timeframe = .ok report → report.status = .invalid := by
  intro hclaim
  have hstatus : (ReportCall.report (runWrites {} (dayCorrected ++ [])) .BTC .daily
      (.attemptBackfill (some fun _ _ _ _ => .ok []) (19745 * day) 500)).toOption.map (·.status) = some .valid := by
    decide +kernel
  cases hreport : ReportCall.report (runWrites {} (dayCorrected ++ [])) .BTC .daily
      (.attemptBackfill (some fun _ _ _ _ => .ok []) (19745 * day) 500) with
  | error exc =>
    rw [hreport] at hstatus
    cases hstatus
  | ok report =>
    have hinvalid := hclaim dayCorrected [] .BTC .daily dayCorrected_recorded _ report hreport
    rw [hreport] at hstatus
    simp [Except.toOption, hinvalid] at hstatus

end Samples

end TradingBot.Market.ConflictReports
