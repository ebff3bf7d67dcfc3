import TradingBot.Research.Regime
import TradingBot.Research.DrawdownGate
import TradingBot.Backtester.DayRecords

namespace TradingBot.Research.RegimeAlignment

open Market.Models Market.Timeframes Exceptions Library.Outcome Library.Dictionary
open Backtester.Models Backtester.Simulation Backtester.Structure Backtester.DayRecords
open Research.Models Research.Regime

variable {config : BacktestConfig} {bundle : HistoricalDataBundle} {index : DayIndex} {t : Time}
  {rt rt' : Runtime}

/-- The join puts a record that is dated by an instant where the records of a date go: under its label or,
where the date has none, under no label at all. -/
def GoesTo (index : DayIndex) (time : Time) (date : ℤ) : Prop :=
  attributed index time = attributedDate index date

/-- Between the two states of a run, what the day at `t` added to the records goes to the day's own label. -/
def DayAligned (index : DayIndex) (t : Time) (rt rt' : Runtime) : Prop :=
  (∀ snaps, rt'.equityCurve = rt.equityCurve ++ snaps →
    ∀ snap ∈ snaps, GoesTo index snap.time (dayNumber t)) ∧
  ∀ trades, rt'.closedTrades = rt.closedTrades ++ trades →
    ∀ trade ∈ trades, ∃ exit, trade.exitTime = some exit ∧ GoesTo index exit (dayNumber t)

def RunAligned (config : BacktestConfig) (bundle : HistoricalDataBundle) (index : DayIndex) : Prop :=
  ∀ before t after rt rt', buildTimeline config bundle = before ++ t :: after →
    runSteps config bundle (before.flatMap (daySteps config bundle)) = .ok rt →
    (daySteps config bundle t).foldlM (applyStep config bundle) rt = .ok rt' → DayAligned index t rt rt'

def Labelled (bundle : HistoricalDataBundle) (symbol : String) (date : ℤ) : Prop :=
  ∃ c ∈ bundle.daily symbol, c.isClosed = true ∧ dayNumber c.closeTime = date

def SnapshotInDay (config : BacktestConfig) (bundle : HistoricalDataBundle) (symbol : String) (t : Time) : Prop :=
  ∀ first, firstCandle config bundle t = some first →
    dayNumber (evaluationTimeForDaily first) = dayNumber t ∨
    ¬Labelled bundle symbol (dayNumber t) ∧ ¬Labelled bundle symbol (dayNumber (evaluationTimeForDaily first))

theorem goesTo_iff {labels : List DayLabel} {time : Time} {date : ℤ} :
    GoesTo (indexDayLabels labels) time date ↔ asUtcDate time = date ∨
      (indexDayLabels labels).get? date = none ∧ (indexDayLabels labels).get? (asUtcDate time) = none := by
  unfold GoesTo attributed
  rw [attributedDate_eq_iff]
  constructor
  · intro h
    cases hkey : (indexDayLabels labels).get? date with
    | none => exact .inr ⟨rfl, h.trans hkey⟩
    | some key => exact .inl ((asOf_of_get? (h.trans hkey)).symm.trans (asOf_of_get? hkey))
  · rintro (rfl | ⟨hdate, htime⟩)
    · rfl
    · rw [hdate, htime]

theorem dayAligned_iff {first : CandleOf String} (hfirst : firstCandle config bundle t = some first)
    (h : (daySteps config bundle t).foldlM (applyStep config bundle) rt = .ok rt') :
    DayAligned index t rt rt' ↔ GoesTo index (evaluationTimeForDaily first) (dayNumber t) := by
  obtain ⟨⟨snap, hcurve, htime⟩, new, htrades, hexit⟩ := day_records hfirst h
  constructor
  · rintro ⟨hsnaps, -⟩
    have hsnap := hsnaps [snap] hcurve snap (List.mem_singleton_self snap)
    rwa [htime] at hsnap
  · intro hgoes
    constructor
    · intro snaps hsnaps s hs
      rw [hcurve, List.append_cancel_left_eq] at hsnaps
      rw [← hsnaps, List.mem_singleton] at hs
      rw [hs, htime]
      exact hgoes
    · intro trades hadded trade htrade
      rw [htrades, List.append_cancel_left_eq] at hadded
      rw [← hadded] at htrade
      exact ⟨t, hexit trade htrade, rfl⟩

theorem runs_through {before after : List Time} (htimeline : buildTimeline config bundle = before ++ t :: after)
    {result : BacktestResult} (hrun : run config bundle = .ok result) :
    ∃ rt rt', runSteps config bundle (before.flatMap (daySteps config bundle)) = .ok rt ∧
      (daySteps config bundle t).foldlM (applyStep config bundle) rt = .ok rt' := by
  obtain ⟨last, hsteps, -⟩ := except_bind_eq_ok.mp hrun
  unfold runSteps steps at hsteps
  rw [htimeline, List.flatMap_append, List.foldlM_append] at hsteps
  obtain ⟨rt, hbefore, hsteps⟩ := except_bind_eq_ok.mp hsteps
  rw [List.flatMap_cons, List.foldlM_append] at hsteps
  obtain ⟨rt', hday, -⟩ := except_bind_eq_ok.mp hsteps
  exact ⟨rt, rt', hbefore, hday⟩

/-- The records of a run go to the labels of their days if and only if every snapshot time, which lies five
seconds after a close, still falls on the day itself wherever labels are concerned. -/
theorem regime_alignment (spec : ExperimentSpec) (config : BacktestConfig) (bundle : HistoricalDataBundle)
    (symbol : String) (labels : List DayLabel) (result : BacktestResult)
    (hsymbol : regimeClassifierSymbol spec = .ok symbol)
    (hlabels : regimeLabelsPayload spec bundle = .ok labels) (hrun : run config bundle = .ok result) :
    RunAligned config bundle (indexDayLabels labels) ↔
      ∀ t ∈ buildTimeline config bundle, SnapshotInDay config bundle symbol t := by
  have hnone : ∀ date, (indexDayLabels labels).get? date = none ↔ ¬Labelled bundle symbol date := by
    intro date
    rw [Labelled, ← labelled_iff hsymbol hlabels, Option.not_isSome_iff_eq_none]
  have hgoes : ∀ time date, GoesTo (indexDayLabels labels) time date ↔ asUtcDate time = date ∨
      ¬Labelled bundle symbol date ∧ ¬Labelled bundle symbol (asUtcDate time) := by
    intro time date
    rw [goesTo_iff, hnone, hnone]
  constructor
  · intro haligned t ht first hfirst
    obtain ⟨before, after, htimeline⟩ := List.append_of_mem ht
    obtain ⟨rt, rt', hbefore, hday⟩ := runs_through htimeline hrun
    exact (hgoes _ _).mp ((dayAligned_iff hfirst hday).mp (haligned before t after rt rt' htimeline hbefore hday))
  · intro hdays before t after rt rt' htimeline _ hday
    have ht : t ∈ buildTimeline config bundle := by simp [htimeline]
    obtain ⟨first, hfirst⟩ := firstCandle_isSome ht
    exact (dayAligned_iff hfirst hday).mpr ((hgoes _ _).mpr (hdays t ht first hfirst))

section Sample

def canonicalBundle : HistoricalDataBundle :=
  { sampleBundle 0 with
    daily := fun symbol => ((sampleBundle 0).daily symbol).map fun c =>
      { c with closeTime := dailyClose c.openTime } }

def sampleRun : Except Exc (BacktestConfig × List DayLabel × BacktestResult) := do
  let config ← configFromSpec DrawdownGate.collapseSpec
  let labels ← regimeLabelsPayload DrawdownGate.collapseSpec canonicalBundle
  let result ← run config canonicalBundle
  pure (config, labels, result)

theorem sampleRun_ok : ∃ config labels result, sampleRun = .ok (config, labels, result) ∧
    buildTimeline config canonicalBundle = [0, day, 2 * day] ∧
    (firstCandle config canonicalBundle 0).map evaluationTimeForDaily = some (day + 4 * second) ∧
    (indexDayLabels labels).get? (asUtcDate (day + 4 * second)) ≠ (indexDayLabels labels).get? 0 := by
  have hcheck : (sampleRun.map fun (config, labels, _) =>
      decide (buildTimeline config canonicalBundle = [0, day, 2 * day] ∧
        (firstCandle config canonicalBundle 0).map evaluationTimeForDaily = some (day + 4 * second) ∧
        (indexDayLabels labels).get? (asUtcDate (day + 4 * second)) ≠
          (indexDayLabels labels).get? 0)).toOption = some true := by
    decide +kernel
  cases hrun : sampleRun with
  | error e =>
    rw [hrun] at hcheck
    cases hcheck
  | ok out =>
    obtain ⟨config, labels, result⟩ := out
    rw [hrun] at hcheck
    exact ⟨config, labels, result, rfl, of_decide_eq_true (Option.some.inj hcheck)⟩

/-- The snapshot of the first day is dated on the second and goes to the second day's label. -/
theorem first_snapshot_shifted : ∃ config labels result,
    configFromSpec DrawdownGate.collapseSpec = .ok config ∧
    regimeLabelsPayload DrawdownGate.collapseSpec canonicalBundle = .ok labels ∧
    run config canonicalBundle = .ok result ∧
    ¬RunAligned config canonicalBundle (indexDayLabels labels) := by
  obtain ⟨config, labels, result, hrun, htimeline, htime, hshift⟩ := sampleRun_ok
  obtain ⟨config', hconfig, hrun⟩ := except_bind_eq_ok.mp hrun
  obtain ⟨labels', hlabels, hrun⟩ := except_bind_eq_ok.mp hrun
  obtain ⟨result', hresult, hrun⟩ := except_bind_eq_ok.mp hrun
  cases hrun
  refine ⟨config, labels, result, hconfig, hlabels, hresult, fun haligned => hshift ?_⟩
  obtain ⟨first, hfirst, hclose⟩ := Option.map_eq_some_iff.mp htime
  have hsplit : buildTimeline config canonicalBundle = [] ++ 0 :: [day, 2 * day] := htimeline
  obtain ⟨rt, rt', hbefore, hday⟩ := runs_through hsplit hresult
  have hgoes := (dayAligned_iff hfirst hday).mp (haligned _ _ _ rt rt' hsplit hbefore hday)
  rw [hclose] at hgoes
  exact attributedDate_eq_iff.mp hgoes

theorem regime_alignment_sample : ∃ config labels,
    (RunAligned config canonicalBundle (indexDayLabels labels) ↔
      ∀ t ∈ buildTimeline config canonicalBundle, SnapshotInDay config canonicalBundle "BTC" t) ∧
    buildTimeline config canonicalBundle = [0, day, 2 * day] := by
  obtain ⟨config, labels, result, hrun, htimeline, -⟩ := sampleRun_ok
  obtain ⟨config', hconfig, hrun⟩ := except_bind_eq_ok.mp hrun
  obtain ⟨labels', hlabels, hrun⟩ := except_bind_eq_ok.mp hrun
  obtain ⟨result', hresult, hrun⟩ := except_bind_eq_ok.mp hrun
  cases hrun
  exact ⟨config, labels, regime_alignment DrawdownGate.collapseSpec config canonicalBundle "BTC" labels result
    rfl hlabels hresult, htimeline⟩

end Sample

end TradingBot.Research.RegimeAlignment
