import TradingBot.Strategy.Engine

namespace TradingBot.Strategy.EntryDecision

open Market.Models Exceptions Strategy.Models Strategy.Indicators Strategy.Stops Strategy.Validation
open Strategy.Engine Library.Outcome

variable {σ : Type}

section Definitions

/-- A series of its timeframe whose candles are sound, closed, representable and strictly ordered. -/
structure AcceptedSeries (timeframe : Timeframe) (evaluationTime : Time) (series : CandleSeriesOf σ) :
    Prop where
  timeframe : series.timeframe = timeframe
  nonempty : series.candles ≠ []
  sound : ∀ c ∈ series.candles, SoundCandle series.symbol series.timeframe evaluationTime c
  inRange : ∀ c ∈ series.candles, inFloatRange c
  sorted : series.candles.Pairwise fun a b => a.openTime < b.openTime

def DefaultHistory (daily weekly monthly : CandleSeriesOf σ) : Prop :=
  minCandlesForWarmup .daily {} ≤ daily.candles.length ∧
    minCandlesForWarmup .weekly {} ≤ weekly.candles.length ∧
    minCandlesForWarmup .monthly {} ≤ monthly.candles.length

def WarmUnder (params : StrategyParameters) (daily weekly monthly : CandleSeriesOf σ) : Prop :=
  checkWarmupComplete daily.candles.length weekly.candles.length monthly.candles.length params

def BreakoutCondition (o : Observation) : Prop :=
  (∃ high ∈ o.high20, high < o.close) ∧ ∃ ema ∈ o.ema20Daily, ema < o.close

def PullbackCondition (params : StrategyParameters) (o : Observation) : Prop :=
  ∃ ema ∈ o.ema20Daily, ema < o.close ∧
    o.low ≤ decimalResult (ema * decimalResult (1 + params.pullbackEmaTolerance)) ∧
    ∃ prev ∈ o.closePrev, ∃ emaPrev ∈ o.ema20DailyPrev, emaPrev < prev

/-- The indicators are there and every filter and one of the two setups holds. -/
structure EntryConditions (params : StrategyParameters) (o : Observation) : Prop where
  ema20Daily : o.ema20Daily.isSome
  atr14 : ∃ atr ∈ o.atr14, 0 < atr
  regime : ∃ ema ∈ o.ema20Monthly, ema < o.monthlyClose
  trend : ∃ fast ∈ o.ema20Weekly, ∃ slow ∈ o.ema50Weekly, slow < fast
  volume : ∃ ratio ∈ o.volumeRatio, params.volumeRatioMin ≤ ratio
  setup : BreakoutCondition o ∨ PullbackCondition params o

def LongEntry (e : StrategyEvaluationOf σ) : Prop := e.signalIntent.kind = .longEntry

end Definitions

section Filters

theorem regimeLong_iff {monthlyClose : Decimal} {ema20Monthly : Option Decimal} :
    (evaluateMonthlyRegime (some monthlyClose) ema20Monthly).regimeLong ↔
      ∃ ema ∈ ema20Monthly, ema < monthlyClose := by
  cases ema20Monthly with
  | none => simp [evaluateMonthlyRegime]
  | some ema => simp [evaluateMonthlyRegime]

theorem trendConfirmed_iff {ema20Weekly ema50Weekly : Option Decimal} :
    (evaluateWeeklyTrend ema20Weekly ema50Weekly).trendConfirmed ↔
      ∃ fast ∈ ema20Weekly, ∃ slow ∈ ema50Weekly, slow < fast := by
  cases ema20Weekly with
  | none => simp [evaluateWeeklyTrend]
  | some fast =>
    cases ema50Weekly with
    | none => simp [evaluateWeeklyTrend]
    | some slow => simp [evaluateWeeklyTrend]

theorem volumeOk_iff {volumeRatio : Option Decimal} {volumeRatioMin : Decimal} :
    evaluateVolumeOk volumeRatio volumeRatioMin ↔ ∃ ratio ∈ volumeRatio, volumeRatioMin ≤ ratio := by
  cases volumeRatio with
  | none => simp [evaluateVolumeOk]
  | some ratio => simp [evaluateVolumeOk]

variable {regime : RegimeResult} {trend : TrendResult} {volumeOk : Bool} {params : StrategyParameters}
  {o : Observation}

theorem breakoutEntry_iff :
    (evaluateBreakoutSetup o.close o.high20 o.ema20Daily regime trend volumeOk).breakoutEntry ↔
      BreakoutCondition o ∧ regime.regimeLong ∧ trend.trendConfirmed ∧ volumeOk := by
  simp only [evaluateBreakoutSetup, Bool.and_eq_true, Option.any_eq_true_iff_get, BreakoutCondition, and_assoc]
  cases o.high20 <;> cases o.ema20Daily <;> simp

theorem pullbackEntry_iff :
    (evaluatePullbackSetup o.close o.low o.closePrev o.ema20Daily o.ema20DailyPrev regime trend volumeOk
        params).pullbackEntry ↔
      PullbackCondition params o ∧ regime.regimeLong ∧ trend.trendConfirmed ∧ volumeOk := by
  rw [evaluatePullbackSetup.eq_def, PullbackCondition]
  cases o.ema20Daily with
  | none => simp
  | some ema =>
    cases o.closePrev with
    | none => simp
    | some prev => cases o.ema20DailyPrev <;> simp [and_assoc]

end Filters

section Series

variable {evaluationTime : Time} {timeframe : Timeframe}

theorem sound_of_validateOhlc {c : CandleOf σ} (h : validateOhlc c = none) :
    inFloatRange c ∧ (0 < c.openPrice ∧ 0 < c.high ∧ 0 < c.low ∧ 0 < c.close) ∧
      (c.openPrice ≤ c.high ∧ c.close ≤ c.high ∧ c.low ≤ c.high) ∧
      (c.low ≤ c.openPrice ∧ c.low ≤ c.close) ∧ 0 ≤ c.volume := by
  unfold validateOhlc at h
  split at h
  · cases h
  · rename_i hrange
    split_ifs at h with hpositive hhigh hlow hvolume
    simp only [not_or, not_le, not_lt] at hpositive hhigh hlow hvolume
    refine ⟨?_, hpositive, hhigh, ⟨hlow.1, hlow.2.1⟩, hvolume⟩
    simpa [inFloatRange, List.find?_eq_none] using hrange

variable [DecidableEq σ] {series : CandleSeriesOf σ}

theorem candleErrors_nil_iff {seen : List Time} {c : CandleOf σ} (hseen : seen.Pairwise (· > ·)) :
    candleErrors series evaluationTime seen c = [] ↔
      (SoundCandle series.symbol series.timeframe evaluationTime c ∧ inFloatRange c) ∧
        ∀ t ∈ seen, t < c.openTime := by
  constructor
  · intro h
    simp only [candleErrors, List.append_eq_nil_iff, errorIf_eq_nil, Option.toList_eq_nil_iff,
      decide_eq_false_iff_not, not_not, Bool.not_eq_false', not_lt] at h
    obtain ⟨⟨⟨⟨⟨⟨hsymbol, htimeframe⟩, hclosed⟩, htime⟩, _⟩, hafter⟩, hohlc⟩ := h
    obtain ⟨hrange, hpositive, hhigh, hlow, hvolume⟩ := sound_of_validateOhlc hohlc
    refine ⟨⟨⟨hsymbol, htimeframe, hclosed, htime, hpositive, hhigh, hlow, hvolume⟩, hrange⟩, fun t ht => ?_⟩
    cases seen with
    | nil => cases ht
    | cons latest earlier =>
      have hlatest : latest < c.openTime := by simpa using hafter
      rcases List.mem_cons.mp ht with rfl | ht
      · exact hlatest
      · exact (List.rel_of_pairwise_cons hseen ht).trans hlatest
  · rintro ⟨⟨hsound, hrange⟩, hafter⟩
    exact (candleErrors_eq_nil_iff hsound hafter).mpr hrange

theorem seriesErrors_nil_iff {seen : List Time} {cs : List (CandleOf σ)} (hseen : seen.Pairwise (· > ·)) :
    seriesErrors series evaluationTime seen cs = [] ↔
      (∀ c ∈ cs, SoundCandle series.symbol series.timeframe evaluationTime c ∧ inFloatRange c) ∧
        (cs.Pairwise fun a b => a.openTime < b.openTime) ∧ ∀ c ∈ cs, ∀ t ∈ seen, t < c.openTime := by
  induction cs generalizing seen with
  | nil => simp [seriesErrors]
  | cons c cs ih =>
    rw [seriesErrors, List.append_eq_nil_iff, candleErrors_nil_iff hseen, List.pairwise_cons,
      List.forall_mem_cons, List.forall_mem_cons]
    constructor
    · rintro ⟨⟨hc, hafter⟩, hrest⟩
      obtain ⟨hsound, hsorted, hlater⟩ := (ih (List.pairwise_cons.mpr ⟨hafter, hseen⟩)).mp hrest
      exact ⟨⟨hc, hsound⟩, ⟨fun d hd => hlater d hd _ List.mem_cons_self, hsorted⟩, hafter,
        fun d hd t ht => hlater d hd t (List.mem_cons_of_mem _ ht)⟩
    · rintro ⟨⟨hc, hsound⟩, ⟨hnext, hsorted⟩, hafter, hlater⟩
      refine ⟨⟨hc, hafter⟩, (ih (List.pairwise_cons.mpr ⟨hafter, hseen⟩)).mpr ⟨hsound, hsorted, fun d hd t ht => ?_⟩⟩
      rcases List.mem_cons.mp ht with rfl | ht
      · exact hnext d hd
      · exact hlater d hd t ht

theorem acceptedSeries_iff : AcceptedSeries timeframe evaluationTime series ↔
    series.candles ≠ [] ∧ errorIf (decide (series.timeframe ≠ timeframe))
      (rejectData "Incorrect timeframe" (.timeframes timeframe series.timeframe)) ++
        seriesErrors series evaluationTime [] series.candles = [] := by
  rw [List.append_eq_nil_iff, errorIf_eq_nil, seriesErrors_nil_iff .nil]
  simp only [ne_eq, decide_eq_false_iff_not, not_not]
  constructor
  · rintro ⟨htimeframe, hne, hsound, hrange, hsorted⟩
    exact ⟨hne, htimeframe, fun c hc => ⟨hsound c hc, hrange c hc⟩, hsorted, fun _ _ _ ht => by cases ht⟩
  · rintro ⟨hne, htimeframe, hsound, hsorted, _⟩
    exact ⟨htimeframe, hne, fun c hc => (hsound c hc).1, fun c hc => (hsound c hc).2, hsorted⟩

theorem validateCandleSeries_status (timeframe : Timeframe) (evaluationTime : Time) (series : CandleSeriesOf σ) :
    (validateCandleSeries series evaluationTime (some timeframe)).1 = .invalidData ∧
        ¬ AcceptedSeries timeframe evaluationTime series ∨
      AcceptedSeries timeframe evaluationTime series ∧
        (validateCandleSeries series evaluationTime (some timeframe)).1 =
          if series.candles.length < minCandlesForWarmup timeframe {} then .insufficientHistory else .ok := by
  by_cases haccepted : AcceptedSeries timeframe evaluationTime series
  · obtain ⟨hne, hnil⟩ := acceptedSeries_iff.mp haccepted
    refine .inr ⟨haccepted, ?_⟩
    simp only [validateCandleSeries, if_neg hne, hnil]
    rw [haccepted.timeframe]
    split_ifs
    · rfl
    · rfl
  · refine .inl ⟨?_, haccepted⟩
    rw [acceptedSeries_iff, not_and] at haccepted
    unfold validateCandleSeries
    split_ifs with hempty
    · rfl
    · cases herrors : errorIf (decide (series.timeframe ≠ timeframe))
          (rejectData "Incorrect timeframe" (.timeframes timeframe series.timeframe)) ++
            seriesErrors series evaluationTime [] series.candles with
      | nil => exact absurd herrors (haccepted hempty)
      | cons error rest => simp only [herrors]

theorem status_ne_invalidData_iff :
    (validateCandleSeries series evaluationTime (some timeframe)).1 ≠ .invalidData ↔
      AcceptedSeries timeframe evaluationTime series := by
  rcases validateCandleSeries_status timeframe evaluationTime series with ⟨hstatus, hnot⟩ | ⟨haccepted, hstatus⟩
  · exact ⟨fun h => absurd hstatus h, fun h => absurd h hnot⟩
  · rw [hstatus]
    split_ifs
    · simpa using haccepted
    · simpa using haccepted

theorem status_ok_iff (haccepted : AcceptedSeries timeframe evaluationTime series) :
    (validateCandleSeries series evaluationTime (some timeframe)).1 = .ok ↔
      minCandlesForWarmup timeframe {} ≤ series.candles.length := by
  rcases validateCandleSeries_status timeframe evaluationTime series with ⟨_, hnot⟩ | ⟨_, hstatus⟩
  · exact absurd haccepted hnot
  · rw [hstatus]
    split_ifs with hshort
    · simpa using hshort
    · simpa using hshort

theorem status_insufficientHistory_iff (haccepted : AcceptedSeries timeframe evaluationTime series) :
    (validateCandleSeries series evaluationTime (some timeframe)).1 = .insufficientHistory ↔
      ¬ minCandlesForWarmup timeframe {} ≤ series.candles.length := by
  rw [← status_ok_iff haccepted]
  have hvalid := status_ne_invalidData_iff.mpr haccepted
  cases hstatus : (validateCandleSeries series evaluationTime (some timeframe)).1 with
  | ok => simp
  | invalidData => exact absurd hstatus hvalid
  | insufficientHistory => simp

end Series

section Decision

variable {symbol : σ} {evaluationTime : Time} {params : StrategyParameters}
  {errors : List (StrategyError σ)} {o : Observation} {e : StrategyEvaluationOf σ}

def proposedStop (params : StrategyParameters) (o : Observation) (atr : Decimal) : Decimal :=
  decimalResult (o.close - decimalResult (params.stopInitialAtrMult * atr))

def StopBelow (params : StrategyParameters) (o : Observation) : Prop :=
  ∃ atr ∈ o.atr14, proposedStop params o atr < o.close

structure Proposal (params : StrategyParameters) (o : Observation) (intent : SignalIntent) : Prop where
  breakout : BreakoutCondition o → intent.entryType = some .breakout
  pullback : ¬ BreakoutCondition o → intent.entryType = some .pullback
  entryPrice : intent.entryPrice = some o.close
  stopInitial : ∃ atr ∈ o.atr14, intent.stopInitial = some (proposedStop params o atr) ∧
    proposedStop params o atr < o.close

def FiltersPass (params : StrategyParameters) (o : Observation) : Prop :=
  (∃ ema ∈ o.ema20Monthly, ema < o.monthlyClose) ∧
    (∃ fast ∈ o.ema20Weekly, ∃ slow ∈ o.ema50Weekly, slow < fast) ∧
    ∃ ratio ∈ o.volumeRatio, params.volumeRatioMin ≤ ratio

def chosenSetup (params : StrategyParameters) (o : Observation) : Option (EntryType × ReasonCode) :=
  let regime := evaluateMonthlyRegime (some o.monthlyClose) o.ema20Monthly
  let trend := evaluateWeeklyTrend o.ema20Weekly o.ema50Weekly
  let volumeOk := evaluateVolumeOk o.volumeRatio params.volumeRatioMin
  resolveEntryPriority (evaluateBreakoutSetup o.close o.high20 o.ema20Daily regime trend volumeOk)
    (evaluatePullbackSetup o.close o.low o.closePrev o.ema20Daily o.ema20DailyPrev regime trend volumeOk params)

theorem chosenSetup_eq_some {entryType : EntryType} {reason : ReasonCode}
    (h : chosenSetup params o = some (entryType, reason)) :
    FiltersPass params o ∧ (BreakoutCondition o ∧ entryType = .breakout ∨
      ¬ BreakoutCondition o ∧ PullbackCondition params o ∧ entryType = .pullback) := by
  simp only [chosenSetup, resolveEntryPriority] at h
  split_ifs at h with hbreakout hpullback
  · cases h
    obtain ⟨hcondition, hregime, htrend, hvolume⟩ := breakoutEntry_iff.mp hbreakout
    exact ⟨⟨regimeLong_iff.mp hregime, trendConfirmed_iff.mp htrend, volumeOk_iff.mp hvolume⟩,
      .inl ⟨hcondition, rfl⟩⟩
  · cases h
    obtain ⟨hcondition, hregime, htrend, hvolume⟩ := pullbackEntry_iff.mp hpullback
    exact ⟨⟨regimeLong_iff.mp hregime, trendConfirmed_iff.mp htrend, volumeOk_iff.mp hvolume⟩,
      .inr ⟨fun hb => hbreakout (breakoutEntry_iff.mpr ⟨hb, hregime, htrend, hvolume⟩), hcondition, rfl⟩⟩

theorem chosenSetup_eq_none (h : chosenSetup params o = none) (hfilters : FiltersPass params o) :
    ¬ BreakoutCondition o ∧ ¬ PullbackCondition params o := by
  obtain ⟨hregime, htrend, hvolume⟩ := hfilters
  simp only [chosenSetup, resolveEntryPriority] at h
  split_ifs at h with hbreakout hpullback
  refine ⟨fun hb => hbreakout (breakoutEntry_iff.mpr ?_), fun hp => hpullback (pullbackEntry_iff.mpr ?_)⟩
  · exact ⟨hb, regimeLong_iff.mpr hregime, trendConfirmed_iff.mpr htrend, volumeOk_iff.mpr hvolume⟩
  · exact ⟨hp, regimeLong_iff.mpr hregime, trendConfirmed_iff.mpr htrend, volumeOk_iff.mpr hvolume⟩

theorem decideWith_longEntry {atr : Decimal} (hatr : atr ∈ o.atr14)
    (h : decideWith symbol evaluationTime params errors o atr = .ok e) :
    (LongEntry e ↔ (FiltersPass params o ∧ (BreakoutCondition o ∨ PullbackCondition params o)) ∧
        proposedStop params o atr < o.close) ∧
      (LongEntry e → Proposal params o e.signalIntent) := by
  have hstop : computeInitialStop o.close atr params none = .ok (proposedStop params o atr) := rfl
  rw [decideWith, hstop, ← chosenSetup.eq_def] at h
  cases hchosen : chosenSetup params o with
  | none =>
    rw [hchosen] at h
    have hkind : e.signalIntent.kind = .noEntry := by
      cases h
      rfl
    have hno : ¬ LongEntry e := by simp [LongEntry, hkind]
    refine ⟨⟨fun hentry => absurd hentry hno, fun ⟨⟨hfilters, hsetup⟩, _⟩ => ?_⟩, fun hentry => absurd hentry hno⟩
    obtain ⟨hbreakout, hpullback⟩ := chosenSetup_eq_none hchosen hfilters
    exact absurd hsetup (not_or.mpr ⟨hbreakout, hpullback⟩)
  | some choice =>
    obtain ⟨entryType, reason⟩ := choice
    obtain ⟨hfilters, hsetup⟩ := chosenSetup_eq_some hchosen
    simp only [hchosen, bind, Except.bind, pure, Except.pure] at h
    split_ifs at h with hle
    · have hkind : e.signalIntent.kind = .noEntry := by
        cases h
        rfl
      have hno : ¬ LongEntry e := by simp [LongEntry, hkind]
      exact ⟨⟨fun hentry => absurd hentry hno, fun ⟨_, hlt⟩ => absurd hle (not_le.mpr hlt)⟩,
        fun hentry => absurd hentry hno⟩
    · have hlt := not_le.mp hle
      cases h
      refine ⟨⟨fun _ => ⟨⟨hfilters, ?_⟩, hlt⟩, fun _ => rfl⟩,
        fun _ => ⟨fun hb => ?_, fun hb => ?_, rfl, atr, hatr, rfl, hlt⟩⟩
      · rcases hsetup with ⟨hcondition, _⟩ | ⟨_, hcondition, _⟩
        · exact .inl hcondition
        · exact .inr hcondition
      · rcases hsetup with ⟨_, rfl⟩ | ⟨hno, _⟩
        · rfl
        · exact absurd hb hno
      · rcases hsetup with ⟨hcondition, _⟩ | ⟨_, _, rfl⟩
        · exact absurd hcondition hb
        · rfl

theorem decideSignal_total (symbol : σ) (evaluationTime : Time) (params : StrategyParameters)
    (errors : List (StrategyError σ)) (o : Observation) :
    ∃ e, decideSignal symbol evaluationTime params errors o = .ok e := by
  have hstop : ∀ atr, computeInitialStop o.close atr params none = .ok (proposedStop params o atr) :=
    fun _ => rfl
  unfold decideSignal
  split
  · split_ifs
    · exact ⟨_, rfl⟩
    · simp only [decideWith, hstop, bind, Except.bind, pure, Except.pure]
      split
      · split_ifs
        · exact ⟨_, rfl⟩
        · exact ⟨_, rfl⟩
      · exact ⟨_, rfl⟩
  · exact ⟨_, rfl⟩

theorem decideSignal_longEntry (h : decideSignal symbol evaluationTime params errors o = .ok e) :
    (LongEntry e ↔ EntryConditions params o ∧ StopBelow params o) ∧
      (LongEntry e → Proposal params o e.signalIntent) := by
  unfold decideSignal at h
  split at h
  · rename_i ema atr ratio fast slow month hema hatr hratio hfast hslow hmonth
    split_ifs at h with hle
    · have hno : ¬ LongEntry e := by
        cases h
        simp [LongEntry, buildNoEntryEvaluation]
      refine ⟨⟨fun hentry => absurd hentry hno, fun ⟨hconditions, _⟩ => ?_⟩, fun hentry => absurd hentry hno⟩
      obtain ⟨a, ha, hpos⟩ := hconditions.atr14
      obtain rfl := Option.some.inj (hatr.symm.trans ha)
      exact absurd hle (not_le.mpr hpos)
    · have hpos := not_le.mp hle
      obtain ⟨hiff, hproposal⟩ := decideWith_longEntry (by rw [hatr]; rfl) h
      refine ⟨hiff.trans ⟨fun ⟨⟨⟨hregime, htrend, hvolume⟩, hsetup⟩, hlt⟩ => ?_, fun ⟨hconditions, hbelow⟩ => ?_⟩,
        hproposal⟩
      · exact ⟨⟨by rw [hema]; rfl, ⟨atr, hatr, hpos⟩, hregime, htrend, hvolume, hsetup⟩, atr, hatr, hlt⟩
      · obtain ⟨a, ha, hlt⟩ := hbelow
        obtain rfl := Option.some.inj (hatr.symm.trans ha)
        exact ⟨⟨⟨hconditions.regime, hconditions.trend, hconditions.volume⟩, hconditions.setup⟩, hlt⟩
  · rename_i hmissing
    have hno : ¬ LongEntry e := by
      cases h
      simp [LongEntry, buildNoEntryEvaluation]
    refine ⟨⟨fun hentry => absurd hentry hno, fun ⟨hconditions, _⟩ => ?_⟩, fun hentry => absurd hentry hno⟩
    obtain ⟨ema, hema⟩ := Option.isSome_iff_exists.mp hconditions.ema20Daily
    obtain ⟨atr, hatr, _⟩ := hconditions.atr14
    obtain ⟨month, hmonth, _⟩ := hconditions.regime
    obtain ⟨fast, hfast, slow, hslow, _⟩ := hconditions.trend
    obtain ⟨ratio, hratio, _⟩ := hconditions.volume
    exact (hmissing ema atr ratio fast slow month hema hatr hratio hfast hslow hmonth).elim

end Decision

section Evaluation

variable [DecidableEq σ] {daily weekly monthly : CandleSeriesOf σ} {evaluationTime : Time}
  {params : StrategyParameters} {e : StrategyEvaluationOf σ}

structure AcceptedInput (daily weekly monthly : CandleSeriesOf σ) (evaluationTime : Time) : Prop where
  weeklySymbol : weekly.symbol = daily.symbol
  monthlySymbol : monthly.symbol = daily.symbol
  daily : AcceptedSeries .daily evaluationTime daily
  weekly : AcceptedSeries .weekly evaluationTime weekly
  monthly : AcceptedSeries .monthly evaluationTime monthly

theorem evaluate_cases (daily weekly monthly : CandleSeriesOf σ) (evaluationTime : Time)
    (params : StrategyParameters) :
    (∃ e, evaluate daily weekly monthly evaluationTime params = .ok e ∧ ¬ LongEntry e ∧
      ¬ (AcceptedInput daily weekly monthly evaluationTime ∧
        (DefaultHistory daily weekly monthly ∨ WarmUnder params daily weekly monthly))) ∨
    (AcceptedInput daily weekly monthly evaluationTime ∧
      (DefaultHistory daily weekly monthly ∨ WarmUnder params daily weekly monthly) ∧ ∃ errors,
        evaluate daily weekly monthly evaluationTime params =
          (observe daily.candles weekly.candles monthly.candles params).bind
            (decideSignal daily.symbol evaluationTime params errors)) := by
  unfold evaluate
  split
  · rename_i series hmismatch
    refine .inl ⟨_, rfl, by simp [LongEntry, buildNoEntryEvaluation], fun ⟨haccepted, _⟩ => ?_⟩
    have hother := List.find?_some hmismatch
    have hmem := List.mem_of_find?_eq_some hmismatch
    simp only [List.mem_cons, List.not_mem_nil, or_false] at hmem
    rcases hmem with rfl | rfl
    · simp [haccepted.weeklySymbol] at hother
    · simp [haccepted.monthlySymbol] at hother
  · rename_i hsame
    simp only [List.find?_eq_none, List.mem_cons, List.not_mem_nil, or_false, forall_eq_or_imp, forall_eq,
      ne_eq, decide_not, Bool.not_eq_true', decide_eq_false_iff_not, not_not] at hsame
    dsimp only
    split_ifs with hinvalid hhistory
    · refine .inl ⟨_, rfl, by simp [LongEntry, buildNoEntryEvaluation], fun ⟨haccepted, _⟩ => ?_⟩
      rcases hinvalid with h | h | h
      · exact status_ne_invalidData_iff.mpr haccepted.daily h
      · exact status_ne_invalidData_iff.mpr haccepted.weekly h
      · exact status_ne_invalidData_iff.mpr haccepted.monthly h
    · refine .inl ⟨_, rfl, by simp [LongEntry, buildNoEntryEvaluation], fun ⟨haccepted, henough⟩ => ?_⟩
      obtain ⟨hshort, hcold⟩ := hhistory
      have hwarm : ¬ WarmUnder params daily weekly monthly := by simpa [WarmUnder] using hcold
      obtain ⟨hdaily, hweekly, hmonthly⟩ := henough.resolve_right hwarm
      rcases hshort with h | h | h
      · exact (status_insufficientHistory_iff haccepted.daily).mp h hdaily
      · exact h ((status_ok_iff haccepted.weekly).mpr hweekly)
      · exact h ((status_ok_iff haccepted.monthly).mpr hmonthly)
    · simp only [not_or] at hinvalid
      obtain ⟨hd, hw, hm⟩ := hinvalid
      have haccepted : AcceptedInput daily weekly monthly evaluationTime := ⟨hsame.1, hsame.2,
        status_ne_invalidData_iff.mp hd, status_ne_invalidData_iff.mp hw, status_ne_invalidData_iff.mp hm⟩
      refine .inr ⟨haccepted, ?_, _, rfl⟩
      by_contra hnot
      obtain ⟨hshort, hcold⟩ := not_or.mp hnot
      refine hhistory ⟨?_, by simpa [WarmUnder] using hcold⟩
      by_contra henough
      simp only [not_or, ne_eq, not_not] at henough
      refine hshort ⟨?_, (status_ok_iff haccepted.weekly).mp henough.2.1,
        (status_ok_iff haccepted.monthly).mp henough.2.2⟩
      exact not_not.mp (mt (status_insufficientHistory_iff haccepted.daily).mpr henough.1)

theorem evaluate_longEntry_iff :
    (∃ e, evaluate daily weekly monthly evaluationTime params = .ok e ∧ LongEntry e) ↔
      AcceptedInput daily weekly monthly evaluationTime ∧
        (DefaultHistory daily weekly monthly ∨ WarmUnder params daily weekly monthly) ∧
        ∃ o, observe daily.candles weekly.candles monthly.candles params = .ok o ∧
          EntryConditions params o ∧ StopBelow params o := by
  rcases evaluate_cases daily weekly monthly evaluationTime params with
    ⟨e, he, hno, hrefused⟩ | ⟨haccepted, henough, errors, heq⟩
  · refine ⟨fun ⟨e', he', hentry⟩ => ?_, fun ⟨haccepted, henough, _⟩ => absurd ⟨haccepted, henough⟩ hrefused⟩
    obtain rfl := Except.ok.inj (he.symm.trans he')
    exact absurd hentry hno
  · rw [heq]
    constructor
    · rintro ⟨e, he, hentry⟩
      obtain ⟨o, ho, he⟩ := except_bind_eq_ok.mp he
      exact ⟨haccepted, henough, o, ho, (decideSignal_longEntry he).1.mp hentry⟩
    · rintro ⟨_, _, o, ho, hconditions⟩
      obtain ⟨e, he⟩ := decideSignal_total daily.symbol evaluationTime params errors o
      exact ⟨e, except_bind_eq_ok.mpr ⟨o, ho, he⟩, (decideSignal_longEntry he).1.mpr hconditions⟩

theorem evaluate_proposal (he : evaluate daily weekly monthly evaluationTime params = .ok e) (hentry : LongEntry e) :
    ∃ o, observe daily.candles weekly.candles monthly.candles params = .ok o ∧
      Proposal params o e.signalIntent := by
  rcases evaluate_cases daily weekly monthly evaluationTime params with
    ⟨e', he', hno, _⟩ | ⟨_, _, errors, heq⟩
  · obtain rfl := Except.ok.inj (he.symm.trans he')
    exact absurd hentry hno
  · rw [heq] at he
    obtain ⟨o, ho, he⟩ := except_bind_eq_ok.mp he
    exact ⟨o, ho, (decideSignal_longEntry he).2 hentry⟩

/-- Exactly when an entry is signalled; it is a breakout if there is one, and its stop lies below the price. -/
theorem entry_decision (daily weekly monthly : CandleSeriesOf σ) (evaluationTime : Time)
    (params : StrategyParameters) :
    ((∃ e, evaluate daily weekly monthly evaluationTime params = .ok e ∧ LongEntry e) ↔
      AcceptedInput daily weekly monthly evaluationTime ∧
        (DefaultHistory daily weekly monthly ∨ WarmUnder params daily weekly monthly) ∧
        ∃ o, observe daily.candles weekly.candles monthly.candles params = .ok o ∧
          EntryConditions params o ∧ StopBelow params o) ∧
    ∀ e, evaluate daily weekly monthly evaluationTime params = .ok e → LongEntry e →
      ∃ o, observe daily.candles weekly.candles monthly.candles params = .ok o ∧
        Proposal params o e.signalIntent :=
  ⟨evaluate_longEntry_iff, fun _ he hentry => evaluate_proposal he hentry⟩

end Evaluation

section Samples

def sampleSeries (timeframe : Timeframe) (closes : List Decimal) : CandleSeries :=
  { symbol := .BTC
    timeframe
    candles := closes.mapIdx fun i close =>
      { symbol := .BTC, timeframe, openTime := i * day, closeTime := (i + 1) * day - second
        openPrice := close - 5, high := close, low := close - 10, close, volume := 1, isClosed := true } }

def shortPeriods : StrategyParameters :=
  { monthlyEmaPeriod := 2, weeklyEmaFast := 1, weeklyEmaSlow := 2, dailyEmaPeriod := 2
    breakoutLookback := 1, atrPeriod := 1, volumeSmaPeriod := 1 }

def sampleObservation (fast slow : Decimal) : Observation :=
  { evaluationIndex := 1, close := 110, low := 100, closePrev := some 100, ema20Daily := some 105
    ema20DailyPrev := none, atr14 := some 10, volumeRatio := some 1, high20 := some 100
    ema20Weekly := some fast, ema50Weekly := some slow, ema20Monthly := some 105, monthlyClose := 110 }

theorem not_iff_of_no_entry {daily weekly monthly : CandleSeries} {evaluationTime : Time}
    {params : StrategyParameters} {o : Observation}
    (hevaluate : (evaluate daily weekly monthly evaluationTime params).toOption.all
      fun e => e.signalIntent.kind ≠ .longEntry)
    (haccepted : AcceptedInput daily weekly monthly evaluationTime)
    (hobserve : observe daily.candles weekly.candles monthly.candles params = .ok o)
    (hconditions : EntryConditions params o) :
    ¬ ((∃ e, evaluate daily weekly monthly evaluationTime params = .ok e ∧ LongEntry e) ↔
      AcceptedInput daily weekly monthly evaluationTime ∧
        ∃ o, observe daily.candles weekly.candles monthly.candles params = .ok o ∧ EntryConditions params o) := by
  intro hiff
  obtain ⟨e, he, hentry⟩ := hiff.mpr ⟨haccepted, o, hobserve, hconditions⟩
  rw [he] at hevaluate
  have hno : ¬ LongEntry e := by simpa [Except.toOption, LongEntry] using hevaluate
  exact hno hentry

/-- The conditions for an entry hold, yet there is none: in one case the stop would not lie below the
entry, in the other one weekly candle is missing. -/
theorem conditions_without_entry :
    (let daily := sampleSeries .daily [100, 110]
    let weekly := sampleSeries .weekly [100, 110]
    let monthly := sampleSeries .monthly [100, 110]
    let params := { shortPeriods with stopInitialAtrMult := 0 }
    ¬ ((∃ e, evaluate daily weekly monthly (10 * day) params = .ok e ∧ LongEntry e) ↔
      AcceptedInput daily weekly monthly (10 * day) ∧
        ∃ o, observe daily.candles weekly.candles monthly.candles params = .ok o ∧ EntryConditions params o)) ∧
    (let daily := sampleSeries .daily [100, 110]
    let weekly := sampleSeries .weekly [110, 100]
    let monthly := sampleSeries .monthly [100, 110]
    let params := { shortPeriods with weeklyEmaFast := 2, weeklyEmaSlow := 1 }
    ¬ ((∃ e, evaluate daily weekly monthly (10 * day) params = .ok e ∧ LongEntry e) ↔
      AcceptedInput daily weekly monthly (10 * day) ∧
        ∃ o, observe daily.candles weekly.candles monthly.candles params = .ok o ∧ EntryConditions params o)) := by
  have haccepted : ∀ weekly ∈ [[100, 110], [(110 : Decimal), 100]],
      AcceptedInput (sampleSeries .daily [100, 110]) (sampleSeries .weekly weekly)
        (sampleSeries .monthly [100, 110]) (10 * day) := by
    refine fun weekly hweekly => ⟨rfl, rfl, status_ne_invalidData_iff.mp (by decide +kernel),
      status_ne_invalidData_iff.mp ?_, status_ne_invalidData_iff.mp (by decide +kernel)⟩
    simp only [List.mem_cons, List.not_mem_nil, or_false] at hweekly
    rcases hweekly with rfl | rfl
    · decide +kernel
    · decide +kernel
  have hconditions : ∀ fast slow : Decimal, slow < fast → ∀ params : StrategyParameters,
      params.volumeRatioMin ≤ 1 → EntryConditions params (sampleObservation fast slow) := by
    intro fast slow hlt params hmin
    exact ⟨rfl, ⟨10, rfl, by norm_num⟩, ⟨105, rfl, by norm_num [sampleObservation]⟩, ⟨fast, rfl, slow, rfl, hlt⟩,
      ⟨1, rfl, hmin⟩, .inl ⟨⟨100, rfl, by norm_num [sampleObservation]⟩, ⟨105, rfl, by norm_num [sampleObservation]⟩⟩⟩
  constructor
  · exact not_iff_of_no_entry (o := sampleObservation 110 105) (by decide +kernel) (haccepted _ (by simp))
      (by decide +kernel) (hconditions _ _ (by norm_num) _ (by decide))
  · exact not_iff_of_no_entry (o := sampleObservation 105 100) (by decide +kernel) (haccepted _ (by simp))
      (by decide +kernel) (hconditions _ _ (by norm_num) _ (by decide))

end Samples

end TradingBot.Strategy.EntryDecision
