import TradingBot.Strategy.Engine

namespace TradingBot.Strategy.EngineFacts

open Market.Models Exceptions Strategy.Models Strategy.Indicators Strategy.Stops Strategy.Validation
open Strategy.Engine Library.Rounding Library.Smoothing Library.Outcome

def defaultPeriods (volumeRatioMin pullbackEmaTolerance stopInitialAtrMult trailAtrMult : Decimal) :
    StrategyParameters :=
  { volumeRatioMin, pullbackEmaTolerance, stopInitialAtrMult, trailAtrMult }

def comparable (e : StrategyEvaluation) : StrategyEvaluation :=
  { e with errors := [], indicators := { e.indicators with evaluationIndex := 0 } }

def unindexed (o : Observation) : Observation := { o with evaluationIndex := 0 }

section Time

variable {σ : Type}

/-- What every evaluation says about itself: whose it is, when it was made and by which rules. -/
structure Stamped (symbol : σ) (evaluationTime : Time) (e : StrategyEvaluationOf σ) : Prop where
  symbol : e.symbol = symbol
  evaluationTime : e.evaluationTime = evaluationTime
  strategyVersion : e.strategyVersion = Models.strategyVersion

theorem decideSignal_stamped {symbol : σ} {evaluationTime : Time} {params : StrategyParameters}
    {errors : List (StrategyError σ)} {o : Observation} {e : StrategyEvaluationOf σ}
    (h : decideSignal symbol evaluationTime params errors o = .ok e) : Stamped symbol evaluationTime e := by
  unfold decideSignal at h
  split at h
  · split_ifs at h
    · cases h
      exact ⟨rfl, rfl, rfl⟩
    · unfold decideWith at h
      obtain ⟨stopInitial, _, h⟩ := except_bind_eq_ok.mp h
      split at h
      · split_ifs at h
        · cases h
          exact ⟨rfl, rfl, rfl⟩
        · cases h
          exact ⟨rfl, rfl, rfl⟩
      · cases h
        exact ⟨rfl, rfl, rfl⟩
  · cases h
    exact ⟨rfl, rfl, rfl⟩

theorem evaluate_stamped [DecidableEq σ] {daily weekly monthly : CandleSeriesOf σ}
    {evaluationTime : Time} {params : StrategyParameters} {e : StrategyEvaluationOf σ}
    (h : evaluate daily weekly monthly evaluationTime params = .ok e) :
    Stamped daily.symbol evaluationTime e := by
  unfold evaluate at h
  split at h
  · cases h
    exact ⟨rfl, rfl, rfl⟩
  · dsimp only at h
    split_ifs at h
    · cases h
      exact ⟨rfl, rfl, rfl⟩
    · cases h
      exact ⟨rfl, rfl, rfl⟩
    · obtain ⟨o, _, h⟩ := except_bind_eq_ok.mp h
      exact decideSignal_stamped h

end Time

section Decision

variable (symbol : Symbol) (evaluationTime : Time) (params : StrategyParameters)
  (errors : List (StrategyError Symbol)) (o : Observation)

theorem decideWith_keeps (atr14 : Decimal) : ∃ e,
    decideWith symbol evaluationTime params errors o atr14 = .ok e ∧ e.indicators = o.indicators ∧
      e.dataQualityStatus = .ok := by
  have hstop : computeInitialStop o.close atr14 params none =
      .ok (decimalResult (o.close - decimalResult (params.stopInitialAtrMult * atr14))) := rfl
  simp only [decideWith, hstop, bind, Except.bind, pure, Except.pure]
  split
  · split
    · exact ⟨_, rfl, rfl, rfl⟩
    · exact ⟨_, rfl, rfl, rfl⟩
  · exact ⟨_, rfl, rfl, rfl⟩

theorem decideSignal_keeps : ∃ e,
    decideSignal symbol evaluationTime params errors o = .ok e ∧ e.indicators = o.indicators ∧
      e.dataQualityStatus ≠ .invalidData := by
  unfold decideSignal
  split
  · split
    · exact ⟨_, rfl, rfl, by simp [buildNoEntryEvaluation]⟩
    · obtain ⟨e, he, hindicators, hstatus⟩ := decideWith_keeps symbol evaluationTime params errors o _
      exact ⟨e, he, hindicators, by simp [hstatus]⟩
  · exact ⟨_, rfl, rfl, by simp [buildNoEntryEvaluation]⟩

theorem decideWith_unindexed (atr14 : Decimal) :
    (decideWith symbol evaluationTime params errors o atr14).map comparable =
      (decideWith symbol evaluationTime params [] (unindexed o) atr14).map comparable := by
  have hstop : ∀ close, computeInitialStop close atr14 params none =
      .ok (decimalResult (close - decimalResult (params.stopInitialAtrMult * atr14))) := fun _ => rfl
  rw [unindexed]
  simp only [decideWith, hstop, bind, Except.bind, pure, Except.pure]
  split
  · split_ifs <;> rfl
  · rfl

theorem decideSignal_unindexed :
    (decideSignal symbol evaluationTime params errors o).map comparable =
      (decideSignal symbol evaluationTime params [] (unindexed o)).map comparable := by
  rw [unindexed]
  simp only [decideSignal]
  split
  · split_ifs
    · rfl
    · exact decideWith_unindexed symbol evaluationTime params errors o _
  · rfl

end Decision

section Observed

variable {params : StrategyParameters} {daily weekly monthly : List Candle}

def emaAfter (period n : ℕ) (values : List Decimal) : Decimal :=
  level (emaStep period) (mean decimalResult (values.take period)) ((values.drop period).take n)

def atrAfter (period n : ℕ) (candles : List Candle) : Decimal :=
  level (atrStep period) (mean decimalResult ((trueRanges candles).take period))
    (((trueRanges candles).drop period).take n)

/-- The values that the decision reads of series that are long enough for the default periods. -/
def observed (daily weekly monthly : List Candle) : Observation :=
  let closes := daily.map (·.close)
  { evaluationIndex := (daily.length - 1 : ℕ)
    close := closes.getLastD 0
    low := (daily.map (·.low)).getLastD 0
    closePrev := closes[daily.length - 2]?
    ema20Daily := some (emaAfter 20 (daily.length - 20) closes)
    ema20DailyPrev := some (emaAfter 20 (daily.length - 21) closes)
    atr14 := some (atrAfter 14 (daily.length - 15) daily)
    volumeRatio := ratioTo ((daily.map (·.volume)).getLastD 0)
      (some (mean decimalResult (window (daily.map (·.volume)) (daily.length - 20) 20)))
    high20 := (window (daily.map (·.high)) (daily.length - 21) 20).max?
    ema20Weekly := some (emaAfter 20 (weekly.length - 20) (weekly.map (·.close)))
    ema50Weekly := some (emaAfter 50 (weekly.length - 50) (weekly.map (·.close)))
    ema20Monthly := some (emaAfter 20 (monthly.length - 20) (monthly.map (·.close)))
    monthlyClose := (monthly.map (·.close)).getLastD 0 }

theorem getElem_last {α : Type} (f : Candle → α) (candles : List Candle) (default : α)
    (h : candles.length - 1 < (candles.map f).length) :
    (candles.map f).get ⟨candles.length - 1, h⟩ = (candles.map f).getLastD default := by
  have hne : candles.map f ≠ [] := List.ne_nil_of_length_pos (Nat.zero_lt_of_lt h)
  rw [List.getLastD_eq_getLast?, List.getLast?_eq_some_getLast hne, List.getLast_eq_getElem]
  simp

theorem computeEma_after {candles : List Candle} {period i n : ℕ} (hperiod : 0 < period)
    (hi : i + 1 = period + n) (hlen : i < candles.length) :
    ∃ series, computeEma (candles.map (·.close)) period = .ok series ∧
      series.at i = some (emaAfter period n (candles.map (·.close))) := by
  have hn : i + 1 - period = n := by omega
  have hlen' : i < (candles.map (·.close)).length := by rwa [List.length_map]
  obtain ⟨series, hseries, hat⟩ := computeEma_at hperiod (show period ≤ i + 1 by omega) hlen'
  exact ⟨series, hseries, by rw [hat, hn, emaAfter]⟩

theorem observe_eq (volumeRatioMin pullbackEmaTolerance stopInitialAtrMult trailAtrMult : Decimal)
    (hdaily : 21 ≤ daily.length) (hweekly : 50 ≤ weekly.length) (hmonthly : 20 ≤ monthly.length) :
    observe daily weekly monthly
      (defaultPeriods volumeRatioMin pullbackEmaTolerance stopInitialAtrMult trailAtrMult) =
      .ok (observed daily weekly monthly) := by
  have hlast : daily.length - 1 < daily.length := by omega
  have hmap : ∀ f : Candle → Decimal, daily.length - 1 < (daily.map f).length := fun f => by
    rwa [List.length_map]
  have hnext : daily.length - 1 + 1 = 20 + (daily.length - 20) := by omega
  obtain ⟨ema, hema, hemaAt⟩ := computeEma_after (by omega) hnext hlast
  obtain ⟨_, hema', hprevAt⟩ := computeEma_after (show 0 < 20 by omega)
    (show daily.length - 2 + 1 = 20 + (daily.length - 21) by omega)
    (show daily.length - 2 < daily.length by omega)
  obtain rfl := Except.ok.inj (hema.symm.trans hema')
  obtain ⟨atr, hatr, hatrAt⟩ := computeWilderAtr_at (show 0 < 14 by omega)
    (show 14 ≤ daily.length - 1 by omega) hlast
  obtain ⟨ratio, hratio, hratioAt⟩ := computeVolumeRatio_at (show 0 < 20 by omega)
    (show 20 ≤ daily.length - 1 + 1 by omega) (hmap (·.volume))
  obtain ⟨high, hhigh, hhighAt⟩ := computeHigh20_at (show 0 < 20 by omega)
    (show 20 ≤ daily.length - 1 by omega) (hmap (·.high))
  obtain ⟨fast, hfast, hfastAt⟩ := computeEma_after (show 0 < 20 by omega)
    (show weekly.length - 1 + 1 = 20 + (weekly.length - 20) by omega)
    (show weekly.length - 1 < weekly.length by omega)
  obtain ⟨slow, hslow, hslowAt⟩ := computeEma_after (show 0 < 50 by omega)
    (show weekly.length - 1 + 1 = 50 + (weekly.length - 50) by omega)
    (show weekly.length - 1 < weekly.length by omega)
  obtain ⟨month, hmonth, hmonthAt⟩ := computeEma_after (show 0 < 20 by omega)
    (show monthly.length - 1 + 1 = 20 + (monthly.length - 20) by omega)
    (show monthly.length - 1 < monthly.length by omega)
  rw [getElem_last _ _ 0, hnext, Nat.add_sub_cancel_left] at hratioAt
  have hprev : 1 ≤ daily.length - 1 := by omega
  have hback : daily.length - 1 - 1 = daily.length - 2 := Nat.sub_sub _ 1 1
  have hwindow : daily.length - 1 - 20 = daily.length - 21 := Nat.sub_sub _ 1 20
  have hatrLength : daily.length - 1 - 14 = daily.length - 15 := Nat.sub_sub _ 1 14
  rw [Nat.cast_ofNat] at hema hatr hratio hhigh hfast hslow hmonth
  simp only [observe, defaultPeriods, hema, hatr, hratio, hhigh, hfast, hslow, hmonth, bind, Except.bind,
    pure, Except.pure, observed, hemaAt, hprev, ↓reduceIte, hback, hprevAt, hatrAt, hratioAt, hhighAt,
    hfastAt, hslowAt, hmonthAt, hwindow, hatrLength, atrAfter]

end Observed

section Evaluated

variable {symbol : Symbol} {timeframe : Timeframe} {evaluationTime : Time} {daily weekly monthly : List Candle}

/-- Sound candles in order, as many as the default periods need. -/
structure WarmSeries (symbol : Symbol) (timeframe : Timeframe) (evaluationTime : Time)
    (candles : List Candle) : Prop where
  sound : ∀ c ∈ candles, SoundCandle symbol timeframe evaluationTime c
  sorted : candles.Pairwise fun a b => a.openTime < b.openTime
  warm : minCandlesForWarmup timeframe {} ≤ candles.length

theorem minCandlesForWarmup_pos : 0 < minCandlesForWarmup timeframe {} := by
  cases timeframe <;> decide

theorem WarmSeries.length_le {candles : List Candle} {n : ℕ}
    (h : WarmSeries symbol timeframe evaluationTime candles)
    (hn : minCandlesForWarmup timeframe {} = n) : n ≤ candles.length := by
  have hwarm := h.warm
  rw [hn] at hwarm
  exact Nat.cast_le.mp hwarm

theorem WarmSeries.pos {candles : List Candle} (h : WarmSeries symbol timeframe evaluationTime candles) :
    0 < candles.length := Nat.cast_pos.mp (minCandlesForWarmup_pos.trans_le h.warm)

theorem WarmSeries.validate_ok {candles : List Candle}
    (h : WarmSeries symbol timeframe evaluationTime candles) (hrange : candles.all inFloatRange) :
    validateCandleSeries ⟨symbol, timeframe, candles⟩ evaluationTime (some timeframe) = (.ok, []) :=
  (validateCandleSeries_sound h.sound h.sorted h.warm h.pos).1 hrange

theorem WarmSeries.validate_invalid {candles : List Candle}
    (h : WarmSeries symbol timeframe evaluationTime candles) (hrange : candles.all inFloatRange = false) :
    (validateCandleSeries ⟨symbol, timeframe, candles⟩ evaluationTime (some timeframe)).1 = .invalidData :=
  (validateCandleSeries_sound h.sound h.sorted h.warm h.pos).2 hrange

variable (volumeRatioMin pullbackEmaTolerance stopInitialAtrMult trailAtrMult : Decimal)

theorem evaluate_inRange (hdaily : WarmSeries symbol .daily evaluationTime daily)
    (hweekly : WarmSeries symbol .weekly evaluationTime weekly)
    (hmonthly : WarmSeries symbol .monthly evaluationTime monthly)
    (hrange : (daily ++ weekly ++ monthly).all inFloatRange) :
    evaluate ⟨symbol, .daily, daily⟩ ⟨symbol, .weekly, weekly⟩ ⟨symbol, .monthly, monthly⟩ evaluationTime
        (defaultPeriods volumeRatioMin pullbackEmaTolerance stopInitialAtrMult trailAtrMult) =
      decideSignal symbol evaluationTime
        (defaultPeriods volumeRatioMin pullbackEmaTolerance stopInitialAtrMult trailAtrMult) []
        (observed daily weekly monthly) := by
  simp only [List.all_append, Bool.and_eq_true] at hrange
  obtain ⟨⟨hrangeD, hrangeW⟩, hrangeM⟩ := hrange
  have hobserve := observe_eq volumeRatioMin pullbackEmaTolerance stopInitialAtrMult trailAtrMult
    (hdaily.length_le rfl) (hweekly.length_le rfl) (hmonthly.length_le rfl)
  simp only [evaluate, hdaily.validate_ok hrangeD, hweekly.validate_ok hrangeW,
    hmonthly.validate_ok hrangeM, hobserve, List.find?_cons, List.find?_nil, ne_eq, not_true_eq_false,
    decide_false, reduceCtorEq, or_self, false_and, ↓reduceIte, List.append_nil]
  rfl

theorem evaluate_outOfRange (params : StrategyParameters)
    (hdaily : WarmSeries symbol .daily evaluationTime daily)
    (hweekly : WarmSeries symbol .weekly evaluationTime weekly)
    (hmonthly : WarmSeries symbol .monthly evaluationTime monthly)
    (hrange : (daily ++ weekly ++ monthly).all inFloatRange = false) :
    (evaluate ⟨symbol, .daily, daily⟩ ⟨symbol, .weekly, weekly⟩ ⟨symbol, .monthly, monthly⟩ evaluationTime
        params).map comparable =
      .ok (comparable (buildNoEntryEvaluation symbol evaluationTime params .invalidData .invalidData
        [.rejectData] [])) := by
  have hinvalid : (validateCandleSeries ⟨symbol, .daily, daily⟩ evaluationTime (some .daily)).1 =
        .invalidData ∨
      (validateCandleSeries ⟨symbol, .weekly, weekly⟩ evaluationTime (some .weekly)).1 = .invalidData ∨
      (validateCandleSeries ⟨symbol, .monthly, monthly⟩ evaluationTime (some .monthly)).1 =
        .invalidData := by
    simp only [List.all_append, Bool.and_eq_false_iff] at hrange
    rcases hrange with (hrange | hrange) | hrange
    · exact .inl (hdaily.validate_invalid hrange)
    · exact .inr (.inl (hweekly.validate_invalid hrange))
    · exact .inr (.inr (hmonthly.validate_invalid hrange))
  simp only [evaluate, List.find?_cons, List.find?_nil, ne_eq, not_true_eq_false, decide_false]
  rw [if_pos hinvalid]
  rfl

end Evaluated

end TradingBot.Strategy.EngineFacts
