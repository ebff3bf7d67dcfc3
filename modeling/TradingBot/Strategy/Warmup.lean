import TradingBot.Strategy.EntryDecision

namespace TradingBot.Strategy.Warmup

open Market.Models Exceptions Strategy.Models Strategy.Indicators Strategy.Validation Strategy.Engine
open Strategy.EntryDecision Library.Outcome

variable {σ : Type}

section Indicators

theorem at_replicate {n i : ℕ} : Series.at (List.replicate n none) i = none := by
  rw [Series.at, List.getElem?_replicate]
  split_ifs
  · rfl
  · rfl

theorem period_le_of_computeEma {closes : List Decimal} {period : ℤ} {series : Series} {i : ℕ}
    (h : computeEma closes period = .ok series) (hat : (series.at i).isSome) : period ≤ closes.length := by
  unfold computeEma at h
  dsimp only at h
  split_ifs at h with hpositive hshort
  · cases h
    simp [at_replicate] at hat
  · omega

theorem period_lt_of_computeWilderAtr {candles : List (CandleOf σ)} {period : ℤ} {series : Series} {i : ℕ}
    (h : computeWilderAtr candles period = .ok series) (hat : (series.at i).isSome) :
    period < candles.length := by
  unfold computeWilderAtr at h
  split_ifs at h with hshort
  · cases h
    simp [at_replicate] at hat
  all_goals exact not_le.mp hshort

theorem period_le_of_computeVolumeRatio {volumes : List Decimal} {period : ℤ} {series : Series} {i : ℕ}
    (h : computeVolumeRatio volumes period = .ok series) (hat : (series.at i).isSome) :
    period ≤ volumes.length := by
  obtain ⟨sma, hsma, hseries⟩ := except_bind_eq_ok.mp h
  unfold computeVolumeSma at hsma
  split_ifs at hsma with hshort
  · cases hsma
    cases hseries
    have hnone : Series.at (List.zipWith ratioTo volumes (List.replicate volumes.length none)) i = none := by
      rw [Series.at, List.getElem?_zipWith, List.getElem?_replicate]
      cases volumes[i]? with
      | none => rfl
      | some volume => split_ifs <;> rfl
    rw [hnone] at hat
    cases hat
  all_goals exact not_lt.mp hshort

end Indicators

section Conditions

variable {daily weekly monthly : List (CandleOf σ)} {params : StrategyParameters} {o : Observation}

/-- The lengths that the required indicators alone ask for. -/
structure IndicatorHistory (daily weekly monthly : List (CandleOf σ)) (params : StrategyParameters) : Prop where
  dailyEma : params.dailyEmaPeriod ≤ daily.length
  atr : params.atrPeriod < daily.length
  volumeSma : params.volumeSmaPeriod ≤ daily.length
  weeklyFast : params.weeklyEmaFast ≤ weekly.length
  weeklySlow : params.weeklyEmaSlow ≤ weekly.length
  monthlyEma : params.monthlyEmaPeriod ≤ monthly.length

theorem indicatorHistory_of_conditions (ho : observe daily weekly monthly params = .ok o)
    (h : EntryConditions params o) : IndicatorHistory daily weekly monthly params := by
  obtain ⟨ema, hema, ho⟩ := except_bind_eq_ok.mp ho
  obtain ⟨atr, hatr, ho⟩ := except_bind_eq_ok.mp ho
  obtain ⟨ratio, hratio, ho⟩ := except_bind_eq_ok.mp ho
  obtain ⟨high, hhigh, ho⟩ := except_bind_eq_ok.mp ho
  obtain ⟨fast, hfast, ho⟩ := except_bind_eq_ok.mp ho
  obtain ⟨slow, hslow, ho⟩ := except_bind_eq_ok.mp ho
  obtain ⟨month, hmonth, ho⟩ := except_bind_eq_ok.mp ho
  cases ho
  obtain ⟨a, ha, _⟩ := h.atr14
  obtain ⟨m, hm, _⟩ := h.regime
  obtain ⟨f, hf, s, hs, _⟩ := h.trend
  obtain ⟨v, hv, _⟩ := h.volume
  have hsome : ∀ {x : Option Decimal} {a : Decimal}, a ∈ x → x.isSome := fun ha => by
    rw [Option.mem_def.mp ha]
    rfl
  exact
    { dailyEma := by simpa using period_le_of_computeEma hema h.ema20Daily
      atr := period_lt_of_computeWilderAtr hatr (hsome ha)
      volumeSma := by simpa using period_le_of_computeVolumeRatio hratio (hsome hv)
      weeklyFast := by simpa using period_le_of_computeEma hfast (hsome hf)
      weeklySlow := by simpa using period_le_of_computeEma hslow (hsome hs)
      monthlyEma := by simpa using period_le_of_computeEma hmonth (hsome hm) }

end Conditions

section Entries

variable {daily weekly monthly : CandleSeriesOf σ} {params : StrategyParameters}

theorem warmUnder_iff (h : IndicatorHistory daily.candles weekly.candles monthly.candles params) :
    WarmUnder params daily weekly monthly ↔
      params.breakoutLookback < daily.candles.length ∧ params.weeklyEmaFast < weekly.candles.length := by
  obtain ⟨hema, hatr, hvolume, _, hslow, hmonth⟩ := h
  simp only [WarmUnder, checkWarmupComplete, minCandlesForWarmup, max_le_iff, decide_eq_true_eq]
  omega

/-- An entry is signalled without the warm-up of its parameters exactly when the history is long enough for
the default periods, the conditions hold and the lookback or the fast weekly period reaches beyond it. -/
theorem entry_warm_iff [DecidableEq σ] (daily weekly monthly : CandleSeriesOf σ) (evaluationTime : Time)
    (params : StrategyParameters) :
    (∀ e, evaluate daily weekly monthly evaluationTime params = .ok e → LongEntry e →
      WarmUnder params daily weekly monthly) ↔
    ¬ (AcceptedInput daily weekly monthly evaluationTime ∧ DefaultHistory daily weekly monthly ∧
      (daily.candles.length ≤ params.breakoutLookback ∨ weekly.candles.length ≤ params.weeklyEmaFast) ∧
      ∃ o, observe daily.candles weekly.candles monthly.candles params = .ok o ∧ EntryConditions params o ∧
        StopBelow params o) := by
  constructor
  · rintro hwarm ⟨haccepted, hdefault, hbeyond, o, ho, hconditions, hbelow⟩
    obtain ⟨e, he, hentry⟩ := evaluate_longEntry_iff.mpr
      ⟨haccepted, .inl hdefault, o, ho, hconditions, hbelow⟩
    obtain ⟨hlookback, hfast⟩ :=
      (warmUnder_iff (indicatorHistory_of_conditions ho hconditions)).mp (hwarm e he hentry)
    omega
  · intro hnot e he hentry
    obtain ⟨haccepted, henough, o, ho, hconditions, hbelow⟩ := evaluate_longEntry_iff.mp ⟨e, he, hentry⟩
    rcases henough with hdefault | hwarm
    · rw [warmUnder_iff (indicatorHistory_of_conditions ho hconditions)]
      by_contra hcold
      refine hnot ⟨haccepted, hdefault, ?_, o, ho, hconditions, hbelow⟩
      omega
    · exact hwarm

end Entries

section Samples

def risingSeries (timeframe : Timeframe) (count : ℕ) : CandleSeries :=
  sampleSeries timeframe (List.replicate (count - 2) 100 ++ [101, 102])

/-- Twenty-one days satisfy the default lookback of 20 days, not one of 30: the entry is a pullback. -/
theorem entry_before_warmup :
    let daily := risingSeries .daily 21
    let weekly := risingSeries .weekly 50
    let monthly := risingSeries .monthly 20
    let params : StrategyParameters := { breakoutLookback := 30 }
    ¬ ∀ e, evaluate daily weekly monthly (100 * day) params = .ok e → LongEntry e →
      WarmUnder params daily weekly monthly := by
  intro daily weekly monthly params hwarm
  have hentry : (evaluate daily weekly monthly (100 * day) params).toOption.any
      (fun e => e.signalIntent.kind = .longEntry) = true := by decide +kernel
  obtain ⟨e, he, hkind⟩ := exists_of_any hentry
  have hlong : e.signalIntent.kind = .longEntry := of_decide_eq_true hkind
  have hcold : ¬ WarmUnder params daily weekly monthly := by
    unfold WarmUnder
    decide
  exact hcold (hwarm e he hlong)

end Samples

end TradingBot.Strategy.Warmup
