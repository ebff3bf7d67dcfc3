import TradingBot.Backtester.Lifecycle
import TradingBot.Market.BundleFacts
import TradingBot.Strategy.EngineFacts

namespace TradingBot.Paper.SignalParity

open Market.Models Market.Repository Market.Bundle Market.BundleFacts Exceptions Strategy.Models
open Strategy.Indicators Strategy.Stops Strategy.Validation Strategy.Engine Strategy.EngineFacts Backtester.Engine
open Library.Rounding Library.Smoothing Market.Timeframes

section Trim

/-- The last candles of a series, all of them if there are fewer. -/
def trim {α : Type} (keep : ℕ) (xs : List α) : List α := xs.drop (xs.length - keep)

variable {symbol : Symbol} {timeframe : Timeframe} {evaluationTime : Time} {keep : ℕ}
  {candles daily weekly monthly : List Candle}

theorem length_trim {α : Type} {xs : List α} (h : keep ≤ xs.length) : (trim keep xs).length = keep := by
  rw [trim, List.length_drop]
  omega

theorem map_trim {α β : Type} (f : α → β) (xs : List α) : (trim keep xs).map f = trim keep (xs.map f) := by
  simp [trim, List.map_drop]

theorem warmSeries_trim (h : WarmSeries symbol timeframe evaluationTime candles)
    (hkeep : minCandlesForWarmup timeframe {} = keep) :
    WarmSeries symbol timeframe evaluationTime (trim keep candles) where
  sound c hc := h.sound c (List.mem_of_mem_drop hc)
  sorted := h.sorted.drop
  warm := by rw [length_trim (h.length_le hkeep), hkeep]

theorem getLastD_trim {xs : List Decimal} (hkeep : 0 < keep) (h : keep ≤ xs.length) :
    (trim keep xs).getLastD 0 = xs.getLastD 0 := by
  have hdrop : xs.length - keep < xs.length := by omega
  rw [List.getLastD_eq_getLast?, List.getLastD_eq_getLast?, trim,
    List.getLast?_drop, if_neg (by omega)]

theorem trueRanges_trim (h : keep + 1 ≤ candles.length) :
    trueRanges (trim (keep + 1) candles) = trim keep (trueRanges candles) := by
  have hlength := length_trueRanges candles
  have hindex : (trueRanges candles).length - keep = candles.length - (keep + 1) := by omega
  rw [trim, trim, hindex, trueRanges, trueRanges, List.drop_zipWith, List.tail_drop, List.drop_tail]

theorem window_trim {values : List Decimal} {start : ℕ} :
    window (trim keep values) start 20 = window values (values.length - keep + start) 20 := by
  rw [window, window, trim, List.drop_drop]

end Trim

section Averages

variable {step : Decimal → Decimal → Decimal} {period keep n : ℕ} {xs : List Decimal} {daily : List Candle}

/-- What an average of the kept values starts from. -/
def ownSeed (period keep : ℕ) (xs : List Decimal) : Decimal := mean decimalResult ((trim keep xs).take period)

/-- What the average of all values has come to where that of the kept ones starts. -/
def reachedLevel (step : Decimal → Decimal → Decimal) (period keep : ℕ) (xs : List Decimal) : Decimal :=
  level step (mean decimalResult (xs.take period)) ((xs.drop period).take (xs.length - keep))

/-- The average of the kept values and that of all of them start as one, or one of the kept values rounds them to one. -/
structure SeedsMeet (step : Decimal → Decimal → Decimal) (period keep : ℕ) (xs : List Decimal) : Prop where
  meets : Meets step (ownSeed period keep xs) (reachedLevel step period keep xs) ((trim keep xs).drop period)

theorem seedsMeet_of_eq (h : ownSeed period keep xs = reachedLevel step period keep xs) : SeedsMeet step period keep xs :=
  ⟨Meets.of_eq h _⟩

theorem ownSeed_of_length_le (h : xs.length ≤ keep) : ownSeed period keep xs = reachedLevel step period keep xs := by
  rw [ownSeed, reachedLevel, trim, Nat.sub_eq_zero_of_le h, List.take_zero, List.drop_zero]
  rfl

theorem seedsMeet_of_length_le (h : xs.length ≤ keep) : SeedsMeet step period keep xs :=
  seedsMeet_of_eq (ownSeed_of_length_le h)

theorem level_trim_iff : level step (ownSeed period keep xs) ((trim keep xs).drop period) =
    level step (mean decimalResult (xs.take period)) (xs.drop period) ↔ SeedsMeet step period keep xs := by
  have hsplit : xs.drop period = (xs.drop period).take (xs.length - keep) ++ (trim keep xs).drop period := by
    rw [trim, List.drop_drop, Nat.add_comm (xs.length - keep), ← List.drop_drop, List.take_append_drop]
  have hmeets : SeedsMeet step period keep xs ↔ _ := ⟨fun h => h.meets, fun h => ⟨h⟩⟩
  rw [hmeets, meets_iff, reachedLevel, ← level_append, ← hsplit]

theorem lastEma_trim {candles : List Candle} (h : keep ≤ candles.length) :
    emaAfter period ((trim keep candles).length - period) ((trim keep candles).map (·.close)) =
        emaAfter period (candles.length - period) (candles.map (·.close)) ↔
      SeedsMeet (emaStep period) period keep (candles.map (·.close)) := by
  have hlength : keep ≤ (candles.map (·.close)).length := by rwa [List.length_map]
  have hkept : ((trim keep (candles.map (·.close))).drop period).take (keep - period) =
      (trim keep (candles.map (·.close))).drop period := by
    apply List.take_of_length_le
    rw [List.length_drop, length_trim hlength]
  have hall : ((candles.map (·.close)).drop period).take (candles.length - period) =
      (candles.map (·.close)).drop period := by
    apply List.take_of_length_le
    rw [List.length_drop, List.length_map]
  rw [← level_trim_iff, emaAfter, emaAfter, length_trim h, map_trim, hkept, hall, ownSeed]

theorem lastAtr_trim (h : 21 ≤ daily.length) :
    atrAfter 14 ((trim 21 daily).length - 15) (trim 21 daily) = atrAfter 14 (daily.length - 15) daily ↔
      SeedsMeet (atrStep 14) 14 20 (trueRanges daily) := by
  have hlength := length_trueRanges daily
  have hkept : ((trim 20 (trueRanges daily)).drop 14).take (21 - 15) = (trim 20 (trueRanges daily)).drop 14 := by
    apply List.take_of_length_le
    rw [List.length_drop, length_trim (by omega)]
  have hall : ((trueRanges daily).drop 14).take (daily.length - 15) = (trueRanges daily).drop 14 := by
    apply List.take_of_length_le
    rw [List.length_drop]
    omega
  rw [← level_trim_iff, atrAfter, atrAfter, length_trim h, trueRanges_trim h, hkept, hall, ownSeed]
  rfl

end Averages

section Observed

variable {daily weekly monthly : List Candle}

/-- The five averages that reach back beyond the trimmed series meet within it. -/
structure AveragesMeet (daily weekly monthly : List Candle) : Prop where
  ema20Daily : SeedsMeet (emaStep 20) 20 21 (daily.map (·.close))
  atr14Daily : SeedsMeet (atrStep 14) 14 20 (trueRanges daily)
  ema20Weekly : SeedsMeet (emaStep 20) 20 50 (weekly.map (·.close))
  ema50Weekly : SeedsMeet (emaStep 50) 50 50 (weekly.map (·.close))
  ema20Monthly : SeedsMeet (emaStep 20) 20 20 (monthly.map (·.close))

theorem averagesMeet_iff (hdaily : 21 ≤ daily.length) (hweekly : 50 ≤ weekly.length)
    (hmonthly : 20 ≤ monthly.length) :
    AveragesMeet daily weekly monthly ↔
      let o := observed daily weekly monthly
      let o' := observed (trim 21 daily) (trim 50 weekly) (trim 20 monthly)
      o'.ema20Daily = o.ema20Daily ∧ o'.atr14 = o.atr14 ∧ o'.ema20Weekly = o.ema20Weekly ∧
        o'.ema50Weekly = o.ema50Weekly ∧ o'.ema20Monthly = o.ema20Monthly := by
  simp only [observed, Option.some.injEq]
  rw [lastEma_trim hdaily, lastAtr_trim hdaily, lastEma_trim hweekly, lastEma_trim hweekly, lastEma_trim hmonthly]
  constructor
  · intro h
    exact ⟨h.1, h.2, h.3, h.4, h.5⟩
  · rintro ⟨h₁, h₂, h₃, h₄, h₅⟩
    exact ⟨h₁, h₂, h₃, h₄, h₅⟩

/-- The average of the day before is all that trimming can still change: it starts there. -/
theorem observed_trim (hdaily : 21 ≤ daily.length) (hweekly : 50 ≤ weekly.length)
    (hmonthly : 20 ≤ monthly.length) (h : AveragesMeet daily weekly monthly) :
    unindexed (observed (trim 21 daily) (trim 50 weekly) (trim 20 monthly)) =
      { unindexed (observed daily weekly monthly) with
        ema20DailyPrev := some (ownSeed 20 21 (daily.map (·.close))) } := by
  obtain ⟨hema, hatr, hfast, hslow, hmonth⟩ := (averagesMeet_iff hdaily hweekly hmonthly).mp h
  have hprev : emaAfter 20 ((trim 21 daily).length - 21) ((trim 21 daily).map (·.close)) =
      ownSeed 20 21 (daily.map (·.close)) := by
    rw [length_trim hdaily, map_trim]
    rfl
  have hlast : ∀ (f : Candle → Decimal) (keep : ℕ) (candles : List Candle), 0 < keep →
      keep ≤ candles.length → ((trim keep candles).map f).getLastD 0 = (candles.map f).getLastD 0 := by
    intro f keep candles hkeep hlen
    rw [map_trim, getLastD_trim hkeep (by rwa [List.length_map])]
  have hwindow : ∀ (f : Candle → Decimal) (m : ℕ), m ≤ 21 →
      window ((trim 21 daily).map f) ((trim 21 daily).length - m) 20 =
        window (daily.map f) (daily.length - m) 20 := by
    intro f m hm
    have hindex : daily.length - m = (daily.map f).length - 21 + (21 - m) := by
      rw [List.length_map]
      omega
    rw [length_trim hdaily, hindex, map_trim, window_trim]
  have hclosePrev : ((trim 21 daily).map (·.close))[(trim 21 daily).length - 2]? =
      (daily.map (·.close))[daily.length - 2]? := by
    have hindex : daily.length - 2 = daily.length - 21 + (21 - 2) := by omega
    rw [length_trim hdaily, hindex, trim, List.map_drop, List.getElem?_drop]
  simp only [observed] at hema hatr hfast hslow hmonth
  simp only [unindexed, observed, hema, hatr, hfast, hslow, hmonth, hprev, hclosePrev,
    hlast _ 21 daily (by omega) hdaily, hlast _ 20 monthly (by omega) hmonthly,
    hwindow _ 20 (by omega), hwindow _ 21 (by omega)]

end Observed

section Setups

variable {symbol : Symbol} {evaluationTime : Time} {params : StrategyParameters} {o : Observation}
  {daily weekly monthly : List Candle} {prior prior' prev atr : Decimal} {e : StrategyEvaluation}

/-- There is movement and volume in the last days, so that the setups are looked at. -/
def SetupsEvaluated (daily : List Candle) : Prop :=
  (∃ x ∈ trim 20 (trueRanges daily), 0 < x) ∧ ∃ v ∈ trim 20 (daily.map (·.volume)), 0 < v

/-- The day before closed on the same side of both averages. -/
def PriorCloseAgrees (daily : List Candle) : Prop :=
  ∀ prev ∈ (daily.map (·.close))[daily.length - 2]?, ownSeed 20 21 (daily.map (·.close)) < prev ↔
    reachedLevel (emaStep 20) 20 21 (daily.map (·.close)) < prev

theorem priorCloseAgrees_of_eq (h : ownSeed 20 21 (daily.map (·.close)) =
    reachedLevel (emaStep 20) 20 21 (daily.map (·.close))) : PriorCloseAgrees daily := by
  intro prev _
  rw [h]

theorem decideWith_prior (h : ∀ prev ∈ o.closePrev, prior < prev ↔ prior' < prev) :
    decideWith symbol evaluationTime params [] { o with ema20DailyPrev := some prior } atr =
      decideWith symbol evaluationTime params [] { o with ema20DailyPrev := some prior' } atr := by
  have hsetup (regime : RegimeResult) (trend : TrendResult) (volumeOk : Bool) :
      evaluatePullbackSetup o.close o.low o.closePrev o.ema20Daily (some prior) regime trend volumeOk params =
        evaluatePullbackSetup o.close o.low o.closePrev o.ema20Daily (some prior') regime trend volumeOk params := by
    unfold evaluatePullbackSetup
    cases hprev : o.closePrev with
    | none => rfl
    | some prev => simp only [decide_eq_decide.mpr (h prev hprev)]
  simp only [decideWith, hsetup]
  rfl

theorem decideSignal_prior (h : o.volumeRatio.isSome → (∃ atr ∈ o.atr14, 0 < atr) →
      ∀ prev ∈ o.closePrev, prior < prev ↔ prior' < prev) :
    decideSignal symbol evaluationTime params [] { o with ema20DailyPrev := some prior } =
      decideSignal symbol evaluationTime params [] { o with ema20DailyPrev := some prior' } := by
  simp only [decideSignal]
  split
  · rename_i atr14 _ _ _ _ _ hatr hratio _ _ _
    split_ifs with hflat
    · rfl
    · exact decideWith_prior (h (by rw [hratio]; rfl) ⟨atr14, hatr, not_le.mp hflat⟩)
  · rfl

/-- Where everything is there that a setup needs, the evaluation tells on which side the day before closed. -/
theorem decideSignal_p3 (h : decideSignal symbol evaluationTime params [] o = .ok e) (hdaily : o.ema20Daily.isSome)
    (hfast : o.ema20Weekly.isSome) (hslow : o.ema50Weekly.isSome) (hmonthly : o.ema20Monthly.isSome)
    (hratio : o.volumeRatio.isSome) (hatr : o.atr14 = some atr) (hmoves : 0 < atr) (hprev : o.closePrev = some prev)
    (hprior : o.ema20DailyPrev = some prior) :
    e.pullbackResult.pullbackConditions.p3PriorCloseAboveEma = decide (prior < prev) := by
  obtain ⟨ema, hema⟩ := Option.isSome_iff_exists.mp hdaily
  obtain ⟨fast, hfast⟩ := Option.isSome_iff_exists.mp hfast
  obtain ⟨slow, hslow⟩ := Option.isSome_iff_exists.mp hslow
  obtain ⟨month, hmonth⟩ := Option.isSome_iff_exists.mp hmonthly
  obtain ⟨ratio, hratio⟩ := Option.isSome_iff_exists.mp hratio
  have hstop : computeInitialStop o.close atr params none =
      .ok (decimalResult (o.close - decimalResult (params.stopInitialAtrMult * atr))) := rfl
  simp only [decideSignal, hema, hatr, hratio, hfast, hslow, hmonth, if_neg (not_le.mpr hmoves), decideWith, hstop,
    hprev, hprior, evaluatePullbackSetup, bind, Except.bind, pure, Except.pure] at h
  split at h
  · split_ifs at h
    · cases h
      rfl
    · cases h
      rfl
  · cases h
    rfl

theorem exists_take_or_drop {xs : List Decimal} (n : ℕ) :
    ((∃ x ∈ xs.take n, 0 < x) ∨ ∃ x ∈ xs.drop n, 0 < x) ↔ ∃ x ∈ xs, 0 < x := by
  conv_rhs => rw [← List.take_append_drop n xs]
  simp only [List.mem_append, or_and_right, exists_or]

/-- The average true range of the kept days is positive if one of their true ranges is. -/
theorem atr_pos_iff (h : 21 ≤ daily.length) (hmeet : SeedsMeet (atrStep 14) 14 20 (trueRanges daily)) :
    0 < atrAfter 14 (daily.length - 15) daily ↔ ∃ x ∈ trim 20 (trueRanges daily), 0 < x := by
  have hkept : ∀ x ∈ trim 20 (trueRanges daily), 0 ≤ x := fun x hx => trueRanges_nonneg daily x (List.mem_of_mem_drop hx)
  have hfirst : ∀ x ∈ (trim 20 (trueRanges daily)).take 14, 0 ≤ x := fun x hx => hkept x (List.mem_of_mem_take hx)
  have hrest : ∀ x ∈ (trim 20 (trueRanges daily)).drop 14, 0 ≤ x := fun x hx => hkept x (List.mem_of_mem_drop hx)
  have hall : ((trueRanges daily).drop 14).take (daily.length - 15) = (trueRanges daily).drop 14 := by
    apply List.take_of_length_le
    rw [List.length_drop, length_trueRanges]
    omega
  have hlevel := level_wilder_pos_iff rounds_decimalResult (by norm_num)
    (show (1 : Decimal) < ((14 : ℤ) : Decimal) by norm_num) (rounds_decimalResult.mean_nonneg (by norm_num) hfirst) hrest
  rw [rounds_decimalResult.mean_pos_iff (by norm_num) hfirst, exists_take_or_drop] at hlevel
  rw [atrAfter, hall, ← hlevel]
  exact iff_of_eq (congrArg (0 < ·) (level_trim_iff.mpr hmeet).symm)

theorem volumeRatio_isSome_iff (h : 21 ≤ daily.length) (hvolume : ∀ c ∈ daily, 0 ≤ c.volume) :
    (observed daily weekly monthly).volumeRatio.isSome ↔ ∃ v ∈ trim 20 (daily.map (·.volume)), 0 < v := by
  have hkept : ∀ v ∈ trim 20 (daily.map (·.volume)), 0 ≤ v := by
    intro v hv
    obtain ⟨c, hc, rfl⟩ := List.mem_map.mp (List.mem_of_mem_drop hv)
    exact hvolume c hc
  have hwindow : window (daily.map (·.volume)) (daily.length - 20) 20 = trim 20 (daily.map (·.volume)) := by
    rw [window, trim, List.length_map]
    apply List.take_of_length_le
    rw [List.length_drop, List.length_map]
    omega
  have hmean := rounds_decimalResult.mean_nonneg (by norm_num) hkept
  rw [← rounds_decimalResult.mean_pos_iff (by norm_num) hkept]
  simp only [observed, hwindow, ratioTo]
  split_ifs with hzero
  · simp [hzero]
  · simpa using lt_of_le_of_ne hmean (Ne.symm hzero)

end Setups

section Parity

variable {symbol : Symbol} {evaluationTime : Time} {daily weekly monthly : List Candle}
  (volumeRatioMin pullbackEmaTolerance stopInitialAtrMult trailAtrMult : Decimal)

theorem priorEma_eq (daily weekly monthly : List Candle) : (observed daily weekly monthly).ema20DailyPrev =
    some (reachedLevel (emaStep 20) 20 21 (daily.map (·.close))) := by
  rw [reachedLevel, List.length_map]
  rfl

theorem decideSignal_trim_iff (params : StrategyParameters) (hdaily : 21 ≤ daily.length)
    (hweekly : 50 ≤ weekly.length) (hmonthly : 20 ≤ monthly.length) (hvolume : ∀ c ∈ daily, 0 ≤ c.volume) :
    (decideSignal symbol evaluationTime params []
        (observed (trim 21 daily) (trim 50 weekly) (trim 20 monthly))).map comparable =
      (decideSignal symbol evaluationTime params [] (observed daily weekly monthly)).map comparable ↔
    AveragesMeet daily weekly monthly ∧ (SetupsEvaluated daily → PriorCloseAgrees daily) := by
  have hprior := priorEma_eq daily weekly monthly
  have htraded : (observed daily weekly monthly).volumeRatio.isSome ↔ ∃ v ∈ trim 20 (daily.map (·.volume)), 0 < v :=
    volumeRatio_isSome_iff hdaily hvolume
  constructor
  · intro h
    obtain ⟨e', he', hkept', _⟩ := decideSignal_keeps symbol evaluationTime params []
      (observed (trim 21 daily) (trim 50 weekly) (trim 20 monthly))
    obtain ⟨e, he, hkept, _⟩ := decideSignal_keeps symbol evaluationTime params []
      (observed daily weekly monthly)
    rw [he', he] at h
    have hindicators := congrArg (·.indicators) (Except.ok.inj h)
    simp only [comparable, hkept', hkept, Observation.indicators, IndicatorSnapshot.mk.injEq] at hindicators
    obtain ⟨_, hema, hfast, hslow, hmonth, hatr, _⟩ := hindicators
    have hmeet := (averagesMeet_iff hdaily hweekly hmonthly).mpr ⟨hema, hatr, hfast, hslow, hmonth⟩
    refine ⟨hmeet, fun hsetups prev hprev => ?_⟩
    have hmoves := (atr_pos_iff hdaily hmeet.atr14Daily).mpr hsetups.1
    have hratio := htraded.mpr hsetups.2
    have hkept := observed_trim hdaily hweekly hmonthly hmeet
    have hside := congrArg (·.pullbackResult.pullbackConditions.p3PriorCloseAboveEma) (Except.ok.inj h)
    have hown := decideSignal_p3 he' rfl rfl rfl rfl ((congrArg (·.volumeRatio.isSome) hkept).trans hratio) hatr hmoves
      ((congrArg (·.closePrev) hkept).trans hprev) (congrArg (·.ema20DailyPrev) hkept)
    have hreached := decideSignal_p3 he rfl rfl rfl rfl hratio rfl hmoves hprev hprior
    exact decide_eq_decide.mp (hown.symm.trans (hside.trans hreached))
  · rintro ⟨hmeet, hside⟩
    have hsame : unindexed (observed daily weekly monthly) = { unindexed (observed daily weekly monthly) with
        ema20DailyPrev := some (reachedLevel (emaStep 20) 20 21 (daily.map (·.close))) } := by
      rw [← hprior]
      rfl
    rw [decideSignal_unindexed, observed_trim hdaily hweekly hmonthly hmeet,
      decideSignal_unindexed symbol _ _ _ (observed daily weekly monthly), hsame]
    congr 1
    refine decideSignal_prior fun hratio hatr => hside ⟨?_, htraded.mp hratio⟩
    obtain ⟨atr, hatr, hpositive⟩ := hatr
    cases hatr
    exact (atr_pos_iff hdaily hmeet.atr14Daily).mp hpositive

/-- What keeps the trimmed series and the full ones together: a value outside the range of floats among the kept
candles, or none at all and averages that meet within the kept candles. -/
def TrimmingInvisible (daily weekly monthly : List Candle) : Prop :=
  (trim 21 daily ++ trim 50 weekly ++ trim 20 monthly).all inFloatRange = false ∨
    (daily ++ weekly ++ monthly).all inFloatRange ∧ AveragesMeet daily weekly monthly ∧
      (SetupsEvaluated daily → PriorCloseAgrees daily)

theorem all_trim {daily weekly monthly : List Candle}
    (h : (daily ++ weekly ++ monthly).all inFloatRange) :
    (trim 21 daily ++ trim 50 weekly ++ trim 20 monthly).all inFloatRange := by
  simp only [List.all_append, Bool.and_eq_true, List.all_eq_true] at h ⊢
  exact ⟨⟨fun c hc => h.1.1 c (List.mem_of_mem_drop hc), fun c hc => h.1.2 c (List.mem_of_mem_drop hc)⟩,
    fun c hc => h.2 c (List.mem_of_mem_drop hc)⟩

theorem evaluate_trim_iff (hdaily : WarmSeries symbol .daily evaluationTime daily)
    (hweekly : WarmSeries symbol .weekly evaluationTime weekly)
    (hmonthly : WarmSeries symbol .monthly evaluationTime monthly) :
    (evaluate ⟨symbol, .daily, trim 21 daily⟩ ⟨symbol, .weekly, trim 50 weekly⟩
        ⟨symbol, .monthly, trim 20 monthly⟩ evaluationTime
        (defaultPeriods volumeRatioMin pullbackEmaTolerance stopInitialAtrMult trailAtrMult)).map comparable =
      (evaluate ⟨symbol, .daily, daily⟩ ⟨symbol, .weekly, weekly⟩ ⟨symbol, .monthly, monthly⟩ evaluationTime
        (defaultPeriods volumeRatioMin pullbackEmaTolerance stopInitialAtrMult trailAtrMult)).map comparable ↔
    TrimmingInvisible daily weekly monthly := by
  have hdaily' := warmSeries_trim hdaily (show minCandlesForWarmup .daily {} = 21 from rfl)
  have hweekly' := warmSeries_trim hweekly (show minCandlesForWarmup .weekly {} = 50 from rfl)
  have hmonthly' := warmSeries_trim hmonthly (show minCandlesForWarmup .monthly {} = 20 from rfl)
  have hvolume : ∀ c ∈ daily, 0 ≤ c.volume := fun c hc => (hdaily.sound c hc).volume
  unfold TrimmingInvisible
  cases hkept : (trim 21 daily ++ trim 50 weekly ++ trim 20 monthly).all inFloatRange with
  | false =>
    have hfull : (daily ++ weekly ++ monthly).all inFloatRange = false := by
      by_contra h
      have htrue := all_trim (Bool.eq_true_of_not_eq_false h)
      rw [hkept] at htrue
      cases htrue
    rw [evaluate_outOfRange _ hdaily' hweekly' hmonthly' hkept,
      evaluate_outOfRange _ hdaily hweekly hmonthly hfull]
    simp
  | true =>
    rw [evaluate_inRange _ _ _ _ hdaily' hweekly' hmonthly' hkept]
    cases hfull : (daily ++ weekly ++ monthly).all inFloatRange with
    | true =>
      rw [evaluate_inRange _ _ _ _ hdaily hweekly hmonthly hfull,
        decideSignal_trim_iff _ (hdaily.length_le rfl) (hweekly.length_le rfl) (hmonthly.length_le rfl) hvolume]
      simp
    | false =>
      rw [evaluate_outOfRange _ hdaily hweekly hmonthly hfull]
      obtain ⟨e, he, _, hstatus⟩ := decideSignal_keeps symbol evaluationTime
        (defaultPeriods volumeRatioMin pullbackEmaTolerance stopInitialAtrMult trailAtrMult) []
        (observed (trim 21 daily) (trim 50 weekly) (trim 20 monthly))
      rw [he]
      simp only [Bool.true_eq_false, Bool.false_eq_true, false_and, or_self, iff_false]
      intro h
      exact hstatus (congrArg (·.dataQualityStatus) (Except.ok.inj h))

end Parity

section History

variable {r : CandleRepository} {symbol : Symbol} {evaluationTime : Time} {bundle : StrategyDataBundle}

def ClosedHistory (r : CandleRepository) (evaluationTime : Time) : Prop :=
  ∀ c ∈ r.store, c.closeTime ≤ evaluationTime → c.isClosed = true

instance : DecidablePred fun r : CandleRepository => ClosedHistory r evaluationTime :=
  fun r => inferInstanceAs (Decidable (∀ c ∈ r.store, c.closeTime ≤ evaluationTime → c.isClosed = true))

def fullSeries (r : CandleRepository) (symbol : Symbol) (evaluationTime : Time) (timeframe : Timeframe) :
    CandleSeries :=
  buildCandleSeries symbol timeframe (r.getRange symbol timeframe) evaluationTime

theorem fullSeries_eq (hclosed : ClosedHistory r evaluationTime)
    (timeframe : Timeframe) :
    fullSeries r symbol evaluationTime timeframe =
      ⟨symbol, timeframe, r.getClosedBefore symbol timeframe evaluationTime⟩ := by
  have hslice : sliceClosedCandles (r.getRange symbol timeframe) evaluationTime =
      r.getClosedBefore symbol timeframe evaluationTime := by
    refine List.filter_congr fun c hc => ?_
    have hstore := (CandleRepository.mem_ofSeries.mp (CandleRepository.getRange_perm.mem_iff.mp hc)).1
    by_cases h : c.closeTime ≤ evaluationTime
    · simp [isCandleClosed, h, hclosed c hstore h]
    · simp [isCandleClosed, h]
  rw [fullSeries, buildCandleSeries, hslice]

theorem toSeries_eq_trim {candles : List Candle} {timeframe : Timeframe} {keep : ℕ} (hkeep : keep ≠ 0)
    (hclosed : ∀ c ∈ candles, c.isClosed = true) :
    toSeries candles symbol timeframe keep = ⟨symbol, timeframe, trim keep candles⟩ := by
  have hmap : (trim keep candles).map (fun c => { c with isClosed := true }) = trim keep candles := by
    refine (List.map_congr_left fun c hc => ?_).trans (List.map_id _)
    have h := hclosed c (List.mem_of_mem_drop hc)
    cases c
    simp only at h
    rw [h, id]
  simp only [toSeries, if_neg hkeep]
  rw [← trim, hmap]

end History

section Samples

def flatSeries (timeframe : Timeframe) : Time → List Decimal → List Candle
  | _, [] => []
  | openTime, close :: closes =>
    let next := nextOpenTime openTime timeframe
    { symbol := .BTC, timeframe, openTime, closeTime := next - second, openPrice := 100, high := 110,
      low := 90, close, volume := 10, isClosed := true } :: flatSeries timeframe next closes

def flatHistory (dailyCloses : List Decimal) : List Candle :=
  flatSeries .daily (19723 * day) dailyCloses ++
    flatSeries .weekly (19373 * day) (List.replicate 50 100) ++
    flatSeries .monthly (day * firstOfMonth 2022 5) (List.replicate 20 100)

def threeWeeks : CandleRepository :=
  { store := flatHistory (List.replicate 21 100), keys := by decide +kernel }

def equalDays : CandleRepository :=
  { store := flatHistory (List.replicate 22 100), keys := by decide +kernel }

def threeWeeksAndADay : CandleRepository :=
  { store := flatHistory (101 :: List.replicate 21 100), keys := by decide +kernel }

end Samples

end TradingBot.Paper.SignalParity
