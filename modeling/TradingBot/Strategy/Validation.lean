import TradingBot.Strategy.Models

namespace TradingBot.Strategy.Validation

open Market.Models Strategy.Models

variable {σ : Type}

def rejectData (message : String) (details : ErrorDetails σ) : StrategyError σ :=
  ⟨.rejectData, message, details⟩

/-- The values whose conversion to a float is checked, under the names the messages use. -/
def namedValues (c : CandleOf σ) : List (String × Decimal) :=
  [("open", c.openPrice), ("high", c.high), ("low", c.low), ("close", c.close), ("volume", c.volume)]

def validateOhlc (c : CandleOf σ) : Option (StrategyError σ) :=
  match (namedValues c).find? fun v => !isFiniteFloat v.2 with
  | some v => some (rejectData (v.1 ++ " is NaN or Infinity") (.openTime c.openTime))
  | none =>
    if c.openPrice ≤ 0 ∨ c.high ≤ 0 ∨ c.low ≤ 0 ∨ c.close ≤ 0 then
      some (rejectData "OHLC values must be greater than zero" (.openTime c.openTime))
    else if c.high < c.openPrice ∨ c.high < c.close ∨ c.high < c.low then
      some (rejectData "high must be >= open, close, and low" (.openTime c.openTime))
    else if c.openPrice < c.low ∨ c.close < c.low ∨ c.high < c.low then
      some (rejectData "low must be <= open, close, and high" (.openTime c.openTime))
    else if c.volume < 0 then some (rejectData "volume must be >= 0" (.openTime c.openTime))
    else none

def errorIf (condition : Bool) (e : StrategyError σ) : List (StrategyError σ) := if condition then [e] else []

variable [DecidableEq σ]

def candleErrors (series : CandleSeriesOf σ) (evaluationTime : Time) (seen : List Time) (c : CandleOf σ) :
    List (StrategyError σ) :=
  errorIf (c.symbol ≠ series.symbol)
    (rejectData "Symbol mismatch in candle series" (.symbolMismatch series.symbol c.symbol)) ++
  errorIf (c.timeframe ≠ series.timeframe)
    (rejectData "Timeframe mismatch in candle" (.openTime c.openTime)) ++
  errorIf (!c.isClosed) (rejectData "Open (unclosed) candle not allowed" (.openTime c.openTime)) ++
  errorIf (evaluationTime < c.closeTime) (rejectData "Evaluation time before candle close_time"
    (.times c.openTime c.closeTime evaluationTime)) ++
  errorIf (seen.contains c.openTime)
    (rejectData "Duplicate candle timestamp" (.openTime c.openTime)) ++
  errorIf (seen.head?.any (c.openTime ≤ ·))
    (rejectData "Candles not strictly chronologically sorted by open_time" (.openTime c.openTime)) ++
  (validateOhlc c).toList

def seriesErrors (series : CandleSeriesOf σ) (evaluationTime : Time) : List Time → List (CandleOf σ) →
    List (StrategyError σ)
  | _, [] => []
  | seen, c :: cs => candleErrors series evaluationTime seen c ++
      seriesErrors series evaluationTime (c.openTime :: seen) cs

/-- Minimum closed candles derived from the indicator periods. -/
def minCandlesForWarmup (timeframe : Timeframe) (p : StrategyParameters) : ℤ :=
  match timeframe with
  | .daily => max (max p.dailyEmaPeriod (p.atrPeriod + 1)) (max p.volumeSmaPeriod (p.breakoutLookback + 1))
  | .weekly => max p.weeklyEmaSlow (p.weeklyEmaFast + 1)
  | .monthly => p.monthlyEmaPeriod

/-- The minimum is that of the default periods, whatever parameters are evaluated. -/
def validateCandleSeries (series : CandleSeriesOf σ) (evaluationTime : Time)
    (expectedTimeframe : Option Timeframe) : DataQualityStatus × List (StrategyError σ) :=
  let timeframeErrors := match expectedTimeframe with
    | none => []
    | some expected => errorIf (series.timeframe ≠ expected)
        (rejectData "Incorrect timeframe" (.timeframes expected series.timeframe))
  if series.candles = [] then
    (.invalidData, timeframeErrors ++ [rejectData "Empty candle series" .none])
  else
    match timeframeErrors ++ seriesErrors series evaluationTime [] series.candles with
    | [] =>
      let minRequired := minCandlesForWarmup series.timeframe {}
      if series.candles.length < minRequired then
        (.insufficientHistory, [⟨.rejectWarmup, "Insufficient history for timeframe",
          .history series.timeframe minRequired series.candles.length⟩])
      else (.ok, [])
    | errors => (.invalidData, errors)

def checkWarmupComplete (dailyCount weeklyCount monthlyCount : ℕ) (p : StrategyParameters) : Bool :=
  minCandlesForWarmup .daily p ≤ dailyCount ∧ minCandlesForWarmup .weekly p ≤ weeklyCount ∧
    minCandlesForWarmup .monthly p ≤ monthlyCount

section Results

variable {series : CandleSeriesOf σ} {evaluationTime : Time}

omit [DecidableEq σ] in
theorem errorIf_eq_nil {condition : Bool} {e : StrategyError σ} :
    errorIf condition e = [] ↔ condition = false := by
  cases condition <;> simp [errorIf]

def inFloatRange (c : CandleOf σ) : Bool := (namedValues c).all fun v => isFiniteFloat v.2

/-- What makes a candle acceptable apart from the range of floats. -/
structure SoundCandle (symbol : σ) (timeframe : Timeframe) (evaluationTime : Time) (c : CandleOf σ) :
    Prop where
  symbol : c.symbol = symbol
  timeframe : c.timeframe = timeframe
  isClosed : c.isClosed = true
  closed : c.closeTime ≤ evaluationTime
  positive : 0 < c.openPrice ∧ 0 < c.high ∧ 0 < c.low ∧ 0 < c.close
  high : c.openPrice ≤ c.high ∧ c.close ≤ c.high ∧ c.low ≤ c.high
  low : c.low ≤ c.openPrice ∧ c.low ≤ c.close
  volume : 0 ≤ c.volume

omit [DecidableEq σ] in
theorem validateOhlc_eq_none_iff {symbol : σ} {timeframe : Timeframe} {c : CandleOf σ}
    (h : SoundCandle symbol timeframe evaluationTime c) : validateOhlc c = none ↔ inFloatRange c := by
  obtain ⟨_, _, _, _, ⟨hopen, hhigh, hlow, hclose⟩, ⟨hho, hhc, hhl⟩, ⟨hlo, hlc⟩, hvol⟩ := h
  unfold validateOhlc inFloatRange
  cases hfind : (namedValues c).find? fun v => !isFiniteFloat v.2 with
  | some v =>
    have hbad := List.find?_some hfind
    simp only [reduceCtorEq, List.all_eq_true, false_iff, not_forall]
    exact ⟨v, List.mem_of_find?_eq_some hfind, by simpa using hbad⟩
  | none =>
    have hall : ((namedValues c).all fun v => isFiniteFloat v.2) = true := by
      simpa [List.find?_eq_none] using hfind
    simp [hall, not_le.mpr hopen, not_le.mpr hhigh, not_le.mpr hlow, not_le.mpr hclose,
      not_lt.mpr hho, not_lt.mpr hhc, not_lt.mpr hhl, not_lt.mpr hlo, not_lt.mpr hlc, not_lt.mpr hvol]

theorem candleErrors_eq_nil_iff {seen : List Time} {c : CandleOf σ}
    (h : SoundCandle series.symbol series.timeframe evaluationTime c)
    (hseen : ∀ t ∈ seen, t < c.openTime) :
    candleErrors series evaluationTime seen c = [] ↔ inFloatRange c := by
  have hnew : seen.contains c.openTime = false := by
    simp only [List.contains_eq_mem, decide_eq_false_iff_not]
    exact fun hmem => lt_irrefl _ (hseen _ hmem)
  have hafter : (seen.head?.any (c.openTime ≤ ·)) = false := by
    cases hhead : seen.head? with
    | none => rfl
    | some t => simpa using hseen t (List.mem_of_head? hhead)
  simp only [candleErrors, List.append_eq_nil_iff, errorIf_eq_nil, h.symbol, h.timeframe, h.isClosed,
    not_lt.mpr h.closed, hnew, hafter, ne_eq, not_true_eq_false, decide_false, Bool.not_true, true_and,
    Option.toList_eq_nil_iff]
  exact validateOhlc_eq_none_iff h

theorem seriesErrors_eq_nil_iff {seen : List Time} {cs : List (CandleOf σ)}
    (h : ∀ c ∈ cs, SoundCandle series.symbol series.timeframe evaluationTime c)
    (hseen : ∀ c ∈ cs, ∀ t ∈ seen, t < c.openTime)
    (hsorted : cs.Pairwise fun a b => a.openTime < b.openTime) :
    seriesErrors series evaluationTime seen cs = [] ↔ ∀ c ∈ cs, inFloatRange c := by
  induction cs generalizing seen with
  | nil => simp [seriesErrors]
  | cons c cs ih =>
    obtain ⟨hafter, hsorted⟩ := List.pairwise_cons.mp hsorted
    have hrest : ∀ d ∈ cs, ∀ t ∈ c.openTime :: seen, t < d.openTime := by
      intro d hd t ht
      rcases List.mem_cons.mp ht with rfl | ht
      · exact hafter d hd
      · exact hseen d (List.mem_cons_of_mem _ hd) t ht
    rw [seriesErrors, List.append_eq_nil_iff,
      candleErrors_eq_nil_iff (h c List.mem_cons_self) (hseen c List.mem_cons_self),
      ih (fun d hd => h d (List.mem_cons_of_mem _ hd)) hrest hsorted, List.forall_mem_cons]

theorem validateCandleSeries_sound {symbol : σ} {timeframe : Timeframe} {candles : List (CandleOf σ)}
    (h : ∀ c ∈ candles, SoundCandle symbol timeframe evaluationTime c)
    (hsorted : candles.Pairwise fun a b => a.openTime < b.openTime)
    (hlen : minCandlesForWarmup timeframe {} ≤ candles.length) (hpos : 0 < candles.length) :
    (candles.all inFloatRange →
      validateCandleSeries ⟨symbol, timeframe, candles⟩ evaluationTime (some timeframe) = (.ok, [])) ∧
    (candles.all inFloatRange = false →
      (validateCandleSeries ⟨symbol, timeframe, candles⟩ evaluationTime (some timeframe)).1 =
        .invalidData) := by
  have hiff : seriesErrors ⟨symbol, timeframe, candles⟩ evaluationTime [] candles = [] ↔
      ∀ c ∈ candles, inFloatRange c := seriesErrors_eq_nil_iff h (by simp) hsorted
  have hne : candles ≠ [] := List.ne_nil_of_length_pos hpos
  have hframe : ∀ e : StrategyError σ, errorIf (decide (timeframe ≠ timeframe)) e = [] := fun e => by
    simp [errorIf]
  constructor
  · intro hall
    have herrors := hiff.mpr (by simpa using hall)
    simp only [validateCandleSeries, hne, ↓reduceIte, hframe, List.nil_append, herrors,
      not_lt.mpr hlen]
  · intro hall
    have herrors : seriesErrors ⟨symbol, timeframe, candles⟩ evaluationTime [] candles ≠ [] := by
      rw [ne_eq, hiff]
      simpa using hall
    simp only [validateCandleSeries, hne, ↓reduceIte, hframe, List.nil_append]

end Results

end TradingBot.Strategy.Validation
