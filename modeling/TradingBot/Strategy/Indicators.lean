import TradingBot.Exceptions
import TradingBot.Library.Smoothing

namespace TradingBot.Strategy.Indicators

open Market.Models Exceptions Library.Rounding Library.Smoothing

variable {σ : Type}

/-- A series of values that starts with undefined ones. -/
abbrev Series := List (Option Decimal)

def Series.at (s : Series) (i : ℕ) : Option Decimal := s[i]?.join

/-- The weight of the newest close, exactly. -/
def alpha (period : ℕ) : Decimal := 2 / ((period : Decimal) + 1)

/-- `alpha * closes[i] + (Decimal(1) - alpha) * prev`, where `alpha` itself is a rounded quotient. -/
def emaStep (period : ℕ) (prev close : Decimal) : Decimal :=
  smoothStep decimalResult (decimalResult (alpha period)) prev close

def computeEma (closes : List Decimal) (period : ℤ) : Except Exc Series :=
  if period ≤ 0 then .error (.valueError "period must be positive")
  else
    let period := period.toNat
    if closes.length < period then .ok (List.replicate closes.length none)
    else .ok (List.replicate (period - 1) none ++
      (levels (emaStep period) (mean decimalResult (closes.take period)) (closes.drop period)).map some)

def trueRange (previous current : CandleOf σ) : Decimal :=
  max (decimalResult (current.high - current.low))
    (max |decimalResult (current.high - previous.close)| |decimalResult (current.low - previous.close)|)

/-- The true ranges from the second candle on: the first has no previous close. -/
def trueRanges (candles : List (CandleOf σ)) : List Decimal :=
  List.zipWith trueRange candles candles.tail

/-- `(atr * p_minus_1 + tr_i) / p`. -/
def atrStep (period : ℤ) (atr tr : Decimal) : Decimal := wilderStep decimalResult period atr tr

def wrapIndex (length : ℕ) (i : ℤ) : ℕ := (if i < 0 then i + length else i).toNat

/-- The loop of a negative period: its first indices wrap around, and so each of the last true ranges
is used twice. -/
def wrappedWilder (period : ℤ) (tr : Series) : List ℤ → Decimal → Series → Series
  | [], _, result => result
  | i :: is, atr, result =>
    match tr.at (wrapIndex tr.length i) with
    | none => wrappedWilder period tr is atr result
    | some x =>
      let atr := atrStep period atr x
      wrappedWilder period tr is atr (result.set (wrapIndex result.length i) (some atr))

def indexOutOfRange : Exc := .indexError "list assignment index out of range"

def negativeWilderAtr (candles : List (CandleOf σ)) (period : ℤ) : Except Exc Series :=
  if candles.length < -period then .error indexOutOfRange
  else
    let indices := (List.range (candles.length - (period + 1)).toNat).map (period + 1 + ·)
    let tr := (none :: (trueRanges candles).map some).take candles.length
    .ok (wrappedWilder period tr indices 0
      ((List.replicate candles.length none).set (wrapIndex candles.length period) (some 0)))

def computeWilderAtr (candles : List (CandleOf σ)) (period : ℤ) : Except Exc Series :=
  if candles.length ≤ period then .ok (List.replicate candles.length none)
  else if period = 0 then .error .divisionByZero
  else if period < 0 then negativeWilderAtr candles period
  else
    let period := period.toNat
    .ok (List.replicate period none ++
      (levels (atrStep period) (mean decimalResult ((trueRanges candles).take period))
        ((trueRanges candles).drop period)).map some)

def window (values : List Decimal) (start length : ℕ) : List Decimal := (values.drop start).take length

/-- With a negative period the loop passes every index, and the last window at each is empty. -/
def computeVolumeSma (volumes : List Decimal) (period : ℤ) : Except Exc Series :=
  if volumes.length < period then .ok (List.replicate volumes.length none)
  else if period = 0 then .error .divisionByZero
  else if period < 0 then
    if volumes.length < 1 - period then .error indexOutOfRange
    else .ok (List.replicate volumes.length (some 0))
  else
    let period := period.toNat
    .ok ((List.range volumes.length).map fun i =>
      if i + 1 < period then none
      else some (mean decimalResult (window volumes (i + 1 - period) period)))

def ratioTo (volume : Decimal) : Option Decimal → Option Decimal
  | none => none
  | some sma => if sma = 0 then none else some (decimalResult (volume / sma))

def computeVolumeRatio (volumes : List Decimal) (period : ℤ) : Except Exc Series := do
  let sma ← computeVolumeSma volumes period
  pure (List.zipWith ratioTo volumes sma)

/-- The highest high of the candles before the current one. Without a positive lookback the loop meets
an empty window. -/
def computeHigh20 (highs : List Decimal) (lookback : ℤ) : Except Exc Series :=
  if lookback < 0 ∨ (lookback = 0 ∧ highs ≠ []) then
    .error (.valueError "max() iterable argument is empty")
  else
    let lookback := lookback.toNat
    .ok ((List.range highs.length).map fun t =>
      if t < lookback then none else (window highs (t - lookback) lookback).max?)

section Values

theorem at_replicate_append {n i : ℕ} {values : List Decimal} (hn : n ≤ i) :
    Series.at (List.replicate n none ++ values.map some) i = values[i - n]? := by
  rw [Series.at, List.getElem?_append_right (by simpa using hn), List.length_replicate,
    List.getElem?_map]
  cases values[i - n]? <;> rfl

theorem computeEma_natCast (closes : List Decimal) {period : ℕ} (hperiod : 0 < period) :
    computeEma closes period = if closes.length < period then .ok (List.replicate closes.length none)
      else .ok (List.replicate (period - 1) none ++
        (levels (emaStep period) (mean decimalResult (closes.take period)) (closes.drop period)).map some) := by
  have hpositive : ¬ (period : ℤ) ≤ 0 := by omega
  simp only [computeEma, if_neg hpositive, Int.toNat_natCast]

theorem computeWilderAtr_natCast (candles : List (CandleOf σ)) {period : ℕ} (hperiod : 0 < period) :
    computeWilderAtr candles period =
      if candles.length ≤ period then .ok (List.replicate candles.length none)
      else .ok (List.replicate period none ++
        (levels (atrStep period) (mean decimalResult ((trueRanges candles).take period))
          ((trueRanges candles).drop period)).map some) := by
  have hne : ¬ (period : ℤ) = 0 := by omega
  have hneg : ¬ (period : ℤ) < 0 := by omega
  simp only [computeWilderAtr, if_neg hne, if_neg hneg, Int.toNat_natCast, Nat.cast_le]

theorem computeVolumeSma_natCast (volumes : List Decimal) {period : ℕ} (hperiod : 0 < period) :
    computeVolumeSma volumes period =
      if volumes.length < period then .ok (List.replicate volumes.length none)
      else .ok ((List.range volumes.length).map fun i =>
        if i + 1 < period then none
        else some (mean decimalResult (window volumes (i + 1 - period) period))) := by
  have hne : ¬ (period : ℤ) = 0 := by omega
  have hneg : ¬ (period : ℤ) < 0 := by omega
  simp only [computeVolumeSma, if_neg hne, if_neg hneg, Int.toNat_natCast, Nat.cast_lt]

theorem computeHigh20_natCast (highs : List Decimal) {lookback : ℕ} (hlookback : 0 < lookback) :
    computeHigh20 highs lookback = .ok ((List.range highs.length).map fun t =>
      if t < lookback then none else (window highs (t - lookback) lookback).max?) := by
  have hpositive : ¬ ((lookback : ℤ) < 0 ∨ (lookback : ℤ) = 0 ∧ highs ≠ []) := by omega
  simp only [computeHigh20, if_neg hpositive, Int.toNat_natCast]

theorem computeEma_at {closes : List Decimal} {period : ℕ} (hperiod : 0 < period) {i : ℕ}
    (hi : period ≤ i + 1) (hlen : i < closes.length) :
    ∃ series, computeEma closes period = .ok series ∧ series.at i =
      some (level (emaStep period) (mean decimalResult (closes.take period))
        ((closes.drop period).take (i + 1 - period))) := by
  have hseeded : ¬ closes.length < period := by omega
  refine ⟨_, by rw [computeEma_natCast _ hperiod, if_neg hseeded], ?_⟩
  have hindex : i - (period - 1) = i + 1 - period := by omega
  rw [at_replicate_append (by omega), levels_getElem? _ _ _ (by rw [List.length_drop]; omega), hindex]

theorem length_trueRanges (candles : List (CandleOf σ)) :
    (trueRanges candles).length = candles.length - 1 := by
  simp [trueRanges]

theorem trueRange_nonneg (a b : CandleOf σ) : 0 ≤ trueRange a b :=
  (abs_nonneg _).trans ((le_max_left _ _).trans (le_max_right _ _))

theorem trueRanges_nonneg (candles : List (CandleOf σ)) : ∀ x ∈ trueRanges candles, 0 ≤ x := by
  intro x hx
  rw [trueRanges, ← List.map_uncurry_zip_eq_zipWith] at hx
  obtain ⟨pair, _, rfl⟩ := List.mem_map.mp hx
  exact trueRange_nonneg pair.1 pair.2

theorem computeWilderAtr_at {candles : List (CandleOf σ)} {period : ℕ} (hperiod : 0 < period) {i : ℕ}
    (hi : period ≤ i) (hlen : i < candles.length) :
    ∃ series, computeWilderAtr candles period = .ok series ∧ series.at i =
      some (level (atrStep period) (mean decimalResult ((trueRanges candles).take period))
        (((trueRanges candles).drop period).take (i - period))) := by
  have hseeded : ¬ candles.length ≤ period := by omega
  refine ⟨_, by rw [computeWilderAtr_natCast _ hperiod, if_neg hseeded], ?_⟩
  rw [at_replicate_append hi]
  refine levels_getElem? _ _ _ ?_
  rw [List.length_drop, length_trueRanges]
  omega

theorem computeVolumeRatio_at {volumes : List Decimal} {period : ℕ} (hperiod : 0 < period) {i : ℕ}
    (hi : period ≤ i + 1) (hlen : i < volumes.length) :
    ∃ series, computeVolumeRatio volumes period = .ok series ∧ series.at i =
      ratioTo (volumes.get ⟨i, hlen⟩)
        (some (mean decimalResult (window volumes (i + 1 - period) period))) := by
  have hseeded : ¬ volumes.length < period := by omega
  have hsma : computeVolumeSma volumes period = .ok ((List.range volumes.length).map fun i =>
      if i + 1 < period then none
      else some (mean decimalResult (window volumes (i + 1 - period) period))) := by
    rw [computeVolumeSma_natCast _ hperiod, if_neg hseeded]
  refine ⟨_, by rw [computeVolumeRatio, hsma]; rfl, ?_⟩
  rw [Series.at, List.getElem?_zipWith]
  simp [hlen, not_lt.mpr hi]

theorem computeHigh20_at {highs : List Decimal} {lookback : ℕ} (hlookback : 0 < lookback) {t : ℕ}
    (ht : lookback ≤ t) (hlen : t < highs.length) :
    ∃ series, computeHigh20 highs lookback = .ok series ∧
      series.at t = (window highs (t - lookback) lookback).max? := by
  refine ⟨_, computeHigh20_natCast _ hlookback, ?_⟩
  rw [Series.at]
  simp [hlen, not_lt.mpr ht]

end Values

end TradingBot.Strategy.Indicators
