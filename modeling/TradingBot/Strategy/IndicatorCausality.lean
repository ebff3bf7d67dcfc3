import TradingBot.Strategy.Indicators

namespace TradingBot.Strategy.IndicatorCausality

open Market.Models Exceptions Library.Rounding Library.Smoothing Strategy.Indicators

variable {σ : Type}

/-- What an indicator gives at an index, or how it fails. -/
def valueAt (x : Except Exc Series) (i : ℕ) : Except Exc (Option Decimal) := x.map fun series => series.at i

section Prefixes

def emaOf (period : ℕ) (closes : List Decimal) : Option Decimal :=
  if closes.length < period then none
  else some (level (emaStep period) (mean decimalResult (closes.take period)) (closes.drop period))

def atrOf (period : ℕ) (candles : List (CandleOf σ)) : Option Decimal :=
  if candles.length ≤ period then none
  else some (level (atrStep period) (mean decimalResult ((trueRanges candles).take period))
    ((trueRanges candles).drop period))

def volumeRatioOf (period : ℕ) (volumes : List Decimal) : Option Decimal :=
  if volumes.length < period then none
  else ratioTo (volumes.getLastD 0) (some (mean decimalResult (volumes.drop (volumes.length - period))))

def highOf (lookback : ℕ) (highs : List Decimal) : Option Decimal :=
  if highs.length < lookback then none else highs.max?

variable {period i : ℕ}

theorem at_of_le {n : ℕ} {values : List Decimal} (h : i < n) :
    Series.at (List.replicate n none ++ values.map some) i = none := by
  rw [Series.at, List.getElem?_append_left (by simpa using h), List.getElem?_replicate, if_pos h]
  rfl

theorem at_replicate (n : ℕ) : Series.at (List.replicate n none) i = none := by
  rw [Series.at, List.getElem?_replicate]
  split_ifs <;> rfl

theorem valueAt_ema {closes : List Decimal} (hperiod : 0 < period) (hi : i < closes.length) :
    valueAt (computeEma closes period) i = .ok (emaOf period (closes.take (i + 1))) := by
  have hlength : (closes.take (i + 1)).length = i + 1 := by
    rw [List.length_take]
    omega
  rw [emaOf, hlength]
  by_cases hseeded : i + 1 < period
  · rw [if_pos hseeded, computeEma_natCast closes hperiod]
    split_ifs
    · exact congrArg Except.ok (at_replicate _)
    · exact congrArg Except.ok (at_of_le (by omega))
  · obtain ⟨series, hseries, hat⟩ := computeEma_at hperiod (not_lt.mp hseeded) hi
    rw [if_neg hseeded, hseries, List.take_take, List.drop_take, min_eq_left (not_lt.mp hseeded), ← hat]
    rfl

theorem trueRanges_take (candles : List (CandleOf σ)) (n : ℕ) :
    trueRanges (candles.take (n + 1)) = (trueRanges candles).take n := by
  have htail : (candles.take (n + 1)).tail = candles.tail.take n := by
    cases candles <;> simp
  have hlength : (List.zipWith trueRange (candles.take (n + 1)) (candles.tail.take n)).length ≤ n := by
    rw [List.length_zipWith, List.length_take, List.length_take]
    omega
  rw [trueRanges, trueRanges, htail, List.take_zipWith, ← List.take_of_length_le hlength, List.take_zipWith,
    List.take_take, List.take_take, min_eq_left (Nat.le_succ n), min_self]

theorem valueAt_atr {candles : List (CandleOf σ)} (hperiod : 0 < period) (hi : i < candles.length) :
    valueAt (computeWilderAtr candles period) i = .ok (atrOf period (candles.take (i + 1))) := by
  have hlength : (candles.take (i + 1)).length = i + 1 := by
    rw [List.length_take]
    omega
  rw [atrOf, hlength, trueRanges_take]
  by_cases hseeded : i + 1 ≤ period
  · rw [if_pos hseeded, computeWilderAtr_natCast candles hperiod]
    split_ifs
    · exact congrArg Except.ok (at_replicate _)
    · exact congrArg Except.ok (at_of_le (by omega))
  · obtain ⟨series, hseries, hat⟩ := computeWilderAtr_at hperiod (by omega) hi
    rw [if_neg hseeded, hseries, List.take_take, List.drop_take, min_eq_left (by omega), ← hat]
    rfl

theorem valueAt_volumeRatio {volumes : List Decimal} (hperiod : 0 < period) (hi : i < volumes.length) :
    valueAt (computeVolumeRatio volumes period) i = .ok (volumeRatioOf period (volumes.take (i + 1))) := by
  have hlength : (volumes.take (i + 1)).length = i + 1 := by
    rw [List.length_take]
    omega
  rw [volumeRatioOf, hlength]
  by_cases hseeded : i + 1 < period
  · have hundefined (sma : Series) (hsma : sma[i]? = some none) :
        Series.at (List.zipWith ratioTo volumes sma) i = none := by
      rw [Series.at, List.getElem?_zipWith, List.getElem?_eq_getElem hi, hsma]
      rfl
    rw [if_pos hseeded, computeVolumeRatio, computeVolumeSma_natCast volumes hperiod]
    split_ifs
    · exact congrArg Except.ok (hundefined _ (by rw [List.getElem?_replicate, if_pos hi]))
    · exact congrArg Except.ok (hundefined _ (by rw [List.getElem?_map, List.getElem?_range hi, Option.map_some,
        if_pos hseeded]))
  · obtain ⟨series, hseries, hat⟩ := computeVolumeRatio_at hperiod (not_lt.mp hseeded) hi
    have hlast : (volumes.take (i + 1)).getLastD 0 = volumes.get ⟨i, hi⟩ := by
      rw [List.take_succ_eq_append_getElem hi, List.getLastD_concat]
      rfl
    have hwindow : (volumes.take (i + 1)).drop (i + 1 - period) = window volumes (i + 1 - period) period := by
      rw [window, List.drop_take]
      congr 1
      omega
    rw [if_neg hseeded, hlast, hwindow, hseries, ← hat]
    rfl

theorem valueAt_high {highs : List Decimal} (hlookback : 0 < period) (hi : i < highs.length) :
    valueAt (computeHigh20 highs period) i = .ok (highOf period ((highs.take i).drop (i - period))) := by
  have hlength : ((highs.take i).drop (i - period)).length = i - (i - period) := by
    rw [List.length_drop, List.length_take]
    omega
  rw [highOf, hlength, computeHigh20_natCast highs hlookback]
  have hvalue : Series.at ((List.range highs.length).map fun t =>
      if t < period then none else (window highs (t - period) period).max?) i =
      if i < period then none else (window highs (i - period) period).max? := by
    rw [Series.at, List.getElem?_map, List.getElem?_range hi]
    rfl
  refine (congrArg Except.ok hvalue).trans ?_
  by_cases hfew : i < period
  · rw [if_pos hfew, if_pos (by omega)]
  · have hwindow : (highs.take i).drop (i - period) = window highs (i - period) period := by
      rw [window, List.drop_take]
      congr 1
      omega
    rw [if_neg hfew, if_neg (by omega), hwindow]

end Prefixes

section Negative

theorem wrappedWilder_first {period : ℤ} {tr : Series} (htr : tr.at 0 = none) (is : List ℤ) (atr : Decimal)
    {result : Series} (hlength : tr.length = result.length) :
    (wrappedWilder period tr is atr result)[0]? = result[0]? := by
  induction is generalizing atr result with
  | nil => rfl
  | cons i is ih =>
    rw [wrappedWilder]
    split
    · exact ih _ hlength
    · rename_i x hx
      have hne : wrapIndex result.length i ≠ 0 := by
        intro hzero
        rw [hlength, hzero, htr] at hx
        cases hx
      rw [ih _ (by rw [List.length_set, hlength]), List.getElem?_set_ne hne]

theorem valueAt_negativeAtr {k : ℕ} (hk : 0 < k) {candles : List (CandleOf σ)} (hlength : k ≤ candles.length) :
    valueAt (computeWilderAtr candles (-k)) 0 = .ok (if candles.length = k then some 0 else none) := by
  have hle : ¬ ((candles.length : ℤ) ≤ -k) := by omega
  have hzero : ¬ (-(k : ℤ) = 0) := by omega
  have hneg : -(k : ℤ) < 0 := by omega
  have hfits : ¬ ((candles.length : ℤ) < - -k) := by omega
  have hwrap : wrapIndex candles.length (-k) = candles.length - k := by
    rw [wrapIndex, if_pos hneg]
    omega
  rw [computeWilderAtr, if_neg hle, if_neg hzero, if_pos hneg, negativeWilderAtr, if_neg hfits]
  refine congrArg Except.ok ?_
  obtain ⟨c, rest, rfl⟩ : ∃ c rest, candles = c :: rest := List.exists_cons_of_length_pos (by omega)
  have htr : Series.at ((none :: (trueRanges (c :: rest)).map some).take (c :: rest).length) 0 = none := rfl
  have hlengths : ((none :: (trueRanges (c :: rest)).map some).take (c :: rest).length).length =
      ((List.replicate (c :: rest).length (none : Option Decimal)).set (wrapIndex (c :: rest).length (-k))
        (some 0)).length := by
    simp [length_trueRanges]
  change Series.at (wrappedWilder _ _ _ _ _) 0 = _
  rw [Series.at, wrappedWilder_first htr _ _ hlengths, hwrap]
  by_cases hexact : (c :: rest).length = k
  · rw [if_pos hexact, ← hexact, Nat.sub_self]
    rfl
  · rw [if_neg hexact, List.getElem?_set_ne (by omega)]
    rfl

end Negative

section Property

/-- How far so many roundings can take an average beyond numbers of a magnitude. -/
def emaError (count : ℕ) (magnitude : Decimal) : Decimal := ((1 + 3 / 10 ^ 27) ^ count - 1) * magnitude

/-- The indicators at an index are given by the candles up to it, and the highest high by those of the lookback before
it; the EMA lies between the smallest and the largest close so far, up to its roundings, and the ATR is not negative. -/
structure Sound (σ : Type) (emaPeriod atrPeriod volumePeriod lookback : ℤ) : Prop where
  ema : ∀ (a b : List (CandleOf σ)) (i : ℕ), i < a.length → i < b.length → a.take (i + 1) = b.take (i + 1) →
    valueAt (computeEma (a.map (·.close)) emaPeriod) i = valueAt (computeEma (b.map (·.close)) emaPeriod) i
  atr : ∀ (a b : List (CandleOf σ)) (i : ℕ), i < a.length → i < b.length → a.take (i + 1) = b.take (i + 1) →
    valueAt (computeWilderAtr a atrPeriod) i = valueAt (computeWilderAtr b atrPeriod) i
  volumeRatio : ∀ (a b : List (CandleOf σ)) (i : ℕ), i < a.length → i < b.length → a.take (i + 1) = b.take (i + 1) →
    valueAt (computeVolumeRatio (a.map (·.volume)) volumePeriod) i =
      valueAt (computeVolumeRatio (b.map (·.volume)) volumePeriod) i
  high : ∀ (a b : List (CandleOf σ)) (i : ℕ), i < a.length → i < b.length →
    (a.take i).drop (i - lookback.toNat) = (b.take i).drop (i - lookback.toNat) →
    valueAt (computeHigh20 (a.map (·.high)) lookback) i = valueAt (computeHigh20 (b.map (·.high)) lookback) i
  emaBounds : ∀ (a : List (CandleOf σ)) (i : ℕ) (e : Decimal), i < a.length →
    valueAt (computeEma (a.map (·.close)) emaPeriod) i = .ok (some e) →
    let closes := (a.take (i + 1)).map (·.close)
    ∃ lo hi m, closes.min? = some lo ∧ closes.max? = some hi ∧ (closes.map abs).max? = some m ∧
      lo - emaError (i + 1) m ≤ e ∧ e ≤ hi + emaError (i + 1) m
  atrNonneg : ∀ (a : List (CandleOf σ)) (i : ℕ) (e : Decimal), i < a.length →
    valueAt (computeWilderAtr a atrPeriod) i = .ok (some e) → 0 ≤ e

variable {period : ℤ} {i : ℕ}

theorem emaPeriod_cases (period : ℤ) : (∃ n : ℕ, 0 < n ∧ period = n) ∨
    ∀ closes, computeEma closes period = .error (.valueError "period must be positive") := by
  by_cases hpositive : 0 < period
  · exact .inl ⟨period.toNat, by omega, by omega⟩
  · exact .inr fun closes => if_pos (not_lt.mp hpositive)

theorem sound_ema (a b : List (CandleOf σ)) (period : ℤ) (ha : i < a.length) (hb : i < b.length)
    (hsame : a.take (i + 1) = b.take (i + 1)) :
    valueAt (computeEma (a.map (·.close)) period) i = valueAt (computeEma (b.map (·.close)) period) i := by
  cases emaPeriod_cases period with
  | inl hpositive =>
    obtain ⟨n, hn, rfl⟩ := hpositive
    rw [valueAt_ema hn (by simpa using ha), valueAt_ema hn (by simpa using hb), ← List.map_take, ← List.map_take, hsame]
  | inr hfails => rw [hfails, hfails]

theorem sound_atr (a b : List (CandleOf σ)) (hperiod : 0 ≤ period) (ha : i < a.length) (hb : i < b.length)
    (hsame : a.take (i + 1) = b.take (i + 1)) :
    valueAt (computeWilderAtr a period) i = valueAt (computeWilderAtr b period) i := by
  by_cases hzero : period = 0
  · have hfails (candles : List (CandleOf σ)) (h : i < candles.length) :
        computeWilderAtr candles period = .error .divisionByZero := by
      rw [computeWilderAtr, if_neg (by omega), if_pos hzero]
    rw [hfails a ha, hfails b hb]
  · obtain ⟨n, rfl⟩ := Int.eq_ofNat_of_zero_le hperiod
    have hn : 0 < n := by omega
    rw [valueAt_atr hn ha, valueAt_atr hn hb, hsame]

theorem sound_volumeRatio (a b : List (CandleOf σ)) (hperiod : 0 ≤ period) (ha : i < a.length) (hb : i < b.length)
    (hsame : a.take (i + 1) = b.take (i + 1)) :
    valueAt (computeVolumeRatio (a.map (·.volume)) period) i =
      valueAt (computeVolumeRatio (b.map (·.volume)) period) i := by
  by_cases hzero : period = 0
  · have hfails (volumes : List Decimal) : computeVolumeRatio volumes period = .error .divisionByZero := by
      rw [computeVolumeRatio, computeVolumeSma, if_neg (by omega), if_pos hzero]
      rfl
    rw [hfails, hfails]
  · obtain ⟨n, rfl⟩ := Int.eq_ofNat_of_zero_le hperiod
    have hn : 0 < n := by omega
    rw [valueAt_volumeRatio hn (by simpa using ha), valueAt_volumeRatio hn (by simpa using hb), ← List.map_take,
      ← List.map_take, hsame]

theorem sound_high (a b : List (CandleOf σ)) (lookback : ℤ) (ha : i < a.length) (hb : i < b.length)
    (hsame : (a.take i).drop (i - lookback.toNat) = (b.take i).drop (i - lookback.toNat)) :
    valueAt (computeHigh20 (a.map (·.high)) lookback) i = valueAt (computeHigh20 (b.map (·.high)) lookback) i := by
  by_cases hpositive : 0 < lookback
  · obtain ⟨n, rfl⟩ := Int.eq_ofNat_of_zero_le hpositive.le
    have hn : 0 < n := by omega
    rw [Int.toNat_natCast] at hsame
    rw [valueAt_high hn (by simpa using ha), valueAt_high hn (by simpa using hb), ← List.map_take, ← List.map_take,
      ← List.map_drop, ← List.map_drop, hsame]
  · have hfails (candles : List (CandleOf σ)) (h : i < candles.length) :
        computeHigh20 (candles.map (·.high)) lookback = .error (.valueError "max() iterable argument is empty") := by
      have hne : candles.map (·.high) ≠ [] := by
        intro hnil
        rw [List.map_eq_nil_iff.mp hnil] at h
        exact absurd h (Nat.not_lt_zero i)
      rw [computeHigh20, if_pos]
      by_cases hzero : lookback = 0
      · exact .inr ⟨hzero, hne⟩
      · exact .inl (by omega)
    rw [hfails a ha, hfails b hb]

theorem alpha_mem {n : ℕ} (hn : 0 < n) : 0 ≤ alpha n ∧ alpha n ≤ 1 := by
  have hone : (1 : Decimal) ≤ n := by exact_mod_cast hn
  have hdenominator : (0 : Decimal) < n + 1 := by linarith
  refine ⟨div_nonneg zero_le_two hdenominator.le, ?_⟩
  rw [alpha, div_le_one hdenominator]
  linarith

theorem exists_extremes {closes : List Decimal} (hne : closes ≠ []) : ∃ lo hi m, closes.min? = some lo ∧
    closes.max? = some hi ∧ (closes.map abs).max? = some m ∧ -m ≤ lo ∧ hi ≤ m ∧ ∀ x ∈ closes, lo ≤ x ∧ x ≤ hi := by
  obtain ⟨lo, hlo⟩ := Option.isSome_iff_exists.mp (List.isSome_min?_of_ne_nil hne)
  obtain ⟨hi, hhi⟩ := Option.isSome_iff_exists.mp (List.isSome_max?_of_ne_nil hne)
  obtain ⟨m, hm⟩ := Option.isSome_iff_exists.mp (List.isSome_max?_of_ne_nil (show closes.map abs ≠ [] by simpa using hne))
  have hmagnitude : ∀ x ∈ closes, |x| ≤ m := fun x hx => (List.max?_le_iff hm).mp le_rfl _ (List.mem_map_of_mem hx)
  refine ⟨lo, hi, m, hlo, hhi, hm, ?_, ?_, fun x hx => ⟨?_, ?_⟩⟩
  · exact (abs_le.mp (hmagnitude lo (List.min?_mem hlo))).1
  · exact (abs_le.mp (hmagnitude hi (List.max?_mem hhi))).2
  · exact (List.le_min?_iff hlo).mp le_rfl x hx
  · exact (List.max?_le_iff hhi).mp le_rfl x hx

theorem emaOf_bounds {n : ℕ} (hn : 0 < n) {closes : List Decimal} {e : Decimal} (h : emaOf n closes = some e) :
    ∃ lo hi m, closes.min? = some lo ∧ closes.max? = some hi ∧ (closes.map abs).max? = some m ∧
      lo - emaError closes.length m ≤ e ∧ e ≤ hi + emaError closes.length m := by
  unfold emaOf at h
  split_ifs at h with hseeded
  cases h
  have hne : closes ≠ [] := by
    rintro rfl
    exact hseeded hn
  obtain ⟨lo, hi, m, hlo, hhi, hm, hlower, hupper, hall⟩ := exists_extremes hne
  obtain ⟨hweight, hweight'⟩ := alpha_mem hn
  have hwithin := level_mean_within rounds_decimalResult (by norm_num) hweight hweight' hlower hupper hn
    (not_lt.mp hseeded) hall
  have herror : m * (1 + 6 * (5 / 10 ^ 28)) ^ closes.length - m = emaError closes.length m := by
    rw [emaError]
    ring
  refine ⟨lo, hi, m, hlo, hhi, hm, ?_⟩
  rw [← herror]
  exact ⟨hwithin.le, hwithin.ge⟩

theorem atrOf_nonneg {n : ℕ} (hn : 0 < n) {candles : List (CandleOf σ)} {e : Decimal} (h : atrOf n candles = some e) :
    0 ≤ e := by
  unfold atrOf at h
  split_ifs at h
  cases h
  have hall := trueRanges_nonneg candles
  have hperiod : (1 : Decimal) ≤ ((n : ℤ) : Decimal) := by exact_mod_cast hn
  have hseed := rounds_decimalResult.mean_nonneg (by norm_num) fun x hx => hall x (List.mem_of_mem_take (i := n) hx)
  exact level_wilder_nonneg rounds_decimalResult (by norm_num) hperiod hseed fun x hx => hall x (List.mem_of_mem_drop hx)

theorem sound_of_nonneg {emaPeriod atrPeriod volumePeriod lookback : ℤ} (hatr : 0 ≤ atrPeriod)
    (hvolume : 0 ≤ volumePeriod) : Sound σ emaPeriod atrPeriod volumePeriod lookback where
  ema a b _ ha hb hsame := sound_ema a b emaPeriod ha hb hsame
  atr a b _ ha hb hsame := sound_atr a b hatr ha hb hsame
  volumeRatio a b _ ha hb hsame := sound_volumeRatio a b hvolume ha hb hsame
  high a b _ ha hb hsame := sound_high a b lookback ha hb hsame
  emaBounds a i e hi h := by
    cases emaPeriod_cases emaPeriod with
    | inl hpositive =>
      obtain ⟨n, hn, rfl⟩ := hpositive
      rw [valueAt_ema hn (by simpa using hi), ← List.map_take, Except.ok.injEq] at h
      have hbounds := emaOf_bounds hn h
      rwa [List.length_map, List.length_take_of_le hi] at hbounds
    | inr hfails =>
      rw [hfails] at h
      cases h
  atrNonneg a i e hi h := by
    by_cases hzero : atrPeriod = 0
    · rw [computeWilderAtr, if_neg (by omega), if_pos hzero] at h
      cases h
    · obtain ⟨n, rfl⟩ := Int.eq_ofNat_of_zero_le hatr
      have hn : 0 < n := by omega
      rw [valueAt_atr hn hi, Except.ok.injEq] at h
      exact atrOf_nonneg hn h

instance [Inhabited σ] : Inhabited (CandleOf σ) := ⟨⟨default, .daily, 0, 0, 0, 0, 0, 0, 0, false⟩⟩

theorem atr_nonneg_of_sound [Inhabited σ] {emaPeriod atrPeriod volumePeriod lookback : ℤ}
    (h : Sound σ emaPeriod atrPeriod volumePeriod lookback) : 0 ≤ atrPeriod := by
  by_contra hneg
  obtain ⟨k, hk, rfl⟩ : ∃ k : ℕ, 0 < k ∧ atrPeriod = -k := ⟨(-atrPeriod).toNat, by omega, by omega⟩
  let c : CandleOf σ := default
  have hsame : (List.replicate k c).take 1 = (List.replicate (k + 1) c).take 1 := by
    rw [List.take_replicate, List.take_replicate, min_eq_left hk, min_eq_left (by omega)]
  have hvalues := h.atr (List.replicate k c) (List.replicate (k + 1) c) 0 (by simpa using hk) (by simp) hsame
  rw [valueAt_negativeAtr hk (by simp), valueAt_negativeAtr hk (by simp), if_pos (by simp), if_neg (by simp)] at hvalues
  cases hvalues

theorem volume_nonneg_of_sound [Inhabited σ] {emaPeriod atrPeriod volumePeriod lookback : ℤ}
    (h : Sound σ emaPeriod atrPeriod volumePeriod lookback) : 0 ≤ volumePeriod := by
  by_contra hneg
  obtain ⟨k, hk, rfl⟩ : ∃ k : ℕ, 0 < k ∧ volumePeriod = -k := ⟨(-volumePeriod).toNat, by omega, by omega⟩
  let c : CandleOf σ := default
  have hshort : computeVolumeRatio ((List.replicate 1 c).map (·.volume)) (-k) = .error indexOutOfRange := by
    rw [computeVolumeRatio, computeVolumeSma, if_neg (by simp), if_neg (by omega), if_pos (by omega),
      if_pos (by simp; omega)]
    rfl
  have hlong : ∃ series, computeVolumeRatio ((List.replicate (k + 1) c).map (·.volume)) (-k) = .ok series := by
    rw [computeVolumeRatio, computeVolumeSma, if_neg (by simp; omega), if_neg (by omega), if_pos (by omega),
      if_neg (by simp; omega)]
    exact ⟨_, rfl⟩
  obtain ⟨series, hseries⟩ := hlong
  have hsame : (List.replicate 1 c).take 1 = (List.replicate (k + 1) c).take 1 := by
    rw [List.take_replicate, List.take_replicate, min_self, min_eq_left (by omega)]
  have hvalues := h.volumeRatio (List.replicate 1 c) (List.replicate (k + 1) c) 0 (by simp) (by simp) hsame
  rw [hshort, hseries] at hvalues
  cases hvalues

/-- The indicators are causal and bounded exactly if the periods of the ATR and of the volume are not negative. -/
theorem sound_iff [Inhabited σ] (emaPeriod atrPeriod volumePeriod lookback : ℤ) :
    Sound σ emaPeriod atrPeriod volumePeriod lookback ↔ 0 ≤ atrPeriod ∧ 0 ≤ volumePeriod :=
  ⟨fun h => ⟨atr_nonneg_of_sound h, volume_nonneg_of_sound h⟩, fun h => sound_of_nonneg h.1 h.2⟩

/-- Constant closes of 7 have an average above 7. -/
theorem ema_above_maximum : ¬ ∀ (closes : List Decimal) (period : ℤ) (i : ℕ) (e : Decimal), i < closes.length →
    valueAt (computeEma closes period) i = .ok (some e) →
    ∃ lo hi, (closes.take (i + 1)).min? = some lo ∧ (closes.take (i + 1)).max? = some hi ∧ lo ≤ e ∧ e ≤ hi := by
  intro h
  let closes : List Decimal := List.replicate 30 7
  have hvalue : valueAt (computeEma closes 20) 29 = .ok (emaOf 20 (closes.take 30)) := valueAt_ema (by decide) (by decide)
  have hema : emaOf 20 (closes.take 30) =
      some (level (emaStep 20) (mean decimalResult ((closes.take 30).take 20)) ((closes.take 30).drop 20)) :=
    if_neg (by decide)
  have habove : 7 < level (emaStep 20) (mean decimalResult ((closes.take 30).take 20)) ((closes.take 30).drop 20) := by
    decide +kernel
  have hseven : (closes.take (29 + 1)).max? = some 7 := by decide +kernel
  rw [hema] at hvalue
  obtain ⟨_, hi, -, hhi, -, hle⟩ := h closes 20 29 _ (by decide) hvalue
  obtain rfl : 7 = hi := Option.some.inj (hseven.symm.trans hhi)
  exact absurd habove (not_lt.mpr hle)

end Property

end TradingBot.Strategy.IndicatorCausality
