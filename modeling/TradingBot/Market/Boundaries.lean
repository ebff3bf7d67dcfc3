import TradingBot.Market.Periods

namespace TradingBot.Market.Boundaries

open Market.Models Market.Quality Market.Timeframes Market.CalendarFacts Market.Periods Market.BundleFacts
open Exceptions Library Library.Outcome

section Claimed

def Boundary : Timeframe → Time → Prop
  | .daily, t => timeOfDay t = 0
  | .weekly, t => timeOfDay t = 0 ∧ weekday t = 0
  | .monthly, t => timeOfDay t = 0 ∧ (civilDate (dayNumber t)).dayOfMonth = 1

/-- The candle takes up a whole period: it opens with the period and closes a second before the next one. -/
structure Canonical (c : Candle) : Prop where
  opens : Boundary c.timeframe c.openTime
  closes : c.closeTime = periodStart c.timeframe (periodOf c.timeframe c.openTime + 1) - second

def Accepted (c : Candle) : Prop := validateCandleStructure c = .ok []

/-- Of the candles given, the accepted ones are canonical, and the daily ones among them are on different days. -/
structure CanonicalBoundaries (candles : Set Candle) : Prop where
  canonical : ∀ c ∈ candles, Accepted c → Canonical c
  oneForEachDay : ∀ c ∈ candles, ∀ d ∈ candles, Accepted c → Accepted d → c.timeframe = .daily →
    d.timeframe = .daily → c.openTime ≠ d.openTime → dayNumber c.openTime ≠ dayNumber d.openTime

end Claimed

section Days

variable {t : Time}

theorem time_eq (t : Time) : day * dayNumber t + timeOfDay t = t := Int.mul_ediv_add_emod t day

theorem timeOfDay_nonneg (t : Time) : 0 ≤ timeOfDay t := Int.emod_nonneg t day_pos.ne'

theorem timeOfDay_lt (t : Time) : timeOfDay t < day := Int.emod_lt_of_pos t day_pos

theorem midnight_iff : timeOfDay t = 0 ↔ t = day * dayNumber t := by
  have htime := time_eq t
  constructor
  · intro h
    rw [h, add_zero] at htime
    exact htime.symm
  · intro h
    rw [h]
    exact timeOfDay_mul (dayNumber t)

theorem boundary_iff {timeframe : Timeframe} :
    Boundary timeframe t ↔ t = periodStart timeframe (periodOf timeframe t) := by
  have hfirst : ∀ n, t = day * n ↔ timeOfDay t = 0 ∧ n = dayNumber t := by
    intro n
    constructor
    · intro h
      rw [h, timeOfDay_mul, dayNumber_mul]
      exact ⟨rfl, rfl⟩
    · rintro ⟨hmidnight, rfl⟩
      exact midnight_iff.mp hmidnight
  cases timeframe with
  | daily => exact midnight_iff
  | weekly =>
    simp only [Boundary, periodStart, periodOf, firstDay, hfirst, weekday]
    apply and_congr_right'
    have hweek : ∀ n : ℤ, (n + 3) % 7 = 0 ↔ 7 * ((n + 3) / 7) - 3 = n := by omega
    exact hweek _
  | monthly =>
    simp only [Boundary, periodStart, periodOf, firstDay, hfirst]
    exact and_congr_right' dayOfMonth_eq_one_iff

end Days

section Acceptance

variable {c : Candle}

def PricesInOrder (c : Candle) : Prop :=
  0 < c.openPrice ∧ 0 < c.high ∧ 0 < c.low ∧ 0 < c.close ∧ 0 ≤ c.volume ∧
  c.openPrice ≤ c.high ∧ c.close ≤ c.high ∧ c.low ≤ c.openPrice ∧ c.low ≤ c.close

theorem accepted_iff : Accepted c ↔ PricesInOrder c ∧ c.openTime < c.closeTime ∧
    expectedCloseTime c.openTime c.timeframe = .ok c.closeTime := by
  have hnil : ∀ l : List MarketDataReasonCode, l.eraseDups = [] ↔ l = [] :=
    fun l => ⟨Keyed.eraseDups_eq_nil, fun h => by rw [h]; rfl⟩
  simp only [Accepted, validateCandleStructure, isValidTimeframeDuration, PricesInOrder]
  cases hclose : expectedCloseTime c.openTime c.timeframe with
  | error exc => simp [bind, Except.bind]
  | ok expected =>
    simp only [bind, Except.bind, pure, Except.pure, Except.ok.injEq, hnil, List.append_eq_nil_iff,
      codeIf_eq_nil, decide_eq_false_iff_not, not_or, not_le, not_lt, Bool.not_eq_false',
      decide_eq_true_eq]
    constructor
    · rintro ⟨⟨⟨⟨⟨⟨ho, hh, hl, hc⟩, hvolume⟩, hho, hhc, _⟩, hlo, hlc, _⟩, htime⟩, hexpected⟩
      exact ⟨⟨ho, hh, hl, hc, hvolume, hho, hhc, hlo, hlc⟩, htime, hexpected.symm⟩
    · rintro ⟨⟨ho, hh, hl, hc, hvolume, hho, hhc, hlo, hlc⟩, htime, hexpected⟩
      have hhl := hlo.trans hho
      exact ⟨⟨⟨⟨⟨⟨ho, hh, hl, hc⟩, hvolume⟩, hho, hhc, hhl⟩, hlo, hlc, hhl⟩, htime⟩, hexpected.symm⟩

/-- The candles past midnight that the validator takes for candles of the whole period. -/
def Strays (c : Candle) : Prop :=
  PricesInOrder c ∧ 0 < timeOfDay c.openTime ∧
  match c.timeframe with
  | .daily => timeOfDay c.openTime < 86399 * second ∧ c.closeTime = dailyClose c.openTime
  | .weekly => weekday c.openTime = 0 ∧ c.closeTime = c.openTime + 6 * day + 86399 * second
  | .monthly => (civilDate (dayNumber c.openTime)).dayOfMonth = 1 ∧ timeOfDay c.openTime < 3600 * second ∧
      c.closeTime = firstOfNextMonth c.openTime - second

theorem opensBeforeClose_daily (t : Time) : t < dailyClose t ↔ timeOfDay t < 86399 * second := by
  have htime := time_eq t
  have hclose : dailyClose t = day * dayNumber t + 86399 * second := by
    rw [dailyClose, mul_comm]
  rw [hclose]
  constructor
  · intro h
    linarith
  · intro h
    linarith

theorem opensBeforeClose_monthly {t : Time} (hfirst : (civilDate (dayNumber t)).dayOfMonth = 1) :
    t < firstOfNextMonth t - second := by
  have htime := time_eq t
  have hlt := timeOfDay_lt t
  have hmonth := (monthStart_succ (monthOf (dayNumber t))).1
  rw [dayOfMonth_eq_one_iff.mp hfirst] at hmonth
  have hnext := Int.mul_le_mul_of_nonneg_left hmonth day_pos.le
  have hsecond : second < day := by decide
  have hday := day_pos
  rw [firstOfNextMonth_eq]
  rw [mul_add] at hnext
  linarith

theorem strays_iff : Strays c ↔ Accepted c ∧ timeOfDay c.openTime ≠ 0 := by
  have hpast : 0 < timeOfDay c.openTime ↔ timeOfDay c.openTime ≠ 0 := by
    exact (timeOfDay_nonneg c.openTime).lt_iff_ne'
  rw [accepted_iff]
  unfold Strays
  cases htimeframe : c.timeframe with
  | daily =>
    simp only [expectedCloseTime, Except.ok.injEq, hpast]
    constructor
    · rintro ⟨hprices, hnot, hearly, hclose⟩
      exact ⟨⟨hprices, hclose ▸ (opensBeforeClose_daily _).mpr hearly, hclose.symm⟩, hnot⟩
    · rintro ⟨⟨hprices, hlt, hclose⟩, hnot⟩
      exact ⟨hprices, hnot, (opensBeforeClose_daily _).mp (hclose ▸ hlt), hclose.symm⟩
  | weekly =>
    simp only [expectedCloseTime, weeklyClose, hpast]
    by_cases hmonday : weekday c.openTime = 0
    · simp only [hmonday, ne_eq, not_true_eq_false, if_false, Except.ok.injEq, true_and]
      constructor
      · rintro ⟨hprices, hnot, hclose⟩
        have hlong : 0 < 6 * day + 86399 * second := by decide
        refine ⟨⟨hprices, ?_, hclose.symm⟩, hnot⟩
        linarith
      · rintro ⟨⟨hprices, hlt, hclose⟩, hnot⟩
        exact ⟨hprices, hnot, hclose.symm⟩
    · simp [hmonday]
  | monthly =>
    simp only [expectedCloseTime, monthlyClose, hpast]
    by_cases hguard : (civilDate (dayNumber c.openTime)).dayOfMonth ≠ 1 ∨
        3600 * second ≤ timeOfDay c.openTime
    · rw [if_pos hguard]
      apply iff_of_false
      · rintro ⟨_, _, hfirst, hhour, _⟩
        cases hguard with
        | inl h => exact h hfirst
        | inr h => exact h.not_gt hhour
      · rintro ⟨⟨_, _, hclose⟩, _⟩
        cases hclose
    · rw [if_neg hguard]
      obtain ⟨hfirst, hhour⟩ := not_or.mp hguard
      rw [not_ne_iff] at hfirst
      simp only [Except.ok.injEq]
      constructor
      · rintro ⟨hprices, hnot, _, _, hclose⟩
        exact ⟨⟨hprices, hclose ▸ opensBeforeClose_monthly hfirst, hclose.symm⟩, hnot⟩
      · rintro ⟨⟨hprices, _, hclose⟩, hnot⟩
        exact ⟨hprices, hnot, hfirst, not_le.mp hhour, hclose.symm⟩

theorem boundary_of_accepted (h : Accepted c) (hmidnight : timeOfDay c.openTime = 0) :
    Boundary c.timeframe c.openTime := by
  obtain ⟨_, _, hclose⟩ := accepted_iff.mp h
  cases htimeframe : c.timeframe with
  | daily => exact hmidnight
  | weekly =>
    refine ⟨hmidnight, ?_⟩
    by_contra hmonday
    simp [htimeframe, expectedCloseTime, weeklyClose, hmonday] at hclose
  | monthly =>
    refine ⟨hmidnight, ?_⟩
    by_contra hfirst
    simp [htimeframe, expectedCloseTime, monthlyClose, hfirst] at hclose

theorem canonical_of_boundary (h : Accepted c) (hopen : Boundary c.timeframe c.openTime) : Canonical c := by
  obtain ⟨_, _, hclose⟩ := accepted_iff.mp h
  refine ⟨hopen, ?_⟩
  have hexpected := expectedCloseTime_periodStart c.timeframe (periodOf c.timeframe c.openTime)
  rw [← boundary_iff.mp hopen, hclose] at hexpected
  exact Except.ok.inj hexpected

theorem canonical_iff (h : Accepted c) : Canonical c ↔ timeOfDay c.openTime = 0 := by
  constructor
  · intro hcanonical
    have hopen := hcanonical.opens
    cases htimeframe : c.timeframe with
    | daily =>
      rw [htimeframe] at hopen
      exact hopen
    | weekly | monthly =>
      rw [htimeframe] at hopen
      exact hopen.1
  · intro hmidnight
    exact canonical_of_boundary h (boundary_of_accepted h hmidnight)

theorem Strays.not_canonical (h : Strays c) : Accepted c ∧ ¬Canonical c := by
  obtain ⟨haccepted, hpast⟩ := strays_iff.mp h
  exact ⟨haccepted, fun hcanonical => hpast ((canonical_iff haccepted).mp hcanonical)⟩

/-- The accepted candles among any are the canonical ones, exactly when none of them opens past midnight with a
close that the validator expects. -/
theorem canonical_boundaries_iff (candles : Set Candle) :
    CanonicalBoundaries candles ↔ ∀ c ∈ candles, ¬Strays c := by
  constructor
  · intro h c hc hstrays
    obtain ⟨haccepted, hnot⟩ := hstrays.not_canonical
    exact hnot (h.canonical c hc haccepted)
  · intro h
    have hmidnight : ∀ c ∈ candles, Accepted c → timeOfDay c.openTime = 0 := by
      intro c hc haccepted
      by_contra hpast
      exact h c hc (strays_iff.mpr ⟨haccepted, hpast⟩)
    refine ⟨fun c hc haccepted => (canonical_iff haccepted).mpr (hmidnight c hc haccepted), ?_⟩
    intro c hc d hd hcaccepted hdaccepted _ _ hdistinct hsame
    apply hdistinct
    rw [midnight_iff.mp (hmidnight c hc hcaccepted), midnight_iff.mp (hmidnight d hd hdaccepted), hsame]

def noonCandle : Candle :=
  { symbol := .BTC, timeframe := .daily, openTime := 19723 * day + 43200 * second
    closeTime := 19723 * day + 86399 * second, openPrice := 100, high := 110, low := 90, close := 105
    volume := 1, isClosed := true }

/-- The candle of the noon of a day is accepted, and so is the one of its midnight. -/
theorem noon_candle_accepted : ¬ CanonicalBoundaries Set.univ := by
  intro h
  have hstrays : Strays noonCandle := by
    refine ⟨?_, by decide, by decide, by decide⟩
    norm_num [PricesInOrder, noonCandle]
  obtain ⟨haccepted, hnot⟩ := hstrays.not_canonical
  exact hnot (h.canonical noonCandle (Set.mem_univ _) haccepted)

end Acceptance

end TradingBot.Market.Boundaries
