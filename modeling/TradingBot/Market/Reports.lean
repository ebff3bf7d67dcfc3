import TradingBot.Market.RuntimeRules

namespace TradingBot.Market.Reports

open Market.Models Market.Repository Market.Timeframes Market.Quality Market.Bundle Market.BundleFacts
open Market.Provider Market.Ingest Market.IngestFacts Market.Runtime Market.RuntimeFacts Market.RuntimeRules
open MarketDataRuntime Exceptions Library.Outcome

section Periods

variable {timeframe : Timeframe} {t : Time} {c : Candle}

/-- The candle lasts for the whole of its period. -/
def Regular (c : Candle) : Prop := expectedCloseTime c.openTime c.timeframe = .ok c.closeTime

def Starts (timeframe : Timeframe) (t : Time) : Prop := Returns (expectedCloseTime t timeframe)

theorem weekday_add_week (t : ℤ) : weekday (t + 7 * day) = weekday t := by
  unfold weekday dayNumber
  have hday : day = (86400000000 : ℤ) := by decide
  rw [hday]
  omega

theorem monthlyClose_firstOfNextMonth (t : Time) : Returns (monthlyClose (firstOfNextMonth t)) := by
  obtain ⟨h0, h1⟩ := CalendarFacts.civilDate_month (dayNumber t)
  have hday : 0 < day := by decide
  have hnext : ∃ year month, 1 ≤ month ∧ month ≤ 12 ∧ firstOfNextMonth t = day * firstOfMonth year month := by
    unfold firstOfNextMonth
    simp only
    split_ifs with h12
    · exact ⟨_, 1, by omega, by omega, rfl⟩
    · exact ⟨_, _, by omega, by omega, rfl⟩
  obtain ⟨year, month, hlow, hhigh, heq⟩ := hnext
  unfold monthlyClose
  rw [heq]
  have hnumber : dayNumber (day * firstOfMonth year month) = firstOfMonth year month :=
    Int.mul_ediv_cancel_left _ hday.ne'
  have htime : timeOfDay (day * firstOfMonth year month) = 0 := Int.mul_emod_right _ _
  rw [hnumber, htime, CalendarFacts.dayOfMonth_firstOfMonth hlow hhigh, if_neg (by decide)]
  exact ⟨_, rfl⟩

theorem starts_next (h : Starts timeframe t) : Starts timeframe (nextOpenTime t timeframe) := by
  obtain ⟨close, hclose⟩ := h
  cases timeframe with
  | daily => exact returns_ok _
  | weekly =>
    have hmonday : weekday t = 0 := by
      by_contra hne
      simp [expectedCloseTime, weeklyClose, hne] at hclose
    show Returns (weeklyClose (t + 7 * day))
    unfold weeklyClose
    rw [weekday_add_week, hmonday, if_neg (by decide)]
    exact returns_ok _
  | monthly => exact monthlyClose_firstOfNextMonth t

end Periods

section Totality

variable {symbol : Symbol} {timeframe : Timeframe} {t stop cursor : Time} {candles : List Candle}

theorem gapAt_returns (h : Starts timeframe cursor) : Returns (gapAt symbol timeframe cursor) :=
  h.bind fun _ => returns_ok _

theorem gapsBetween_returns (fuel : ℕ) (h : Starts timeframe cursor) :
    Returns (gapsBetween symbol timeframe stop fuel cursor) := by
  induction fuel generalizing cursor with
  | zero => exact returns_ok _
  | succ fuel ih =>
    unfold gapsBetween
    split_ifs
    · exact returns_ok _
    · exact (gapAt_returns h).bind fun gap => (ih (starts_next h)).bind fun rest => returns_ok _

theorem trailingGaps_returns (fuel : ℕ) (h : Starts timeframe cursor) :
    Returns (trailingGaps symbol timeframe t fuel cursor) := by
  induction fuel generalizing cursor with
  | zero => exact returns_ok _
  | succ fuel ih =>
    unfold trailingGaps
    split_ifs
    · exact returns_ok _
    · refine (gapAt_returns h).bind fun gap => ?_
      split_ifs
      · exact returns_ok _
      · exact (ih (starts_next h)).bind fun rest => returns_ok _

theorem innerGaps_returns (h : ∀ c ∈ candles, Starts timeframe c.openTime) :
    Returns (innerGaps symbol timeframe candles) := by
  induction candles with
  | nil => exact returns_ok _
  | cons current rest ih =>
    cases rest with
    | nil => exact returns_ok _
    | cons next rest =>
      have hcurrent := h current List.mem_cons_self
      have hrest := ih fun c hc => h c (List.mem_cons_of_mem _ hc)
      exact (gapsBetween_returns _ (starts_next hcurrent)).bind fun gaps => hrest.bind fun others => returns_ok _

theorem detectGaps_returns (h : ∀ c ∈ candles, Starts timeframe c.openTime) :
    Returns (detectGaps candles symbol timeframe t) := by
  have hsorted : ∀ c ∈ sortCandles candles, Starts timeframe c.openTime := fun c hc =>
    h c ((List.mem_insertionSort _).mp hc)
  unfold detectGaps
  refine (innerGaps_returns hsorted).bind fun inner => ?_
  cases hlast : (sortCandles candles).getLast? with
  | none => exact returns_ok _
  | some last =>
    have hstarts := starts_next (hsorted last (List.mem_of_getLast? hlast))
    exact (trailingGaps_returns _ hstarts).bind fun trailing => returns_ok _

theorem validateSingleCandle_returns {c : Candle} (h : Starts c.timeframe c.openTime) :
    Returns (validateSingleCandle c t) :=
  Returns.bind (Returns.bind (h.bind fun _ => returns_ok _) fun _ => returns_ok _) fun _ => returns_ok _

theorem seriesCodes_returns {seen : List Candle} (h : ∀ c ∈ candles, Starts c.timeframe c.openTime) :
    Returns (seriesCodes symbol timeframe t seen candles) := by
  induction candles generalizing seen with
  | nil => exact returns_ok _
  | cons c cs ih =>
    refine (validateSingleCandle_returns (h c List.mem_cons_self)).bind fun single => ?_
    exact (ih fun d hd => h d (List.mem_cons_of_mem c hd)).bind fun rest => returns_ok _

theorem validateSeries_returns {gaps : List CandleGap} {conflicts : List CandleConflict}
    (h : ∀ c ∈ candles, Starts c.timeframe c.openTime) :
    Returns (validateSeries candles symbol timeframe t gaps conflicts) := by
  unfold validateSeries
  split_ifs
  · exact returns_ok _
  · refine Returns.bind (seriesCodes_returns fun c hc => ?_) fun codes => returns_ok _
    exact h c ((List.mem_insertionSort _).mp hc)

end Totality

section Repository

def AllRegular (r : CandleRepository) : Prop := ∀ c ∈ r.store, Regular c

variable {r : CandleRepository} {symbol : Symbol} {timeframe : Timeframe} {t : Time}

theorem starts_of_regular {c : Candle} (h : Regular c) : Starts c.timeframe c.openTime := ⟨_, h⟩

theorem closed_starts (h : AllRegular r) : ∀ c ∈ r.getClosedBefore symbol timeframe t,
    Starts c.timeframe c.openTime ∧ c.timeframe = timeframe := by
  intro c hc
  obtain ⟨hstore, _, htimeframe, _⟩ := mem_getClosedBefore.mp hc
  exact ⟨starts_of_regular (h c hstore), htimeframe⟩

theorem seriesReport_returns (h : AllRegular r) : Returns (seriesReport r t symbol timeframe) := by
  refine Returns.bind (detectGaps_returns fun c hc => ?_) fun gaps => validateSeries_returns fun c hc => ?_
  · obtain ⟨hstarts, htimeframe⟩ := closed_starts h c hc
    exact htimeframe ▸ hstarts
  · exact (closed_starts h c hc).1

theorem timeframeReport_returns (h : AllRegular r) : Returns (timeframeReport r symbol t timeframe) := by
  refine Returns.bind (detectGaps_returns fun c hc => ?_) fun gaps => validateSeries_returns fun c hc => ?_
  · obtain ⟨hstarts, htimeframe⟩ := closed_starts h c hc
    exact htimeframe ▸ hstarts
  · exact (closed_starts h c hc).1

theorem getStrategyBundle_returns (h : AllRegular r) (daily weekly monthly : ℕ) :
    Returns (getStrategyBundle r symbol t daily weekly monthly) :=
  (timeframeReport_returns h).bind fun _ => (timeframeReport_returns h).bind fun _ =>
    (timeframeReport_returns h).bind fun _ => returns_ok _

theorem marketDataReady_returns (h : AllRegular r) : Returns (marketDataReady r t symbol) :=
  (getStrategyBundle_returns h _ _ _).bind fun _ => (timeframeReport_returns h).bind fun _ =>
    (timeframeReport_returns h).bind fun _ => (timeframeReport_returns h).bind fun _ => returns_ok _

end Repository

section Runtime

variable {r : CandleRepository} {rt : MarketDataRuntime} {t : Time}

theorem regular_of_get? {key : CandleKey} {c : Candle} (h : AllRegular r) (hget : r.get? key = some c) :
    Regular c := h c (mem_of_get? hget)

theorem allRegular_iff : AllRegular r ↔ ∀ key c, r.get? key = some c → Regular c :=
  ⟨fun h _ _ hget => regular_of_get? h hget, fun h c hc => h c.key c (get?_of_mem hc)⟩

theorem regular_candleOf (raw : RawCandle) (t : Time) : Regular (candleOf raw t) :=
  expectedCloseTime_canonicalOpen raw.timeframe raw.openTime

theorem allRegular_ingested (h : AllRegular r) (t : Time) (raw : RawCandle) :
    AllRegular (ingested t r raw) := by
  unfold ingested
  split_ifs
  · refine allRegular_iff.mpr fun key c hget => ?_
    rw [get?_upsertLive] at hget
    split_ifs at hget
    · cases hstored : r.get? (candleOf raw t).key with
      | none =>
        rw [hstored] at hget
        cases hget
        exact regular_candleOf raw t
      | some existing =>
        rw [hstored, Option.some.injEq] at hget
        rw [← hget]
        unfold liveValue
        simp only
        split_ifs
        · exact regular_of_get? h hstored
        · exact regular_candleOf raw t
        · exact regular_candleOf raw t
        · exact regular_of_get? h hstored
    · exact regular_of_get? h hget
  · exact h

theorem allRegular_ingestedAll (h : AllRegular r) (t : Time) (raws : List RawCandle) :
    AllRegular (raws.foldl (ingested t) r) := by
  induction raws generalizing r with
  | nil => exact h
  | cons raw raws ih => exact ih (allRegular_ingested h t raw)

theorem allRegular_upsert (h : AllRegular r) {c : Candle} (hc : Regular c) : AllRegular (r.upsert c) := by
  refine allRegular_iff.mpr fun key d hget => ?_
  rw [get?_upsert] at hget
  split_ifs at hget
  · cases hstored : r.get? c.key with
    | none =>
      rw [hstored] at hget
      cases hget
      exact hc
    | some existing =>
      rw [hstored] at hget
      cases hget
      exact regular_of_get? h hstored
  · exact regular_of_get? h hget

theorem allRegular_upsertMany (h : AllRegular r) {candles : List Candle} (hcandles : ∀ c ∈ candles, Regular c) :
    AllRegular (upsertMany r candles) := by
  induction candles generalizing r with
  | nil => exact h
  | cons c candles ih =>
    exact ih (allRegular_upsert h (hcandles c List.mem_cons_self))
      fun d hd => hcandles d (List.mem_cons_of_mem c hd)

theorem regular_derivedWeeks {symbol : Symbol} : ∀ week ∈ derivedWeeks r symbol t, Regular week := by
  intro week hweek
  obtain ⟨weekStart, hstart, hweek⟩ := List.mem_filterMap.mp hweek
  obtain ⟨hkey, hclose, _⟩ := weekOf_eq_some hweek
  have hopen : week.openTime = weekStart := congrArg CandleKey.openTime hkey
  have htimeframe : week.timeframe = .weekly := congrArg CandleKey.timeframe hkey
  unfold Regular
  rw [htimeframe, hopen, hclose]
  unfold weekStartsOf at hstart
  split at hstart
  · exact mem_weekStarts hstart
  · cases hstart

theorem allRegular_refreshed (h : AllRegular r) (symbols : List Symbol) (t : Time) :
    AllRegular (refreshed symbols t r) := by
  induction symbols generalizing r with
  | nil => exact h
  | cons symbol symbols ih => exact ih (allRegular_upsertMany h regular_derivedWeeks)

theorem regularRules : DataRules fun rt => AllRegular rt.repository where
  same := by
    intro rt rt' h hrepository _
    rw [hrepository]
    exact h
  ingest := by
    intro rt raws t h _
    exact allRegular_ingestedAll h t raws
  refresh := by
    intro rt t h _
    exact allRegular_refreshed h _ t

end Runtime

end TradingBot.Market.Reports
