import Mathlib
import TradingBot.Market.AggregationExact
import TradingBot.Market.ClosedCandles

namespace TradingBot.Market.DerivedHistory

open Market.Models Market.Timeframes Market.Repository Market.BundleFacts Market.IngestFacts Market.Periods
open Market.GapDetection Market.Aggregation Market.AggregationExact Market.ClosedCandles Exceptions Library.Gaps

section Periods

variable {timeframe : Timeframe} {dailies dailies' : List Candle} {symbol : Symbol} {evaluationTime later : Time}
  {k : ℤ} {c : Candle}

theorem members_eq (h : Days dailies symbol) (h' : Days dailies' symbol) (hcomplete : Complete timeframe dailies symbol k)
    (hsub : ∀ d ∈ members timeframe dailies symbol k, d ∈ dailies') :
    members timeframe dailies' symbol k = members timeframe dailies symbol k := by
  refine eq_of_same_members (h'.strict.sublist List.filter_sublist) (h.strict.sublist List.filter_sublist) fun d => ?_
  constructor
  · intro hd
    obtain ⟨hmem, hsymbol, hlow, hhigh⟩ := (mem_members h').mp hd
    have hday := Canonical.eq_mul (h'.canonical d hmem hsymbol)
    rw [hday] at hlow hhigh
    obtain ⟨e, he, hsame, hopen⟩ := hcomplete _ (le_of_mul_le_mul_left hlow day_pos)
      (lt_of_mul_lt_mul_left hhigh day_pos.le)
    rw [← hopen] at hlow hhigh
    have hmember : e ∈ members timeframe dailies symbol k := (mem_members h).mpr ⟨he, hsame, hlow, hhigh⟩
    have heq : d = e := by
      refine List.inj_on_of_nodup_map h'.distinct ?_ ?_ (hday.trans hopen.symm)
      · simp [hmem, hsymbol]
      · simp [hsub e hmember, hsame]
    exact heq ▸ hmember
  · intro hd
    obtain ⟨_, hrest⟩ := (mem_members h).mp hd
    exact (mem_members h').mpr ⟨hsub d hd, hrest⟩

theorem complete_of_members (h : Days dailies symbol) (hcomplete : Complete timeframe dailies symbol k)
    (hmem : ∀ d ∈ members timeframe dailies symbol k, d ∈ dailies') : Complete timeframe dailies' symbol k := by
  intro n hlow hhigh
  obtain ⟨d, hd, hsymbol, hday⟩ := hcomplete n hlow hhigh
  refine ⟨d, hmem d ((mem_members h).mpr ⟨hd, hsymbol, ?_, ?_⟩), hsymbol, hday⟩
  · rw [hday]
    exact Int.mul_le_mul_of_nonneg_left hlow day_pos.le
  · rw [hday]
    exact Int.mul_lt_mul_of_pos_left hhigh day_pos

def derived (timeframe : Timeframe) (dailies : List Candle) (symbol : Symbol) (evaluationTime : Time) : List Candle :=
  (buckets timeframe (sortedDays dailies symbol)).filterMap
    (bucketOf (sortedDays dailies symbol) symbol timeframe evaluationTime)

theorem derived_kept (h : Days dailies symbol) (h' : Days dailies' symbol) (hle : evaluationTime ≤ later)
    (hc : c ∈ derived timeframe dailies symbol evaluationTime)
    (hsub : ∀ d ∈ dailies, c.openTime ≤ d.openTime → d.openTime ≤ c.closeTime → d ∈ dailies') :
    c ∈ derived timeframe dailies' symbol later := by
  obtain ⟨k, _, hk⟩ := List.mem_filterMap.mp hc
  obtain ⟨hover, hcomplete, first, rest, hmembers, rfl⟩ := (bucketOf_eq_some_iff h).mp hk
  have hmem : ∀ d ∈ members timeframe dailies symbol k, d ∈ dailies' := by
    intro d hd
    obtain ⟨hday, hperiod⟩ := List.mem_filter.mp hd
    rw [decide_eq_true_eq] at hperiod
    exact hsub d (mem_sortedDays.mp hday).1 hperiod.1 hperiod.2
  have hsame := members_eq h h' hcomplete hmem
  have hcomplete' := complete_of_members h hcomplete hmem
  refine List.mem_filterMap.mpr ⟨k, mem_buckets h' hcomplete', (bucketOf_eq_some_iff h').mpr ?_⟩
  exact ⟨hover.trans hle, hcomplete', first, rest, hsame.trans hmembers, rfl⟩

end Periods

section Repositories

variable {r : CandleRepository} {ws before after : List Write} {key : CandleKey} {symbol : Symbol}
  {evaluationTime later : Time} {c : Candle}

theorem written_of_runWrites (hc : (runWrites r ws).get? key = some c) :
    r.get? key = some c ∨ ∃ w ∈ ws, c = w.candle := by
  induction ws generalizing r with
  | nil => exact .inl hc
  | cons w ws ih =>
    rcases ih hc with hbefore | ⟨w', hw', heq⟩
    · exact (get?_run w key hbefore).imp id fun heq => ⟨w, List.mem_cons_self, heq⟩
    · exact .inr ⟨w', List.mem_cons_of_mem w hw', heq⟩

theorem days_runWrites (hdays : ∀ w ∈ ws, w.candle.timeframe = .daily → Canonical .daily w.candle.openTime) :
    Days ((runWrites {} ws).getClosedBefore symbol .daily evaluationTime) symbol where
  canonical := by
    intro d hd _
    obtain ⟨hmem, _, htimeframe, _⟩ := mem_getClosedBefore.mp hd
    rcases written_of_runWrites (get?_of_mem hmem) with hnone | ⟨w, hw, rfl⟩
    · cases hnone
    · exact hdays w hw htimeframe
  distinct := List.pairwise_map.mpr ((getClosedBefore_sorted.filter _).imp ne_of_lt)

theorem closed_stays (h : Orderly (before ++ after)) (hc : c ∈ (runWrites {} before).store) (hclosed : c.isClosed = true) :
    c ∈ (runWrites {} (before ++ after)).store := by
  have hs := sealed_runWrites h (sealed_empty _)
  have hafter : Orderly after := by
    refine ⟨fun w hw => h.normalized w (List.mem_append_right before hw), ?_⟩
    have htimes := h.times
    rw [List.map_append, List.pairwise_append] at htimes
    exact htimes.2.1
  have hkept := get?_runWrites_closed hafter hs (get?_of_mem hc) hclosed
  rw [runWrites, List.foldl_append]
  exact mem_of_get? hkept

def Derives (aggregate : List Candle → Symbol → Time → Except Exc (List Candle)) (dailies : List Candle) (symbol : Symbol)
    (evaluationTime : Time) (c : Candle) : Prop :=
  ∃ found, aggregate dailies symbol evaluationTime = .ok found ∧ c ∈ found

/-- The days of the candle's period are stored as closed. -/
def Final (dailies : List Candle) (c : Candle) : Prop :=
  ∀ d ∈ dailies, c.openTime ≤ d.openTime → d.openTime ≤ c.closeTime → d.isClosed = true

theorem derived_candles_kept (h : Orderly (before ++ after))
    (hdays : ∀ w ∈ before ++ after, w.candle.timeframe = .daily → Canonical .daily w.candle.openTime)
    (hle : evaluationTime ≤ later) :
    let dailies := (runWrites {} before).getClosedBefore symbol .daily evaluationTime
    let dailies' := (runWrites {} (before ++ after)).getClosedBefore symbol .daily later
    ∀ aggregate ∈ [aggregateWeeklyFromDaily, aggregateMonthlyFromDaily], ∀ c,
      Derives aggregate dailies symbol evaluationTime c → Final dailies c → Derives aggregate dailies' symbol later c := by
  intro dailies dailies' aggregate haggregate c hc hfinal
  have hbefore : Days dailies symbol := days_runWrites fun w hw => hdays w (List.mem_append_left _ hw)
  have hafter : Days dailies' symbol := days_runWrites hdays
  have hsub : ∀ d ∈ dailies, c.openTime ≤ d.openTime → d.openTime ≤ c.closeTime → d ∈ dailies' := by
    intro d hd hlow hhigh
    obtain ⟨hstored, hsymbol, htimeframe, hclose⟩ := mem_getClosedBefore.mp hd
    exact mem_getClosedBefore.mpr
      ⟨closed_stays h hstored (hfinal d hd hlow hhigh), hsymbol, htimeframe, hclose.trans hle⟩
  obtain ⟨found, hfound, hmem⟩ := hc
  rcases List.mem_pair.mp haggregate with rfl | rfl
  · obtain rfl := Except.ok.inj ((aggregateWeekly_eq _ _ _).symm.trans hfound)
    exact ⟨_, aggregateWeekly_eq _ _ _, derived_kept hbefore hafter hle hmem hsub⟩
  · obtain rfl := Except.ok.inj ((aggregateMonthly_eq _ _ _).symm.trans hfound)
    exact ⟨_, aggregateMonthly_eq _ _ _, derived_kept hbefore hafter hle hmem hsub⟩

def weekSeen : List Write := (Int.range 19723 19730).map fun n => .historical (dayCandle n) (day * 19730)

def lateCorrection : List Write := [.historical { dayCandle 19725 with low := 1 } (day * 19731)]

def firstWeek : Candle :=
  { dayCandle 19723 with
    timeframe := .weekly, closeTime := day * 19730 - second, high := 19731, close := 19730, volume := 35 }

theorem week_kept : Derives aggregateWeeklyFromDaily
    ((runWrites {} (weekSeen ++ lateCorrection)).getClosedBefore .BTC .daily (day * 19731)) .BTC (day * 19731)
    firstWeek := by
  have horderly : Orderly (weekSeen ++ lateCorrection) := ⟨by decide +kernel, by decide +kernel⟩
  have hdays : ∀ w ∈ weekSeen ++ lateCorrection, w.candle.timeframe = .daily → Canonical .daily w.candle.openTime := by
    unfold Canonical
    decide +kernel
  have hweek : firstWeek ∈ derived .weekly ((runWrites {} weekSeen).getClosedBefore .BTC .daily (day * 19730)) .BTC
      (day * 19730) := by decide +kernel
  refine derived_candles_kept horderly hdays (by decide : day * 19730 ≤ day * 19731) _ List.mem_cons_self _
    ⟨_, aggregateWeekly_eq _ _ _, hweek⟩ ?_
  unfold Final
  decide +kernel

end Repositories

end TradingBot.Market.DerivedHistory
