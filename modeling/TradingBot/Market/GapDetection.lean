import TradingBot.Library.Gaps
import TradingBot.Market.Periods

namespace TradingBot.Market.GapDetection

open Market.Models Market.Repository Market.Timeframes Market.Quality Market.BundleFacts Market.IngestFacts
open Market.Periods Exceptions Library.Outcome Library.Gaps

variable {symbol : Symbol} {timeframe : Timeframe} {evaluationTime : Time} {k j : ℤ} {candles : List Candle}

def gapOf (symbol : Symbol) (timeframe : Timeframe) (k : ℤ) : CandleGap :=
  ⟨symbol, timeframe, periodStart timeframe k, periodStart timeframe (k + 1) - second⟩

theorem gapAt_periodStart (symbol : Symbol) (timeframe : Timeframe) (k : ℤ) :
    gapAt symbol timeframe (periodStart timeframe k) = .ok (gapOf symbol timeframe k) := by
  unfold gapAt
  rw [expectedCloseTime_periodStart]
  rfl

section Loops

theorem gapsBetween_eq {fuel : ℕ} (hfuel : (j - k).toNat ≤ fuel) :
    gapsBetween symbol timeframe (periodStart timeframe j) fuel (periodStart timeframe k) =
      .ok ((Int.range k j).map (gapOf symbol timeframe)) := by
  induction fuel generalizing k with
  | zero =>
    rw [range_nil (by omega)]
    rfl
  | succ fuel ih =>
    unfold gapsBetween
    rcases le_or_gt j k with hle | hlt
    · rw [if_pos ((strictMono_periodStart timeframe).monotone hle), range_nil hle]
      rfl
    · rw [if_neg (not_le.mpr (strictMono_periodStart timeframe hlt)), gapAt_periodStart, nextOpenTime_periodStart,
        range_cons hlt, ih (by omega)]
      rfl

/-- The first period that is not over at an instant. -/
def openPeriod (timeframe : Timeframe) (t : Time) : ℤ := periodOf timeframe (t + second)

theorem lt_openPeriod_iff :
    k < openPeriod timeframe evaluationTime ↔ periodStart timeframe (k + 1) - second ≤ evaluationTime := by
  unfold openPeriod
  rw [← Int.add_one_le_iff, le_periodOf_iff, sub_le_iff_le_add]

theorem trailingGaps_eq {fuel : ℕ} (hfuel : (openPeriod timeframe evaluationTime - k).toNat ≤ fuel) :
    trailingGaps symbol timeframe evaluationTime fuel (periodStart timeframe k) =
      .ok ((Int.range k (openPeriod timeframe evaluationTime)).map (gapOf symbol timeframe)) := by
  induction fuel generalizing k with
  | zero =>
    rw [range_nil (by omega)]
    rfl
  | succ fuel ih =>
    unfold trailingGaps
    by_cases hover : k < openPeriod timeframe evaluationTime
    · have hclose : (gapOf symbol timeframe k).expectedCloseTime ≤ evaluationTime := lt_openPeriod_iff.mp hover
      have hsecond : second < day := by decide
      have hcursor : ¬ evaluationTime < periodStart timeframe k := by
        have hday := periodStart_succ timeframe k
        have hover := lt_openPeriod_iff.mp hover
        rw [not_lt]
        linarith
      rw [if_neg hcursor, gapAt_periodStart, range_cons hover]
      dsimp only [bind, Except.bind]
      rw [if_neg (not_lt.mpr hclose), nextOpenTime_periodStart, ih (by omega)]
      rfl
    · have hopen : evaluationTime < (gapOf symbol timeframe k).expectedCloseTime :=
        not_le.mp fun h => hover (lt_openPeriod_iff.mpr h)
      rw [range_nil (by omega), gapAt_periodStart]
      split_ifs
      · rfl
      · dsimp only [bind, Except.bind]
        rw [if_pos hopen]
        rfl

theorem periodStart_sub_le (timeframe : Timeframe) (hkj : k ≤ j) :
    (j - k) * day ≤ periodStart timeframe j - periodStart timeframe k := by
  induction j, hkj using Int.leInduction with
  | base => simp
  | succ j _ ih =>
    have hday := periodStart_succ timeframe j
    linarith

theorem stepsUntil_le {stop : Time} (h : periodStart timeframe (j - 1) ≤ stop) :
    (j - k).toNat ≤ stepsUntil (periodStart timeframe k) stop := by
  unfold stepsUntil
  rcases le_or_gt j k with hle | hlt
  · rw [Int.toNat_eq_zero.mpr (by omega)]
    exact Nat.zero_le _
  · have hdays := periodStart_sub_le timeframe (by omega : k ≤ j - 1)
    have hsteps : j - 1 - k ≤ (stop - periodStart timeframe k) / day := by
      rw [Int.le_ediv_iff_mul_le day_pos]
      linarith
    omega

end Loops

section Detection

def Canonical (timeframe : Timeframe) (t : Time) : Prop := canonicalOpen timeframe t = t

theorem Canonical.periodStart {t : Time} (h : Canonical timeframe t) :
    periodStart timeframe (periodOf timeframe t) = t := by
  rw [← canonicalOpen_eq]
  exact h

def periods (timeframe : Timeframe) (candles : List Candle) : List ℤ :=
  candles.map fun c => periodOf timeframe c.openTime

theorem innerGaps_eq (hcanonical : ∀ c ∈ candles, Canonical timeframe c.openTime) :
    innerGaps symbol timeframe candles =
      .ok ((between (periods timeframe candles)).map (gapOf symbol timeframe)) := by
  induction candles with
  | nil => rfl
  | cons current rest ih =>
    obtain ⟨hcurrent, hrest⟩ := List.forall_mem_cons.mp hcanonical
    cases rest with
    | nil => rfl
    | cons next rest =>
      obtain ⟨hnext, _⟩ := List.forall_mem_cons.mp hrest
      have hcursor : nextOpenTime current.openTime timeframe =
          periodStart timeframe (periodOf timeframe current.openTime + 1) := by
        rw [← nextOpenTime_periodStart, hcurrent.periodStart]
      have hstop : next.openTime = periodStart timeframe (periodOf timeframe next.openTime) :=
        hnext.periodStart.symm
      have hbefore : periodStart timeframe (periodOf timeframe next.openTime - 1) ≤
          periodStart timeframe (periodOf timeframe next.openTime) :=
        (strictMono_periodStart timeframe).monotone (by omega)
      unfold innerGaps
      dsimp only
      rw [ih hrest, hcursor, hstop, gapsBetween_eq (stepsUntil_le hbefore)]
      simp only [bind, Except.bind, pure, Except.pure, periods, List.map_cons, between, List.map_append]

theorem sorted_sortCandles (candles : List Candle) :
    (sortCandles candles).Pairwise fun a b => a.openTime ≤ b.openTime :=
  have : IsTrans Candle fun a b => a.openTime ≤ b.openTime := ⟨fun _ _ _ => le_trans⟩
  have : Std.Total fun a b : Candle => a.openTime ≤ b.openTime := ⟨fun a b => le_total a.openTime b.openTime⟩
  List.pairwise_insertionSort _ candles

theorem mem_sortCandles {c : Candle} : c ∈ sortCandles candles ↔ c ∈ candles :=
  (List.perm_insertionSort _ candles).mem_iff

theorem mono_periodOf {s t : Time} (h : s ≤ t) : periodOf timeframe s ≤ periodOf timeframe t :=
  le_periodOf_iff.mpr ((le_periodOf_iff.mp le_rfl).trans h)

/-- The periods that a detection reports: those between candles, and the later ones that are over. -/
def missingPeriods (timeframe : Timeframe) (evaluationTime : Time) (sorted : List Candle) (last : Candle) : List ℤ :=
  between (periods timeframe sorted) ++
    Int.range (periodOf timeframe last.openTime + 1) (openPeriod timeframe evaluationTime)

theorem detectGaps_eq (hcanonical : ∀ c ∈ candles, Canonical timeframe c.openTime) {last : Candle}
    (hlast : (sortCandles candles).getLast? = some last) :
    detectGaps candles symbol timeframe evaluationTime =
      .ok ((missingPeriods timeframe evaluationTime (sortCandles candles) last).map (gapOf symbol timeframe)) := by
  have hsorted : ∀ c ∈ sortCandles candles, Canonical timeframe c.openTime := fun c hc =>
    hcanonical c (mem_sortCandles.mp hc)
  have hcursor : nextOpenTime last.openTime timeframe =
      periodStart timeframe (periodOf timeframe last.openTime + 1) := by
    rw [← nextOpenTime_periodStart, (hsorted last (List.mem_of_getLast? hlast)).periodStart]
  have hover : periodStart timeframe (openPeriod timeframe evaluationTime - 1) ≤ evaluationTime := by
    have hle : periodStart timeframe (openPeriod timeframe evaluationTime) ≤ evaluationTime + second :=
      le_periodOf_iff.mp le_rfl
    have hstep := periodStart_succ timeframe (openPeriod timeframe evaluationTime - 1)
    rw [sub_add_cancel] at hstep
    have hsecond : second < day := by decide
    linarith
  unfold detectGaps
  dsimp only
  rw [innerGaps_eq hsorted, hlast]
  dsimp only [bind, Except.bind]
  rw [hcursor, trailingGaps_eq (stepsUntil_le hover)]
  unfold missingPeriods
  rw [List.map_append]
  rfl

variable {sorted : List Candle} {last : Candle}

theorem sorted_periods (hsorted : sorted.Pairwise fun a b => a.openTime ≤ b.openTime) :
    (periods timeframe sorted).Pairwise (· ≤ ·) := by
  unfold periods
  rw [List.pairwise_map]
  exact hsorted.imp mono_periodOf

theorem le_last (hsorted : sorted.Pairwise fun a b => a.openTime ≤ b.openTime)
    (hlast : sorted.getLast? = some last) : ∀ b ∈ periods timeframe sorted, b ≤ periodOf timeframe last.openTime := by
  obtain ⟨init, rfl⟩ := List.getLast?_eq_some_iff.mp hlast
  intro b hb
  obtain ⟨c, hc, rfl⟩ := List.mem_map.mp hb
  rcases List.mem_append.mp hc with hc | hc
  · exact mono_periodOf ((List.pairwise_append.mp hsorted).2.2 c hc last (List.mem_singleton_self last))
  · rw [List.mem_singleton.mp hc]

theorem mem_missingPeriods (hsorted : sorted.Pairwise fun a b => a.openTime ≤ b.openTime)
    (hlast : sorted.getLast? = some last) :
    k ∈ missingPeriods timeframe evaluationTime sorted last ↔
      (∃ a ∈ periods timeframe sorted, a < k) ∧
        (k < openPeriod timeframe evaluationTime ∨ ∃ b ∈ periods timeframe sorted, k < b) ∧
          k ∉ periods timeframe sorted :=
  mem_between_append (sorted_periods hsorted) (List.mem_map_of_mem (List.mem_of_getLast? hlast))
    (le_last hsorted hlast)

theorem mem_missingPeriods_sortCandles (hcanonical : ∀ c ∈ candles, Canonical timeframe c.openTime)
    (hlast : (sortCandles candles).getLast? = some last) :
    k ∈ missingPeriods timeframe evaluationTime (sortCandles candles) last ↔
      (∃ c ∈ candles, c.openTime < periodStart timeframe k) ∧
        (canonicalClose timeframe (periodStart timeframe k) ≤ evaluationTime ∨
          ∃ c ∈ candles, periodStart timeframe k < c.openTime) ∧
        ∀ c ∈ candles, c.openTime ≠ periodStart timeframe k := by
  have hmem : ∀ p : ℤ → Prop, (∃ a ∈ periods timeframe (sortCandles candles), p a) ↔
      ∃ c ∈ candles, p (periodOf timeframe c.openTime) := fun p => by
    simp only [periods, List.mem_map, mem_sortCandles, exists_exists_and_eq_and]
  have hlater : ∀ c ∈ candles, (k < periodOf timeframe c.openTime ↔ periodStart timeframe k < c.openTime) := by
    intro c hc
    rw [← (strictMono_periodStart timeframe).lt_iff_lt, (hcanonical c hc).periodStart]
  have hequal : ∀ c ∈ candles, (periodOf timeframe c.openTime = k ↔ c.openTime = periodStart timeframe k) := by
    intro c hc
    rw [← (strictMono_periodStart timeframe).injective.eq_iff, (hcanonical c hc).periodStart]
  rw [mem_missingPeriods (sorted_sortCandles candles) hlast, hmem, hmem, lt_openPeriod_iff,
    canonicalClose_periodStart]
  refine and_congr ?_ (and_congr (or_congr_right ?_) ?_)
  · exact exists_congr fun c => and_congr_right fun _ => periodOf_lt_iff
  · exact exists_congr fun c => and_congr_right fun hc => hlater c hc
  · constructor
    · exact fun hnot c hc h => hnot (List.mem_map.mpr ⟨c, mem_sortCandles.mpr hc, (hequal c hc).mpr h⟩)
    · intro hnot hk
      obtain ⟨c, hc, hck⟩ := List.mem_map.mp hk
      exact hnot c (mem_sortCandles.mp hc) ((hequal c (mem_sortCandles.mp hc)).mp hck)

/-- A detection reports every canonical open time after the first candle that has no candle, if its period is over or
a later candle is there, and nothing else, in order. -/
theorem detectGaps_exact (candles : List Candle) (symbol : Symbol) (timeframe : Timeframe) (evaluationTime : Time)
    (hne : candles ≠ []) (hcanonical : ∀ c ∈ candles, Canonical timeframe c.openTime) :
    ∃ gaps, detectGaps candles symbol timeframe evaluationTime = .ok gaps ∧
      (gaps.map (·.missingOpenTime)).Pairwise (· < ·) ∧
      (∀ t, t ∈ gaps.map (·.missingOpenTime) ↔ Canonical timeframe t ∧ (∃ c ∈ candles, c.openTime < t) ∧
        (canonicalClose timeframe t ≤ evaluationTime ∨ ∃ c ∈ candles, t < c.openTime) ∧
        ∀ c ∈ candles, c.openTime ≠ t) ∧
      ∀ gap ∈ gaps, gap.symbol = symbol ∧ gap.timeframe = timeframe ∧
        gap.expectedCloseTime = canonicalClose timeframe gap.missingOpenTime := by
  obtain ⟨first, hfirst⟩ := List.exists_mem_of_ne_nil candles hne
  obtain ⟨last, hlast⟩ : ∃ last, (sortCandles candles).getLast? = some last :=
    ⟨_, List.getLast?_eq_some_getLast (List.ne_nil_of_mem (mem_sortCandles.mpr hfirst))⟩
  have hsorted := sorted_sortCandles candles
  refine ⟨_, detectGaps_eq hcanonical hlast, ?_, fun t => ?_, fun gap hgap => ?_⟩
  · rw [List.map_map, List.pairwise_map]
    exact (pairwise_between_append (sorted_periods hsorted) (le_last hsorted hlast)).imp fun h =>
      strictMono_periodStart timeframe h
  · rw [List.map_map, List.mem_map]
    constructor
    · rintro ⟨k, hk, rfl⟩
      exact ⟨canonicalOpen_periodStart timeframe k, (mem_missingPeriods_sortCandles hcanonical hlast).mp hk⟩
    · rintro ⟨ht, hmissing⟩
      refine ⟨periodOf timeframe t, (mem_missingPeriods_sortCandles hcanonical hlast).mpr ?_, ht.periodStart⟩
      rwa [ht.periodStart]
  · obtain ⟨k, _, rfl⟩ := List.mem_map.mp hgap
    exact ⟨rfl, rfl, (canonicalClose_periodStart timeframe k).symm⟩

def monthCandle (year month : ℤ) : Candle :=
  { symbol := .BTC, timeframe := .monthly, openTime := monthlyOpen year month
    closeTime := firstOfNextMonth (monthlyOpen year month) - second
    openPrice := 10, high := 12, low := 9, close := 11, volume := 5, isClosed := true }

/-- With December and March, and at the end of April, three months are missing. -/
theorem detectGaps_exact_turn_of_year : ∃ gaps,
    detectGaps [monthCandle 2024 3, monthCandle 2023 12] .BTC .monthly (monthlyOpen 2024 5 - second) = .ok gaps ∧
      monthlyOpen 2024 2 ∈ gaps.map (·.missingOpenTime) ∧ monthlyOpen 2024 4 ∈ gaps.map (·.missingOpenTime) ∧
      monthlyOpen 2024 5 ∉ gaps.map (·.missingOpenTime) := by
  obtain ⟨gaps, hgaps, _, hmissing, _⟩ := detectGaps_exact [monthCandle 2024 3, monthCandle 2023 12] .BTC .monthly
    (monthlyOpen 2024 5 - second) (List.cons_ne_nil _ _) (by unfold Canonical; decide +kernel)
  refine ⟨gaps, hgaps, ?_, ?_, ?_⟩
  · rw [hmissing]
    unfold Canonical
    decide +kernel
  · rw [hmissing]
    unfold Canonical
    decide +kernel
  · rw [hmissing]
    unfold Canonical
    decide +kernel

end Detection

end TradingBot.Market.GapDetection
