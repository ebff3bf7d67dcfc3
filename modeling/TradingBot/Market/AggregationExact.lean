import TradingBot.Market.Aggregation
import TradingBot.Market.GapDetection

namespace TradingBot.Market.AggregationExact

open Market.Models Market.Repository Market.Timeframes Market.Quality Market.BundleFacts Market.Aggregation
open Market.IngestFacts Market.Periods Market.GapDetection Exceptions Library.Outcome Library.Gaps

section Extrema

variable {α β : Type} [LinearOrder β]

theorem isGreatest_foldl_max (f : α → β) (m : β) (l : List α) :
    IsGreatest (insert m {x | ∃ a ∈ l, f a = x}) (l.foldl (fun m a => max m (f a)) m) := by
  induction l generalizing m with
  | nil => simp
  | cons a l ih =>
    obtain ⟨hmem, hle⟩ := ih (max m (f a))
    rw [List.foldl_cons]
    constructor
    · rcases hmem with heq | ⟨b, hb, heq⟩
      · rw [heq]
        rcases max_choice m (f a) with h | h
        · exact .inl h
        · exact .inr ⟨a, List.mem_cons_self, h.symm⟩
      · exact .inr ⟨b, List.mem_cons_of_mem a hb, heq⟩
    · have hmax := hle (Set.mem_insert _ _)
      rintro x (rfl | ⟨b, hb, rfl⟩)
      · exact (le_max_left _ _).trans hmax
      · rcases List.mem_cons.mp hb with rfl | hb
        · exact (le_max_right _ _).trans hmax
        · exact hle (.inr ⟨b, hb, rfl⟩)

theorem isGreatest_foldl_max_cons (f : α → β) (a : α) (l : List α) :
    IsGreatest {x | ∃ b ∈ a :: l, f b = x} (l.foldl (fun m b => max m (f b)) (f a)) := by
  have hset : {x | ∃ b ∈ a :: l, f b = x} = insert (f a) {x | ∃ b ∈ l, f b = x} := by
    ext x
    simp [eq_comm]
  rw [hset]
  exact isGreatest_foldl_max f (f a) l

theorem isLeast_foldl_min_cons (f : α → β) (a : α) (l : List α) :
    IsLeast {x | ∃ b ∈ a :: l, f b = x} (l.foldl (fun m b => min m (f b)) (f a)) :=
  isGreatest_foldl_max_cons (β := βᵒᵈ) f a l

end Extrema

section Loops

variable {timeframe : Timeframe} {symbol : Symbol} {evaluationTime : Time} {k : ℤ}

def periodDays (timeframe : Timeframe) (k : ℤ) : List Time :=
  (Int.range (firstDay timeframe k) (firstDay timeframe (k + 1))).map (day * ·)

def bucketOf (sorted : List Candle) (symbol : Symbol) (timeframe : Timeframe) (evaluationTime : Time) (k : ℤ) :
    Option Candle :=
  aggregateBucket sorted symbol timeframe (periodStart timeframe k) (periodStart timeframe (k + 1) - second)
    evaluationTime (periodDays timeframe k)

theorem dayRange_periodStart (timeframe : Timeframe) (k : ℤ) :
    dayRange (periodStart timeframe k) (firstDay timeframe (k + 1) - firstDay timeframe k).toNat =
      periodDays timeframe k := by
  unfold dayRange periodDays Int.range periodStart
  rw [List.map_map]
  refine List.map_congr_left fun n _ => ?_
  simp only [Function.comp_apply]
  ring

theorem aggregateWeek_eq (sorted : List Candle) (symbol : Symbol) (evaluationTime : Time) (k : ℤ) :
    aggregateWeek sorted symbol evaluationTime (periodStart .weekly k) =
      .ok (bucketOf sorted symbol .weekly evaluationTime k) := by
  have hclose : weeklyClose (periodStart .weekly k) = .ok (periodStart .weekly (k + 1) - second) :=
    expectedCloseTime_periodStart .weekly k
  have hdays : (firstDay .weekly (k + 1) - firstDay .weekly k).toNat = 7 := by
    unfold firstDay
    dsimp only
    omega
  unfold aggregateWeek bucketOf
  rw [hclose, ← dayRange_periodStart, hdays]
  rfl

theorem aggregateMonth_eq (sorted : List Candle) (symbol : Symbol) (evaluationTime : Time) (k : ℤ) :
    aggregateMonth sorted symbol evaluationTime (periodStart .monthly k) =
      .ok (bucketOf sorted symbol .monthly evaluationTime k) := by
  have hclose : monthlyClose (periodStart .monthly k) = .ok (periodStart .monthly (k + 1) - second) :=
    expectedCloseTime_periodStart .monthly k
  have hlast : dayNumber (periodStart .monthly (k + 1) - second) = firstDay .monthly (k + 1) - 1 := by
    have hsecond : 0 < second ∧ second ≤ day := by decide
    have hstart : periodStart .monthly (k + 1) = day * (firstDay .monthly (k + 1) - 1) + day := by
      unfold periodStart
      ring
    refine le_antisymm ?_ ?_
    · rw [Int.le_sub_one_iff, dayNumber_lt_iff]
      exact sub_lt_self _ hsecond.1
    · rw [le_dayNumber_iff, hstart]
      linarith
  have hfirst : dayNumber (periodStart .monthly k) = firstDay .monthly k := dayNumber_mul _
  have hdays : monthDayRange (periodStart .monthly k) = .ok (periodDays .monthly k) := by
    unfold monthDayRange
    rw [hclose]
    dsimp only [bind, Except.bind, pure, Except.pure]
    rw [hlast, hfirst, ← dayRange_periodStart]
    congr 2
    omega
  unfold aggregateMonth bucketOf
  rw [hclose, hdays]
  rfl

theorem weekStarts_eq {a b : Time} (hab : a ≤ b) :
    weekStarts a b = (Int.range (periodOf .weekly a) (periodOf .weekly b + 1)).map (periodStart .weekly) := by
  have hstart : weeklyOpenContaining a = periodStart .weekly (periodOf .weekly a) := canonicalOpen_eq .weekly a
  have hle : periodStart .weekly (periodOf .weekly a) ≤ a := le_periodOf_iff.mp le_rfl
  have hlow : periodStart .weekly (periodOf .weekly b) ≤ b := le_periodOf_iff.mp le_rfl
  have hhigh : b < periodStart .weekly (periodOf .weekly b + 1) := periodOf_lt_iff.mp (by omega)
  have hweek : ∀ j, periodStart .weekly j = periodStart .weekly (periodOf .weekly a) +
      (j - periodOf .weekly a) * (7 * day) := fun j => by
    unfold periodStart firstDay
    dsimp only
    ring
  have hcount : (b - periodStart .weekly (periodOf .weekly a)) / (7 * day) =
      periodOf .weekly b - periodOf .weekly a := by
    rw [hweek] at hlow hhigh
    have hseven : (0 : ℤ) < 7 * day := by decide
    refine le_antisymm (Int.lt_add_one_iff.mp ?_) ?_
    · rw [Int.ediv_lt_iff_lt_mul hseven]
      linarith
    · rw [Int.le_ediv_iff_mul_le hseven]
      linarith
  have hmono : periodOf .weekly a ≤ periodOf .weekly b := mono_periodOf hab
  unfold weekStarts
  dsimp only
  rw [hstart, if_neg (not_lt.mpr (hle.trans hab)), hcount]
  unfold Int.range
  rw [List.map_map]
  have hlength : (periodOf .weekly b - periodOf .weekly a).toNat + 1 =
      (periodOf .weekly b + 1 - periodOf .weekly a).toNat := by omega
  rw [hlength]
  refine List.map_congr_left fun n _ => ?_
  rw [Function.comp_apply, hweek (periodOf .weekly a + n), add_sub_cancel_left]

theorem monthStarts_eq {last : Time} {fuel : ℕ} (hfuel : (periodOf .monthly last + 1 - k).toNat ≤ fuel) :
    monthStarts last fuel (periodStart .monthly k) =
      (Int.range k (periodOf .monthly last + 1)).map (periodStart .monthly) := by
  induction fuel generalizing k with
  | zero =>
    rw [range_nil (by omega)]
    rfl
  | succ fuel ih =>
    have hnext : firstOfNextMonth (periodStart .monthly k) = periodStart .monthly (k + 1) :=
      nextOpenTime_periodStart .monthly k
    unfold monthStarts
    by_cases hlast : last < periodStart .monthly k
    · rw [if_pos hlast, range_nil (Int.add_one_le_iff.mpr (periodOf_lt_iff.mpr hlast))]
      rfl
    · have hle : k ≤ periodOf .monthly last := le_periodOf_iff.mpr (not_lt.mp hlast)
      rw [if_neg hlast, range_cons (by omega), hnext, ih (by omega)]
      rfl

def buckets (timeframe : Timeframe) (sorted : List Candle) : List ℤ :=
  match sorted.head?, sorted.getLast? with
  | some first, some last => Int.range (periodOf timeframe first.openTime) (periodOf timeframe last.openTime + 1)
  | _, _ => []

theorem periodOf_dailyOpen (timeframe : Timeframe) (t : Time) :
    periodOf timeframe (dailyOpen t) = periodOf timeframe t := by
  have hday : dayNumber (dailyOpen t) = dayNumber t := by
    rw [dailyOpen, mul_comm, dayNumber_mul]
  cases timeframe with
  | daily => exact hday
  | weekly => exact congrArg (fun n => (n + 3) / 7) hday
  | monthly => exact congrArg CalendarFacts.monthOf hday

theorem head_le_getLast {sorted : List Candle} (hsorted : sorted.Pairwise fun a b => a.openTime ≤ b.openTime)
    {first last : Candle} (hfirst : sorted.head? = some first) (hlast : sorted.getLast? = some last) :
    first.openTime ≤ last.openTime := by
  obtain ⟨rest, rfl⟩ := List.head?_eq_some_iff.mp hfirst
  rcases List.mem_cons.mp (List.mem_of_getLast? hlast) with rfl | hmem
  · exact le_rfl
  · exact (List.pairwise_cons.mp hsorted).1 last hmem

theorem collect_eq {f : Time → Except Exc (Option Candle)} {g : ℤ → Option Candle}
    (h : ∀ k, f (periodStart timeframe k) = .ok (g k)) (ks : List ℤ) :
    (do let found ← (ks.map (periodStart timeframe)).mapM f; pure found.reduceOption) =
      Except.ok (ks.filterMap g) := by
  have hall : ks.mapM (f ∘ periodStart timeframe) = .ok (ks.map g) := mapM_ok fun k _ => h k
  rw [List.mapM_map, hall]
  dsimp only [bind, Except.bind, pure, Except.pure]
  rw [List.reduceOption, List.filterMap_map]
  rfl

theorem aggregateWeekly_eq (dailies : List Candle) (symbol : Symbol) (evaluationTime : Time) :
    aggregateWeeklyFromDaily dailies symbol evaluationTime =
      .ok ((buckets .weekly (sortCandles (dailies.filter (·.symbol = symbol)))).filterMap
        (bucketOf (sortCandles (dailies.filter (·.symbol = symbol))) symbol .weekly evaluationTime)) := by
  have hsorted := sorted_sortCandles (dailies.filter (·.symbol = symbol))
  unfold aggregateWeeklyFromDaily buckets
  dsimp only
  generalize sortCandles (dailies.filter (·.symbol = symbol)) = sorted at hsorted ⊢
  cases hfirst : sorted.head? with
  | none => rfl
  | some first =>
    cases hlast : sorted.getLast? with
    | none => rfl
    | some last =>
      have hle := head_le_getLast hsorted hfirst hlast
      have hopen : dailyOpen first.openTime ≤ dailyOpen last.openTime :=
        Int.mul_le_mul_of_nonneg_right (Int.ediv_le_ediv day_pos hle) day_pos.le
      dsimp only
      rw [weekStarts_eq hopen, periodOf_dailyOpen, periodOf_dailyOpen]
      exact collect_eq (aggregateWeek_eq sorted symbol evaluationTime) _

theorem aggregateMonthly_eq (dailies : List Candle) (symbol : Symbol) (evaluationTime : Time) :
    aggregateMonthlyFromDaily dailies symbol evaluationTime =
      .ok ((buckets .monthly (sortCandles (dailies.filter (·.symbol = symbol)))).filterMap
        (bucketOf (sortCandles (dailies.filter (·.symbol = symbol))) symbol .monthly evaluationTime)) := by
  unfold aggregateMonthlyFromDaily buckets
  dsimp only
  generalize sortCandles (dailies.filter (·.symbol = symbol)) = sorted
  cases hfirst : sorted.head? with
  | none => rfl
  | some first =>
    cases hlast : sorted.getLast? with
    | none => rfl
    | some last =>
      have hstart : monthlyOpen (civilDate (dayNumber first.openTime)).year
          (civilDate (dayNumber first.openTime)).month = periodStart .monthly (periodOf .monthly first.openTime) :=
        canonicalOpen_eq .monthly first.openTime
      have hfuel : (periodOf .monthly (dailyOpen last.openTime) + 1 - periodOf .monthly first.openTime).toNat ≤
          stepsUntil (periodStart .monthly (periodOf .monthly first.openTime)) (dailyOpen last.openTime) := by
        refine stepsUntil_le ?_
        rw [add_sub_cancel_right]
        exact le_periodOf_iff.mp le_rfl
      dsimp only
      rw [hstart, monthStarts_eq hfuel, periodOf_dailyOpen]
      exact collect_eq (aggregateMonth_eq sorted symbol evaluationTime) _

end Loops

section Buckets

def daysOf (timeframe : Timeframe) (dailies : List Candle) (symbol : Symbol) (k : ℤ) : List Candle :=
  dailies.filter fun d =>
    d.symbol = symbol ∧ periodStart timeframe k ≤ d.openTime ∧ d.openTime < periodStart timeframe (k + 1)

def Complete (timeframe : Timeframe) (dailies : List Candle) (symbol : Symbol) (k : ℤ) : Prop :=
  ∀ n, firstDay timeframe k ≤ n → n < firstDay timeframe (k + 1) →
    ∃ d ∈ dailies, d.symbol = symbol ∧ d.openTime = day * n

structure Aggregates (timeframe : Timeframe) (dailies : List Candle) (symbol : Symbol) (k : ℤ) (c : Candle) :
    Prop where
  key : c.key = ⟨symbol, timeframe, periodStart timeframe k⟩
  closeTime : c.closeTime = periodStart timeframe (k + 1) - second
  isClosed : c.isClosed = true
  openPrice : ∃ d ∈ daysOf timeframe dailies symbol k,
    d.openTime = periodStart timeframe k ∧ c.openPrice = d.openPrice
  high : IsGreatest {x | ∃ d ∈ daysOf timeframe dailies symbol k, d.high = x} c.high
  low : IsLeast {x | ∃ d ∈ daysOf timeframe dailies symbol k, d.low = x} c.low
  close : ∃ d ∈ daysOf timeframe dailies symbol k,
    d.openTime = periodStart timeframe (k + 1) - day ∧ c.close = d.close
  volume : c.volume = ((daysOf timeframe dailies symbol k).map (·.volume)).sum

variable {timeframe : Timeframe} {dailies : List Candle} {symbol : Symbol} {evaluationTime : Time} {k : ℤ}
  {c : Candle}

theorem Canonical.eq_mul {t : Time} (h : Canonical .daily t) : t = day * dayNumber t := h.periodStart.symm

theorem Canonical.dailyOpen_eq {t : Time} (h : Canonical .daily t) : dailyOpen t = t := h

theorem le_close_iff {t : Time} (h : Canonical .daily t) :
    t ≤ periodStart timeframe k - second ↔ t < periodStart timeframe k := by
  have hsecond : 0 < second ∧ second ≤ day := by decide
  constructor
  · intro hle
    linarith
  · intro hlt
    rw [Canonical.eq_mul h] at hlt ⊢
    unfold periodStart at hlt ⊢
    have hn : dayNumber t + 1 ≤ firstDay timeframe k := lt_of_mul_lt_mul_left hlt day_pos.le
    have hle := Int.mul_le_mul_of_nonneg_left hn day_pos.le
    rw [mul_add, mul_one] at hle
    linarith

def sortedDays (dailies : List Candle) (symbol : Symbol) : List Candle :=
  sortCandles (dailies.filter (·.symbol = symbol))

structure Days (dailies : List Candle) (symbol : Symbol) : Prop where
  canonical : ∀ d ∈ dailies, d.symbol = symbol → Canonical .daily d.openTime
  distinct : ((dailies.filter (·.symbol = symbol)).map (·.openTime)).Nodup

theorem mem_sortedDays {d : Candle} : d ∈ sortedDays dailies symbol ↔ d ∈ dailies ∧ d.symbol = symbol := by
  unfold sortedDays
  rw [mem_sortCandles, List.mem_filter, decide_eq_true_eq]

theorem Days.strict (h : Days dailies symbol) :
    (sortedDays dailies symbol).Pairwise fun a b => a.openTime < b.openTime := by
  have hnodup : ((sortedDays dailies symbol).map (·.openTime)).Nodup :=
    ((List.perm_insertionSort _ _).map _).nodup_iff.mpr h.distinct
  have hne := List.pairwise_map.mp hnodup
  exact ((sorted_sortCandles _).and hne).imp fun hab => lt_of_le_of_ne hab.1 hab.2

def members (timeframe : Timeframe) (dailies : List Candle) (symbol : Symbol) (k : ℤ) : List Candle :=
  (sortedDays dailies symbol).filter fun d =>
    periodStart timeframe k ≤ d.openTime ∧ d.openTime ≤ periodStart timeframe (k + 1) - second

theorem members_perm (h : Days dailies symbol) (timeframe : Timeframe) (k : ℤ) :
    (members timeframe dailies symbol k).Perm (daysOf timeframe dailies symbol k) := by
  have hsame : members timeframe dailies symbol k = (sortedDays dailies symbol).filter fun d =>
      periodStart timeframe k ≤ d.openTime ∧ d.openTime < periodStart timeframe (k + 1) := by
    refine List.filter_congr fun d hd => ?_
    obtain ⟨hmem, hsymbol⟩ := mem_sortedDays.mp hd
    exact decide_eq_decide.mpr (and_congr_right fun _ => le_close_iff (h.canonical d hmem hsymbol))
  have hdays : daysOf timeframe dailies symbol k = (dailies.filter (·.symbol = symbol)).filter fun d =>
      periodStart timeframe k ≤ d.openTime ∧ d.openTime < periodStart timeframe (k + 1) := by
    unfold daysOf
    rw [List.filter_filter]
    refine List.filter_congr fun d _ => ?_
    rw [Bool.decide_and, Bool.and_comm]
  rw [hsame, hdays]
  exact (List.perm_insertionSort _ _).filter _

theorem mem_members (h : Days dailies symbol) {d : Candle} : d ∈ members timeframe dailies symbol k ↔
    d ∈ dailies ∧ d.symbol = symbol ∧ periodStart timeframe k ≤ d.openTime ∧
      d.openTime < periodStart timeframe (k + 1) := by
  rw [(members_perm h timeframe k).mem_iff, daysOf, List.mem_filter, decide_eq_true_eq]

theorem mem_periodDays {t : Time} : t ∈ periodDays timeframe k ↔
    ∃ n, firstDay timeframe k ≤ n ∧ n < firstDay timeframe (k + 1) ∧ day * n = t := by
  simp only [periodDays, List.mem_map, Int.mem_range_iff, and_assoc]

theorem present_iff (h : Days dailies symbol) :
    ((members timeframe dailies symbol k).map (fun d => dailyOpen d.openTime) ⊆ periodDays timeframe k ∧
      periodDays timeframe k ⊆ (members timeframe dailies symbol k).map fun d => dailyOpen d.openTime) ↔
      Complete timeframe dailies symbol k := by
  have hopen : ∀ d ∈ members timeframe dailies symbol k, Canonical .daily d.openTime := fun d hd =>
    h.canonical d ((mem_members h).mp hd).1 ((mem_members h).mp hd).2.1
  constructor
  · rintro ⟨_, hrequired⟩ n hlow hhigh
    obtain ⟨d, hd, hday⟩ := List.mem_map.mp (hrequired (mem_periodDays.mpr ⟨n, hlow, hhigh, rfl⟩))
    rw [Canonical.dailyOpen_eq (hopen d hd)] at hday
    exact ⟨d, ((mem_members h).mp hd).1, ((mem_members h).mp hd).2.1, hday⟩
  · intro hcomplete
    refine ⟨fun t ht => ?_, fun t ht => ?_⟩
    · obtain ⟨d, hd, rfl⟩ := List.mem_map.mp ht
      obtain ⟨_, _, hlow, hhigh⟩ := (mem_members h).mp hd
      refine mem_periodDays.mpr ⟨dayNumber d.openTime, ?_, ?_, ?_⟩
      · exact le_dayNumber_iff.mpr hlow
      · exact dayNumber_lt_iff.mpr hhigh
      · rw [Canonical.dailyOpen_eq (hopen d hd), ← Canonical.eq_mul (hopen d hd)]
    · obtain ⟨n, hlow, hhigh, rfl⟩ := mem_periodDays.mp ht
      obtain ⟨d, hmem, hsymbol, hday⟩ := hcomplete n hlow hhigh
      refine List.mem_map.mpr ⟨d, (mem_members h).mpr ⟨hmem, hsymbol, ?_, ?_⟩, ?_⟩
      · rw [hday]
        exact Int.mul_le_mul_of_nonneg_left hlow day_pos.le
      · rw [hday]
        exact Int.mul_lt_mul_of_pos_left hhigh day_pos
      · rw [Canonical.dailyOpen_eq (h.canonical d hmem hsymbol), hday]

/-- The candle that the code makes of the ordered days of a period. -/
def barOf (symbol : Symbol) (timeframe : Timeframe) (k : ℤ) (first : Candle) (rest : List Candle) : Candle :=
  { symbol, timeframe, openTime := periodStart timeframe k
    closeTime := periodStart timeframe (k + 1) - second
    openPrice := first.openPrice
    high := rest.foldl (fun highest d => max highest d.high) first.high
    low := rest.foldl (fun lowest d => min lowest d.low) first.low
    close := (rest.getLast?.getD first).close
    volume := ((first :: rest).map (·.volume)).sum
    isClosed := true }

theorem bucketOf_eq_some_iff (h : Days dailies symbol) :
    bucketOf (sortedDays dailies symbol) symbol timeframe evaluationTime k = some c ↔
      periodStart timeframe (k + 1) - second ≤ evaluationTime ∧ Complete timeframe dailies symbol k ∧
        ∃ first rest, members timeframe dailies symbol k = first :: rest ∧ barOf symbol timeframe k first rest = c := by
  have hstrict : (members timeframe dailies symbol k).Pairwise fun a b => a.openTime < b.openTime :=
    h.strict.sublist List.filter_sublist
  have hsorted := sortCandles_of_strict hstrict
  rw [← present_iff h]
  unfold members at hsorted ⊢
  unfold bucketOf aggregateBucket isCandleClosed
  dsimp only
  rw [hsorted]
  by_cases hover : periodStart timeframe (k + 1) - second ≤ evaluationTime
  · rw [if_neg (by simpa using hover)]
    cases hmembers : (sortedDays dailies symbol).filter fun d =>
        periodStart timeframe k ≤ d.openTime ∧ d.openTime ≤ periodStart timeframe (k + 1) - second with
    | nil => simp
    | cons first rest =>
      dsimp only
      split_ifs with hpresent
      · rw [Option.some.injEq]
        constructor
        · exact fun hc => ⟨hover, hpresent, first, rest, rfl, hc⟩
        · rintro ⟨_, _, _, _, hcons, hc⟩
          obtain ⟨rfl, rfl⟩ := List.cons.inj hcons
          exact hc
      · exact ⟨nofun, fun ⟨_, hpresent', _⟩ => absurd hpresent' hpresent⟩
  · rw [if_pos (by simpa using hover)]
    simp [hover]

theorem le_getLast {sorted : List Candle} (hsorted : sorted.Pairwise fun a b => a.openTime < b.openTime)
    {last : Candle} (hlast : sorted.getLast? = some last) : ∀ d ∈ sorted, d.openTime ≤ last.openTime := by
  obtain ⟨init, rfl⟩ := List.getLast?_eq_some_iff.mp hlast
  intro d hd
  rcases List.mem_append.mp hd with hd | hd
  · exact ((List.pairwise_append.mp hsorted).2.2 d hd last (List.mem_singleton_self last)).le
  · rw [List.mem_singleton.mp hd]

theorem aggregates_barOf (h : Days dailies symbol) (hcomplete : Complete timeframe dailies symbol k)
    {first : Candle} {rest : List Candle} (hmembers : members timeframe dailies symbol k = first :: rest) :
    Aggregates timeframe dailies symbol k (barOf symbol timeframe k first rest) := by
  have hperm := members_perm h timeframe k
  have hstrict : (members timeframe dailies symbol k).Pairwise fun a b => a.openTime < b.openTime :=
    h.strict.sublist List.filter_sublist
  have hdays : firstDay timeframe k < firstDay timeframe (k + 1) := strictMono_firstDay timeframe (by omega)
  have hmem : ∀ n, firstDay timeframe k ≤ n → n < firstDay timeframe (k + 1) →
      ∃ d ∈ members timeframe dailies symbol k, d.openTime = day * n := by
    intro n hlow hhigh
    obtain ⟨d, hd, hsymbol, hday⟩ := hcomplete n hlow hhigh
    refine ⟨d, (mem_members h).mpr ⟨hd, hsymbol, ?_, ?_⟩, hday⟩
    · rw [hday]
      exact Int.mul_le_mul_of_nonneg_left hlow day_pos.le
    · rw [hday]
      exact Int.mul_lt_mul_of_pos_left hhigh day_pos
  have hvalues : ∀ f : Candle → Decimal, {x | ∃ d ∈ daysOf timeframe dailies symbol k, f d = x} =
      {x | ∃ d ∈ first :: rest, f d = x} := fun f => by
    rw [← hmembers]
    simp only [hperm.mem_iff]
  rw [hmembers] at hperm hstrict hmem
  refine ⟨rfl, rfl, rfl, ⟨first, hperm.mem_iff.mp List.mem_cons_self, ?_, rfl⟩, ?_, ?_, ?_, ?_⟩
  · obtain ⟨d, hd, hday⟩ := hmem (firstDay timeframe k) le_rfl hdays
    refine le_antisymm ?_ ((mem_members h).mp (hmembers ▸ List.mem_cons_self)).2.2.1
    rw [periodStart, ← hday]
    rcases List.mem_cons.mp hd with rfl | hd
    · exact le_rfl
    · exact ((List.pairwise_cons.mp hstrict).1 d hd).le
  · rw [hvalues (·.high)]
    exact isGreatest_foldl_max_cons (·.high) first rest
  · rw [hvalues (·.low)]
    exact isLeast_foldl_min_cons (·.low) first rest
  · have hlast : (first :: rest).getLast? = some (rest.getLast?.getD first) := List.getLast?_cons
    have hin := List.mem_of_getLast? hlast
    refine ⟨_, hperm.mem_iff.mp hin, ?_, rfl⟩
    obtain ⟨hd, hsymbol, _, hlt⟩ := (mem_members h).mp (hmembers.symm ▸ hin)
    obtain ⟨d, hdmem, hday⟩ := hmem (firstDay timeframe (k + 1) - 1) (by omega) (by omega)
    have hend : periodStart timeframe (k + 1) - day = day * (firstDay timeframe (k + 1) - 1) := by
      unfold periodStart
      ring
    rw [hend]
    refine le_antisymm ?_ ?_
    · rw [Canonical.eq_mul (h.canonical _ hd hsymbol)] at hlt ⊢
      refine Int.mul_le_mul_of_nonneg_left ?_ day_pos.le
      exact Int.le_sub_one_of_lt (lt_of_mul_lt_mul_left hlt day_pos.le)
    · rw [← hday]
      exact le_getLast hstrict hlast d hdmem
  · exact ((hperm.map (·.volume)).sum_eq)

end Buckets

section Exactness

variable {timeframe : Timeframe} {dailies : List Candle} {symbol : Symbol} {evaluationTime : Time} {k : ℤ}

/-- One candle for each period that is over and has all its days, in order, and no other. -/
structure Exact (timeframe : Timeframe) (dailies : List Candle) (symbol : Symbol) (evaluationTime : Time)
    (found : List Candle) : Prop where
  sorted : (found.map (·.openTime)).Pairwise (· < ·)
  periods : ∀ k, periodStart timeframe k ∈ found.map (·.openTime) ↔
    periodStart timeframe (k + 1) - second ≤ evaluationTime ∧ Complete timeframe dailies symbol k
  candles : ∀ c ∈ found, ∃ k, Aggregates timeframe dailies symbol k c

theorem mem_buckets (h : Days dailies symbol) (hcomplete : Complete timeframe dailies symbol k) :
    k ∈ buckets timeframe (sortedDays dailies symbol) := by
  obtain ⟨d, hd, hsymbol, hday⟩ := hcomplete (firstDay timeframe k) le_rfl
    (strictMono_firstDay timeframe (by omega))
  have hmem : d ∈ sortedDays dailies symbol := mem_sortedDays.mpr ⟨hd, hsymbol⟩
  have hstart : d.openTime = periodStart timeframe k := hday
  obtain ⟨first, rest, hcons⟩ := List.exists_cons_of_ne_nil (List.ne_nil_of_mem hmem)
  have hfirst : first.openTime ≤ d.openTime := by
    have hstrict := h.strict
    rw [hcons] at hstrict hmem
    rcases List.mem_cons.mp hmem with rfl | hmem
    · exact le_rfl
    · exact ((List.pairwise_cons.mp hstrict).1 d hmem).le
  obtain ⟨last, hlast⟩ : ∃ last, (sortedDays dailies symbol).getLast? = some last :=
    ⟨_, List.getLast?_eq_some_getLast (List.ne_nil_of_mem hmem)⟩
  have hle := le_getLast h.strict hlast d hmem
  have hhead : (sortedDays dailies symbol).head? = some first := by
    rw [hcons]
    rfl
  unfold buckets
  rw [hhead, hlast]
  rw [hstart] at hfirst hle
  refine Int.mem_range_iff.mpr ⟨?_, ?_⟩
  · exact (mono_periodOf hfirst).trans (periodOf_periodStart timeframe k).le
  · exact Int.lt_add_one_iff.mpr (le_periodOf_iff.mpr hle)

theorem pairwise_buckets (timeframe : Timeframe) (sorted : List Candle) :
    (buckets timeframe sorted).Pairwise (· < ·) := by
  unfold buckets
  split
  · exact pairwise_range _ _
  · exact List.Pairwise.nil

theorem openTime_of_bucketOf (h : Days dailies symbol) {c : Candle}
    (hc : bucketOf (sortedDays dailies symbol) symbol timeframe evaluationTime k = some c) :
    c.openTime = periodStart timeframe k := by
  obtain ⟨_, _, first, rest, _, rfl⟩ := (bucketOf_eq_some_iff h).mp hc
  rfl

theorem exact_buckets (h : Days dailies symbol) (timeframe : Timeframe) (evaluationTime : Time) :
    Exact timeframe dailies symbol evaluationTime ((buckets timeframe (sortedDays dailies symbol)).filterMap
      (bucketOf (sortedDays dailies symbol) symbol timeframe evaluationTime)) := by
  refine ⟨?_, fun k => ⟨fun hk => ?_, fun ⟨hover, hcomplete⟩ => ?_⟩, fun c hc => ?_⟩
  · rw [List.pairwise_map, List.pairwise_filterMap]
    refine (pairwise_buckets timeframe _).imp fun hlt c hc c' hc' => ?_
    rw [openTime_of_bucketOf h hc, openTime_of_bucketOf h hc']
    exact strictMono_periodStart timeframe hlt
  · obtain ⟨c, hc, hopen⟩ := List.mem_map.mp hk
    obtain ⟨j, _, hj⟩ := List.mem_filterMap.mp hc
    obtain rfl : j = k := by
      refine (strictMono_periodStart timeframe).injective ?_
      rw [← openTime_of_bucketOf h hj, hopen]
    obtain ⟨hover, hcomplete, _⟩ := (bucketOf_eq_some_iff h).mp hj
    exact ⟨hover, hcomplete⟩
  · obtain ⟨d, hd, hsymbol, hday⟩ := hcomplete (firstDay timeframe k) le_rfl
      (strictMono_firstDay timeframe (by omega))
    have hmem : d ∈ members timeframe dailies symbol k := by
      refine (mem_members h).mpr ⟨hd, hsymbol, hday.ge, ?_⟩
      rw [hday]
      exact strictMono_periodStart timeframe (by omega)
    obtain ⟨first, rest, hcons⟩ := List.exists_cons_of_ne_nil (List.ne_nil_of_mem hmem)
    have hbucket := (bucketOf_eq_some_iff h).mpr ⟨hover, hcomplete, first, rest, hcons, rfl⟩
    exact List.mem_map.mpr ⟨_, List.mem_filterMap.mpr ⟨k, mem_buckets h hcomplete, hbucket⟩, rfl⟩
  · obtain ⟨k, _, hk⟩ := List.mem_filterMap.mp hc
    obtain ⟨_, hcomplete, first, rest, hmembers, rfl⟩ := (bucketOf_eq_some_iff h).mp hk
    exact ⟨k, aggregates_barOf h hcomplete hmembers⟩

theorem sortedDays_perm (h : Days dailies symbol) {dailies' : List Candle} (hperm : dailies'.Perm dailies) :
    sortedDays dailies' symbol = sortedDays dailies symbol := by
  have h' : Days dailies' symbol :=
    ⟨fun d hd => h.canonical d (hperm.mem_iff.mp hd), ((hperm.filter _).map _).nodup_iff.mpr h.distinct⟩
  refine eq_of_same_members h'.strict h.strict fun c => ?_
  rw [mem_sortedDays, mem_sortedDays, hperm.mem_iff]

def dayCandle (n : ℤ) : Candle :=
  { symbol := .BTC, timeframe := .daily, openTime := day * n, closeTime := dailyClose (day * n)
    openPrice := n, high := n + 2, low := n - 1, close := n + 1, volume := 5, isClosed := true }

def leapFebruary : List Candle := ((Int.range 19754 19783).map dayCandle).reverse

theorem leapFebruary_days : Days leapFebruary .BTC := by
  refine ⟨?_, by decide +kernel⟩
  unfold Canonical
  decide +kernel

end Exactness

end TradingBot.Market.AggregationExact
