import TradingBot.Market.LiveConflicts
import TradingBot.Market.RuntimeRules

namespace TradingBot.Market.DerivedWeeks

open Market.Models Market.Repository Market.Timeframes Market.Quality Market.Bundle Market.Provider Market.Feed
open Market.Ingest Market.Aggregation Market.BundleFacts Market.IngestFacts Market.Runtime Market.RuntimeFacts
open Market.RuntimeRules Market.LiveConflicts MarketDataRuntime Exceptions

section Aggregation

variable {l l' dailies : List Candle} {symbol : Symbol} {t weekStart : Time}

def inWeek (weekStart : Time) (d : Candle) : Bool :=
  weekStart ≤ d.openTime ∧ d.openTime ≤ weekStart + 6 * day + 86399 * second

def flagged (c : Candle) : Candle := { c with isClosed := true }

theorem weekOf_flagged (dailies : List Candle) (symbol : Symbol) (t weekStart : Time) :
    weekOf (dailies.map flagged) symbol t weekStart = weekOf dailies symbol t weekStart := by
  unfold weekOf aggregateBucket
  split_ifs with hopen
  · rfl
  · have hfilter : (dailies.map flagged).filter (fun d => weekStart ≤ d.openTime ∧
        d.openTime ≤ weekStart + 6 * day + 86399 * second) =
        (dailies.filter (fun d => weekStart ≤ d.openTime ∧
          d.openTime ≤ weekStart + 6 * day + 86399 * second)).map flagged := by
      rw [List.filter_map]
      rfl
    have hsort : ∀ m : List Candle, sortCandles (m.map flagged) = (sortCandles m).map flagged := fun m =>
      (List.map_insertionSort _ _ flagged m fun a _ b _ => Iff.rfl).symm
    simp only [hfilter, hsort, List.map_map]
    cases sortCandles (dailies.filter fun d => weekStart ≤ d.openTime ∧
        d.openTime ≤ weekStart + 6 * day + 86399 * second) with
    | nil => rfl
    | cons first rest =>
      simp only [List.map_cons, List.foldl_map, List.getLast?_map]
      have hlast : ((rest.getLast?.map flagged).getD (flagged first)).close =
          (rest.getLast?.getD first).close := by
        cases rest.getLast? <;> rfl
      rw [hlast]
      simp [Function.comp_def, flagged]

theorem weekOf_congr {t' : Time} (hl : l.Pairwise fun a b => a.openTime < b.openTime)
    (hl' : l'.Pairwise fun a b => a.openTime < b.openTime)
    (h : ∀ c, inWeek weekStart c → (c ∈ l ↔ c ∈ l')) (ht : weekStart + 6 * day + 86399 * second ≤ t)
    (ht' : weekStart + 6 * day + 86399 * second ≤ t') :
    weekOf l symbol t weekStart = weekOf l' symbol t' weekStart := by
  have hmembers : l.filter (fun d => weekStart ≤ d.openTime ∧
      d.openTime ≤ weekStart + 6 * day + 86399 * second) =
      l'.filter (fun d => weekStart ≤ d.openTime ∧ d.openTime ≤ weekStart + 6 * day + 86399 * second) := by
    refine eq_of_same_members (hl.filter _) (hl'.filter _) fun c => ?_
    rw [List.mem_filter, List.mem_filter]
    exact and_congr_left fun hc => h c hc
  have hpast : ∀ s, weekStart + 6 * day + 86399 * second ≤ s →
      isCandleClosed (weekStart + 6 * day + 86399 * second) s = true := fun s hs => decide_eq_true hs
  unfold weekOf aggregateBucket
  rw [hpast t ht, hpast t' ht', hmembers]

theorem days_of_weekOf {week : Candle} (h : weekOf dailies symbol t weekStart = some week) :
    ∀ i < 7, ∃ d ∈ dailies, dailyOpen d.openTime = weekStart + (i : ℕ) * day := by
  intro i hi
  unfold weekOf aggregateBucket at h
  simp only at h
  split_ifs at h with hopen hdays
  · have hmem : weekStart + (i : ℕ) * day ∈ dayRange weekStart 7 :=
      List.mem_map.mpr ⟨i, List.mem_range.mpr hi, rfl⟩
    obtain ⟨d, hd, heq⟩ := List.mem_map.mp (hdays.2 hmem)
    exact ⟨d, (List.mem_filter.mp hd).1, heq⟩
  · split at h <;> cases h

end Aggregation

section Days

theorem dailyOpen_dailyOpen (t : Time) : dailyOpen (dailyOpen t) = dailyOpen t := by
  unfold dailyOpen dayNumber
  rw [Int.mul_ediv_cancel _ (by decide : day ≠ 0)]

theorem dailyClose_eq {t : Time} (h : dailyOpen t = t) : dailyClose t = t + 86399 * second :=
  congrArg (· + 86399 * second) h

theorem exists_day_of_inWeek {weekStart t : ℤ} (hstart : dailyOpen weekStart = weekStart)
    (ht : dailyOpen t = t) (hlow : weekStart ≤ t) (hhigh : t ≤ weekStart + 6 * day + 86399 * second) :
    ∃ i < 7, t = weekStart + (i : ℕ) * day ∧ t ≤ weekStart + 6 * day := by
  have hstart : weekStart / 86400000000 * 86400000000 = weekStart := hstart
  have ht : t / 86400000000 * 86400000000 = t := ht
  have hhigh : t ≤ weekStart + 6 * 86400000000 + 86399 * 1000000 := hhigh
  have hday : day = (86400000000 : ℤ) := by decide
  rw [hday]
  refine ⟨((t - weekStart) / 86400000000).toNat, ?_, ?_, ?_⟩ <;> omega

end Days

section Invariant

variable {r r' : CandleRepository} {symbol : Symbol} {t weekStart : Time} {c d week : Candle}

theorem mem_store_iff : c ∈ r.store ↔ r.get? c.key = some c := ⟨get?_of_mem, mem_of_get?⟩

/-- The week of the seven stored days from a Monday. -/
def aggregated (r : CandleRepository) (symbol : Symbol) (weekStart : Time) : Option Candle :=
  weekOf (r.getRange symbol .daily) symbol (weekStart + 6 * day + 86399 * second) weekStart

/-- Every stored week is the aggregation of its stored days, and no week was ever derived twice in different
ways. -/
structure Derived (r : CandleRepository) : Prop where
  canonical : ∀ d ∈ r.store, d.timeframe = .daily →
    dailyOpen d.openTime = d.openTime ∧ d.closeTime = dailyClose d.openTime
  weeks : ∀ week ∈ r.store, week.timeframe = .weekly → aggregated r week.symbol week.openTime = some week
  agree : ∀ conflict ∈ r.conflicts, conflict.key.timeframe ≠ .weekly

theorem aggregated_congr (h : ∀ openTime, weekStart ≤ openTime →
      openTime ≤ weekStart + 6 * day + 86399 * second →
      (r'.get? ⟨symbol, .daily, openTime⟩).map flagged = (r.get? ⟨symbol, .daily, openTime⟩).map flagged) :
    aggregated r' symbol weekStart = aggregated r symbol weekStart := by
  unfold aggregated
  rw [← weekOf_flagged (r'.getRange symbol .daily), ← weekOf_flagged (r.getRange symbol .daily)]
  have hstrict : ∀ q : CandleRepository, ((q.getRange symbol .daily).map flagged).Pairwise
      fun a b => a.openTime < b.openTime := fun q => List.pairwise_map.mpr getRange_strict
  have hmem : ∀ (q : CandleRepository) (y : Candle), y ∈ (q.getRange symbol .daily).map flagged ↔
      (q.get? ⟨symbol, .daily, y.openTime⟩).map flagged = some y := by
    intro q y
    rw [List.mem_map, Option.map_eq_some_iff]
    constructor
    · rintro ⟨x, hx, rfl⟩
      obtain ⟨hstore, hsymbol, htimeframe⟩ := mem_getRange.mp hx
      refine ⟨x, ?_, rfl⟩
      rw [← get?_of_mem hstore]
      simp [Candle.key, hsymbol, htimeframe, flagged]
    · rintro ⟨x, hx, rfl⟩
      have hkey := key_of_get? hx
      refine ⟨x, mem_getRange.mpr ⟨mem_of_get? hx, ?_, ?_⟩, rfl⟩
      · exact congrArg CandleKey.symbol hkey
      · exact congrArg CandleKey.timeframe hkey
  refine weekOf_congr (hstrict r') (hstrict r) (fun y hy => ?_) le_rfl le_rfl
  obtain ⟨hlow, hhigh⟩ := of_decide_eq_true hy
  rw [hmem, hmem, h y.openTime hlow hhigh]

theorem weekStart_of_aggregated (h : aggregated r symbol weekStart = some week) :
    dailyOpen weekStart = weekStart := by
  obtain ⟨d, _, hd⟩ := days_of_weekOf h 0 (by omega)
  have hstart : dailyOpen d.openTime = weekStart := by simpa using hd
  rw [← hstart, dailyOpen_dailyOpen]

theorem get?_of_aggregated (hr : Derived r) (h : aggregated r symbol weekStart = some week) {openTime : Time}
    (hopen : dailyOpen openTime = openTime) (hlow : weekStart ≤ openTime)
    (hhigh : openTime ≤ weekStart + 6 * day + 86399 * second) :
    ∃ d, r.get? ⟨symbol, .daily, openTime⟩ = some d := by
  obtain ⟨i, hi, heq, _⟩ := exists_day_of_inWeek (weekStart_of_aggregated h) hopen hlow hhigh
  obtain ⟨d, hd, hday⟩ := days_of_weekOf h i hi
  obtain ⟨hstore, hsymbol, htimeframe⟩ := mem_getRange.mp hd
  rw [(hr.canonical d hstore htimeframe).1, ← heq] at hday
  refine ⟨d, ?_⟩
  rw [← get?_of_mem hstore]
  simp [Candle.key, hsymbol, htimeframe, hday]

theorem aggregated_of_mem_derivedWeeks (hr : Derived r) (h : week ∈ derivedWeeks r symbol t) :
    week.timeframe = .weekly ∧ week.symbol = symbol ∧ aggregated r symbol week.openTime = some week := by
  obtain ⟨weekStart, _, hweek⟩ := List.mem_filterMap.mp h
  obtain ⟨hkey, hclose, hpast⟩ := weekOf_eq_some hweek
  have hopen : week.openTime = weekStart := congrArg CandleKey.openTime hkey
  have hclosed : (r.getClosedBefore symbol .daily t).filter (·.symbol = symbol) =
      r.getClosedBefore symbol .daily t :=
    List.filter_eq_self.mpr fun c hc => decide_eq_true (mem_getClosedBefore.mp hc).2.1
  rw [hclosed, sortCandles_of_strict getClosedBefore_sorted] at hweek
  refine ⟨congrArg CandleKey.timeframe hkey, congrArg CandleKey.symbol hkey, ?_⟩
  rw [hopen, ← hweek]
  have hstart : dailyOpen weekStart = weekStart := by
    obtain ⟨d, _, hd⟩ := days_of_weekOf hweek 0 (by omega)
    have hfirst : dailyOpen d.openTime = weekStart := by simpa using hd
    rw [← hfirst, dailyOpen_dailyOpen]
  refine weekOf_congr getRange_strict getClosedBefore_sorted (fun c hc => ?_) le_rfl (hclose ▸ hpast)
  rw [mem_getRange, mem_getClosedBefore]
  refine ⟨fun ⟨hstore, hsymbol, htimeframe⟩ => ⟨hstore, hsymbol, htimeframe, ?_⟩,
    fun ⟨hstore, hsymbol, htimeframe, _⟩ => ⟨hstore, hsymbol, htimeframe⟩⟩
  obtain ⟨hcanonical, hcloseTime⟩ := hr.canonical c hstore htimeframe
  obtain ⟨hlow, hhigh⟩ := of_decide_eq_true hc
  obtain ⟨_, _, _, hle⟩ := exists_day_of_inWeek hstart hcanonical hlow hhigh
  rw [hcloseTime, dailyClose_eq hcanonical]
  rw [hclose] at hpast
  linarith

theorem derived_upsert (hr : Derived r) (htimeframe : week.timeframe = .weekly)
    (hweek : aggregated r week.symbol week.openTime = some week) :
    Derived (r.upsert week) ∧ ∀ symbol weekStart, aggregated (r.upsert week) symbol weekStart =
      aggregated r symbol weekStart := by
  have hother : ∀ key : CandleKey, key.timeframe ≠ .weekly → (r.upsert week).get? key = r.get? key := by
    intro key hkey
    rw [get?_upsert, if_neg fun he => hkey (by rw [he]; exact htimeframe)]
  have hsame : ∀ symbol weekStart, aggregated (r.upsert week) symbol weekStart =
      aggregated r symbol weekStart :=
    fun symbol weekStart => aggregated_congr fun openTime _ _ => by rw [hother _ (by simp)]
  have hstored : ∀ existing, r.get? week.key = some existing → existing = week := by
    intro existing hget
    have hkey := key_of_get? hget
    have hopen : existing.openTime = week.openTime := congrArg CandleKey.openTime hkey
    have hsymbol : existing.symbol = week.symbol := congrArg CandleKey.symbol hkey
    have hweekly : existing.timeframe = .weekly := (congrArg CandleKey.timeframe hkey).trans htimeframe
    have hexisting := hr.weeks existing (mem_of_get? hget) hweekly
    rw [hopen, hsymbol, hweek] at hexisting
    exact (Option.some.inj hexisting).symm
  refine ⟨⟨fun d hd hdaily => ?_, fun w hw hweekly => ?_, fun conflict hconflict => ?_⟩, hsame⟩
  · have hne : d.key.timeframe ≠ .weekly := by simp [Candle.key, hdaily]
    rw [mem_store_iff, hother _ hne, ← mem_store_iff] at hd
    exact hr.canonical d hd hdaily
  · rw [hsame]
    rw [mem_store_iff, get?_upsert] at hw
    split_ifs at hw with hkey
    · cases hget : r.get? week.key with
      | none =>
        rw [hget] at hw
        cases hw
        exact hweek
      | some existing =>
        rw [hget] at hw
        cases hw
        rw [hstored _ hget]
        exact hweek
    · exact hr.weeks w (mem_store_iff.mpr hw) hweekly
  · rw [conflicts_upsert] at hconflict
    rcases List.mem_append.mp hconflict with hold | hnew
    · exact hr.agree conflict hold
    · unfold upsertReturn at hnew
      cases hget : r.get? week.key with
      | none =>
        rw [hget] at hnew
        cases hnew
      | some existing =>
        rw [hget] at hnew
        simp [hstored _ hget] at hnew

theorem derived_upsertMany (hr : Derived r) {weeks : List Candle}
    (hweeks : ∀ week ∈ weeks, week.timeframe = .weekly ∧ aggregated r week.symbol week.openTime = some week) :
    Derived (upsertMany r weeks) := by
  induction weeks generalizing r with
  | nil => exact hr
  | cons week weeks ih =>
    obtain ⟨htimeframe, hweek⟩ := hweeks week List.mem_cons_self
    obtain ⟨hnext, hsame⟩ := derived_upsert hr htimeframe hweek
    refine ih hnext fun w hw => ?_
    obtain ⟨hweekly, haggregated⟩ := hweeks w (List.mem_cons_of_mem _ hw)
    exact ⟨hweekly, (hsame _ _).trans haggregated⟩

theorem derived_refreshed (hr : Derived r) (symbols : List Symbol) (t : Time) :
    Derived (refreshed symbols t r) := by
  induction symbols generalizing r with
  | nil => exact hr
  | cons symbol symbols ih =>
    refine ih (derived_upsertMany hr fun week hweek => ?_)
    obtain ⟨htimeframe, hsymbol, haggregated⟩ := aggregated_of_mem_derivedWeeks hr hweek
    rw [hsymbol]
    exact ⟨htimeframe, haggregated⟩

def WeekStored (r : CandleRepository) (d : Candle) : Prop :=
  ∃ week ∈ r.store, week.timeframe = .weekly ∧ week.symbol = d.symbol ∧ inWeek week.openTime d

instance (r : CandleRepository) (d : Candle) : Decidable (WeekStored r d) := by
  unfold WeekStored
  infer_instance

/-- The update leaves the days of derived weeks as they are: if it takes the place of one of them (because
it is final and the stored one is not, or the stored one is still open), it carries the same values. -/
def Leaves (t : Time) (r : CandleRepository) (raw : RawCandle) : Prop :=
  Admissible raw → raw.timeframe = .daily → ∀ d ∈ r.get? (keyOf raw), WeekStored r d →
    (d.isClosed = false ∧ (candleOf raw t).isClosed = true ∨ t < d.closeTime) →
    flagged d = flagged (candleOf raw t)

instance (t : Time) (r : CandleRepository) (raw : RawCandle) : Decidable (Leaves t r raw) := by
  unfold Leaves
  infer_instance

theorem liveValue_eq_or (d c : Candle) (t : Time) : liveValue (some d) c t = d ∨
    liveValue (some d) c t = c ∧ (d.isClosed = false ∧ c.isClosed = true ∨ t < d.closeTime) := by
  unfold liveValue
  simp only
  split_ifs with heq hfinal hopen
  · exact .inl rfl
  · exact .inr ⟨rfl, .inl (by simpa using hfinal)⟩
  · exact .inr ⟨rfl, .inr (by simpa [isCandleClosed] using hopen)⟩
  · exact .inl rfl

theorem canonical_candleOf {raw : RawCandle} (h : raw.timeframe = .daily) (t : Time) :
    dailyOpen (candleOf raw t).openTime = (candleOf raw t).openTime ∧
      (candleOf raw t).closeTime = dailyClose (candleOf raw t).openTime := by
  simp only [candleOf, h, canonicalOpen, canonicalClose]
  exact ⟨dailyOpen_dailyOpen _, trivial⟩

theorem derived_ingested (hr : Derived r) {raw : RawCandle} (hraw : raw.timeframe ≠ .weekly)
    (hleaves : Leaves t r raw) : Derived (ingested t r raw) := by
  by_cases hadmissible : Admissible raw
  swap
  · unfold ingested
    rw [if_neg hadmissible]
    exact hr
  have hvalue : ∀ key, (ingested t r raw).get? key = if key = keyOf raw then
      some (liveValue (r.get? (keyOf raw)) (candleOf raw t) t) else r.get? key := by
    intro key
    unfold ingested
    rw [if_pos hadmissible]
    exact get?_upsertLive _ _ _ _
  have hother : ∀ key, key ≠ keyOf raw → (ingested t r raw).get? key = r.get? key := fun key hne => by
    rw [hvalue, if_neg hne]
  have hsame : ∀ week ∈ r.store, week.timeframe = .weekly →
      aggregated (ingested t r raw) week.symbol week.openTime = some week := by
    intro week hweek htimeframe
    have hstored := hr.weeks week hweek htimeframe
    rw [← hstored]
    refine aggregated_congr fun openTime hlow hhigh => ?_
    by_cases hkey : (⟨week.symbol, .daily, openTime⟩ : CandleKey) = keyOf raw
    swap
    · rw [hother _ hkey]
    have hdaily : raw.timeframe = .daily := (congrArg CandleKey.timeframe hkey).symm
    have hcanonical : dailyOpen openTime = openTime := by
      have hopen : openTime = (candleOf raw t).openTime := congrArg CandleKey.openTime hkey
      rw [hopen]
      exact (canonical_candleOf hdaily t).1
    obtain ⟨d, hd⟩ := get?_of_aggregated hr hstored hcanonical hlow hhigh
    rw [hvalue, if_pos hkey, ← hkey, hd, Option.map_some, Option.map_some]
    rcases liveValue_eq_or d (candleOf raw t) t with hkept | ⟨hreplaced, hwhy⟩
    · rw [hkept]
    · have hdkey := key_of_get? hd
      have hweekStored : WeekStored r d := by
        refine ⟨week, hweek, htimeframe, (congrArg CandleKey.symbol hdkey).symm, ?_⟩
        have hopen : d.openTime = openTime := congrArg CandleKey.openTime hdkey
        unfold inWeek
        rw [hopen]
        exact decide_eq_true ⟨hlow, hhigh⟩
      rw [hreplaced, hleaves hadmissible hdaily d (hkey ▸ hd) hweekStored hwhy]
  refine ⟨fun d hd hdaily => ?_, fun week hweek htimeframe => ?_, fun conflict hconflict => ?_⟩
  · rw [mem_store_iff, hvalue] at hd
    split_ifs at hd with hkey
    · have hraw : raw.timeframe = .daily := by
        rw [← hdaily]
        exact (congrArg CandleKey.timeframe hkey).symm
      cases hget : r.get? (keyOf raw) with
      | none =>
        rw [hget] at hd
        cases hd
        exact canonical_candleOf hraw t
      | some existing =>
        rw [hget, Option.some.injEq] at hd
        rcases liveValue_eq_or existing (candleOf raw t) t with hkept | ⟨hreplaced, _⟩
        · rw [← hd, hkept] at hdaily ⊢
          exact hr.canonical existing (mem_of_get? hget) hdaily
        · rw [← hd, hreplaced]
          exact canonical_candleOf hraw t
    · exact hr.canonical d (mem_store_iff.mpr hd) hdaily
  · have hne : week.key ≠ keyOf raw := by
      intro hkey
      refine hraw ?_
      rw [← htimeframe]
      exact (congrArg CandleKey.timeframe hkey).symm
    rw [mem_store_iff, hother _ hne] at hweek
    exact hsame week (mem_store_iff.mpr hweek) htimeframe
  · rw [conflicts_ingested, if_pos hadmissible] at hconflict
    rcases List.mem_append.mp hconflict with hold | hnew
    · exact hr.agree conflict hold
    · rw [key_of_upsertLiveReturn hnew]
      exact hraw

/-- Each update, at its turn, leaves the days of derived weeks as they are. -/
def AllLeave (t : Time) : CandleRepository → List RawCandle → Prop
  | _, [] => True
  | r, raw :: raws => Leaves t r raw ∧ AllLeave t (ingested t r raw) raws

instance (t : Time) : ∀ r raws, Decidable (AllLeave t r raws)
  | _, [] => .isTrue trivial
  | r, raw :: raws =>
    have := instDecidableAllLeave t (ingested t r raw) raws
    inferInstanceAs (Decidable (Leaves t r raw ∧ AllLeave t (ingested t r raw) raws))

theorem derived_ingestedAll (hr : Derived r) {raws : List RawCandle} (hraws : ∀ raw ∈ raws, raw.timeframe ≠ .weekly)
    (hleave : AllLeave t r raws) : Derived (raws.foldl (ingested t) r) := by
  induction raws generalizing r with
  | nil => exact hr
  | cons raw raws ih =>
    exact ih (derived_ingested hr (hraws raw List.mem_cons_self) hleave.1)
      (fun raw' hraw' => hraws raw' (List.mem_cons_of_mem _ hraw')) hleave.2

end Invariant

section Runs

def WeeksFollowDays (r : CandleRepository) : Prop :=
  (∀ week ∈ r.store, week.timeframe = .weekly → aggregated r week.symbol week.openTime = some week) ∧
    ∀ conflict ∈ r.conflicts, conflict.key.timeframe ≠ .weekly

/-- Every batch that a runtime has ingested left the days of derived weeks as they were. -/
def DaysKept (rt : MarketDataRuntime) : Prop :=
  ∀ e ∈ rt.ingestLog, AllLeave e.evaluationTime e.before e.raws

instance (rt : MarketDataRuntime) : Decidable (DaysKept rt) := by
  unfold DaysKept
  infer_instance

theorem derived_empty : Derived {} := ⟨by simp, by simp, by simp⟩

theorem derivedRules : DataRules fun rt => DaysKept rt → Derived rt.repository where
  same := by
    intro rt rt' hinv hrepository hlog hkept
    unfold DaysKept at hkept
    rw [hrepository]
    rw [hlog] at hkept
    exact hinv hkept
  ingest := by
    intro rt raws t hinv hraws hkept
    have hbatch : AllLeave t rt.repository raws := hkept _ (List.mem_append_right _ List.mem_cons_self)
    exact derived_ingestedAll (hinv fun e he => hkept e (List.mem_append_left _ he)) hraws hbatch
  refresh := by
    intro rt t hinv _ hkept
    exact derived_refreshed (hinv hkept) _ t

/-- In every run in which no update changes a day of a derived week, the weeks follow the days. -/
theorem weeks_follow_days {config : HyperliquidPublicConfig} {rt : MarketDataRuntime}
    (hrt : rt = { ws := { config } } ∨ rt = connected config) (actions : List Action)
    (hkept : DaysKept (rt.run actions)) : WeeksFollowDays (rt.run actions).repository := by
  have hstart : Guarded (fun rt => DaysKept rt → Derived rt.repository) rt := by
    rcases hrt with rfl | rfl
    · exact ⟨fun _ => derived_empty, ⟨by simp, by simp⟩, trivial⟩
    · exact ⟨fun _ => derived_empty, ⟨by simp [connected, connectedFeed], by simp [connected, connectedFeed]⟩,
        trivial⟩
  have hderived := (guarded_run derivedRules hstart actions).data hkept
  exact ⟨hderived.weeks, hderived.agree⟩

def btcDay (n : ℕ) (price : Decimal) : CandlePayload :=
  { s := "BTC", i := "1d", t := 1704067200000 + n * 86400000, T := 1704153599999 + n * 86400000
    o := 100, h := 110, l := 90, c := price, v := 10 }

def finalDays (count : ℕ) : List FeedEvent :=
  (List.range count).map fun n => .receive [btcDay n 100] (atSecond (86400 * (n + 1)))

def weekendFeed : List FeedEvent :=
  finalDays 6 ++ [.receive [btcDay 6 100] (atSecond (7 * 86400 - 2)), .poll (atSecond (7 * 86400)),
    .receive [btcDay 6 101] (atSecond (7 * 86400 + 2)), .poll (atSecond (7 * 86400 + 5))]

def calmFeed : List FeedEvent :=
  finalDays 6 ++ [.receive [btcDay 6 100] (atSecond (7 * 86400 - 2)), .poll (atSecond (7 * 86400)),
    .receive [btcDay 6 100] (atSecond (7 * 86400 + 2)), .poll (atSecond (7 * 86400 + 5))]

theorem calm_weeks_follow_days :
    WeeksFollowDays ((connected {}).run (calmFeed.map FeedEvent.action)).repository ∧
      ∃ week ∈ ((connected {}).run (calmFeed.map FeedEvent.action)).repository.store, week.timeframe = .weekly := by
  have hkept : DaysKept ((connected {}).run (calmFeed.map FeedEvent.action)) := by decide +kernel
  exact ⟨weeks_follow_days (.inr rfl) _ hkept, by decide +kernel⟩

/-- The final update of a Sunday leaves a week behind that was derived from an earlier one. -/
theorem weekend_leaves_stale_week : ¬ ∀ (config : HyperliquidPublicConfig) (events : List FeedEvent),
    (∀ event ∈ events, Parsed config event) → Honest (receipts config events) →
    (pollTimes events).Pairwise (· ≤ ·) →
    WeeksFollowDays ((connected config).run (events.map FeedEvent.action)).repository := by
  intro h
  have hfollow := h {} weekendFeed (by decide +kernel) ⟨by decide +kernel, by decide +kernel, by decide +kernel⟩
    (by decide +kernel)
  revert hfollow
  unfold WeeksFollowDays
  decide +kernel

end Runs

end TradingBot.Market.DerivedWeeks
