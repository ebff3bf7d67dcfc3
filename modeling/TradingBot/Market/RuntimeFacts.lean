import TradingBot.Market.IngestFacts
import TradingBot.Market.Runtime

namespace TradingBot.Market.RuntimeFacts

open Market.Models Market.Repository Market.Timeframes Market.Quality Market.Provider Market.Feed Market.Ingest
open Market.Aggregation Market.IngestFacts Market.Runtime MarketDataRuntime Exceptions
open Library.Outcome (except_bind_eq_ok mapM_all mapM_ok)

section Weeks

variable {r : CandleRepository} {dailies weeks : List Candle} {symbol : Symbol} {t : Time}

def weekOf (dailies : List Candle) (symbol : Symbol) (t weekStart : Time) : Option Candle :=
  aggregateBucket dailies symbol .weekly weekStart (weekStart + 6 * day + 86399 * second) t
    (dayRange weekStart 7)

theorem mem_weekStarts {firstDay lastDay weekStart : Time} (h : weekStart ∈ weekStarts firstDay lastDay) :
    weeklyClose weekStart = .ok (weekStart + 6 * day + 86399 * second) := by
  unfold weekStarts at h
  simp only at h
  split_ifs at h with hlast
  · cases h
  · obtain ⟨n, _, rfl⟩ := List.mem_map.mp h
    exact weeklyClose_weekStart firstDay n

def weekStartsOf (dailies : List Candle) : List Time :=
  match dailies.head?, dailies.getLast? with
  | some first, some last => weekStarts (dailyOpen first.openTime) (dailyOpen last.openTime)
  | _, _ => []

theorem aggregateWeeklyFromDaily_eq (dailies : List Candle) (symbol : Symbol) (t : Time) :
    aggregateWeeklyFromDaily dailies symbol t =
      .ok ((weekStartsOf (sortCandles (dailies.filter (·.symbol = symbol)))).filterMap
        (weekOf (sortCandles (dailies.filter (·.symbol = symbol))) symbol t)) := by
  unfold aggregateWeeklyFromDaily weekStartsOf
  simp only
  generalize sortCandles (dailies.filter (·.symbol = symbol)) = sorted
  cases sorted.head? with
  | none => rfl
  | some first =>
    cases sorted.getLast? with
    | none => rfl
    | some last =>
      simp only
      rw [mapM_ok (g := weekOf sorted symbol t)]
      · simp [bind, Except.bind, pure, Except.pure, List.reduceOption]
      · intro weekStart hstart
        unfold aggregateWeek
        rw [mem_weekStarts hstart]
        rfl

theorem weekOf_eq_some {weekStart : Time} {week : Candle} (h : weekOf dailies symbol t weekStart = some week) :
    week.key = ⟨symbol, .weekly, weekStart⟩ ∧ week.closeTime = weekStart + 6 * day + 86399 * second ∧
      week.closeTime ≤ t := by
  unfold weekOf aggregateBucket at h
  simp only at h
  split_ifs at h with hopen hdays
  · split at h
    · cases h
    · cases h
      exact ⟨rfl, rfl, by simpa [isCandleClosed] using hopen⟩
  · split at h <;> cases h

end Weeks

section Refresh

variable {r : CandleRepository} {symbols : List Symbol} {t : Time}

def derivedWeeks (r : CandleRepository) (symbol : Symbol) (t : Time) : List Candle :=
  let dailies := sortCandles ((r.getClosedBefore symbol .daily t).filter (·.symbol = symbol))
  (weekStartsOf dailies).filterMap (weekOf dailies symbol t)

def refreshed (symbols : List Symbol) (t : Time) (r : CandleRepository) : CandleRepository :=
  symbols.foldl (fun r symbol => upsertMany r (derivedWeeks r symbol t)) r

theorem refreshIsoWeekly_eq (r : CandleRepository) (symbols : List Symbol) (t : Time) :
    refreshIsoWeekly r symbols t = .ok (refreshed symbols t r) := by
  unfold refreshIsoWeekly
  induction symbols generalizing r with
  | nil => rfl
  | cons symbol symbols ih =>
    have hstep : refreshWeeksOf t r symbol = .ok (upsertMany r (derivedWeeks r symbol t)) := by
      unfold refreshWeeksOf
      rw [aggregateWeeklyFromDaily_eq]
      rfl
    rw [List.foldlM_cons, hstep]
    exact ih _

end Refresh

section Parsing

theorem parseCandle_ok {item : CandlePayload} {coin interval : String} {now : Time} {raw : RawCandle}
    (h : parseCandle item coin interval now = .ok raw) :
    raw.isClosed = decide (raw.closeTime ≤ now) ∧ resolveInterval item.i = .ok (interval, raw.timeframe) := by
  unfold parseCandle at h
  split at h
  · cases h
  · split_ifs at h
    cases hinterval : resolveInterval item.i with
    | error exc =>
      rw [hinterval] at h
      cases h
    | ok resolved =>
      rw [hinterval] at h
      simp only [bind, Except.bind] at h
      split_ifs at h with hkey
      have hname : resolved.1 = interval := not_not.mp hkey
      cases hopen : epochMsToUtc item.t "t" with
      | error exc =>
        rw [hopen] at h
        cases h
      | ok openTime =>
        cases hclose : epochMsToUtc item.T "T" with
        | error exc =>
          rw [hopen, hclose] at h
          cases h
        | ok closeTime =>
          rw [hopen, hclose] at h
          simp only at h
          split_ifs at h
          cases h
          rw [← hname]
          exact ⟨rfl, rfl⟩

theorem resolveInterval_timeframe {interval : String} {timeframe timeframe' : Timeframe}
    (h : resolveInterval interval = .ok (intervalForTimeframe timeframe', timeframe)) :
    timeframe = timeframe' := by
  have hlookup : ∀ tf, hlIntervalToTimeframe.lookup (intervalForTimeframe tf) = some tf := by
    intro tf
    cases tf <;> rfl
  have hkey : hlIntervalToTimeframe.lookup (intervalForTimeframe timeframe') = some timeframe := by
    unfold resolveInterval at h
    split at h
    · rename_i hfound
      obtain ⟨hname, rfl⟩ := Prod.mk.inj (Except.ok.inj h)
      rw [← hname, hfound]
    · rename_i hfound
      obtain ⟨hname, rfl⟩ := Prod.mk.inj (Except.ok.inj h)
      rw [← hname, hfound]
    · rename_i key _ _ _
      cases hfound : hlIntervalToTimeframe.lookup key with
      | none =>
        rw [hfound] at h
        cases h
      | some tf =>
        rw [hfound] at h
        obtain ⟨hname, rfl⟩ := Prod.mk.inj (Except.ok.inj h)
        rw [← hname, hfound]
    · cases h
  rw [hlookup] at hkey
  exact (Option.some.inj hkey).symm

theorem timeframe_of_takesIn {f : WebSocketFeed} {item : CandlePayload} {now : Time} {raw : RawCandle}
    (htakes : f.takesIn (subKey item.s.toUpper item.i) = true)
    (hparse : parseCandle item item.s.toUpper item.i now = .ok raw) : raw.timeframe ≠ .weekly := by
  obtain ⟨_, hinterval⟩ := parseCandle_ok hparse
  have hkey : subKey item.s.toUpper item.i ∈ f.expectedSubs := by
    simpa using (Bool.and_eq_true_iff.mp htakes).1
  unfold WebSocketFeed.expectedSubs at hkey
  obtain ⟨⟨symbol, timeframe⟩, hsubscription, hsub⟩ := List.mem_map.mp (List.mem_dedup.mp hkey)
  have htimeframe : timeframe ≠ .weekly := by simpa using (List.mem_filter.mp hsubscription).2
  have hname : intervalForTimeframe timeframe = item.i := congrArg Prod.snd hsub
  have hresolve : resolveInterval (intervalForTimeframe timeframe) =
      .ok (intervalForTimeframe timeframe, timeframe) := by cases timeframe <;> rfl
  rw [← hname, hresolve] at hinterval
  rw [← (Prod.mk.inj (Except.ok.inj hinterval)).2]
  exact htimeframe

end Parsing

section Updates

variable {rt : MarketDataRuntime} {raws : List RawCandle} {t : Time}

def afterIngest (rt : MarketDataRuntime) (raws : List RawCandle) (t : Time) : MarketDataRuntime :=
  { rt with
    repository := raws.foldl (ingested t) rt.repository
    ingestLog := rt.ingestLog ++ [⟨rt.repository, t, raws⟩] }

def afterRefresh (rt : MarketDataRuntime) (t : Time) : MarketDataRuntime :=
  { rt with repository := refreshed rt.ws.config.symbols t rt.repository }

theorem ingest_eq (rt : MarketDataRuntime) (raws : List RawCandle) (t : Time) :
    ∃ result, rt.ingest raws t = .ok (afterIngest rt raws t, result) := by
  obtain ⟨result, hresult⟩ := ingestLiveRaw_eq rt.repository raws t
  refine ⟨result, ?_⟩
  unfold MarketDataRuntime.ingest
  rw [hresult]
  rfl

theorem refreshWeeks_eq (rt : MarketDataRuntime) (t : Time) : rt.refreshWeeks t = .ok (afterRefresh rt t) := by
  unfold MarketDataRuntime.refreshWeeks
  rw [refreshIsoWeekly_eq]
  rfl

theorem bundles_of_refresh {rt' : MarketDataRuntime} (h : rt.refreshStrategyBundleReadiness t = .ok rt') :
    ∃ ready, rt' = { rt with strategyBundlesReady := ready } ∧
      ((∀ symbol ∈ rt.ws.config.symbols, marketDataReady rt.repository t symbol = .ok true) → ready = true) := by
  obtain ⟨ready, hready, hrt⟩ := except_bind_eq_ok.mp h
  cases hrt
  refine ⟨ready.all id, rfl, fun hall => ?_⟩
  obtain ⟨bs, hbs, htrue⟩ := mapM_all (p := (· = true)) fun symbol hsymbol => ⟨true, hall symbol hsymbol, rfl⟩
  rw [hready] at hbs
  cases hbs
  rw [List.all_eq_true]
  exact htrue

theorem ingestLive_returns (rt : MarketDataRuntime) (t : Time) : ∃ n, rt.ingestLive t =
    (afterRefresh (afterIngest { rt with ws := (rt.ws.drainEvents maxItems).1 }
      (rt.ws.liveQueue.take maxItems) t) t, .returned n) := by
  obtain ⟨result, hresult⟩ := ingest_eq { rt with ws := (rt.ws.drainEvents maxItems).1 }
    (rt.ws.liveQueue.take maxItems) t
  refine ⟨result.inserted, ?_⟩
  unfold MarketDataRuntime.ingestLive
  simp only [WebSocketFeed.drainEvents] at hresult ⊢
  simp only [hresult, refreshWeeks_eq]

theorem ingestLive_eq (rt : MarketDataRuntime) (t : Time) : (rt.ingestLive t).1 =
    afterRefresh (afterIngest { rt with ws := (rt.ws.drainEvents maxItems).1 }
      (rt.ws.liveQueue.take maxItems) t) t := by
  obtain ⟨n, hlive⟩ := ingestLive_returns rt t
  rw [hlive]

end Updates

end TradingBot.Market.RuntimeFacts
