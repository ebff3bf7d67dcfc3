import Mathlib.Data.List.Pairwise
import Mathlib.Data.List.Sort
import TradingBot.Market.Models

namespace TradingBot.Market.Repository

open Market.Models

structure CandleConflict where
  key : CandleKey
  existing : Candle
  incoming : Candle
deriving DecidableEq, Repr

/-- The in-memory candles, one for each key, and the conflicting updates seen. -/
structure CandleRepository where
  store : List Candle := []
  conflicts : List CandleConflict := []
  keys : (store.map Candle.key).Nodup := by exact List.nodup_nil

namespace CandleRepository

def get? (r : CandleRepository) (key : CandleKey) : Option Candle := r.store.find? (·.key = key)

def add (r : CandleRepository) (c : Candle) (h : r.get? c.key = none) : CandleRepository :=
  { r with
    store := r.store ++ [c]
    keys := by
      rw [List.map_append, List.map_singleton]
      refine List.Nodup.append r.keys (List.nodup_singleton _) ?_
      simpa [get?, List.find?_eq_none] using h }

def replace (r : CandleRepository) (c : Candle) : CandleRepository :=
  { r with
    store := r.store.map fun d => if d.key = c.key then c else d
    keys := by
      have hkeys : (r.store.map fun d => if d.key = c.key then c else d).map Candle.key =
          r.store.map Candle.key := by
        rw [List.map_map]
        refine List.map_congr_left fun d _ => ?_
        by_cases h : d.key = c.key <;> simp [h]
      exact hkeys ▸ r.keys }

def conflict (r : CandleRepository) (existing incoming : Candle) : CandleRepository :=
  { r with conflicts := r.conflicts ++ [⟨incoming.key, existing, incoming⟩] }

/-- Inserts a candle or ignores an identical one. -/
def upsert (r : CandleRepository) (c : Candle) : CandleRepository :=
  match h : r.get? c.key with
  | none => r.add c h
  | some existing => if existing = c then r else r.conflict existing c

/-- The policy for live feeds: an open candle is updated, and finalized once. -/
def upsertLive (r : CandleRepository) (c : Candle) (evaluationTime : Time) : CandleRepository :=
  match h : r.get? c.key with
  | none => r.add c h
  | some existing =>
    if existing = c then r
    else if !existing.isClosed && c.isClosed then r.replace c
    else if !isCandleClosed existing.closeTime evaluationTime then r.replace c
    else r.conflict existing c

def ofSeries (r : CandleRepository) (symbol : Symbol) (timeframe : Timeframe) : List Candle :=
  r.store.filter fun c => c.symbol = symbol ∧ c.timeframe = timeframe

def getRange (r : CandleRepository) (symbol : Symbol) (timeframe : Timeframe)
    (start stop : Option Time := none) : List Candle :=
  ((r.ofSeries symbol timeframe).filter fun c =>
    start.all (· ≤ c.openTime) && stop.all (c.openTime ≤ ·)).insertionSort
      fun a b => a.openTime ≤ b.openTime

def getLatest (r : CandleRepository) (symbol : Symbol) (timeframe : Timeframe) : Option Candle :=
  (r.getRange symbol timeframe).getLast?

def getClosedBefore (r : CandleRepository) (symbol : Symbol) (timeframe : Timeframe)
    (evaluationTime : Time) : List Candle :=
  (r.getRange symbol timeframe).filter fun c => isCandleClosed c.closeTime evaluationTime

section Lookups

variable {r : CandleRepository} {symbol : Symbol} {timeframe : Timeframe} {c d : Candle}

theorem mem_ofSeries :
    c ∈ r.ofSeries symbol timeframe ↔ c ∈ r.store ∧ c.symbol = symbol ∧ c.timeframe = timeframe := by
  simp [ofSeries]

theorem getRange_perm : (r.getRange symbol timeframe).Perm (r.ofSeries symbol timeframe) := by
  refine (List.perm_insertionSort _ _).trans ?_
  simp

theorem getRange_sorted :
    (r.getRange symbol timeframe).Pairwise fun a b => a.openTime ≤ b.openTime :=
  have : Std.Total fun a b : Candle => a.openTime ≤ b.openTime :=
    ⟨fun a b => le_total a.openTime b.openTime⟩
  have : IsTrans Candle fun a b => a.openTime ≤ b.openTime := ⟨fun _ _ _ => le_trans⟩
  List.pairwise_insertionSort _ _

theorem eq_of_openTime_eq (hc : c ∈ r.ofSeries symbol timeframe) (hd : d ∈ r.ofSeries symbol timeframe)
    (h : c.openTime = d.openTime) : c = d := by
  obtain ⟨hc, hcs, hct⟩ := mem_ofSeries.mp hc
  obtain ⟨hd, hds, hdt⟩ := mem_ofSeries.mp hd
  refine List.inj_on_of_nodup_map r.keys hc hd ?_
  simp [Candle.key, hcs, hct, hds, hdt, h]

theorem getLatest_eq_some_iff :
    r.getLatest symbol timeframe = some c ↔
      c ∈ r.ofSeries symbol timeframe ∧ ∀ d ∈ r.ofSeries symbol timeframe, d.openTime ≤ c.openTime := by
  have hlast : ∀ e, r.getLatest symbol timeframe = some e →
      e ∈ r.ofSeries symbol timeframe ∧ ∀ d ∈ r.ofSeries symbol timeframe, d.openTime ≤ e.openTime := by
    intro e he
    refine ⟨getRange_perm.mem_iff.mp (List.mem_of_getLast? he), fun d hd => ?_⟩
    have hne : r.getRange symbol timeframe ≠ [] := List.ne_nil_of_mem (List.mem_of_getLast? he)
    rw [getLatest, List.getLast?_eq_some_getLast hne, Option.some.injEq] at he
    subst he
    have : Std.Refl fun a b : Candle => a.openTime ≤ b.openTime := ⟨fun a => le_refl a.openTime⟩
    exact getRange_sorted.rel_getLast (getRange_perm.mem_iff.mpr hd)
  refine ⟨hlast c, fun ⟨hc, hmax⟩ => ?_⟩
  cases he : r.getLatest symbol timeframe with
  | none =>
    have hnil : r.getRange symbol timeframe = [] := List.getLast?_eq_none_iff.mp he
    have hmem := getRange_perm.mem_iff.mpr hc
    rw [hnil] at hmem
    cases hmem
  | some e =>
    obtain ⟨hmem, hge⟩ := hlast e he
    rw [eq_of_openTime_eq hmem hc (le_antisymm (hmax e hmem) (hge c hc))]

end Lookups

end CandleRepository

end TradingBot.Market.Repository
