import TradingBot.Backtester.DayRecords
import TradingBot.Backtester.Positions

namespace TradingBot.Backtester.Valuation

open Market.Models Strategy.Models Exceptions Library.Dictionary Library.Keyed Library.Outcome
open Backtester.Lifecycle Backtester.Models Backtester.Simulation Backtester.Structure Backtester.Conservation
open Backtester.Positions

section Marks

def markPricesFromCandles (positions : List (SimulatedPositionOf String)) (closes : String → Option Decimal) :
    String → Option Decimal := fun symbol =>
  (positions.findRev? (·.symbol = symbol)).map fun p => (closes symbol).getD p.entryPrice

def latestClose (candles : List (CandleOf String)) (t : Time) : Option Decimal := do
  let latest ← ((candles.map (·.openTime)).filter (· ≤ t)).max?
  (candleAt candles latest).map (·.close)

variable {candles : List (CandleOf String)} {candle : CandleOf String} {t : Time}

theorem candleAt_isSome (h : candle ∈ candles) : (candleAt candles candle.openTime).isSome := by
  simp only [candleAt, List.findRev?_eq_find?_reverse, List.find?_isSome, List.mem_reverse, decide_eq_true_eq]
  exact ⟨candle, h, rfl⟩

theorem latestClose_of_candleAt (h : candleAt candles t = some candle) :
    latestClose candles t = some candle.close := by
  obtain ⟨hmem, hopen⟩ := candleAt_mem h
  have hmax : ((candles.map (·.openTime)).filter (· ≤ t)).max? = some t := by
    refine List.max?_eq_some_iff.mpr ⟨?_, fun u hu => ?_⟩
    · exact List.mem_filter.mpr ⟨List.mem_map.mpr ⟨candle, hmem, hopen⟩, by simp⟩
    · simpa using (List.mem_filter.mp hu).2
  unfold latestClose
  rw [hmax]
  change (candleAt candles t).map (·.close) = _
  rw [h]
  rfl

end Marks

section Run

variable {config : BacktestConfig} {bundle : HistoricalDataBundle} {t : Time} {rt : Runtime} {symbol : String}
  {pos : SimulatedPositionOf String}

/-- The state of a run in which a day's snapshot is taken. -/
def AtSnapshot (config : BacktestConfig) (bundle : HistoricalDataBundle) (t : Time) (rt : Runtime) : Prop :=
  ∃ done evalTime later, steps config bundle = done ++ .snapshot t evalTime :: later ∧
    runSteps config bundle done = .ok rt

def snapshotMark (config : BacktestConfig) (bundle : HistoricalDataBundle) (t : Time) (rt : Runtime)
    (pos : SimulatedPositionOf String) : Decimal :=
  (markPricesFromCandles rt.positions.values (closesOn config bundle t) pos.symbol).getD pos.entryPrice

theorem AtSnapshot.reached (h : AtSnapshot config bundle t rt) : Reached config bundle rt := by
  obtain ⟨done, evalTime, later, hsteps, hrun⟩ := h
  exact ⟨done, _, hsteps, hrun⟩

theorem markPricesFromCandles_eq (h : Reached config bundle rt) (hpos : rt.positions.get? symbol = some pos)
    (closes : String → Option Decimal) :
    markPricesFromCandles rt.positions.values closes pos.symbol = some ((closes symbol).getD pos.entryPrice) := by
  have hsound := reached_sound h
  have hkeys : rt.positions.values.map (·.symbol) = rt.positions.keys := by
    unfold Dict.values Dict.keys
    rw [List.map_map]
    refine List.map_congr_left fun e he => ?_
    exact (hsound e.1 e.2 (Dict.get?_eq_some_iff.mpr he)).ownSymbol
  have hnodup : (rt.positions.values.reverse.map (·.symbol)).Nodup := by
    rw [List.map_reverse, List.nodup_reverse, hkeys]
    exact rt.positions.keys_nodup
  unfold markPricesFromCandles
  rw [List.findRev?_eq_find?_reverse,
    find?_key hnodup (List.mem_reverse.mpr (Dict.mem_values_of_get? hpos)), (hsound symbol pos hpos).ownSymbol]
  rfl

def ValuedAtLatest (config : BacktestConfig) (bundle : HistoricalDataBundle) (t : Time) (rt : Runtime) : Prop :=
  ∀ symbol pos, rt.positions.get? symbol = some pos →
    latestClose (bundle.daily symbol) t = some (snapshotMark config bundle t rt pos)

def Covered (bundle : HistoricalDataBundle) (t : Time) (rt : Runtime) : Prop :=
  ∀ symbol pos, rt.positions.get? symbol = some pos →
    (∃ candle ∈ bundle.daily symbol, candle.openTime = t) ∨
      latestClose (bundle.daily symbol) t = some pos.entryPrice

theorem valued_iff_covered (h : AtSnapshot config bundle t rt) :
    ValuedAtLatest config bundle t rt ↔ Covered bundle t rt := by
  refine forall_congr' fun symbol => forall_congr' fun pos => forall_congr' fun hpos => ?_
  have hsound := reached_sound h.reached symbol pos hpos
  have hmark : snapshotMark config bundle t rt pos =
      (closesOn config bundle t symbol).getD pos.entryPrice := by
    unfold snapshotMark
    rw [markPricesFromCandles_eq h.reached hpos]
    rfl
  have hday : dayCandles config bundle t symbol = candleAt (bundle.daily symbol) t := if_pos hsound.traded
  rw [hmark]
  unfold closesOn
  rw [hday]
  cases hcandle : candleAt (bundle.daily symbol) t with
  | some candle =>
    obtain ⟨hmem, hopen⟩ := candleAt_mem hcandle
    exact ⟨fun _ => .inl ⟨candle, hmem, hopen⟩, fun _ => latestClose_of_candleAt hcandle⟩
  | none =>
    refine ⟨fun hlatest => .inr hlatest, fun hcovered => hcovered.resolve_left ?_⟩
    rintro ⟨candle, hmem, rfl⟩
    have hsome := candleAt_isSome hmem
    rw [hcandle] at hsome
    cases hsome

theorem takeSnapshot_marks (h : AtSnapshot config bundle t rt) (evalTime : Time) :
    ∃ snap, (takeSnapshot config bundle rt t evalTime).equityCurve = rt.equityCurve ++ [snap] ∧
      snap.equity = rt.cash + snap.unrealizedPnl ∧
      snap.unrealizedPnl = (rt.positions.values.map fun pos =>
        pos.quantity * (snapshotMark config bundle t rt pos - pos.entryPrice)).sum := by
  refine ⟨_, rfl, rfl, ?_⟩
  refine congrArg List.sum (List.map_congr_left fun pos hpos => ?_)
  obtain ⟨symbol, hpos⟩ := Dict.mem_values_iff.mp hpos
  have hsymbol : pos.symbol = symbol := (reached_sound h.reached symbol pos hpos).ownSymbol
  unfold snapshotMark
  rw [markPricesFromCandles_eq h.reached hpos, hsymbol]
  rfl

/-- On the snapshots of a run the positions are valued at their latest closes exactly when no position lacks the
candle of the day, unless its latest close is its entry price. -/
theorem snapshot_marks (config : BacktestConfig) (bundle : HistoricalDataBundle) :
    (∀ t rt, AtSnapshot config bundle t rt →
      (∀ evalTime, ∃ snap, (takeSnapshot config bundle rt t evalTime).equityCurve = rt.equityCurve ++ [snap] ∧
        snap.equity = rt.cash + snap.unrealizedPnl ∧
        snap.unrealizedPnl = (rt.positions.values.map fun pos =>
          pos.quantity * (snapshotMark config bundle t rt pos - pos.entryPrice)).sum) ∧
      (ValuedAtLatest config bundle t rt ↔ Covered bundle t rt)) ∧
    ((∀ t rt, AtSnapshot config bundle t rt → ValuedAtLatest config bundle t rt) ↔
      ∀ t rt, AtSnapshot config bundle t rt → Covered bundle t rt) :=
  ⟨fun _ _ h => ⟨takeSnapshot_marks h, valued_iff_covered h⟩,
    forall_congr' fun _ => forall_congr' fun _ => forall_congr' fun h => valued_iff_covered h⟩

def pairConfig : BacktestConfig := { sampleConfig with symbols := ["BTC", "ETH"] }

def pairBundle : HistoricalDataBundle :=
  { sampleBundle 0 with
    daily := fun symbol =>
      if symbol = "ETH" then
        [{ sampleBar .daily (3 * day) (4 * day - 1) 10 11 9 10 with symbol := "ETH" }]
      else (sampleBundle 0).daily symbol }

theorem exists_atSnapshot (n : ℕ) (evalTime : Time) {price : Decimal}
    (hsteps : steps config bundle = (steps config bundle).take n ++
      .snapshot t evalTime :: (steps config bundle).drop (n + 1))
    (hrun : (match runSteps config bundle ((steps config bundle).take n) with
      | .error _ => none
      | .ok rt => some (rt.positions.keys, (rt.positions.get? "BTC").map (·.entryPrice))) =
        some (["BTC"], some price)) :
    ∃ rt pos, AtSnapshot config bundle t rt ∧ rt.positions.keys = ["BTC"] ∧
      rt.positions.get? "BTC" = some pos ∧ pos.entryPrice = price := by
  split at hrun
  · cases hrun
  · rename_i rt hdone
    simp only [Option.some.injEq, Prod.mk.injEq] at hrun
    obtain ⟨pos, hpos, hprice⟩ := Option.map_eq_some_iff.mp hrun.2
    exact ⟨rt, pos, ⟨_, evalTime, _, hsteps, hdone⟩, hrun.1, hpos, hprice⟩

/-- On the day of its entry the position is valued at the day's close. -/
theorem snapshot_marks_pair : ∃ rt pos, AtSnapshot pairConfig pairBundle (2 * day) rt ∧
    rt.positions.get? "BTC" = some pos ∧
    latestClose (pairBundle.daily "BTC") (2 * day) = some (snapshotMark pairConfig pairBundle (2 * day) rt pos) := by
  obtain ⟨rt, pos, hsnapshot, hkeys, hpos, _⟩ : ∃ rt pos, AtSnapshot pairConfig pairBundle (2 * day) rt ∧
      rt.positions.keys = ["BTC"] ∧ rt.positions.get? "BTC" = some pos ∧ pos.entryPrice = 22011 / 200 :=
    exists_atSnapshot 32 (3 * day - 1 + 5 * second) (by decide +kernel) (by decide +kernel)
  have hcovered : Covered pairBundle (2 * day) rt := by
    intro symbol other hother
    have hsymbol := Dict.mem_keys_of_get? hother
    rw [hkeys, List.mem_singleton] at hsymbol
    rw [hsymbol]
    exact .inl (by decide +kernel)
  exact ⟨rt, pos, hsnapshot, hpos, (((snapshot_marks _ _).1 _ rt hsnapshot).2.mpr hcovered) "BTC" pos hpos⟩

/-- The day after the position is valued at its entry price, and not at the last close. -/
theorem entry_price_as_mark : ∃ rt pos, AtSnapshot pairConfig pairBundle (3 * day) rt ∧
    rt.positions.get? "BTC" = some pos ∧ latestClose (pairBundle.daily "BTC") (3 * day) = some 115 ∧
    snapshotMark pairConfig pairBundle (3 * day) rt pos = 22011 / 200 ∧
    ¬ ValuedAtLatest pairConfig pairBundle (3 * day) rt := by
  obtain ⟨rt, pos, hsnapshot, _, hpos, hprice⟩ : ∃ rt pos, AtSnapshot pairConfig pairBundle (3 * day) rt ∧
      rt.positions.keys = ["BTC"] ∧ rt.positions.get? "BTC" = some pos ∧ pos.entryPrice = 22011 / 200 :=
    exists_atSnapshot 43 (4 * day - 1 + 5 * second) (by decide +kernel) (by decide +kernel)
  have hnone : closesOn pairConfig pairBundle (3 * day) "BTC" = none := by decide +kernel
  have hclose : latestClose (pairBundle.daily "BTC") (3 * day) = some 115 := by decide +kernel
  have hmark : snapshotMark pairConfig pairBundle (3 * day) rt pos = 22011 / 200 := by
    unfold snapshotMark
    rw [markPricesFromCandles_eq hsnapshot.reached hpos, hnone]
    exact hprice
  refine ⟨rt, pos, hsnapshot, hpos, hclose, hmark, fun hvalued => ?_⟩
  have hsame := hvalued "BTC" pos hpos
  rw [hclose, hmark, Option.some.injEq] at hsame
  norm_num at hsame

end Run

end TradingBot.Backtester.Valuation
