import TradingBot.Backtester.Metrics
import TradingBot.Library.Grouping

namespace TradingBot.Backtester.GroupedMetrics

open Market.Models Strategy.Models Backtester.Models Backtester.Metrics Library.Drawdown Library.Grouping Library.Rounding

section Rows

variable {κ : Type}

/-- The measures of the trades with one symbol or one entry type. -/
structure GroupMetrics (κ : Type) where
  key : κ
  tradeCount : ℕ
  netPnl : Decimal
  winRate : Option Decimal
deriving DecidableEq, Repr

abbrev SymbolMetrics := GroupMetrics String

abbrev EntryTypeMetrics := GroupMetrics EntryType

def closedTrades (trades : List BacktestTrade) : List BacktestTrade := trades.filter (·.netPnl.isSome)

/-- The sum leaves out results of zero. -/
def netPnlOf (trades : List BacktestTrade) : Decimal :=
  total decimalResult ((trades.filterMap (·.netPnl)).filter (· ≠ 0))

def groupMetrics (key : κ) (trades : List BacktestTrade) : GroupMetrics κ where
  key := key
  tradeCount := trades.length
  netPnl := netPnlOf trades
  winRate := safeDiv ((trades.filterMap (·.netPnl)).countP (0 < ·)) trades.length

def perSymbol (trades : List BacktestTrade) : List SymbolMetrics :=
  let closed := closedTrades trades
  ((closed.map (·.symbol)).dedup.insertionSort (· ≤ ·)).map fun symbol =>
    groupMetrics symbol (group (·.symbol) closed symbol)

def perEntryType (trades : List BacktestTrade) : List EntryTypeMetrics :=
  let closed := closedTrades trades
  [EntryType.breakout, .pullback].filterMap fun entryType =>
    let trades := group (·.entryType) closed entryType
    if trades.isEmpty then none else some (groupMetrics entryType trades)

end Rows

section Partition

variable {κ : Type} [DecidableEq κ]

/-- The part of their magnitudes that sums of so many results may be off. -/
def roundingPart (count : ℕ) : Decimal := (1 + 5 / 10 ^ 28) ^ count - 1

/-- Rows that split the closed trades by a key: their counts add up to the count of all, and their results to the
result of all but for the roundings of the sums. -/
structure Partition (rows : List (GroupMetrics κ)) (key : BacktestTrade → κ) (trades : List BacktestTrade)
    (curve : List EquitySnapshot) : Prop where
  nodup : (rows.map (·.key)).Nodup
  covers : ∀ t ∈ closedTrades trades, key t ∈ rows.map (·.key)
  each : ∀ row ∈ rows, row = groupMetrics row.key ((closedTrades trades).filter fun t => key t = row.key)
  count : (rows.map (·.tradeCount)).sum = (computeMetrics trades curve).tradeCount
  netPnl : |(rows.map (·.netPnl)).sum - (trades.filterMap (·.netPnl)).sum| ≤
    roundingPart (computeMetrics trades curve).tradeCount * ((trades.filterMap (·.netPnl)).map abs).sum

variable {trades : List BacktestTrade} {key : BacktestTrade → κ} {n : ℕ}

def gain (t : BacktestTrade) : Decimal := t.netPnl.getD 0

theorem sum_results {f : Decimal → Decimal} (hf : f 0 = 0) (trades : List BacktestTrade) :
    (((trades.filterMap (·.netPnl)).filter (· ≠ 0)).map f).sum = (trades.map fun t => f (gain t)).sum := by
  induction trades with
  | nil => rfl
  | cons t trades ih =>
    rw [List.map_cons, List.sum_cons, ← ih]
    cases hpnl : t.netPnl with
    | none => simp [gain, hpnl, hf]
    | some pnl =>
      by_cases hzero : pnl = 0
      · simp [gain, hpnl, hzero, hf]
      · simp [gain, hpnl, hzero]

theorem sum_closed (f : Decimal → Decimal) (trades : List BacktestTrade) :
    ((trades.filterMap (·.netPnl)).map f).sum = ((closedTrades trades).map fun t => f (gain t)).sum := by
  induction trades with
  | nil => rfl
  | cons t trades ih =>
    cases hpnl : t.netPnl with
    | none => simpa [closedTrades, hpnl] using ih
    | some pnl => simpa [closedTrades, hpnl, gain] using ih

theorem abs_netPnlOf_sub_le (hn : trades.length ≤ n) :
    |netPnlOf trades - (trades.map gain).sum| ≤ roundingPart n * (trades.map fun t => |gain t|).sum := by
  have hresult := rounds_decimalResult.abs_total_sub_sum_le ((trades.filterMap (·.netPnl)).filter (· ≠ 0))
  have hsum := sum_results (f := id) rfl trades
  rw [List.map_id] at hsum
  rw [hsum, sum_results abs_zero] at hresult
  have hlength : ((trades.filterMap (·.netPnl)).filter (· ≠ 0)).length ≤ n :=
    (List.length_filter_le _ _).trans ((List.length_filterMap_le _ _).trans hn)
  have hpow : ((1 : Decimal) + 5 / 10 ^ 28) ^ ((trades.filterMap (·.netPnl)).filter (· ≠ 0)).length ≤
      (1 + 5 / 10 ^ 28) ^ n := pow_le_pow_right₀ (by norm_num) hlength
  have hmagnitude : 0 ≤ (trades.map fun t => |gain t|).sum := by
    apply List.sum_nonneg
    intro x hx
    obtain ⟨t, -, rfl⟩ := List.mem_map.mp hx
    exact abs_nonneg _
  exact hresult.trans (mul_le_mul_of_nonneg_right (sub_le_sub_right hpow 1) hmagnitude)

/-- The results of the groups are off by no more than the roundings of a sum over all of them. -/
theorem abs_groups_sub_le {keys : List κ} {closed : List BacktestTrade} (hnodup : keys.Nodup)
    (hkeys : ∀ t ∈ closed, key t ∈ keys) :
    |(keys.map fun k => netPnlOf (group key closed k)).sum - (closed.map gain).sum| ≤
      roundingPart closed.length * (closed.map fun t => |gain t|).sum := by
  rw [← sum_groups hnodup hkeys gain, ← sum_groups hnodup hkeys fun t => |gain t|, ← List.sum_map_mul_left]
  clear hnodup hkeys
  induction keys with
  | nil => simp
  | cons k keys ih =>
    simp only [List.map_cons, List.sum_cons]
    have hgroup := abs_netPnlOf_sub_le (show (group key closed k).length ≤ closed.length from List.length_filter_le _ _)
    rw [add_sub_add_comm]
    exact (abs_add_le _ _).trans (add_le_add hgroup ih)

theorem tradeCount_eq (trades : List BacktestTrade) (curve : List EquitySnapshot) :
    (computeMetrics trades curve).tradeCount = (closedTrades trades).length := by
  have hcount : (computeMetrics trades curve).tradeCount = (trades.filterMap (·.netPnl)).length := rfl
  rw [hcount, List.length_filterMap_eq_countP, List.countP_eq_length_filter]
  rfl

theorem partition_of_keys {keys : List κ} (hnodup : keys.Nodup) (hkeys : ∀ t ∈ closedTrades trades, key t ∈ keys)
    (curve : List EquitySnapshot) :
    Partition (keys.map fun k => groupMetrics k (group key (closedTrades trades) k)) key trades curve := by
  have hrows : (keys.map fun k => groupMetrics k (group key (closedTrades trades) k)).map (·.key) = keys := by
    rw [List.map_map]
    exact List.map_id' keys
  constructor
  · rwa [hrows]
  · rwa [hrows]
  · intro row hrow
    obtain ⟨k, _, rfl⟩ := List.mem_map.mp hrow
    rfl
  · rw [List.map_map, tradeCount_eq]
    exact length_groups hnodup hkeys
  · have hsum := sum_closed id trades
    rw [List.map_id] at hsum
    rw [List.map_map, tradeCount_eq, hsum, sum_closed abs]
    exact abs_groups_sub_le hnodup hkeys

theorem perSymbol_partition (trades : List BacktestTrade) (curve : List EquitySnapshot) :
    Partition (perSymbol trades) (·.symbol) trades curve := by
  have hperm := List.perm_insertionSort (· ≤ ·) ((closedTrades trades).map (·.symbol)).dedup
  apply partition_of_keys
  · exact hperm.nodup_iff.mpr (List.nodup_dedup _)
  · intro t ht
    exact hperm.mem_iff.mpr (List.mem_dedup.mpr (List.mem_map_of_mem ht))

def tradedEntryTypes (trades : List BacktestTrade) : List EntryType :=
  [EntryType.breakout, .pullback].filter fun entryType =>
    ¬ (group (·.entryType) (closedTrades trades) entryType).isEmpty

theorem perEntryType_eq (trades : List BacktestTrade) : perEntryType trades =
    (tradedEntryTypes trades).map fun entryType =>
      groupMetrics entryType (group (·.entryType) (closedTrades trades) entryType) := by
  unfold perEntryType tradedEntryTypes
  induction [EntryType.breakout, .pullback] with
  | nil => rfl
  | cons entryType entryTypes ih =>
    by_cases hempty : group (·.entryType) (closedTrades trades) entryType = []
    · simpa [List.filterMap_cons, List.filter_cons, hempty] using ih
    · simpa [List.filterMap_cons, List.filter_cons, hempty] using ih

theorem perEntryType_partition (trades : List BacktestTrade) (curve : List EquitySnapshot) :
    Partition (perEntryType trades) (·.entryType) trades curve := by
  rw [perEntryType_eq]
  apply partition_of_keys
  · exact List.Nodup.filter _ (by decide)
  · intro t ht
    have hmember : t ∈ group (·.entryType) (closedTrades trades) t.entryType := (mem_group _).mpr ⟨ht, rfl⟩
    have hlisted : t.entryType ∈ [EntryType.breakout, .pullback] := by
      cases t.entryType <;> decide
    refine List.mem_filter.mpr ⟨hlisted, decide_eq_true ?_⟩
    intro hempty
    rw [List.isEmpty_iff.mp hempty] at hmember
    exact absurd hmember List.not_mem_nil

end Partition

section Results

def drawdownError : Decimal := 15 / 10 ^ 28

theorem drawdownPct_bounds {curve : List EquitySnapshot} (hpos : ∀ s ∈ curve, 0 < s.equity) :
    ∀ d ∈ computeDrawdownCurve curve, 0 ≤ d.drawdownPct ∧ d.drawdownPct ≤ 1 := by
  intro d hd
  have hmem : d.drawdownPct ∈ fallsFrom decimalResult 0 (curve.map (·.equity)) := by
    rw [← drawdownsFrom_eq]
    exact List.mem_map_of_mem hd
  exact ⟨fallsFrom_nonneg rounds_decimalResult (by norm_num) le_rfl _ _ hmem,
    fallsFrom_le_one rounds_decimalResult (List.forall_mem_map.mpr hpos) _ hmem⟩

/-- The closed trades are split by symbol and by entry type; and on a curve of positive equities each drawdown is a
share, and the largest of them, up to three roundings, the largest fall from a point to itself or a later one. -/
theorem metrics_sound (trades : List BacktestTrade) (curve : List EquitySnapshot) :
    Partition (perSymbol trades) (·.symbol) trades curve ∧
      Partition (perEntryType trades) (·.entryType) trades curve ∧
      (curve ≠ [] → (∀ s ∈ curve, 0 < s.equity) →
        (∀ d ∈ computeDrawdownCurve curve, 0 ≤ d.drawdownPct ∧ d.drawdownPct ≤ 1) ∧
        ∃ worst, IsGreatest {d | ∃ (i j : ℕ) (a b : EquitySnapshot), i ≤ j ∧ curve[i]? = some a ∧ curve[j]? = some b ∧
          d = (a.equity - b.equity) / a.equity} worst ∧
          |(computeMetrics trades curve).maxDrawdownPct - worst| ≤ drawdownError) := by
  refine ⟨perSymbol_partition trades curve, perEntryType_partition trades curve, ?_⟩
  intro hne hpos
  have hlevels : ∀ a ∈ curve.map (·.equity), 0 < a := List.forall_mem_map.mpr hpos
  have hgreatest := isGreatest_maxDrawdown (l := curve.map (·.equity)) (by simpa using hne)
  refine ⟨drawdownPct_bounds hpos, maxDrawdown (curve.map (·.equity)), ⟨?_, ?_⟩, ?_⟩
  · obtain ⟨i, j, _, _, hij, ha, hb, hd⟩ := hgreatest.1
    rw [List.getElem?_map, Option.map_eq_some_iff] at ha hb
    obtain ⟨a, ha, rfl⟩ := ha
    obtain ⟨b, hb, rfl⟩ := hb
    exact ⟨i, j, a, b, hij, ha, hb, hd⟩
  · rintro d ⟨i, j, a, b, hij, ha, hb, hd⟩
    exact hgreatest.2 ⟨i, j, a.equity, b.equity, hij, by simp [ha], by simp [hb], hd⟩
  · have hmax : (computeMetrics trades curve).maxDrawdownPct =
        (fallsFrom decimalResult 0 (curve.map (·.equity))).foldr max 0 := maxDrawdownPct_eq curve
    have hfalls : List.Forall₂ (fun d d' => |d - d'| ≤ 3 * (5 / 10 ^ 28))
        (fallsFrom decimalResult 0 (curve.map (·.equity))) (fromPeak 0 (curve.map (·.equity))) :=
      fallsFrom_near rounds_decimalResult (by norm_num) hlevels
    have hnear := foldr_max_near (by norm_num) hfalls
    rw [hmax, ← foldr_fromPeak hlevels]
    exact hnear.trans (by norm_num [drawdownError])

theorem metrics_sound_fall :
    let curve : List EquitySnapshot := [⟨0, 100, 100, 0, 0⟩, ⟨1, 80, 80, 0, 0⟩]
    ∃ worst, IsGreatest {d | ∃ (i j : ℕ) (a b : EquitySnapshot), i ≤ j ∧ curve[i]? = some a ∧ curve[j]? = some b ∧
      d = (a.equity - b.equity) / a.equity} worst ∧ |(computeMetrics [] curve).maxDrawdownPct - worst| ≤ drawdownError :=
  ((metrics_sound [] [⟨0, 100, 100, 0, 0⟩, ⟨1, 80, 80, 0, 0⟩]).2.2 (by simp) (by decide +kernel)).2

def sampleTrade (netPnl : Decimal) : BacktestTrade :=
  { symbol := "BTC", clientIntentId := buildClientIntentId "BTC" strategyVersion 0 .breakout, strategyVersion
    entryType := .breakout, strategyReasonCodes := [], riskReasonCodes := [], signalTime := 0, orderTime := 0
    entryTime := 0
    entryReferencePrice := 100, entryFillPrice := 100, quantity := 1, initialStop := 90, netPnl := some netPnl }

/-- A fall from 7 to 1 loses a number of 28 digits and not six sevenths, one from 1E29 to 1 loses everything, and a
result of 1 is lost in a sum after one of 1E28. -/
theorem rounded_metrics :
    (∃ curve : List EquitySnapshot, (∀ s ∈ curve, 0 < s.equity) ∧
      ¬ IsGreatest {d | ∃ (i j : ℕ) (a b : EquitySnapshot), i ≤ j ∧ curve[i]? = some a ∧ curve[j]? = some b ∧
        d = (a.equity - b.equity) / a.equity} (computeMetrics [] curve).maxDrawdownPct) ∧
    (∃ curve : List EquitySnapshot, (∀ s ∈ curve, 0 < s.equity) ∧
      ¬ ∀ d ∈ computeDrawdownCurve curve, 0 ≤ d.drawdownPct ∧ d.drawdownPct < 1) ∧
    ∃ trades : List BacktestTrade,
      ((perSymbol trades).map (·.netPnl)).sum ≠ (trades.filterMap (·.netPnl)).sum := by
  refine ⟨⟨[⟨0, 7, 7, 0, 0⟩, ⟨1, 1, 1, 0, 0⟩], by decide +kernel, fun hgreatest => ?_⟩,
    ⟨[⟨0, 0, 100000000000000000000000000000, 0, 0⟩, ⟨1, 1, 1, 0, 0⟩], by decide +kernel, by decide +kernel⟩,
    ⟨[sampleTrade 10000000000000000000000000000, sampleTrade 1], by decide +kernel⟩⟩
  have hfall := hgreatest.2 ⟨0, 1, _, _, Nat.zero_le 1, rfl, rfl, rfl⟩
  have hless : (computeMetrics [] [⟨0, 7, 7, 0, 0⟩, ⟨1, 1, 1, 0, 0⟩]).maxDrawdownPct < (7 - 1) / 7 := by decide +kernel
  exact absurd hfall (not_le.mpr hless)

end Results

end TradingBot.Backtester.GroupedMetrics
