import TradingBot.Backtester.Structure

namespace TradingBot.Backtester.Conservation

open Market.Models Strategy.Models Exceptions Library.Dictionary Library.Outcome
open Backtester.Lifecycle Backtester.Models Backtester.Simulation Backtester.Structure

section Balance

variable {config : BacktestConfig} {bundle : HistoricalDataBundle} {rt rt' : Runtime} {symbol : String}
  {candle : CandleOf String} {intent : Models.PendingIntent}

def trades (rt : Runtime) : List BacktestTrade := rt.closedTrades ++ rt.activeTrades.values

/-- What an open trade has cost so far. -/
def accrued (t : BacktestTrade) : Decimal := t.fees + t.funding

structure Balanced (config : BacktestConfig) (rt : Runtime) : Prop where
  cash : rt.cash = config.initialCash + (rt.closedTrades.map (·.netPnl.getD 0)).sum -
    (rt.activeTrades.values.map accrued).sum
  settled : ∀ t ∈ rt.closedTrades, t.netPnl.isSome
  fees : rt.totalFees = ((trades rt).map (·.fees)).sum
  funding : rt.totalFunding = ((trades rt).map (·.funding)).sum
  slippage : rt.totalSlippage = ((trades rt).map (·.slippageCost)).sum

theorem balanced_start (config : BacktestConfig) : Balanced config (start config) := by
  refine ⟨?_, fun _ ht => absurd ht List.not_mem_nil, rfl, rfl, rfl⟩
  change config.initialCash = config.initialCash + 0 - 0
  ring

theorem Balanced.close (h : Balanced config rt) {pos : SimulatedPositionOf String}
    {trade : BacktestTrade} (htrade : rt.activeTrades.get? symbol = some trade) (trigger : StopTriggerResult) :
    Balanced config (closePosition config rt symbol candle pos trigger) := by
  rw [closePosition_eq htrade]
  have hsum : ∀ f : BacktestTrade → Decimal, (rt.activeTrades.values.map f).sum =
      f trade + ((rt.activeTrades.erase symbol).values.map f).sum := Dict.sum_values_of_get? htrade
  obtain ⟨hcash, hsettled, hfees, hfunding, hslippage⟩ := h
  simp only [trades, List.map_append, List.sum_append, hsum, accrued] at hcash hfees hfunding hslippage
  refine ⟨?_, fun t ht => ?_, ?_, ?_, ?_⟩
  · simp only [List.map_append, List.sum_append, List.map_cons, List.map_nil, List.sum_singleton, closeTrade,
      Option.getD_some, computeExitAccounting]
    linarith
  · rcases List.mem_append.mp ht with ht | ht
    · exact hsettled t ht
    · rw [List.mem_singleton.mp ht]
      rfl
  · simp only [trades, List.map_append, List.sum_append, List.map_cons, List.map_nil, List.sum_singleton,
      closeTrade]
    linarith
  · simp only [trades, List.map_append, List.sum_append, List.map_cons, List.map_nil, List.sum_singleton,
      closeTrade]
    linarith
  · simp only [trades, List.map_append, List.sum_append, List.map_cons, List.map_nil, List.sum_singleton,
      closeTrade]
    linarith

theorem Balanced.checkStopExit (h : Balanced config rt) (hcoherent : Coherent rt) (atOpen : Bool) :
    Balanced config (Simulation.checkStopExit config rt symbol candle atOpen) := by
  rcases checkStopExit_cases config rt symbol candle atOpen with hsame | ⟨pos, trigger, hpos, hclose⟩
  · rwa [hsame]
  · obtain ⟨trade, htrade⟩ := hcoherent.trade hpos
    rw [hclose]
    exact h.close htrade trigger

theorem Balanced.openPosition (h : Balanced config rt) (htrade : symbol ∉ rt.activeTrades.keys)
    (prices : EntryFillComputation) (decision : Lifecycle.RiskDecision) (accounting : EntryAccounting) :
    Balanced config (Simulation.openPosition rt intent symbol candle prices decision accounting) := by
  have hsum : ∀ (f : BacktestTrade → Decimal) (trade : BacktestTrade),
      ((rt.activeTrades.set symbol trade).values.map f).sum = f trade + (rt.activeTrades.values.map f).sum := by
    intro f trade
    rw [Dict.sum_values_set, Dict.erase_of_not_mem htrade]
  obtain ⟨hcash, hsettled, hfees, hfunding, hslippage⟩ := h
  simp only [trades, List.map_append, List.sum_append] at hfees hfunding hslippage
  refine ⟨?_, hsettled, ?_, ?_, ?_⟩
  · simp only [Simulation.openPosition, markTerminalIntent, hsum, accrued] at hcash ⊢
    linarith
  · simp only [Simulation.openPosition, markTerminalIntent, trades, List.map_append, List.sum_append, hsum]
    linarith
  · simp only [Simulation.openPosition, markTerminalIntent, trades, List.map_append, List.sum_append, hsum]
    linarith
  · simp only [Simulation.openPosition, markTerminalIntent, trades, List.map_append, List.sum_append, hsum]
    linarith

theorem Balanced.chargeFunding (h : Balanced config rt) (htrade : symbol ∈ rt.activeTrades.keys)
    (notional rate : Decimal) : Balanced config (Simulation.chargeFunding symbol notional rt rate) := by
  obtain ⟨trade, htrade⟩ := Option.isSome_iff_exists.mp (Dict.get?_isSome_iff.mpr htrade)
  have hsum : ∀ f : BacktestTrade → Decimal, (rt.activeTrades.values.map f).sum =
      f trade + ((rt.activeTrades.erase symbol).values.map f).sum := Dict.sum_values_of_get? htrade
  obtain ⟨hcash, hsettled, hfees, hfunding, hslippage⟩ := h
  simp only [trades, List.map_append, List.sum_append, hsum, accrued] at hcash hfees hfunding hslippage
  unfold Simulation.chargeFunding
  rw [htrade]
  refine ⟨?_, hsettled, ?_, ?_, ?_⟩
  · simp only [Dict.sum_values_set, accrued]
    linarith
  · simp only [trades, List.map_append, List.sum_append, Dict.sum_values_set]
    linarith
  · simp only [trades, List.map_append, List.sum_append, Dict.sum_values_set]
    linarith
  · simp only [trades, List.map_append, List.sum_append, Dict.sum_values_set]
    linarith

theorem Balanced.applyFunding (h : Balanced config rt) (hcoherent : Coherent rt) :
    Balanced config (Simulation.applyFunding config bundle rt symbol candle) := by
  unfold Simulation.applyFunding
  cases hpos : rt.positions.get? symbol with
  | none => exact h
  | some pos =>
    obtain ⟨trade, htrade⟩ := hcoherent.trade hpos
    have hmem := Dict.mem_keys_of_get? htrade
    clear hpos htrade
    dsimp only
    induction fundingRates config bundle symbol candle generalizing rt with
    | nil => exact h
    | cons rate rates ih =>
      have hcharged : Coherent (Simulation.chargeFunding symbol (pos.quantity * pos.entryPrice) rt rate) :=
        hcoherent.chargeFunding _ rate
      refine ih (h.chargeFunding hmem _ rate) hcharged ?_
      rw [hcharged.trades]
      exact hcoherent.trades ▸ hmem

theorem Balanced.fillPendingAtOpen (h : Balanced config rt) (hcoherent : Coherent rt)
    {dayCandles : String → Option (CandleOf String)} {priorCloses : String → Option Decimal}
    (hfill : Simulation.fillPendingAtOpen config dayCandles priorCloses rt symbol candle = .ok rt') :
    Balanced config rt' := by
  have hdropped : Balanced config
      { rt with pendingIntents := rt.pendingIntents.filter (·.symbol ≠ symbol) } :=
    ⟨h.cash, h.settled, h.fees, h.funding, h.slippage⟩
  unfold Simulation.fillPendingAtOpen at hfill
  rcases hcoherent.toFill symbol with hnone | ⟨intent, hmem, hsymbol, hone⟩
  · rw [hnone] at hfill
    cases hfill
    exact hdropped
  · rw [hone, List.foldlM_cons] at hfill
    obtain ⟨filled, hfilled, hfill⟩ := except_bind_eq_ok.mp hfill
    cases hfill
    have hfree : symbol ∉ rt.positions.keys := hsymbol ▸ hcoherent.apart intent hmem
    rcases fillIntent_ok hfilled with rfl | ⟨_, codes, rfl⟩ | ⟨hnew, prices, decision, accounting, _, rfl⟩
    · exact hdropped
    · exact ⟨h.cash, h.settled, h.fees, h.funding, h.slippage⟩
    · have htrade : symbol ∉ rt.activeTrades.keys := hcoherent.trades ▸ hfree
      refine (hdropped.openPosition htrade prices decision accounting).checkStopExit ?_ true
      refine (hcoherent.drop symbol).openPosition hnew hfree (fun p hp => ?_) prices decision accounting
      simpa using (List.mem_filter.mp hp).2

theorem Balanced.queueIntent (h : Balanced config rt) (evalTime : Time)
    (evaluation : StrategyEvaluationOf String) :
    Balanced config (Simulation.queueIntent rt symbol evalTime evaluation) := by
  unfold Simulation.queueIntent
  split
  · dsimp only
    split_ifs
    · exact h
    · exact ⟨h.cash, h.settled, h.fees, h.funding, h.slippage⟩
  · exact h

theorem Balanced.applyStep (h : Balanced config rt) (hcoherent : Coherent rt) {step : Step}
    (hstep : Simulation.applyStep config bundle rt step = .ok rt') : Balanced config rt' := by
  cases worked_of_applyStep hstep with
  | idle => exact h
  | fill _ hwork => exact h.fillPendingAtOpen hcoherent hwork
  | stop => exact h.checkStopExit hcoherent false
  | funding => exact h.applyFunding hcoherent
  | strategy _ hwork =>
    obtain ⟨evaluation, _, hwork⟩ := except_bind_eq_ok.mp hwork
    cases hwork
    have hevaluated : Balanced config { rt with evaluations := rt.evaluations ++ [evaluation] } :=
      ⟨h.cash, h.settled, h.fees, h.funding, h.slippage⟩
    exact hevaluated.queueIntent _ evaluation
  | trailing _ hwork =>
    rcases updateTrailing_ok hwork with rfl | ⟨_, _, _, _, _, _, rfl⟩
    · exact h
    · exact ⟨h.cash, h.settled, h.fees, h.funding, h.slippage⟩
  | snapshot => exact ⟨h.cash, h.settled, h.fees, h.funding, h.slippage⟩

theorem reached_balanced (h : Reached config bundle rt) : Balanced config rt := by
  have hstart : Coherent (start config) ∧ Balanced config (start config) :=
    ⟨coherent_start config, balanced_start config⟩
  have hstep : ∀ rt step rt', Coherent rt ∧ Balanced config rt →
      applyStep config bundle rt step = .ok rt' → Coherent rt' ∧ Balanced config rt' := by
    rintro rt step rt' ⟨hcoherent, hbalanced⟩ hstep
    exact ⟨hcoherent.applyStep hstep, hbalanced.applyStep hcoherent hstep⟩
  exact (h.induct hstart hstep).2

end Balance

section Result

variable {config : BacktestConfig} {bundle : HistoricalDataBundle} {rt : Runtime}

theorem daySteps_eq {openTime : Time} (h : openTime ∈ buildTimeline config bundle) :
    ∃ work evalTime, daySteps config bundle openTime = work ++ [.snapshot openTime evalTime] := by
  unfold buildTimeline at h
  rw [List.mem_insertionSort, List.mem_dedup, List.mem_flatMap] at h
  obtain ⟨symbol, hsymbol, hcandle⟩ := h
  obtain ⟨candle, hcandle, hopen⟩ := List.mem_map.mp hcandle
  have hsome : (config.symbols.findSome? (dayCandles config bundle openTime)).isSome := by
    rw [List.findSome?_isSome_iff]
    refine ⟨symbol, hsymbol, ?_⟩
    simp only [dayCandles, if_pos hsymbol, candleAt, List.findRev?_eq_find?_reverse, List.find?_isSome,
      List.mem_reverse, decide_eq_true_eq]
    exact ⟨candle, hcandle, hopen⟩
  obtain ⟨first, hfirst⟩ := Option.isSome_iff_exists.mp hsome
  unfold daySteps
  rw [hfirst]
  exact ⟨_, _, rfl⟩

def closesOn (config : BacktestConfig) (bundle : HistoricalDataBundle) (openTime : Time) :
    String → Option Decimal := fun symbol => (dayCandles config bundle openTime symbol).map (·.close)

theorem runSteps_last {init : List Time} {last : Time} (htimeline : buildTimeline config bundle = init ++ [last])
    (hrun : runSteps config bundle (steps config bundle) = .ok rt) :
    ∃ before evalTime, rt = takeSnapshot config bundle before last evalTime := by
  have hlast : last ∈ buildTimeline config bundle := by simp [htimeline]
  obtain ⟨work, evalTime, hday⟩ := daySteps_eq hlast
  unfold runSteps steps at hrun
  rw [htimeline, List.flatMap_append, List.flatMap_singleton, hday, ← List.append_assoc,
    List.foldlM_append] at hrun
  obtain ⟨before, _, hrun⟩ := except_bind_eq_ok.mp hrun
  rw [List.foldlM_cons] at hrun
  obtain ⟨after, hafter, hrun⟩ := except_bind_eq_ok.mp hrun
  cases hafter
  cases hrun
  exact ⟨before, evalTime, rfl⟩

/-- Cash is conserved in every state of a run, and the result's totals and end capital agree with its
trades and its last snapshot. -/
theorem backtest_conserves_cash (config : BacktestConfig) (bundle : HistoricalDataBundle) :
    (∀ rt, Reached config bundle rt → Balanced config rt) ∧
    ∀ result, run config bundle = .ok result →
      result.totalFees = (result.trades.map (·.fees)).sum ∧
      result.totalFunding = (result.trades.map (·.funding)).sum ∧
      result.totalSlippage = (result.trades.map (·.slippageCost)).sum ∧
      ((result.equityCurve = [] ∧ result.endCapital = config.initialCash) ∨
        ∃ last snapshot, result.dataEnd = some last ∧ result.equityCurve.getLast? = some snapshot ∧
          result.endCapital = snapshot.equity ∧
          snapshot.equity = snapshot.cash +
            computeUnrealizedPnl result.openPositions (closesOn config bundle last)) := by
  refine ⟨fun rt h => reached_balanced h, fun result hresult => ?_⟩
  obtain ⟨rt, hrun, hresult⟩ := except_bind_eq_ok.mp hresult
  cases hresult
  have hbalanced := reached_balanced ⟨_, [], (List.append_nil _).symm, hrun⟩
  rcases List.eq_nil_or_concat (buildTimeline config bundle) with hempty | ⟨init, last, htimeline⟩
  · rw [hempty]
    exact ⟨rfl, rfl, rfl, .inl ⟨rfl, rfl⟩⟩
  · rw [List.concat_eq_append] at htimeline
    obtain ⟨before, evalTime, rfl⟩ := runSteps_last htimeline hrun
    obtain ⟨first, rest, hcons⟩ := List.exists_cons_of_ne_nil (l := init ++ [last]) (by simp)
    have hlast : (first :: rest).getLastD first = last := by
      rw [← hcons, List.getLastD_concat]
    rw [htimeline, hcons]
    unfold buildResult
    simp only [hlast]
    exact ⟨hbalanced.fees, hbalanced.funding, hbalanced.slippage,
      .inr ⟨last, _, rfl, List.getLast?_concat, rfl, rfl⟩⟩

/-- The sample's open trade has paid its fee and its funding. -/
theorem backtest_conserves_cash_sample : ∃ rt, Reached sampleConfig (sampleBundle (1 / 1000)) rt ∧
    rt.positions.keys = ["BTC"] ∧ Balanced sampleConfig rt := by
  obtain ⟨rt, hreached, hkeys⟩ := sample_reached
  exact ⟨rt, hreached, hkeys, (backtest_conserves_cash _ _).1 rt hreached⟩

end Result

end TradingBot.Backtester.Conservation
