import TradingBot.Backtester.Positions

namespace TradingBot.Backtester.TradePrices

open Market.Models Strategy.Models Constraints Exceptions Library.Dictionary Library.Outcome
open Backtester.Lifecycle Backtester.Models Backtester.Simulation Backtester.Structure Backtester.Positions

variable {config : BacktestConfig} {bundle : HistoricalDataBundle} {rt rt' : Runtime} {symbol : String}
  {candle : CandleOf String} {intent : Models.PendingIntent} {pos : SimulatedPositionOf String}
  {trade : BacktestTrade} {trigger : StopTriggerResult}

section Trades

structure Entered (config : BacktestConfig) (t : BacktestTrade) : Prop where
  fill : t.entryFillPrice = applyEntrySlippage t.entryReferencePrice config.slippageBps
  positive : 0 < t.entryFillPrice

def entryCost (t : BacktestTrade) : Decimal := computeSlippageCost t.entryReferencePrice t.entryFillPrice t.quantity

structure OpenTrade (config : BacktestConfig) (symbol : String) (t : BacktestTrade) : Prop
    extends Entered config t where
  ownSymbol : t.symbol = symbol
  slippage : t.slippageCost = entryCost t
  noExit : t.exitReferencePrice = none

structure ExitedAt (config : BacktestConfig) (t : BacktestTrade) (reference : Decimal) : Prop where
  exit : t.exitReferencePrice = some reference
  slippage : t.slippageCost =
    entryCost t + computeSlippageCost reference (applyExitSlippage reference config.slippageBps) t.quantity
  net : t.netPnl = some ((applyExitSlippage reference config.slippageBps - t.entryFillPrice) * t.quantity - t.fees -
    t.funding)

def DailyOpen (config : BacktestConfig) (bundle : HistoricalDataBundle) (price : Decimal) : Prop :=
  ∃ symbol ∈ config.symbols, ∃ c ∈ bundle.daily symbol, c.openPrice = price

/-- An exit is made at a positive stop or at the open of a day. -/
structure ClosedTrade (config : BacktestConfig) (bundle : HistoricalDataBundle) (t : BacktestTrade) : Prop
    extends Entered config t where
  exited : ∃ reference, ExitedAt config t reference ∧ (0 < reference ∨ DailyOpen config bundle reference)

structure Holds (config : BacktestConfig) (symbol : String) (pos : SimulatedPositionOf String) (t : BacktestTrade) :
    Prop extends OpenTrade config symbol t where
  quantity : t.quantity = pos.quantity
  entryPrice : t.entryFillPrice = pos.entryPrice

structure Priced (config : BacktestConfig) (bundle : HistoricalDataBundle) (rt : Runtime) : Prop where
  closed : ∀ t ∈ rt.closedTrades, ClosedTrade config bundle t
  held : ∀ symbol pos t, rt.positions.get? symbol = some pos → rt.activeTrades.get? symbol = some t →
    Holds config symbol pos t
  stops : AllPositions (fun _ pos => 0 < pos.effectiveStop) rt

theorem Priced.of_same (h : Priced config bundle rt) (hclosed : rt'.closedTrades = rt.closedTrades)
    (hpositions : rt'.positions = rt.positions) (htrades : rt'.activeTrades = rt.activeTrades) :
    Priced config bundle rt' := by
  constructor
  · rw [hclosed]
    exact h.closed
  · rw [hpositions, htrades]
    exact h.held
  · exact h.stops.of_same hpositions

end Trades

section Exits

theorem exitReference_of_checkStopExit {atOpen : Bool} (h : Engine.checkStopExit pos candle atOpen = some trigger) :
    trigger.exitReference = pos.effectiveStop ∨ trigger.exitReference = candle.openPrice := by
  simp only [Engine.checkStopExit, computeStopTrigger, computeGapStopAtOpen, computeIntradayStop] at h
  by_cases hgap : candle.openPrice < pos.effectiveStop
  · simp only [if_pos hgap, Option.some_or, ite_self, Option.some.injEq] at h
    cases h
    exact .inr rfl
  · simp only [if_neg hgap, Option.none_or] at h
    split_ifs at h
    · cases h
      exact .inl rfl
    · cases h
      exact .inl rfl

theorem closedTrade_closeTrade (h : Holds config symbol pos trade)
    (hreference : 0 < trigger.exitReference ∨ DailyOpen config bundle trigger.exitReference)
    (history : List TrailingStopSnapshot) :
    ClosedTrade config bundle (closeTrade trade candle trigger
      (computeExitAccounting trigger.exitReference pos.quantity pos.entryPrice config.slippageBps config.exitFeeRate)
      history) := by
  refine ⟨⟨h.fill, h.positive⟩, trigger.exitReference, ⟨rfl, ?_, ?_⟩, hreference⟩
  · simp only [closeTrade, computeExitAccounting, entryCost, h.slippage, h.quantity]
  · simp only [closeTrade, computeExitAccounting, h.quantity, h.entryPrice]

theorem Priced.checkStopExit (h : Priced config bundle rt) (hcoherent : Coherent rt)
    (hopen : DailyOpen config bundle candle.openPrice) (atOpen : Bool) :
    Priced config bundle (Simulation.checkStopExit config rt symbol candle atOpen) := by
  cases checkStopExit_trigger config rt symbol candle atOpen with
  | inl hsame => rwa [hsame]
  | inr hclose =>
    obtain ⟨pos, trigger, hpos, htrigger, hclose⟩ := hclose
    obtain ⟨trade, htrade⟩ := hcoherent.trade hpos
    have hreference : 0 < trigger.exitReference ∨ DailyOpen config bundle trigger.exitReference := by
      cases exitReference_of_checkStopExit htrigger with
      | inl hstop => exact .inl (hstop ▸ h.stops symbol pos hpos)
      | inr hgap => exact .inr (hgap ▸ hopen)
    rw [hclose]
    constructor
    · rw [closePosition_eq htrade]
      intro t ht
      cases List.mem_append.mp ht with
      | inl hbefore => exact h.closed t hbefore
      | inr hnew =>
        rw [List.mem_singleton.mp hnew]
        exact closedTrade_closeTrade (h.held symbol pos trade hpos htrade) hreference _
    · rw [closePosition_eq htrade]
      intro s other t hother ht
      simp only [Dict.get?_erase] at hother ht
      split_ifs at hother ht
      exact h.held s other t hother ht
    · exact h.stops.erase (closePosition_positions trigger)

end Exits

section Entries

variable {dayCandles : String → Option (CandleOf String)} {priorCloses : String → Option Decimal}
  {constraints : SymbolConstraints} {prices : EntryFillComputation} {decision : Lifecycle.RiskDecision}
  {quantity : Decimal} {accounting : EntryAccounting}

theorem Priced.openPosition (h : Priced config bundle rt)
    (hfilled : Filled config dayCandles priorCloses rt symbol candle intent constraints prices decision quantity
      accounting) :
    Priced config bundle (Simulation.openPosition rt intent symbol candle prices decision accounting) := by
  have hpositive := hfilled.approvedEntry.fillPrice_pos
  have hentered := entered_of_fill hfilled
  have hstop : 0 < accounting.trailState.effectiveStop := hentered.initialStop_pos.trans_le hentered.initialStop_le
  obtain ⟨hprices, _, _, _, haccounting⟩ := hfilled
  obtain ⟨stopInitial, _, hprices⟩ := except_bind_eq_ok.mp hprices
  cases hprices
  obtain ⟨trailState, _, haccounting⟩ := except_bind_eq_ok.mp haccounting
  cases haccounting
  refine ⟨h.closed, ?_, h.stops.set hstop rfl⟩
  intro s other t hother ht
  simp only [Simulation.openPosition, markTerminalIntent, Dict.get?_set] at hother ht
  by_cases hs : s = symbol
  · rw [if_pos hs] at hother ht
    cases hother
    cases ht
    exact ⟨⟨⟨rfl, hpositive⟩, hs.symm, rfl, rfl⟩, rfl, rfl⟩
  · rw [if_neg hs] at hother ht
    exact h.held s other t hother ht

theorem Priced.fillPendingAtOpen (h : Priced config bundle rt) (hcoherent : Coherent rt)
    (hopen : DailyOpen config bundle candle.openPrice)
    (hfill : Simulation.fillPendingAtOpen config dayCandles priorCloses rt symbol candle = .ok rt') :
    Priced config bundle rt' := by
  have hdropped : Priced config bundle
      { rt with pendingIntents := rt.pendingIntents.filter (·.symbol ≠ symbol) } := h.of_same rfl rfl rfl
  simp only [Simulation.fillPendingAtOpen] at hfill
  cases hcoherent.toFill symbol with
  | inl hnone =>
    rw [hnone] at hfill
    cases hfill
    exact hdropped
  | inr hintent =>
    obtain ⟨intent, hmem, hsymbol, hone⟩ := hintent
    rw [hone, List.foldlM_cons] at hfill
    obtain ⟨filled, hfilled, hfill⟩ := except_bind_eq_ok.mp hfill
    cases hfill
    have hfree : symbol ∉ rt.positions.keys := hsymbol ▸ hcoherent.apart intent hmem
    obtain rfl | ⟨_, codes, rfl⟩ | ⟨hnew, _, prices, decision, _, accounting, hentry, rfl⟩ :=
      fillIntent_cases hfilled
    · exact hdropped
    · exact hdropped.of_same rfl rfl rfl
    · have hothers : ∀ p ∈ rt.pendingIntents.filter (·.symbol ≠ symbol), p.symbol ≠ symbol := by
        intro p hp
        simpa using (List.mem_filter.mp hp).2
      exact (hdropped.openPosition hentry).checkStopExit
        ((hcoherent.drop symbol).openPosition hnew hfree hothers prices decision accounting) hopen true

end Entries

section Steps

theorem Priced.chargeFunding (h : Priced config bundle rt) (notional rate : Decimal) :
    Priced config bundle (Simulation.chargeFunding symbol notional rt rate) := by
  refine ⟨h.closed, ?_, h.stops.of_same rfl⟩
  intro s pos t hpos ht
  simp only [Simulation.chargeFunding] at hpos ht
  cases htrade : rt.activeTrades.get? symbol with
  | none =>
    rw [htrade] at ht
    exact h.held s pos t hpos ht
  | some trade =>
    simp only [htrade, Dict.get?_set] at ht
    by_cases hs : s = symbol
    · rw [if_pos hs] at ht
      cases ht
      have hheld := h.held s pos trade hpos (hs ▸ htrade)
      exact ⟨⟨⟨hheld.fill, hheld.positive⟩, hheld.ownSymbol, hheld.slippage, hheld.noExit⟩, hheld.quantity,
        hheld.entryPrice⟩
    · rw [if_neg hs] at ht
      exact h.held s pos t hpos ht

theorem Priced.applyFunding (h : Priced config bundle rt) :
    Priced config bundle (Simulation.applyFunding config bundle rt symbol candle) := by
  simp only [Simulation.applyFunding]
  cases rt.positions.get? symbol with
  | none => exact h
  | some pos =>
    simp only
    induction fundingRates config bundle symbol candle generalizing rt with
    | nil => exact h
    | cons rate rates ih => exact ih (h.chargeFunding _ rate)

theorem Priced.queueIntent (h : Priced config bundle rt) (evalTime : Time) (evaluation : StrategyEvaluationOf String) :
    Priced config bundle (Simulation.queueIntent rt symbol evalTime evaluation) := by
  simp only [Simulation.queueIntent]
  split
  · split_ifs
    · exact h
    · exact h.of_same rfl rfl rfl
  · exact h

theorem Priced.updateTrailing (h : Priced config bundle rt) {evalTime : Time}
    (hstops : AllPositions (fun _ pos => 0 < pos.effectiveStop) rt')
    (hrun : Simulation.updateTrailing config bundle rt symbol candle evalTime = .ok rt') : Priced config bundle rt' := by
  cases updateTrailing_ok hrun with
  | inl hsame => exact hsame ▸ h
  | inr hupdated =>
    obtain ⟨pos, updated, history, hpos, hquantity, hprice, hrt'⟩ := hupdated
    subst hrt'
    refine ⟨h.closed, ?_, hstops⟩
    intro s other t hother ht
    simp only [Dict.get?_set] at hother
    by_cases hs : s = symbol
    · rw [if_pos hs] at hother
      cases hother
      have hheld := h.held s pos t (hs ▸ hpos) ht
      exact ⟨hheld.toOpenTrade, hquantity ▸ hheld.quantity, hprice ▸ hheld.entryPrice⟩
    · rw [if_neg hs] at hother
      exact h.held s other t hother ht

theorem dailyOpen_of_dayCandles {openTime : Time} (h : dayCandles config bundle openTime symbol = some candle) :
    DailyOpen config bundle candle.openPrice := by
  obtain ⟨hsymbol, hmem, _⟩ := dayCandles_eq_some h
  exact ⟨symbol, hsymbol, candle, hmem, rfl⟩

theorem Priced.applyStep (h : Priced config bundle rt) (hcoherent : Coherent rt)
    (hstops : AllPositions (fun _ pos => 0 < pos.effectiveStop) rt') {step : Step}
    (hstep : Simulation.applyStep config bundle rt step = .ok rt') : Priced config bundle rt' := by
  cases worked_of_applyStep hstep with
  | idle => exact h
  | fill hcandle hwork => exact h.fillPendingAtOpen hcoherent (dailyOpen_of_dayCandles hcandle) hwork
  | stop hcandle => exact h.checkStopExit hcoherent (dailyOpen_of_dayCandles hcandle) false
  | funding => exact h.applyFunding
  | strategy _ hwork =>
    obtain ⟨evaluation, _, hwork⟩ := except_bind_eq_ok.mp hwork
    cases hwork
    have hevaluated : Priced config bundle { rt with evaluations := rt.evaluations ++ [evaluation] } :=
      h.of_same rfl rfl rfl
    exact hevaluated.queueIntent _ evaluation
  | trailing _ hwork => exact h.updateTrailing hstops hwork
  | snapshot => exact h.of_same rfl rfl rfl

theorem priced_start (config : BacktestConfig) (bundle : HistoricalDataBundle) :
    Priced config bundle (start config) := by
  refine ⟨?_, ?_, ?_⟩
  · exact fun t ht => absurd ht List.not_mem_nil
  · exact fun symbol pos t hpos => by cases hpos
  · exact fun symbol pos hpos => by cases hpos

theorem reached_priced (h : Reached config bundle rt) : Priced config bundle rt := by
  have hnone : AllPositions (Sound config) (start config) := fun _ _ hpos => by cases hpos
  have hstart : Coherent (start config) ∧ AllPositions (Sound config) (start config) ∧
      Priced config bundle (start config) :=
    ⟨coherent_start config, hnone, priced_start config bundle⟩
  have hstep : ∀ rt step rt', Coherent rt ∧ AllPositions (Sound config) rt ∧ Priced config bundle rt →
      applyStep config bundle rt step = .ok rt' →
        Coherent rt' ∧ AllPositions (Sound config) rt' ∧ Priced config bundle rt' := by
    intro rt step rt' ⟨hcoherent, hsound, hpriced⟩ hstep
    have hsound' := sound_applyStep hsound hstep
    have hstops : AllPositions (fun _ pos => 0 < pos.effectiveStop) rt' :=
      fun symbol pos hpos => (hsound' symbol pos hpos).effectiveStop_pos
    exact ⟨hcoherent.applyStep hstep, hsound', hpriced.applyStep hcoherent hstops hstep⟩
  exact (h.induct hstart hstep).2.2

end Steps

end TradingBot.Backtester.TradePrices
