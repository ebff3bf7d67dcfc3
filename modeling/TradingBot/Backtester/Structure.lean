import TradingBot.Backtester.Simulation
import TradingBot.Library.Grouping
import TradingBot.Risk.Soundness

namespace TradingBot.Backtester.Structure

open Market.Models Strategy.Models Constraints Exceptions Risk.Models Library.Dictionary
open Library.Keyed Library.Outcome Backtester.Lifecycle Backtester.Models Backtester.Simulation

section Specs

variable {config : BacktestConfig} {bundle : HistoricalDataBundle} {rt rt' : Runtime} {symbol : String}
  {candle : CandleOf String}

def Reached (config : BacktestConfig) (bundle : HistoricalDataBundle) (rt : Runtime) : Prop :=
  ∃ done rest, steps config bundle = done ++ rest ∧ runSteps config bundle done = .ok rt

theorem Reached.induct {inv : Runtime → Prop} (hstart : inv (start config))
    (hstep : ∀ rt step rt', inv rt → applyStep config bundle rt step = .ok rt' → inv rt')
    (h : Reached config bundle rt) : inv rt := by
  obtain ⟨done, _, _, hdone⟩ := h
  exact foldlM_preserves hstep hstart hdone

theorem candleAt_mem {candles : List (CandleOf String)} {openTime : Time}
    (h : candleAt candles openTime = some candle) : candle ∈ candles ∧ candle.openTime = openTime := by
  unfold candleAt at h
  rw [List.findRev?_eq_find?_reverse] at h
  exact ⟨List.mem_reverse.mp (List.mem_of_find?_eq_some h), by simpa using List.find?_some h⟩

theorem dayCandles_eq_some {openTime : Time}
    (h : dayCandles config bundle openTime symbol = some candle) :
    symbol ∈ config.symbols ∧ candle ∈ bundle.daily symbol ∧ candle.openTime = openTime := by
  unfold dayCandles at h
  split_ifs at h with hsymbol
  exact ⟨hsymbol, candleAt_mem h⟩

theorem onCandle_ok {openTime : Time} {work : CandleOf String → Except Exc Runtime}
    (h : onCandle config bundle openTime symbol rt work = .ok rt') :
    rt' = rt ∨ ∃ candle, dayCandles config bundle openTime symbol = some candle ∧ work candle = .ok rt' := by
  unfold onCandle at h
  cases hcandle : dayCandles config bundle openTime symbol with
  | none =>
    rw [hcandle] at h
    cases h
    exact .inl rfl
  | some candle =>
    rw [hcandle] at h
    exact .inr ⟨candle, rfl, h⟩

/-- What a step does that returns: nothing where its day has no candle, else its work. -/
inductive Worked (config : BacktestConfig) (bundle : HistoricalDataBundle) (rt : Runtime) : Step → Runtime → Prop
  | idle {step : Step} : Worked config bundle rt step rt
  | fill {t : Time} {symbol : String} {candle : CandleOf String} {rt' : Runtime}
      (hcandle : dayCandles config bundle t symbol = some candle)
      (hwork : fillPendingAtOpen config (dayCandles config bundle t) (priorCloses config bundle t) rt symbol candle =
        .ok rt') : Worked config bundle rt (.fill t symbol) rt'
  | stop {t : Time} {symbol : String} {candle : CandleOf String}
      (hcandle : dayCandles config bundle t symbol = some candle) :
      Worked config bundle rt (.stop t symbol) (checkStopExit config rt symbol candle false)
  | funding {t : Time} {symbol : String} {candle : CandleOf String}
      (hcandle : dayCandles config bundle t symbol = some candle) :
      Worked config bundle rt (.funding t symbol) (applyFunding config bundle rt symbol candle)
  | strategy {t : Time} {symbol : String} {candle : CandleOf String} {rt' : Runtime}
      (hcandle : dayCandles config bundle t symbol = some candle)
      (hwork : strategyAndQueue config bundle rt symbol (evaluationTimeForDaily candle) = .ok rt') :
      Worked config bundle rt (.strategy t symbol) rt'
  | trailing {t evalTime : Time} {symbol : String} {candle : CandleOf String} {rt' : Runtime}
      (hcandle : dayCandles config bundle t symbol = some candle)
      (hwork : updateTrailing config bundle rt symbol candle evalTime = .ok rt') :
      Worked config bundle rt (.trailing t evalTime symbol) rt'
  | snapshot {t evalTime : Time} :
      Worked config bundle rt (.snapshot t evalTime) (takeSnapshot config bundle rt t evalTime)

theorem worked_of_applyStep {step : Step} (h : applyStep config bundle rt step = .ok rt') :
    Worked config bundle rt step rt' := by
  cases step with
  | fill t symbol =>
    rcases onCandle_ok h with rfl | ⟨candle, hcandle, hwork⟩
    · exact .idle
    · exact .fill hcandle hwork
  | stop t symbol =>
    rcases onCandle_ok h with rfl | ⟨candle, hcandle, hwork⟩
    · exact .idle
    · cases hwork
      exact .stop hcandle
  | funding t symbol =>
    rcases onCandle_ok h with rfl | ⟨candle, hcandle, hwork⟩
    · exact .idle
    · cases hwork
      exact .funding hcandle
  | strategy t symbol =>
    rcases onCandle_ok h with rfl | ⟨candle, hcandle, hwork⟩
    · exact .idle
    · exact .strategy hcandle hwork
  | trailing t evalTime symbol =>
    rcases onCandle_ok h with rfl | ⟨candle, hcandle, hwork⟩
    · exact .idle
    · exact .trailing hcandle hwork
  | snapshot t evalTime =>
    cases h
    exact .snapshot

theorem checkStopExit_trigger (config : BacktestConfig) (rt : Runtime) (symbol : String)
    (candle : CandleOf String) (atOpen : Bool) :
    checkStopExit config rt symbol candle atOpen = rt ∨
    ∃ pos trigger, rt.positions.get? symbol = some pos ∧ Engine.checkStopExit pos candle atOpen = some trigger ∧
      checkStopExit config rt symbol candle atOpen = closePosition config rt symbol candle pos trigger := by
  unfold checkStopExit
  cases hpos : rt.positions.get? symbol with
  | none => exact .inl rfl
  | some pos =>
    dsimp only
    cases htrigger : Engine.checkStopExit pos candle atOpen with
    | none => exact .inl rfl
    | some trigger => exact .inr ⟨pos, trigger, rfl, htrigger, rfl⟩

theorem checkStopExit_cases (config : BacktestConfig) (rt : Runtime) (symbol : String)
    (candle : CandleOf String) (atOpen : Bool) :
    checkStopExit config rt symbol candle atOpen = rt ∨
    ∃ pos trigger, rt.positions.get? symbol = some pos ∧
      checkStopExit config rt symbol candle atOpen = closePosition config rt symbol candle pos trigger := by
  cases checkStopExit_trigger config rt symbol candle atOpen with
  | inl hsame => exact .inl hsame
  | inr hclose =>
    obtain ⟨pos, trigger, hpos, _, hclose⟩ := hclose
    exact .inr ⟨pos, trigger, hpos, hclose⟩

/-- An approved entry: the risk engine saw fewer positions than allowed. -/
structure ApprovedEntry (config : BacktestConfig) (dayCandles : String → Option (CandleOf String))
    (priorCloses : String → Option Decimal) (rt : Runtime) (fillPrice quantity : Decimal) : Prop where
  fillPrice_pos : 0 < fillPrice
  quantity_pos : 0 < quantity
  room : ((toPositionStates rt.positions.values
    (resolveMarksAtOpen rt.positions.values dayCandles priorCloses)).length : ℤ) <
      config.riskParams.maxOpenPositions

structure Filled (config : BacktestConfig) (dayCandles : String → Option (CandleOf String))
    (priorCloses : String → Option Decimal) (rt : Runtime) (symbol : String) (candle : CandleOf String)
    (intent : Models.PendingIntent) (constraints : SymbolConstraints) (prices : EntryFillComputation)
    (decision : Lifecycle.RiskDecision) (quantity : Decimal) (accounting : EntryAccounting) : Prop where
  priced : computeEntryFillPrices candle.openPrice intent.atr14 config.slippageBps config.strategyParams
    constraints.priceTickSize = .ok prices
  decided : evaluateEntryRiskDecision symbol prices.fillPrice prices.stopInitial intent.clientIntentId intent.atr14
    constraints rt.cash rt.positions.values rt.pendingIntents rt.processedIntentIds dayCandles priorCloses
    config.riskParams = .ok decision
  approved : decision.approved = true
  rounded : decision.roundedQuantity = some quantity
  accounted : computeEntryAccounting prices.fillPrice candle.openPrice quantity prices.stopInitial
    config.entryFeeRate config.riskParams.maxLeverage config.strategyParams constraints.priceTickSize intent.atr14 =
      .ok accounting

theorem fillIntent_cases {dayCandles : String → Option (CandleOf String)} {priorCloses : String → Option Decimal}
    {intent : Models.PendingIntent}
    (h : fillIntent config dayCandles priorCloses symbol candle rt intent = .ok rt') :
    rt' = rt ∨
    (intent.clientIntentId ∉ rt.processedIntentIds ∧
      ∃ codes, rt' = rejectIntent rt intent symbol candle.openTime codes) ∨
    (intent.clientIntentId ∉ rt.processedIntentIds ∧
      ∃ constraints prices decision quantity accounting,
        Filled config dayCandles priorCloses rt symbol candle intent constraints prices decision quantity accounting ∧
        rt' = checkStopExit config (openPosition rt intent symbol candle prices decision accounting) symbol
          candle true) := by
  unfold fillIntent at h
  split_ifs at h with hprocessed
  · cases h
    exact .inl rfl
  · obtain ⟨constraints, _, h⟩ := except_bind_eq_ok.mp h
    obtain ⟨prices, hprices, h⟩ := except_bind_eq_ok.mp h
    obtain ⟨decision, hdecision, h⟩ := except_bind_eq_ok.mp h
    split at h
    · rename_i quantity happroved hquantity
      obtain ⟨accounting, haccounting, h⟩ := except_bind_eq_ok.mp h
      split_ifs at h
      · cases h
        exact .inr (.inl ⟨hprocessed, _, rfl⟩)
      · cases h
        exact .inr (.inr ⟨hprocessed, constraints, prices, decision, quantity, accounting,
          ⟨hprices, hdecision, happroved, hquantity, haccounting⟩, rfl⟩)
    · cases h
      exact .inr (.inl ⟨hprocessed, _, rfl⟩)

theorem Filled.approvedEntry {dayCandles : String → Option (CandleOf String)} {priorCloses : String → Option Decimal}
    {intent : Models.PendingIntent} {constraints : SymbolConstraints} {prices : EntryFillComputation}
    {decision : Lifecycle.RiskDecision} {quantity : Decimal} {accounting : EntryAccounting}
    (h : Filled config dayCandles priorCloses rt symbol candle intent constraints prices decision quantity
      accounting) :
    ApprovedEntry config dayCandles priorCloses rt prices.fillPrice accounting.quantity := by
  obtain ⟨_, hdecision, happroved, hquantity, haccounting⟩ := h
  obtain ⟨full, hfull, hdecision⟩ := except_bind_eq_ok.mp hdecision
  cases hdecision
  obtain ⟨_, hstop, haccounting⟩ := except_bind_eq_ok.mp haccounting
  cases haccounting
  obtain ⟨stop, sizing, q, hstop, hcapped, hdecided⟩ := Risk.Soundness.evaluate_approved hfull happroved
  obtain ⟨hequity, hentry, _, _, _, _, _, _, hroom⟩ := Risk.Soundness.admissibleStop_eq_ok hstop
  have hq := (Risk.Soundness.decideQuantity_eq_ok hequity hdecided).1
  rw [hq] at hquantity
  cases hquantity
  exact ⟨hentry, (Risk.Soundness.cappedQuantity_eq_ok hcapped).2.1, hroom⟩

theorem fillIntent_ok {dayCandles : String → Option (CandleOf String)} {priorCloses : String → Option Decimal}
    {intent : Models.PendingIntent}
    (h : fillIntent config dayCandles priorCloses symbol candle rt intent = .ok rt') :
    rt' = rt ∨
    (intent.clientIntentId ∉ rt.processedIntentIds ∧
      ∃ codes, rt' = rejectIntent rt intent symbol candle.openTime codes) ∨
    (intent.clientIntentId ∉ rt.processedIntentIds ∧
      ∃ prices decision accounting,
        ApprovedEntry config dayCandles priorCloses rt prices.fillPrice accounting.quantity ∧
        rt' = checkStopExit config (openPosition rt intent symbol candle prices decision accounting) symbol
          candle true) := by
  rcases fillIntent_cases h with hsame | hrejected | ⟨hnew, _, prices, decision, _, accounting, hfilled, hrt'⟩
  · exact .inl hsame
  · exact .inr (.inl hrejected)
  · exact .inr (.inr ⟨hnew, prices, decision, accounting, hfilled.approvedEntry, hrt'⟩)

theorem closePosition_eq {pos : SimulatedPositionOf String} {trigger : StopTriggerResult}
    {trade : BacktestTrade} (htrade : rt.activeTrades.get? symbol = some trade) :
    let exit := computeExitAccounting trigger.exitReference pos.quantity pos.entryPrice config.slippageBps
      config.exitFeeRate
    let closed := closeTrade trade candle trigger exit ((rt.trailHistory.get? symbol).getD [])
    closePosition config rt symbol candle pos trigger =
      { rt with
        cash := rt.cash + exit.netWalletDelta
        totalFees := rt.totalFees + exit.fee
        totalSlippage := rt.totalSlippage + exit.slippageCost
        positions := rt.positions.erase symbol
        trailHistory := rt.trailHistory.erase symbol
        activeTrades := rt.activeTrades.erase symbol
        closedTrades := rt.closedTrades ++ [closed]
        realizedPnl := rt.realizedPnl + closed.netPnl.getD 0 } := by
  simp [closePosition, settleTrade, htrade]

end Specs

section Books

variable {config : BacktestConfig} {bundle : HistoricalDataBundle} {rt rt' : Runtime} {symbol : String}
  {candle : CandleOf String} {intent : Models.PendingIntent}

/-- The intents that were filled or rejected, once for each time that happened. -/
def outcomes (rt : Runtime) : List ClientIntentId :=
  rt.rejections.map (·.clientIntentId) ++
    (rt.closedTrades ++ rt.activeTrades.values).map (·.clientIntentId)

/-- The dictionaries and the pending intents of a runtime fit together. -/
structure Coherent (rt : Runtime) : Prop where
  trades : rt.activeTrades.keys = rt.positions.keys
  histories : rt.trailHistory.keys = rt.positions.keys
  pending : (rt.pendingIntents.map (·.symbol)).Nodup
  apart : ∀ p ∈ rt.pendingIntents, p.symbol ∉ rt.positions.keys
  once : (outcomes rt).Nodup
  processed : ∀ id ∈ outcomes rt, id ∈ rt.processedIntentIds

theorem coherent_start (config : BacktestConfig) : Coherent (start config) :=
  ⟨rfl, rfl, List.nodup_nil, fun _ hp => absurd hp List.not_mem_nil, List.nodup_nil,
    fun _ hid => absurd hid List.not_mem_nil⟩

theorem Coherent.trade (h : Coherent rt) {pos : SimulatedPositionOf String}
    (hpos : rt.positions.get? symbol = some pos) : ∃ trade, rt.activeTrades.get? symbol = some trade := by
  have hmem := Dict.mem_keys_of_get? hpos
  rw [← h.trades] at hmem
  exact Option.isSome_iff_exists.mp (Dict.get?_isSome_iff.mpr hmem)

theorem Coherent.of_perm (h : Coherent rt) (htrades : rt'.activeTrades.keys = rt'.positions.keys)
    (hhistories : rt'.trailHistory.keys = rt'.positions.keys)
    (hpositions : rt'.positions.keys ⊆ rt.positions.keys) (hpending : rt'.pendingIntents = rt.pendingIntents)
    (houtcomes : (outcomes rt').Perm (outcomes rt))
    (hprocessed : rt'.processedIntentIds = rt.processedIntentIds) : Coherent rt' := by
  refine ⟨htrades, hhistories, hpending ▸ h.pending, fun p hp hmem => ?_, houtcomes.nodup_iff.mpr h.once,
    fun id hid => ?_⟩
  · rw [hpending] at hp
    exact h.apart p hp (hpositions hmem)
  · rw [hprocessed]
    exact h.processed id (houtcomes.mem_iff.mp hid)

theorem Coherent.close (h : Coherent rt) {pos : SimulatedPositionOf String}
    (hpos : rt.positions.get? symbol = some pos) (trigger : StopTriggerResult) :
    Coherent (closePosition config rt symbol candle pos trigger) := by
  obtain ⟨trade, htrade⟩ := h.trade hpos
  rw [closePosition_eq htrade]
  refine h.of_perm ?_ ?_ ?_ rfl ?_ rfl
  · simp [h.trades]
  · simp [h.histories]
  · simp only [Dict.keys_erase]
    exact List.filter_sublist.subset
  · have hvalues := (Dict.values_perm_of_get? htrade).symm.map (·.clientIntentId)
    simp only [outcomes, List.map_append, List.append_assoc, List.map_cons, List.singleton_append]
    exact List.Perm.append_left _ (List.Perm.append_left _ hvalues)

theorem Coherent.checkStopExit (h : Coherent rt) (atOpen : Bool) :
    Coherent (Simulation.checkStopExit config rt symbol candle atOpen) := by
  rcases checkStopExit_cases config rt symbol candle atOpen with hsame | ⟨pos, trigger, hpos, hclose⟩
  · rwa [hsame]
  · rw [hclose]
    exact h.close hpos trigger

theorem Coherent.finish (h : Coherent rt) (hnew : intent.clientIntentId ∉ rt.processedIntentIds)
    (htrades : rt'.activeTrades.keys = rt'.positions.keys)
    (hhistories : rt'.trailHistory.keys = rt'.positions.keys)
    (hpending : rt'.pendingIntents = rt.pendingIntents)
    (hapart : ∀ p ∈ rt.pendingIntents, p.symbol ∉ rt'.positions.keys)
    (houtcomes : (outcomes rt').Perm (intent.clientIntentId :: outcomes rt))
    (hprocessed : rt'.processedIntentIds = intent.clientIntentId :: rt.processedIntentIds) :
    Coherent rt' := by
  refine ⟨htrades, hhistories, hpending ▸ h.pending, hpending ▸ hapart, ?_, fun id hid => ?_⟩
  · refine houtcomes.nodup_iff.mpr (List.nodup_cons.mpr ⟨fun hmem => ?_, h.once⟩)
    exact hnew (h.processed _ hmem)
  · rw [hprocessed]
    rcases List.mem_cons.mp (houtcomes.mem_iff.mp hid) with rfl | hid
    · exact List.mem_cons_self
    · exact List.mem_cons_of_mem _ (h.processed id hid)

theorem Coherent.rejectIntent (h : Coherent rt) (hnew : intent.clientIntentId ∉ rt.processedIntentIds)
    (time : Time) (codes : List ReasonCode) :
    Coherent (Simulation.rejectIntent rt intent symbol time codes) := by
  refine h.finish hnew h.trades h.histories rfl h.apart ?_ rfl
  simp only [outcomes, Simulation.rejectIntent, markTerminalIntent, List.map_append, List.map_cons,
    List.map_nil, List.append_assoc, List.singleton_append]
  exact List.perm_middle

theorem Coherent.openPosition (h : Coherent rt) (hnew : intent.clientIntentId ∉ rt.processedIntentIds)
    (hsymbol : symbol ∉ rt.positions.keys) (hpending : ∀ p ∈ rt.pendingIntents, p.symbol ≠ symbol)
    (prices : EntryFillComputation) (decision : Lifecycle.RiskDecision) (accounting : EntryAccounting) :
    Coherent (Simulation.openPosition rt intent symbol candle prices decision accounting) := by
  have htrade : symbol ∉ rt.activeTrades.keys := h.trades ▸ hsymbol
  have hhistory : symbol ∉ rt.trailHistory.keys := h.histories ▸ hsymbol
  refine h.finish hnew ?_ ?_ rfl (fun p hp hmem => ?_) ?_ rfl
  · simp only [Simulation.openPosition, markTerminalIntent]
    rw [Dict.keys_set_of_not_mem htrade, Dict.keys_set_of_not_mem hsymbol, h.trades]
  · simp only [Simulation.openPosition, markTerminalIntent]
    rw [Dict.keys_set_of_not_mem hhistory, Dict.keys_set_of_not_mem hsymbol, h.histories]
  · simp only [Simulation.openPosition, markTerminalIntent] at hmem
    rw [Dict.keys_set_of_not_mem hsymbol, List.mem_append, List.mem_singleton] at hmem
    rcases hmem with hmem | hmem
    · exact h.apart p hp hmem
    · exact hpending p hp hmem
  · have hvalues : ∀ trade, ((rt.activeTrades.set symbol trade).values).Perm
        (trade :: rt.activeTrades.values) := fun trade => by
      have hset := Dict.values_set_perm rt.activeTrades symbol trade
      rwa [Dict.erase_of_not_mem htrade] at hset
    simp only [outcomes, Simulation.openPosition, markTerminalIntent, List.map_append]
    refine (List.Perm.append_left _ (List.Perm.append_left _ ((hvalues _).map _))).trans ?_
    rw [List.map_cons, ← List.append_assoc]
    refine List.perm_middle.trans ?_
    rw [List.append_assoc]

theorem Coherent.fillIntent (h : Coherent rt) {dayCandles : String → Option (CandleOf String)}
    {priorCloses : String → Option Decimal} (hsymbol : symbol ∉ rt.positions.keys)
    (hpending : ∀ p ∈ rt.pendingIntents, p.symbol ≠ symbol)
    (hfill : Simulation.fillIntent config dayCandles priorCloses symbol candle rt intent = .ok rt') :
    Coherent rt' := by
  rcases fillIntent_ok hfill with rfl | ⟨hnew, codes, rfl⟩ | ⟨hnew, prices, decision, accounting, _, rfl⟩
  · exact h
  · exact h.rejectIntent hnew _ codes
  · exact (h.openPosition hnew hsymbol hpending prices decision accounting).checkStopExit true

theorem Coherent.toFill (h : Coherent rt) (symbol : String) :
    rt.pendingIntents.filter (·.symbol = symbol) = [] ∨
    ∃ intent ∈ rt.pendingIntents, intent.symbol = symbol ∧
      rt.pendingIntents.filter (·.symbol = symbol) = [intent] := by
  have hlength := length_filter_key_le_one h.pending symbol
  rcases hrows : rt.pendingIntents.filter (·.symbol = symbol) with _ | ⟨intent, rest⟩
  · exact .inl hrows
  · rw [hrows, List.length_cons] at hlength
    have hrest : rest = [] := List.length_eq_zero_iff.mp (by omega)
    have hmem : intent ∈ rt.pendingIntents.filter (·.symbol = symbol) := hrows ▸ List.mem_cons_self
    obtain ⟨hmem, hsymbol⟩ := List.mem_filter.mp hmem
    exact .inr ⟨intent, hmem, by simpa using hsymbol, by rw [hrows, hrest]⟩

theorem Coherent.drop (h : Coherent rt) (symbol : String) :
    Coherent { rt with pendingIntents := rt.pendingIntents.filter (·.symbol ≠ symbol) } :=
  ⟨h.trades, h.histories, h.pending.sublist (List.filter_sublist.map _),
    fun p hp => h.apart p (List.mem_filter.mp hp).1, h.once, h.processed⟩

theorem Coherent.fillPendingAtOpen (h : Coherent rt) {dayCandles : String → Option (CandleOf String)}
    {priorCloses : String → Option Decimal}
    (hfill : Simulation.fillPendingAtOpen config dayCandles priorCloses rt symbol candle = .ok rt') :
    Coherent rt' := by
  unfold Simulation.fillPendingAtOpen at hfill
  rcases h.toFill symbol with hnone | ⟨intent, hmem, hsymbol, hone⟩
  · rw [hnone] at hfill
    cases hfill
    exact h.drop symbol
  · rw [hone, List.foldlM_cons] at hfill
    obtain ⟨filled, hfilled, hfill⟩ := except_bind_eq_ok.mp hfill
    cases hfill
    refine (h.drop symbol).fillIntent ?_ (fun p hp => ?_) hfilled
    · exact hsymbol ▸ h.apart intent hmem
    · simpa using (List.mem_filter.mp hp).2

theorem Coherent.chargeFunding (h : Coherent rt) (notional rate : Decimal) :
    Coherent (Simulation.chargeFunding symbol notional rt rate) := by
  unfold Simulation.chargeFunding
  cases htrade : rt.activeTrades.get? symbol with
  | none => exact ⟨h.trades, h.histories, h.pending, h.apart, h.once, h.processed⟩
  | some trade =>
    have hmem := Dict.mem_keys_of_get? htrade
    refine h.of_perm ?_ h.histories (List.Subset.refl _) rfl ?_ rfl
    · dsimp only
      rw [Dict.keys_set_of_mem hmem, h.trades]
    · have hset := Dict.values_set_perm rt.activeTrades symbol
        { trade with funding := trade.funding + notional * rate }
      have hvalues := (Dict.values_perm_of_get? htrade).symm.map (·.clientIntentId)
      simp only [outcomes, List.map_append]
      exact List.Perm.append_left _ (List.Perm.append_left _ ((hset.map _).trans hvalues))

theorem Coherent.applyFunding (h : Coherent rt) :
    Coherent (Simulation.applyFunding config bundle rt symbol candle) := by
  unfold Simulation.applyFunding
  cases rt.positions.get? symbol with
  | none => exact h
  | some pos =>
    dsimp only
    induction fundingRates config bundle symbol candle generalizing rt with
    | nil => exact h
    | cons rate rates ih => exact ih (h.chargeFunding _ rate)

theorem Coherent.queueIntent (h : Coherent rt) (evalTime : Time) (evaluation : StrategyEvaluationOf String) :
    Coherent (Simulation.queueIntent rt symbol evalTime evaluation) := by
  unfold Simulation.queueIntent
  split
  · dsimp only
    split_ifs with hblocked
    · exact h
    · simp only [not_or, List.any_eq_true, decide_eq_true_eq, not_exists, not_and] at hblocked
      refine ⟨h.trades, h.histories, ?_, fun p hp => ?_, h.once, h.processed⟩
      · rw [List.map_append, List.nodup_append]
        refine ⟨h.pending, List.nodup_singleton _, ?_⟩
        rintro _ hp _ hq rfl
        obtain ⟨p, hp, hsymbol⟩ := List.mem_map.mp hp
        rw [List.map_singleton, List.mem_singleton] at hq
        exact hblocked.2.2 p hp (hsymbol.trans hq)
      · rcases List.mem_append.mp hp with hp | hp
        · exact h.apart p hp
        · rw [List.mem_singleton.mp hp]
          exact hblocked.2.1
  · exact h

theorem Coherent.strategyAndQueue (h : Coherent rt) {evalTime : Time}
    (hrun : Simulation.strategyAndQueue config bundle rt symbol evalTime = .ok rt') : Coherent rt' := by
  obtain ⟨evaluation, _, hrun⟩ := except_bind_eq_ok.mp hrun
  cases hrun
  have hevaluated : Coherent { rt with evaluations := rt.evaluations ++ [evaluation] } :=
    ⟨h.trades, h.histories, h.pending, h.apart, h.once, h.processed⟩
  exact hevaluated.queueIntent evalTime evaluation

theorem updateTrailing_ok {evalTime : Time}
    (hrun : Simulation.updateTrailing config bundle rt symbol candle evalTime = .ok rt') :
    rt' = rt ∨ ∃ pos updated history, rt.positions.get? symbol = some pos ∧
      updated.quantity = pos.quantity ∧ updated.entryPrice = pos.entryPrice ∧
      rt' = { rt with positions := rt.positions.set symbol updated
                      trailHistory := rt.trailHistory.set symbol history } := by
  unfold Simulation.updateTrailing at hrun
  cases hpos : rt.positions.get? symbol with
  | none =>
    rw [hpos] at hrun
    cases hrun
    exact .inl rfl
  | some pos =>
    rw [hpos] at hrun
    dsimp only at hrun
    split_ifs at hrun with hempty
    · cases hrun
      exact .inl rfl
    · obtain ⟨constraints, _, hrun⟩ := except_bind_eq_ok.mp hrun
      obtain ⟨updated, hupdated, hrun⟩ := except_bind_eq_ok.mp hrun
      cases hrun
      unfold Engine.updateTrailing at hupdated
      rw [if_neg hempty] at hupdated
      obtain ⟨state, _, hupdated⟩ := except_bind_eq_ok.mp hupdated
      cases hupdated
      refine .inr ⟨pos, _, _, rfl, ?_, ?_, rfl⟩
      · rfl
      · rfl

theorem Coherent.updateTrailing (h : Coherent rt) {evalTime : Time}
    (hrun : Simulation.updateTrailing config bundle rt symbol candle evalTime = .ok rt') : Coherent rt' := by
  rcases updateTrailing_ok hrun with rfl | ⟨pos, updated, history, hpos, _, _, rfl⟩
  · exact h
  · have hmem := Dict.mem_keys_of_get? hpos
    have hhistory : symbol ∈ rt.trailHistory.keys := h.histories ▸ hmem
    refine h.of_perm ?_ ?_ ?_ rfl (List.Perm.refl _) rfl
    · dsimp only
      rw [Dict.keys_set_of_mem hmem, h.trades]
    · dsimp only
      rw [Dict.keys_set_of_mem hmem, Dict.keys_set_of_mem hhistory, h.histories]
    · dsimp only
      rw [Dict.keys_set_of_mem hmem]
      exact List.Subset.refl _

theorem Coherent.applyStep (h : Coherent rt) {step : Step}
    (hstep : Simulation.applyStep config bundle rt step = .ok rt') : Coherent rt' := by
  cases worked_of_applyStep hstep with
  | idle => exact h
  | fill _ hwork => exact h.fillPendingAtOpen hwork
  | stop => exact h.checkStopExit false
  | funding => exact h.applyFunding
  | strategy _ hwork => exact h.strategyAndQueue hwork
  | trailing _ hwork => exact h.updateTrailing hwork
  | snapshot => exact ⟨h.trades, h.histories, h.pending, h.apart, h.once, h.processed⟩

end Books

section Size

variable {config : BacktestConfig} {bundle : HistoricalDataBundle} {rt rt' : Runtime} {symbol : String}
  {candle : CandleOf String} {intent : Models.PendingIntent}
  {dayCandles : String → Option (CandleOf String)} {priorCloses : String → Option Decimal}

def PositivePrices (config : BacktestConfig) (bundle : HistoricalDataBundle) : Prop :=
  ∀ symbol ∈ config.symbols, ∀ c ∈ bundle.daily symbol, 0 < c.openPrice ∧ 0 < c.close

/-- The positions are real ones, and not too many. A negative maximum allows as many as zero does. -/
structure Bounded (config : BacktestConfig) (rt : Runtime) : Prop where
  positive : ∀ p ∈ rt.positions.values, 0 < p.quantity ∧ 0 < p.entryPrice
  count : rt.positions.keys.length ≤ config.riskParams.maxOpenPositions.toNat

theorem priorClose_mem {candles : List (CandleOf String)} {before : Time} {price : Decimal}
    (h : priorClose candles before = some price) : ∃ c ∈ candles, c.close = price := by
  obtain ⟨prior, _, h⟩ := Option.bind_eq_some_iff.mp h
  obtain ⟨c, hc, hclose⟩ := Option.map_eq_some_iff.mp h
  exact ⟨c, (candleAt_mem hc).1, hclose⟩

theorem toPositionStates_length {positions : List (SimulatedPositionOf String)}
    (hpositive : ∀ p ∈ positions, 0 < p.quantity ∧ 0 < p.entryPrice)
    (hopens : ∀ s c, dayCandles s = some c → 0 < c.openPrice)
    (hcloses : ∀ s price, priorCloses s = some price → 0 < price) :
    (toPositionStates positions (resolveMarksAtOpen positions dayCandles priorCloses)).length =
      positions.length := by
  have hmarks : ∀ s mark, resolveMarksAtOpen positions dayCandles priorCloses s = some mark → 0 < mark := by
    intro s mark hmark
    unfold resolveMarksAtOpen at hmark
    obtain ⟨p, hp, rfl⟩ := Option.map_eq_some_iff.mp hmark
    rw [List.findRev?_eq_find?_reverse] at hp
    have hmem := List.mem_reverse.mp (List.mem_of_find?_eq_some hp)
    cases hcandle : dayCandles s with
    | some c => simpa [hcandle] using hopens s c hcandle
    | none =>
      cases hclose : priorCloses s with
      | some price => simpa [hcandle, hclose] using hcloses s price hclose
      | none => simpa [hcandle, hclose] using (hpositive p hmem).2
  refine List.filterMap_length_eq_length.mpr fun p hp => ?_
  have hmark : 0 < (resolveMarksAtOpen positions dayCandles priorCloses p.symbol).getD p.entryPrice := by
    cases hmark : resolveMarksAtOpen positions dayCandles priorCloses p.symbol with
    | none => exact (hpositive p hp).2
    | some mark => exact hmarks _ mark hmark
  simp [toPositionState, not_le.mpr (hpositive p hp).1, not_le.mpr hmark]

theorem Bounded.of_positions (h : Bounded config rt) (hvalues : rt'.positions.values ⊆ rt.positions.values)
    (hkeys : rt'.positions.keys.length ≤ rt.positions.keys.length) : Bounded config rt' :=
  ⟨fun p hp => h.positive p (hvalues hp), hkeys.trans h.count⟩

theorem Bounded.checkStopExit (h : Bounded config rt) (hcoherent : Coherent rt) (atOpen : Bool) :
    Bounded config (Simulation.checkStopExit config rt symbol candle atOpen) := by
  rcases checkStopExit_cases config rt symbol candle atOpen with hsame | ⟨pos, trigger, hpos, hclose⟩
  · rwa [hsame]
  · obtain ⟨trade, htrade⟩ := hcoherent.trade hpos
    rw [hclose, closePosition_eq htrade]
    refine h.of_positions (fun p hp => ?_) ?_
    · exact (Dict.values_perm_of_get? hpos).mem_iff.mpr (List.mem_cons_of_mem _ hp)
    · simp only [Dict.keys_erase]
      exact List.length_filter_le _ _

theorem Bounded.openPosition (h : Bounded config rt) (hsymbol : symbol ∉ rt.positions.keys)
    {prices : EntryFillComputation} {accounting : EntryAccounting}
    (happroved : ApprovedEntry config dayCandles priorCloses rt prices.fillPrice accounting.quantity)
    (hopens : ∀ s c, dayCandles s = some c → 0 < c.openPrice)
    (hcloses : ∀ s price, priorCloses s = some price → 0 < price) (decision : Lifecycle.RiskDecision) :
    Bounded config (Simulation.openPosition rt intent symbol candle prices decision accounting) := by
  have hroom := happroved.room
  rw [toPositionStates_length h.positive hopens hcloses, Dict.length_values] at hroom
  refine ⟨fun p hp => ?_, ?_⟩
  · simp only [Simulation.openPosition, markTerminalIntent] at hp
    have hp := (Dict.values_set_perm _ _ _).mem_iff.mp hp
    rw [Dict.erase_of_not_mem hsymbol] at hp
    rcases List.mem_cons.mp hp with rfl | hp
    · exact ⟨happroved.quantity_pos, happroved.fillPrice_pos⟩
    · exact h.positive p hp
  · simp only [Simulation.openPosition, markTerminalIntent]
    rw [Dict.keys_set_of_not_mem hsymbol, List.length_append, List.length_singleton]
    omega

theorem Bounded.fillPendingAtOpen (h : Bounded config rt) (hcoherent : Coherent rt)
    (hopens : ∀ s c, dayCandles s = some c → 0 < c.openPrice)
    (hcloses : ∀ s price, priorCloses s = some price → 0 < price)
    (hfill : Simulation.fillPendingAtOpen config dayCandles priorCloses rt symbol candle = .ok rt') :
    Bounded config rt' := by
  have hdropped : Bounded config
      { rt with pendingIntents := rt.pendingIntents.filter (·.symbol ≠ symbol) } := ⟨h.positive, h.count⟩
  unfold Simulation.fillPendingAtOpen at hfill
  rcases hcoherent.toFill symbol with hnone | ⟨intent, hmem, hsymbol, hone⟩
  · rw [hnone] at hfill
    cases hfill
    exact hdropped
  · rw [hone, List.foldlM_cons] at hfill
    obtain ⟨filled, hfilled, hfill⟩ := except_bind_eq_ok.mp hfill
    cases hfill
    have hfree : symbol ∉ rt.positions.keys := hsymbol ▸ hcoherent.apart intent hmem
    rcases fillIntent_ok hfilled with rfl | ⟨_, codes, rfl⟩ | ⟨hnew, prices, decision, accounting, happroved, rfl⟩
    · exact hdropped
    · exact ⟨h.positive, h.count⟩
    · have hopened : Bounded config (Simulation.openPosition _ intent symbol candle prices decision
          accounting) := hdropped.openPosition hfree happroved hopens hcloses decision
      refine hopened.checkStopExit ?_ true
      refine (hcoherent.drop symbol).openPosition hnew hfree (fun p hp => ?_) prices decision accounting
      simpa using (List.mem_filter.mp hp).2

theorem Bounded.updateTrailing (h : Bounded config rt) {evalTime : Time}
    (hrun : Simulation.updateTrailing config bundle rt symbol candle evalTime = .ok rt') :
    Bounded config rt' := by
  rcases updateTrailing_ok hrun with rfl | ⟨pos, updated, history, hpos, hquantity, hprice, rfl⟩
  · exact h
  · refine ⟨fun p hp => ?_, ?_⟩
    · rcases List.mem_cons.mp ((Dict.values_set_perm _ _ _).mem_iff.mp hp) with rfl | hp
      · rw [hquantity, hprice]
        exact h.positive pos (Dict.mem_values_of_get? hpos)
      · exact h.positive p ((Dict.values_perm_of_get? hpos).mem_iff.mpr (List.mem_cons_of_mem _ hp))
    · dsimp only
      rw [Dict.keys_set_of_mem (Dict.mem_keys_of_get? hpos)]
      exact h.count

theorem queueIntent_positions (rt : Runtime) (symbol : String) (evalTime : Time)
    (evaluation : StrategyEvaluationOf String) :
    (queueIntent rt symbol evalTime evaluation).positions = rt.positions := by
  unfold queueIntent
  split
  · dsimp only
    split_ifs
    · rfl
    · rfl
  · rfl

theorem applyFunding_positions (config : BacktestConfig) (bundle : HistoricalDataBundle) (rt : Runtime)
    (symbol : String) (candle : CandleOf String) :
    (applyFunding config bundle rt symbol candle).positions = rt.positions := by
  unfold applyFunding
  cases rt.positions.get? symbol with
  | none => rfl
  | some pos =>
    dsimp only
    induction fundingRates config bundle symbol candle generalizing rt with
    | nil => rfl
    | cons rate rates ih => exact (ih _).trans rfl

theorem Bounded.applyStep (h : Bounded config rt) (hcoherent : Coherent rt)
    (hprices : PositivePrices config bundle) {step : Step}
    (hstep : Simulation.applyStep config bundle rt step = .ok rt') : Bounded config rt' := by
  cases worked_of_applyStep hstep with
  | idle => exact h
  | fill _ hwork =>
    refine h.fillPendingAtOpen hcoherent (fun s c hc => ?_) (fun s price hprice => ?_) hwork
    · obtain ⟨hs, hmem, _⟩ := dayCandles_eq_some hc
      exact (hprices s hs c hmem).1
    · unfold Simulation.priorCloses at hprice
      split_ifs at hprice with hs
      obtain ⟨c, hmem, rfl⟩ := priorClose_mem hprice
      exact (hprices s hs c hmem).2
  | stop => exact h.checkStopExit hcoherent false
  | @funding t symbol candle =>
    have hpositions := applyFunding_positions config bundle rt symbol candle
    exact ⟨by rw [hpositions]; exact h.positive, by rw [hpositions]; exact h.count⟩
  | strategy _ hwork =>
    obtain ⟨evaluation, _, hwork⟩ := except_bind_eq_ok.mp hwork
    cases hwork
    refine ⟨?_, ?_⟩
    · rw [queueIntent_positions]
      exact h.positive
    · rw [queueIntent_positions]
      exact h.count
  | trailing _ hwork => exact h.updateTrailing hwork
  | snapshot => exact ⟨h.positive, h.count⟩

theorem reached_coherent (h : Reached config bundle rt) : Coherent rt :=
  h.induct (coherent_start config) fun _ _ _ hcoherent hstep => hcoherent.applyStep hstep

/-- In every state of every run the dictionaries agree, pending intents and positions keep apart, no intent
has two outcomes, and with positive prices there are never more positions than allowed. -/
theorem backtest_books_coherent (config : BacktestConfig) (bundle : HistoricalDataBundle) (rt : Runtime)
    (h : Reached config bundle rt) :
    Coherent rt ∧ (PositivePrices config bundle →
      rt.positions.keys.length ≤ config.riskParams.maxOpenPositions.toNat) := by
  refine ⟨reached_coherent h, fun hprices => ?_⟩
  have hstart : Coherent (start config) ∧ Bounded config (start config) :=
    ⟨coherent_start config, fun _ hp => absurd hp List.not_mem_nil, Nat.zero_le _⟩
  have hstep : ∀ rt step rt', Coherent rt ∧ Bounded config rt →
      applyStep config bundle rt step = .ok rt' → Coherent rt' ∧ Bounded config rt' := by
    rintro rt step rt' ⟨hcoherent, hbounded⟩ hstep
    exact ⟨hcoherent.applyStep hstep, hbounded.applyStep hcoherent hprices hstep⟩
  exact (h.induct hstart hstep).2.count

end Size

section Sample

def sampleBar (timeframe : Timeframe) (openTime closeTime : Time) (openPrice high low close : Decimal) :
    CandleOf String :=
  { symbol := "BTC", timeframe, openTime, closeTime, openPrice, high, low, close
    volume := 10, isClosed := true }

def sampleBundle (fundingRate : Decimal) : HistoricalDataBundle :=
  { daily := fun _ =>
      [sampleBar .daily 0 (day - 1) 100 101 99 100, sampleBar .daily day (2 * day - 1) 100 120 100 110,
        sampleBar .daily (2 * day) (3 * day - 1) 110 120 109 115]
    weekly := fun _ =>
      [sampleBar .weekly (-14 * day) (-7 * day - 1) 100 101 99 100,
        sampleBar .weekly (-7 * day) (-1) 100 120 100 110]
    monthly := fun _ =>
      [sampleBar .monthly (-60 * day) (-30 * day - 1) 100 101 99 100,
        sampleBar .monthly (-30 * day) (-1) 100 120 100 110]
    funding := fun _ => [⟨2 * day + 3600 * second, fundingRate⟩] }

/-- Short periods, so that the second day gives a signal and the third one the fill. -/
def sampleConfig : BacktestConfig :=
  { symbols := ["BTC"]
    strategyParams :=
      { monthlyEmaPeriod := 2, weeklyEmaFast := 1, weeklyEmaSlow := 2, dailyEmaPeriod := 2
        breakoutLookback := 1, atrPeriod := 1, volumeSmaPeriod := 1 }
    fundingModel := { enabled := true }
    symbolConstraints := fun _ =>
      some { quantityStep := 1 / 1000, minimumQuantity := 1 / 1000, priceTickSize := 1 / 10 } }

theorem sample_reached : ∃ rt, Reached sampleConfig (sampleBundle (1 / 1000)) rt ∧
    rt.positions.keys = ["BTC"] := by
  have hkeys : ((runSteps sampleConfig (sampleBundle (1 / 1000))
      (steps sampleConfig (sampleBundle (1 / 1000)))).map (·.positions.keys)).toOption = some ["BTC"] := by
    decide +kernel
  cases hrun : runSteps sampleConfig (sampleBundle (1 / 1000))
      (steps sampleConfig (sampleBundle (1 / 1000))) with
  | error e =>
    rw [hrun] at hkeys
    cases hkeys
  | ok rt =>
    rw [hrun] at hkeys
    exact ⟨rt, ⟨_, [], (List.append_nil _).symm, hrun⟩, Option.some.inj hkeys⟩

theorem backtest_books_coherent_sample : ∃ rt, Reached sampleConfig (sampleBundle (1 / 1000)) rt ∧
    rt.positions.keys = ["BTC"] ∧ Coherent rt ∧ rt.positions.keys.length ≤ 3 := by
  obtain ⟨rt, hreached, hkeys⟩ := sample_reached
  obtain ⟨hcoherent, hcount⟩ := backtest_books_coherent _ _ rt hreached
  have hprices : PositivePrices sampleConfig (sampleBundle (1 / 1000)) := by
    unfold PositivePrices
    decide +kernel
  exact ⟨rt, hreached, hkeys, hcoherent, hcount hprices⟩

end Sample

end TradingBot.Backtester.Structure
