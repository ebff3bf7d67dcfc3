import TradingBot.Backtester.DayRecords
import TradingBot.Backtester.Positions

namespace TradingBot.Backtester.StopPhase

open Market.Models Strategy.Models Exceptions Library.Dictionary Library.Outcome
open Backtester.Lifecycle Backtester.Models Backtester.Simulation Backtester.Structure Backtester.Positions

section Check

def exitReference (stop : Decimal) (candle : CandleOf String) : Decimal :=
  if candle.openPrice < stop then candle.openPrice else stop

/-- The day's candle opens at the stop or above it, and stays above it. -/
structure Clears (pos : SimulatedPositionOf String) (candle : CandleOf String) : Prop where
  openPrice : pos.effectiveStop ≤ candle.openPrice
  low : pos.effectiveStop < candle.low

variable {pos : SimulatedPositionOf String} {candle : CandleOf String} {trigger : StopTriggerResult}

theorem checkStopExit_eq_none_iff : Engine.checkStopExit pos candle false = none ↔ Clears pos candle := by
  have hsome := computeStopTrigger_isSome candle pos.effectiveStop pos.initialStop pos.trailStop
  rw [← Option.not_isSome_iff_eq_none]
  unfold Engine.checkStopExit
  rw [if_neg Bool.false_ne_true, hsome, not_or, not_lt, not_le]
  exact ⟨fun h => ⟨h.1, h.2⟩, fun h => ⟨h.openPrice, h.low⟩⟩

theorem checkStopExit_reference (h : Engine.checkStopExit pos candle false = some trigger) :
    trigger.exitReference = exitReference pos.effectiveStop candle := by
  unfold Engine.checkStopExit computeStopTrigger computeGapStopAtOpen at h
  unfold exitReference
  rw [if_neg Bool.false_ne_true] at h
  split_ifs at h ⊢ with hgap
  · cases h
    rfl
  · unfold computeIntradayStop at h
    rw [Option.none_or] at h
    split at h
    · cases h
      rfl
    · cases h

theorem applyExitSlippage_le {stop bps : Decimal} (hstop : 0 < stop) (hbps : 0 ≤ bps)
    (hopen : 0 ≤ candle.openPrice ∨ bps ≤ 10000) :
    applyExitSlippage (exitReference stop candle) bps ≤ stop := by
  have hle : ∀ price : Decimal, 0 ≤ price → price * (1 - bps / 10000) ≤ price := by
    intro price hprice
    have hcost : 0 ≤ price * (bps / 10000) := mul_nonneg hprice (div_nonneg hbps (by norm_num))
    linarith
  unfold applyExitSlippage exitReference
  split_ifs with hgap
  · rcases le_or_gt 0 candle.openPrice with hpositive | hnegative
    · exact (hle _ hpositive).trans hgap.le
    · have hrate : 0 ≤ 1 - bps / 10000 := by
        have hbound : bps ≤ 10000 := hopen.resolve_left (not_le.mpr hnegative)
        rw [sub_nonneg, div_le_one (by norm_num)]
        exact hbound
      exact (mul_nonpos_of_nonpos_of_nonneg hnegative.le hrate).trans hstop.le
  · exact hle stop hstop.le

end Check

section Sweep

variable {config : BacktestConfig} {bundle : HistoricalDataBundle} {t : Time} {symbol : String}
  {candle : CandleOf String} {pos : SimulatedPositionOf String} {closed : BacktestTrade} {rt rt₁ rt' : Runtime}
  {symbols symbols' : List String}

structure StoppedOut (config : BacktestConfig) (rt : Runtime) (symbol : String) (candle : CandleOf String)
    (pos : SimulatedPositionOf String) (closed : BacktestTrade) : Prop where
  position : rt.positions.get? symbol = some pos
  hit : ¬ Clears pos candle
  trade : ∃ trade, rt.activeTrades.get? symbol = some trade ∧ closed.clientIntentId = trade.clientIntentId ∧
    closed.entryTime = trade.entryTime ∧ closed.quantity = trade.quantity
  exitTime : closed.exitTime = some candle.openTime
  exitReferencePrice : closed.exitReferencePrice = some (exitReference pos.effectiveStop candle)
  exitFillPrice : closed.exitFillPrice =
    some (applyExitSlippage (exitReference pos.effectiveStop candle) config.slippageBps)

/-- Between the two states the stops of some symbols were checked. -/
structure Swept (config : BacktestConfig) (bundle : HistoricalDataBundle) (t : Time) (symbols : List String)
    (rt rt' : Runtime) : Prop where
  positions : ∀ symbol pos, rt'.positions.get? symbol = some pos ↔ rt.positions.get? symbol = some pos ∧
    (symbol ∈ symbols → ∀ candle, dayCandles config bundle t symbol = some candle → Clears pos candle)
  trades : ∀ symbol pos, rt'.positions.get? symbol = some pos →
    rt'.activeTrades.get? symbol = rt.activeTrades.get? symbol
  exits : ∃ exits, rt'.closedTrades = rt.closedTrades ++ exits ∧
    (∀ symbol ∈ symbols, ∀ pos candle, rt.positions.get? symbol = some pos →
      dayCandles config bundle t symbol = some candle → ¬ Clears pos candle →
        ∃ closed ∈ exits, StoppedOut config rt symbol candle pos closed) ∧
    ∀ closed ∈ exits, ∃ symbol ∈ symbols, ∃ pos candle, dayCandles config bundle t symbol = some candle ∧
      StoppedOut config rt symbol candle pos closed

theorem Swept.of_clears (hclears : ∀ symbol ∈ symbols, ∀ pos candle, rt.positions.get? symbol = some pos →
    dayCandles config bundle t symbol = some candle → Clears pos candle) : Swept config bundle t symbols rt rt := by
  refine ⟨fun symbol pos => ?_, fun _ _ _ => rfl, [], (List.append_nil _).symm, ?_, ?_⟩
  · exact ⟨fun h => ⟨h, fun hs candle hcandle => hclears symbol hs pos candle h hcandle⟩, fun h => h.1⟩
  · exact fun symbol hs pos candle hpos hcandle hhit => absurd (hclears symbol hs pos candle hpos hcandle) hhit
  · exact fun _ hclosed => absurd hclosed List.not_mem_nil

theorem StoppedOut.earlier (hsweep : Swept config bundle t symbols rt rt₁)
    (h : StoppedOut config rt₁ symbol candle pos closed) : StoppedOut config rt symbol candle pos closed := by
  obtain ⟨hpos, hhit, htrade, htime, hreference, hfill⟩ := h
  rw [hsweep.trades symbol pos hpos] at htrade
  exact ⟨((hsweep.positions symbol pos).mp hpos).1, hhit, htrade, htime, hreference, hfill⟩

theorem Swept.append (h : Swept config bundle t symbols rt rt₁) (h' : Swept config bundle t symbols' rt₁ rt') :
    Swept config bundle t (symbols ++ symbols') rt rt' := by
  obtain ⟨exits, htrades, hall, honly⟩ := h.exits
  obtain ⟨exits', htrades', hall', honly'⟩ := h'.exits
  refine ⟨fun symbol pos => ?_, fun symbol pos hpos => ?_, exits ++ exits', ?_, ?_, ?_⟩
  · rw [h'.positions, h.positions, List.mem_append, and_assoc]
    refine and_congr_right fun _ => ?_
    exact ⟨fun ⟨h₁, h₂⟩ hs => hs.elim h₁ h₂, fun hs => ⟨fun h₁ => hs (.inl h₁), fun h₂ => hs (.inr h₂)⟩⟩
  · rw [h'.trades symbol pos hpos]
    exact h.trades symbol pos ((h'.positions symbol pos).mp hpos).1
  · rw [htrades', htrades, List.append_assoc]
  · intro symbol hsymbol pos candle hpos hcandle hhit
    by_cases hmem : symbol ∈ symbols
    · obtain ⟨closed, hclosed, hstopped⟩ := hall symbol hmem pos candle hpos hcandle hhit
      exact ⟨closed, List.mem_append_left _ hclosed, hstopped⟩
    · have hkept : rt₁.positions.get? symbol = some pos :=
        (h.positions symbol pos).mpr ⟨hpos, fun hs => absurd hs hmem⟩
      have hlater : symbol ∈ symbols' := (List.mem_append.mp hsymbol).resolve_left hmem
      obtain ⟨closed, hclosed, hstopped⟩ := hall' symbol hlater pos candle hkept hcandle hhit
      exact ⟨closed, List.mem_append_right _ hclosed, hstopped.earlier h⟩
  · intro closed hclosed
    rcases List.mem_append.mp hclosed with hclosed | hclosed
    · obtain ⟨symbol, hs, pos, candle, hcandle, hstopped⟩ := honly closed hclosed
      exact ⟨symbol, List.mem_append_left _ hs, pos, candle, hcandle, hstopped⟩
    · obtain ⟨symbol, hs, pos, candle, hcandle, hstopped⟩ := honly' closed hclosed
      exact ⟨symbol, List.mem_append_right _ hs, pos, candle, hcandle, hstopped.earlier h⟩

theorem stoppedOut_closeTrade {trigger : StopTriggerResult} {trade : BacktestTrade}
    {history : List TrailingStopSnapshot} (hpos : rt.positions.get? symbol = some pos) (hhit : ¬ Clears pos candle)
    (htrade : rt.activeTrades.get? symbol = some trade)
    (htrigger : Engine.checkStopExit pos candle false = some trigger) :
    StoppedOut config rt symbol candle pos (closeTrade trade candle trigger
      (computeExitAccounting trigger.exitReference pos.quantity pos.entryPrice config.slippageBps config.exitFeeRate)
      history) := by
  refine ⟨hpos, hhit, ⟨trade, htrade, rfl, rfl, rfl⟩, rfl, ?_, ?_⟩
  · rw [← checkStopExit_reference htrigger]
    rfl
  · rw [← checkStopExit_reference htrigger]
    rfl

theorem Swept.close (hcoherent : Coherent rt) (hpos : rt.positions.get? symbol = some pos)
    (hcandle : dayCandles config bundle t symbol = some candle) {trigger : StopTriggerResult}
    (htrigger : Engine.checkStopExit pos candle false = some trigger) :
    Swept config bundle t [symbol] rt (closePosition config rt symbol candle pos trigger) := by
  have hhit : ¬ Clears pos candle := by
    rw [← checkStopExit_eq_none_iff, htrigger]
    exact Option.some_ne_none trigger
  obtain ⟨trade, htrade⟩ := hcoherent.trade hpos
  rw [closePosition_eq htrade]
  refine ⟨fun s p => ?_, fun s p hp => ?_, [_], rfl, ?_, ?_⟩
  · rw [Dict.get?_erase, List.mem_singleton]
    split_ifs with hs
    · subst hs
      constructor
      · intro hnone
        cases hnone
      · rintro ⟨h, hclears⟩
        obtain rfl := Option.some.inj (hpos.symm.trans h)
        exact absurd (hclears rfl candle hcandle) hhit
    · exact ⟨fun h => ⟨h, fun hs' => absurd hs' hs⟩, fun h => h.1⟩
  · dsimp only at hp ⊢
    rw [Dict.get?_erase] at hp ⊢
    split_ifs at hp ⊢ with hs
    rfl
  · intro s hs p c hp hc _
    obtain rfl := List.mem_singleton.mp hs
    obtain rfl := Option.some.inj (hpos.symm.trans hp)
    obtain rfl := Option.some.inj (hcandle.symm.trans hc)
    exact ⟨_, List.mem_singleton_self _, stoppedOut_closeTrade hpos hhit htrade htrigger⟩
  · intro closed hclosed
    obtain rfl := List.mem_singleton.mp hclosed
    exact ⟨symbol, List.mem_singleton_self _, pos, candle, hcandle, stoppedOut_closeTrade hpos hhit htrade htrigger⟩

theorem swept_stop (hcoherent : Coherent rt) (hstep : applyStep config bundle rt (.stop t symbol) = .ok rt') :
    Swept config bundle t [symbol] rt rt' := by
  have hkeep : (∀ pos candle, rt.positions.get? symbol = some pos →
      dayCandles config bundle t symbol = some candle → Clears pos candle) →
      Swept config bundle t [symbol] rt rt := fun hclears =>
    Swept.of_clears (List.forall_mem_singleton.mpr hclears)
  change onCandle config bundle t symbol rt
    (fun candle => .ok (Simulation.checkStopExit config rt symbol candle false)) = .ok rt' at hstep
  unfold onCandle at hstep
  cases hcandle : dayCandles config bundle t symbol with
  | none =>
    rw [hcandle] at hstep
    cases hstep
    exact hkeep fun pos candle _ h => absurd (hcandle.symm.trans h) nofun
  | some candle =>
    rw [hcandle] at hstep
    obtain rfl := Except.ok.inj hstep
    unfold Simulation.checkStopExit
    cases hpos : rt.positions.get? symbol with
    | none => exact hkeep fun pos _ h => absurd (hpos.symm.trans h) nofun
    | some pos =>
      dsimp only
      cases htrigger : Engine.checkStopExit pos candle false with
      | none =>
        refine hkeep fun pos' candle' hpos' hcandle' => ?_
        obtain rfl := Option.some.inj (hpos.symm.trans hpos')
        obtain rfl := Option.some.inj (hcandle.symm.trans hcandle')
        exact checkStopExit_eq_none_iff.mp htrigger
      | some trigger => exact Swept.close hcoherent hpos hcandle htrigger

theorem swept_stops (hcoherent : Coherent rt)
    (h : (symbols.map (Step.stop t)).foldlM (applyStep config bundle) rt = .ok rt') :
    Swept config bundle t symbols rt rt' := by
  induction symbols generalizing rt with
  | nil =>
    cases h
    exact Swept.of_clears fun _ hs => absurd hs List.not_mem_nil
  | cons symbol symbols ih =>
    rw [List.map_cons, List.foldlM_cons] at h
    obtain ⟨rt₁, hstep, h⟩ := except_bind_eq_ok.mp h
    exact (swept_stop hcoherent hstep).append (ih (hcoherent.applyStep hstep) h)

end Sweep

section Phase

variable {config : BacktestConfig} {bundle : HistoricalDataBundle} {t : Time} {rt rt' : Runtime}

/-- The states of a run before and after the stops of a day are checked: the pending intents were filled. -/
def AroundStops (config : BacktestConfig) (bundle : HistoricalDataBundle) (t : Time) (rt rt' : Runtime) : Prop :=
  ∃ earlier later, steps config bundle =
      (earlier ++ config.symbols.map (.fill t)) ++ (config.symbols.map (.stop t) ++ later) ∧
    runSteps config bundle (earlier ++ config.symbols.map (.fill t)) = .ok rt ∧
    (config.symbols.map (Step.stop t)).foldlM (applyStep config bundle) rt = .ok rt'

theorem exists_aroundStops (hday : t ∈ buildTimeline config bundle) {final : Runtime}
    (hrun : runSteps config bundle (steps config bundle) = .ok final) :
    ∃ rt rt', AroundStops config bundle t rt rt' := by
  obtain ⟨first, hfirst⟩ := DayRecords.firstCandle_isSome hday
  obtain ⟨days, days', hdays⟩ := List.append_of_mem hday
  obtain ⟨rest, hrest⟩ : ∃ rest, daySteps config bundle t =
      config.symbols.map (.fill t) ++ (config.symbols.map (.stop t) ++ rest) := by
    unfold daySteps
    unfold DayRecords.firstCandle at hfirst
    rw [hfirst]
    simp only [List.append_assoc]
    exact ⟨_, rfl⟩
  have hsteps : steps config bundle = (days.flatMap (daySteps config bundle) ++ config.symbols.map (.fill t)) ++
      (config.symbols.map (.stop t) ++ (rest ++ days'.flatMap (daySteps config bundle))) := by
    unfold steps
    rw [hdays, List.flatMap_append, List.flatMap_cons, hrest]
    simp only [List.append_assoc]
  have hdone := hrun
  unfold runSteps at hdone
  rw [hsteps, List.foldlM_append] at hdone
  obtain ⟨rt, hbefore, hdone⟩ := except_bind_eq_ok.mp hdone
  rw [List.foldlM_append] at hdone
  obtain ⟨rt', hafter, _⟩ := except_bind_eq_ok.mp hdone
  exact ⟨rt, rt', _, _, hsteps, hbefore, hafter⟩

structure Checked (config : BacktestConfig) (bundle : HistoricalDataBundle) (t : Time) (rt rt' : Runtime) : Prop where
  survivors : ∀ symbol pos, rt'.positions.get? symbol = some pos ↔ rt.positions.get? symbol = some pos ∧
    ∀ candle, dayCandles config bundle t symbol = some candle → Clears pos candle
  exits : ∃ exits, rt'.closedTrades = rt.closedTrades ++ exits ∧
    (∀ symbol pos candle, rt.positions.get? symbol = some pos →
      dayCandles config bundle t symbol = some candle → ¬ Clears pos candle →
        ∃ closed ∈ exits, StoppedOut config rt symbol candle pos closed) ∧
    ∀ closed ∈ exits, ∃ symbol pos candle, dayCandles config bundle t symbol = some candle ∧
      StoppedOut config rt symbol candle pos closed ∧
      (0 ≤ config.slippageBps → 0 ≤ candle.openPrice ∨ config.slippageBps ≤ 10000 →
        ∃ fill, closed.exitFillPrice = some fill ∧ fill ≤ pos.effectiveStop)

theorem checked_of_aroundStops (h : AroundStops config bundle t rt rt') : Checked config bundle t rt rt' := by
  obtain ⟨earlier, later, hsteps, hbefore, hafter⟩ := h
  have hreached : Reached config bundle rt := ⟨_, _, hsteps, hbefore⟩
  have hsweep := swept_stops (reached_coherent hreached) hafter
  have htraded : ∀ symbol candle, dayCandles config bundle t symbol = some candle → symbol ∈ config.symbols :=
    fun _ _ hcandle => (dayCandles_eq_some hcandle).1
  obtain ⟨exits, htrades, hall, honly⟩ := hsweep.exits
  refine ⟨fun symbol pos => ?_, exits, htrades, ?_, fun closed hclosed => ?_⟩
  · rw [hsweep.positions]
    refine and_congr_right fun _ => ?_
    exact ⟨fun h candle hcandle => h (htraded symbol candle hcandle) candle hcandle, fun h _ => h⟩
  · exact fun symbol pos candle hpos hcandle =>
      hall symbol (htraded symbol candle hcandle) pos candle hpos hcandle
  · obtain ⟨symbol, _, pos, candle, hcandle, hstopped⟩ := honly closed hclosed
    refine ⟨symbol, pos, candle, hcandle, hstopped, fun hbps hopen => ⟨_, hstopped.exitFillPrice, ?_⟩⟩
    exact applyExitSlippage_le (reached_sound hreached symbol pos hstopped.position).effectiveStop_pos hbps hopen

/-- On every day of a backtest the stop phase examines every position. -/
theorem backtest_stops_complete (config : BacktestConfig) (bundle : HistoricalDataBundle) :
    (∀ t rt rt', AroundStops config bundle t rt rt' → Checked config bundle t rt rt') ∧
      ∀ final, runSteps config bundle (steps config bundle) = .ok final →
        ∀ t ∈ buildTimeline config bundle, ∃ rt rt', AroundStops config bundle t rt rt' :=
  ⟨fun _ _ _ h => checked_of_aroundStops h, fun _ hrun _ hday => exists_aroundStops hday hrun⟩

def fallingBundle (openPrice low : Decimal) : HistoricalDataBundle :=
  { sampleBundle 0 with
    daily := fun symbol => (sampleBundle 0).daily symbol ++
      [sampleBar .daily (3 * day) (4 * day - 1) openPrice 120 low 115] }

def fourthDay (config : BacktestConfig) (bundle : HistoricalDataBundle) (before : List Step) :
    Option (Option Decimal × ℕ × List (Option Decimal)) :=
  match runSteps config bundle (before ++ config.symbols.map (.fill (3 * day))) with
  | .error _ => none
  | .ok rt => match (config.symbols.map (Step.stop (3 * day))).foldlM (applyStep config bundle) rt with
    | .error _ => none
    | .ok rt' => some ((rt.positions.get? "BTC").map (·.effectiveStop), rt.closedTrades.length,
        rt'.closedTrades.map (·.exitFillPrice))

theorem exists_of_fourthDay {before later : List Step} {stop fill : Decimal}
    (hsteps : steps config bundle = (before ++ config.symbols.map (.fill (3 * day))) ++
      (config.symbols.map (.stop (3 * day)) ++ later))
    (h : fourthDay config bundle before = some (some stop, 0, [some fill])) :
    ∃ rt rt' pos closed, AroundStops config bundle (3 * day) rt rt' ∧ rt.positions.get? "BTC" = some pos ∧
      pos.effectiveStop = stop ∧ rt.closedTrades = [] ∧ rt'.closedTrades = [closed] ∧
      closed.exitFillPrice = some fill := by
  unfold fourthDay at h
  split at h
  · cases h
  · rename_i rt hbefore
    split at h
    · cases h
    · rename_i rt' hafter
      simp only [Option.some.injEq, Prod.mk.injEq] at h
      obtain ⟨hpos, hnone, hclosed⟩ := h
      obtain ⟨pos, hpos, hstop⟩ := Option.map_eq_some_iff.mp hpos
      obtain ⟨closed, htrades, hfill⟩ := List.map_eq_singleton_iff.mp hclosed
      exact ⟨rt, rt', pos, closed, ⟨before, later, hsteps, hbefore, hafter⟩, hpos, hstop,
        List.length_eq_zero_iff.mp hnone, htrades, hfill⟩

/-- The fall of the fourth day closes the position of the third, and not above its stop. -/
theorem backtest_stops_complete_falling : ∃ rt rt' symbol pos closed fill,
    AroundStops sampleConfig (fallingBundle 50 40) (3 * day) rt rt' ∧ rt.positions.get? symbol = some pos ∧
      rt'.closedTrades = [closed] ∧ closed.exitFillPrice = some fill ∧ fill ≤ pos.effectiveStop := by
  have hfourth : fourthDay sampleConfig (fallingBundle 50 40)
      ((steps sampleConfig (fallingBundle 50 40)).take 18) = some (some 82, 0, [some (1999 / 40)]) := by
    decide +kernel
  have hsteps : steps sampleConfig (fallingBundle 50 40) =
      ((steps sampleConfig (fallingBundle 50 40)).take 18 ++ sampleConfig.symbols.map (.fill (3 * day))) ++
        (sampleConfig.symbols.map (.stop (3 * day)) ++
          (steps sampleConfig (fallingBundle 50 40)).drop 20) := by decide +kernel
  obtain ⟨rt, rt', _, closed, haround, _, _, hnone, htrades, _⟩ := exists_of_fourthDay hsteps hfourth
  obtain ⟨exits, hexits, _, honly⟩ := ((backtest_stops_complete _ _).1 _ rt rt' haround).exits
  rw [hnone, htrades, List.nil_append] at hexits
  obtain ⟨symbol, pos, candle, _, hstopped, hle⟩ := honly closed (hexits ▸ List.mem_singleton_self closed)
  obtain ⟨fill, hfill, hle⟩ := hle (by decide +kernel) (.inr (by decide +kernel))
  exact ⟨rt, rt', symbol, pos, closed, fill, haround, hstopped.position, htrades, hfill, hle⟩

def reversedConfig : BacktestConfig :=
  { sampleConfig with
    slippageBps := 30000
    strategyParams := { sampleConfig.strategyParams with stopInitialAtrMult := 17, trailAtrMult := 40 } }

/-- A position with its stop at 100 is closed at 200, on a day that opens below zero. -/
theorem exit_above_stop : 0 ≤ reversedConfig.slippageBps ∧ ∃ rt rt' pos closed fill,
    AroundStops reversedConfig (fallingBundle (-100) (-150)) (3 * day) rt rt' ∧
      rt.positions.get? "BTC" = some pos ∧ rt.closedTrades = [] ∧ rt'.closedTrades = [closed] ∧
      closed.exitFillPrice = some fill ∧ pos.effectiveStop < fill := by
  refine ⟨by decide +kernel, ?_⟩
  have hfourth : fourthDay reversedConfig (fallingBundle (-100) (-150))
      ((steps reversedConfig (fallingBundle (-100) (-150))).take 18) = some (some 100, 0, [some 200]) := by
    decide +kernel
  have hsteps : steps reversedConfig (fallingBundle (-100) (-150)) =
      ((steps reversedConfig (fallingBundle (-100) (-150))).take 18 ++
        reversedConfig.symbols.map (.fill (3 * day))) ++ (reversedConfig.symbols.map (.stop (3 * day)) ++
        (steps reversedConfig (fallingBundle (-100) (-150))).drop 20) := by decide +kernel
  obtain ⟨rt, rt', pos, closed, haround, hpos, hstop, hnone, htrades, hfill⟩ := exists_of_fourthDay hsteps hfourth
  refine ⟨rt, rt', pos, closed, 200, haround, hpos, hnone, htrades, hfill, ?_⟩
  rw [hstop]
  norm_num

end Phase

end TradingBot.Backtester.StopPhase
