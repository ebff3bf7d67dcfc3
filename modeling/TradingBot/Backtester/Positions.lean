import TradingBot.Backtester.Structure

namespace TradingBot.Backtester.Positions

open Market.Models Strategy.Models Strategy.Stops Constraints Exceptions Risk.Models Library.Dictionary
open Library.Outcome Backtester.Lifecycle Backtester.Models Backtester.Simulation Backtester.Structure

variable {config : BacktestConfig} {bundle : HistoricalDataBundle} {rt rt' : Runtime} {symbol : String}
  {candle : CandleOf String} {intent : Models.PendingIntent} {pos : SimulatedPositionOf String}
  {dayCandles : String → Option (CandleOf String)} {priorCloses : String → Option Decimal}

structure EnteredOn (symbol : String) (candle : CandleOf String) (pos : SimulatedPositionOf String) : Prop where
  ownSymbol : pos.symbol = symbol
  entryTime : pos.entryTime = candle.openTime
  initialStop_pos : 0 < pos.initialStop
  initialStop_le : pos.initialStop ≤ pos.effectiveStop

structure Trailed (pos updated : SimulatedPositionOf String) : Prop where
  symbol : updated.symbol = pos.symbol
  entryTime : updated.entryTime = pos.entryTime
  entryPrice : updated.entryPrice = pos.entryPrice
  initialStop : updated.initialStop = pos.initialStop
  initialStop_le : updated.initialStop ≤ updated.effectiveStop

def AllPositions (p : String → SimulatedPositionOf String → Prop) (rt : Runtime) : Prop :=
  ∀ symbol pos, rt.positions.get? symbol = some pos → p symbol pos

section Rules

variable {p : String → SimulatedPositionOf String → Prop}

theorem AllPositions.of_same (h : AllPositions p rt) (hsame : rt'.positions = rt.positions) : AllPositions p rt' := by
  unfold AllPositions
  rw [hsame]
  exact h

theorem AllPositions.set (h : AllPositions p rt) (hpos : p symbol pos)
    (hset : rt'.positions = rt.positions.set symbol pos) : AllPositions p rt' := by
  intro s other hget
  rw [hset, Dict.get?_set] at hget
  split_ifs at hget with hs
  · obtain rfl := Option.some.inj hget
    rwa [hs]
  · exact h s other hget

theorem AllPositions.erase (h : AllPositions p rt) (herase : rt'.positions = rt.positions.erase symbol) :
    AllPositions p rt' := by
  intro s other hget
  rw [herase, Dict.get?_erase] at hget
  split_ifs at hget with hs
  exact h s other hget

end Rules

theorem closePosition_positions (trigger : StopTriggerResult) :
    (closePosition config rt symbol candle pos trigger).positions = rt.positions.erase symbol := by
  unfold closePosition settleTrade
  dsimp only
  split
  · rfl
  · rfl

theorem AllPositions.checkStopExit {p : String → SimulatedPositionOf String → Prop} (h : AllPositions p rt)
    (atOpen : Bool) : AllPositions p (Simulation.checkStopExit config rt symbol candle atOpen) := by
  rcases checkStopExit_cases config rt symbol candle atOpen with hsame | ⟨pos, trigger, _, hclose⟩
  · rwa [hsame]
  · rw [hclose]
    exact h.erase (closePosition_positions trigger)

theorem entered_of_fill {constraints : SymbolConstraints} {prices : EntryFillComputation}
    {decision : Lifecycle.RiskDecision} {quantity : Decimal} {accounting : EntryAccounting}
    (h : Filled config dayCandles priorCloses rt symbol candle intent constraints prices decision quantity accounting) :
    EnteredOn symbol candle (buildSimulatedPositionFromEntry symbol accounting.quantity prices.fillPrice
      candle.openTime accounting intent.atr14) := by
  obtain ⟨_, hdecision, happroved, _, haccounting⟩ := h
  obtain ⟨full, hfull, hdecision⟩ := except_bind_eq_ok.mp hdecision
  cases hdecision
  obtain ⟨stop, _, _, hstop, _⟩ := Risk.Soundness.evaluate_approved hfull happroved
  have hpositive : 0 < prices.stopInitial := Risk.Soundness.stopPrice_pos_of_admissibleStop hstop
  obtain ⟨state, hstate, haccounting⟩ := except_bind_eq_ok.mp haccounting
  cases haccounting
  obtain ⟨trailStop, _, hstate⟩ := except_bind_eq_ok.mp hstate
  cases hstate
  exact ⟨rfl, rfl, hpositive, le_max_left _ _⟩

theorem AllPositions.fillIntent {p : String → SimulatedPositionOf String → Prop} (h : AllPositions p rt)
    (hopen : ∀ pos, EnteredOn symbol candle pos → p symbol pos)
    (hfill : Simulation.fillIntent config dayCandles priorCloses symbol candle rt intent = .ok rt') :
    AllPositions p rt' := by
  rcases fillIntent_cases hfill with rfl | ⟨_, codes, rfl⟩ | ⟨_, _, prices, decision, _, accounting, hfilled, rfl⟩
  · exact h
  · exact h.of_same rfl
  · have hopened : AllPositions p (Simulation.openPosition rt intent symbol candle prices decision accounting) :=
      h.set (hopen _ (entered_of_fill hfilled)) rfl
    exact hopened.checkStopExit true

theorem AllPositions.fillPendingAtOpen {p : String → SimulatedPositionOf String → Prop} (h : AllPositions p rt)
    (hopen : ∀ pos, EnteredOn symbol candle pos → p symbol pos)
    (hfill : Simulation.fillPendingAtOpen config dayCandles priorCloses rt symbol candle = .ok rt') :
    AllPositions p rt' := by
  have hdropped : AllPositions p
      { rt with pendingIntents := rt.pendingIntents.filter (·.symbol ≠ symbol) } := h.of_same rfl
  exact foldlM_preserves (fun _ _ _ hrt hintent => hrt.fillIntent hopen hintent) hdropped hfill

theorem updateTrailing_trailed {evalTime : Time}
    (hrun : Simulation.updateTrailing config bundle rt symbol candle evalTime = .ok rt') :
    rt' = rt ∨ ∃ pos updated, rt.positions.get? symbol = some pos ∧ Trailed pos updated ∧
      rt'.positions = rt.positions.set symbol updated := by
  unfold Simulation.updateTrailing at hrun
  cases hpos : rt.positions.get? symbol with
  | none =>
    rw [hpos] at hrun
    cases hrun
    exact .inl rfl
  | some pos =>
    rw [hpos] at hrun
    dsimp only at hrun
    split_ifs at hrun with hempty
    · cases hrun
      exact .inl rfl
    · obtain ⟨constraints, _, hrun⟩ := except_bind_eq_ok.mp hrun
      obtain ⟨updated, hupdated, hrun⟩ := except_bind_eq_ok.mp hrun
      cases hrun
      unfold Engine.updateTrailing at hupdated
      rw [if_neg hempty] at hupdated
      obtain ⟨state, hstate, hupdated⟩ := except_bind_eq_ok.mp hupdated
      cases hupdated
      obtain ⟨trailStop, _, hstate⟩ := except_bind_eq_ok.mp hstate
      cases hstate
      refine .inr ⟨pos, _, rfl, ?_, rfl⟩
      exact ⟨rfl, rfl, rfl, rfl, le_max_left _ _⟩

theorem AllPositions.applyStep {p : String → SimulatedPositionOf String → Prop} (h : AllPositions p rt) {step : Step}
    (hopen : ∀ symbol candle pos, Simulation.dayCandles config bundle step.openTime symbol = some candle →
      EnteredOn symbol candle pos → p symbol pos)
    (htrail : ∀ symbol pos updated, p symbol pos → Trailed pos updated → p symbol updated)
    (hstep : Simulation.applyStep config bundle rt step = .ok rt') : AllPositions p rt' := by
  cases worked_of_applyStep hstep with
  | idle => exact h
  | @fill t symbol candle _ hcandle hwork =>
    exact h.fillPendingAtOpen (fun pos => hopen symbol candle pos hcandle) hwork
  | stop => exact h.checkStopExit false
  | @funding t symbol candle => exact h.of_same (applyFunding_positions config bundle rt symbol candle)
  | @strategy t symbol _ _ _ hwork =>
    obtain ⟨evaluation, _, hwork⟩ := except_bind_eq_ok.mp hwork
    cases hwork
    exact h.of_same (queueIntent_positions _ symbol _ evaluation)
  | @trailing t evalTime symbol _ _ _ hwork =>
    rcases updateTrailing_trailed hwork with rfl | ⟨pos, updated, hpos, htrailed, hset⟩
    · exact h
    · exact h.set (htrail symbol pos updated (h symbol pos hpos) htrailed) hset
  | snapshot => exact h.of_same rfl

structure Sound (config : BacktestConfig) (symbol : String) (pos : SimulatedPositionOf String) : Prop where
  ownSymbol : pos.symbol = symbol
  traded : symbol ∈ config.symbols
  initialStop_pos : 0 < pos.initialStop
  initialStop_le : pos.initialStop ≤ pos.effectiveStop

theorem Sound.effectiveStop_pos (h : Sound config symbol pos) : 0 < pos.effectiveStop :=
  h.initialStop_pos.trans_le h.initialStop_le

theorem sound_applyStep (h : AllPositions (Sound config) rt) {step : Step}
    (hstep : applyStep config bundle rt step = .ok rt') : AllPositions (Sound config) rt' := by
  refine h.applyStep ?_ ?_ hstep
  · intro symbol candle pos hcandle hentered
    exact ⟨hentered.ownSymbol, (dayCandles_eq_some hcandle).1, hentered.initialStop_pos, hentered.initialStop_le⟩
  · intro symbol pos updated hsound htrailed
    exact ⟨htrailed.symbol.trans hsound.ownSymbol, hsound.traded, htrailed.initialStop.symm ▸ hsound.initialStop_pos,
      htrailed.initialStop_le⟩

theorem reached_sound (h : Reached config bundle rt) : AllPositions (Sound config) rt :=
  h.induct (fun _ _ hpos => by cases hpos) fun _ _ _ hrt hstep => sound_applyStep hrt hstep

end TradingBot.Backtester.Positions
