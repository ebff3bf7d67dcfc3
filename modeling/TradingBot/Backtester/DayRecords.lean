import TradingBot.Backtester.Conservation

namespace TradingBot.Backtester.DayRecords

open Market.Models Strategy.Models Exceptions Library.Dictionary Library.Outcome
open Backtester.Models Backtester.Simulation Backtester.Structure Backtester.Conservation

variable {config : BacktestConfig} {bundle : HistoricalDataBundle} {t : Time} {symbol : String}
  {candle : CandleOf String} {rt rt' rt'' : Runtime}

/-- What the work of a day before its snapshot adds to the records: trades that exit at the day's open time. -/
structure Exits (t : Time) (rt rt' : Runtime) : Prop where
  curve : rt'.equityCurve = rt.equityCurve
  trades : ∃ new, rt'.closedTrades = rt.closedTrades ++ new ∧ ∀ trade ∈ new, trade.exitTime = some t

theorem Exits.of_same (hcurve : rt'.equityCurve = rt.equityCurve)
    (htrades : rt'.closedTrades = rt.closedTrades) : Exits t rt rt' :=
  ⟨hcurve, [], by rw [htrades, List.append_nil], fun _ h => absurd h List.not_mem_nil⟩

theorem Exits.refl (t : Time) (rt : Runtime) : Exits t rt rt := Exits.of_same rfl rfl

theorem Exits.trans (h : Exits t rt rt') (h' : Exits t rt' rt'') : Exits t rt rt'' := by
  obtain ⟨new, hnew, hexit⟩ := h.trades
  obtain ⟨new', hnew', hexit'⟩ := h'.trades
  refine ⟨h'.curve.trans h.curve, new ++ new', ?_, ?_⟩
  · rw [hnew', hnew, List.append_assoc]
  · exact List.forall_mem_append.mpr ⟨hexit, hexit'⟩

theorem exits_checkStopExit (atOpen : Bool) :
    Exits candle.openTime rt (Simulation.checkStopExit config rt symbol candle atOpen) := by
  rcases checkStopExit_cases config rt symbol candle atOpen with hsame | ⟨pos, trigger, _, hclose⟩
  · rw [hsame]
    exact Exits.refl _ rt
  · rw [hclose]
    unfold closePosition settleTrade
    dsimp only
    cases rt.activeTrades.get? symbol with
    | none => exact Exits.of_same rfl rfl
    | some trade =>
      refine ⟨rfl, [_], rfl, ?_⟩
      intro closed hclosed
      rw [List.mem_singleton.mp hclosed]
      rfl

theorem exits_fillPendingAtOpen {dayCandles : String → Option (CandleOf String)}
    {priorCloses : String → Option Decimal}
    (h : fillPendingAtOpen config dayCandles priorCloses rt symbol candle = .ok rt') :
    Exits candle.openTime rt rt' := by
  have hintent : ∀ rt₀ intent rt₁, Exits candle.openTime rt rt₀ →
      fillIntent config dayCandles priorCloses symbol candle rt₀ intent = .ok rt₁ →
      Exits candle.openTime rt rt₁ := by
    intro rt₀ intent rt₁ hrt₀ hfill
    rcases fillIntent_ok hfill with rfl | ⟨_, codes, rfl⟩ | ⟨_, prices, decision, accounting, _, rfl⟩
    · exact hrt₀
    · exact hrt₀.trans (Exits.of_same rfl rfl)
    · have hopen : Exits candle.openTime rt₀
          (openPosition rt₀ intent symbol candle prices decision accounting) := Exits.of_same rfl rfl
      exact (hrt₀.trans hopen).trans (exits_checkStopExit true)
  unfold fillPendingAtOpen at h
  dsimp only at h
  refine foldlM_preserves hintent ?_ h
  exact Exits.of_same rfl rfl

theorem exits_applyFunding : Exits t rt (applyFunding config bundle rt symbol candle) := by
  unfold applyFunding
  cases rt.positions.get? symbol with
  | none => exact Exits.refl t rt
  | some pos =>
    dsimp only
    induction fundingRates config bundle symbol candle generalizing rt with
    | nil => exact Exits.refl t rt
    | cons rate rates ih =>
      have hcharge : Exits t rt (chargeFunding symbol (pos.quantity * pos.entryPrice) rt rate) :=
        Exits.of_same rfl rfl
      exact hcharge.trans ih

theorem exits_strategyAndQueue {evalTime : Time}
    (h : strategyAndQueue config bundle rt symbol evalTime = .ok rt') : Exits t rt rt' := by
  obtain ⟨evaluation, _, h⟩ := except_bind_eq_ok.mp h
  cases h
  unfold queueIntent
  split
  · dsimp only
    split_ifs
    · exact Exits.of_same rfl rfl
    · exact Exits.of_same rfl rfl
  · exact Exits.of_same rfl rfl

def Step.IsWork (t : Time) : Step → Prop
  | .snapshot _ _ => False
  | step => step.openTime = t

theorem exits_applyStep {step : Step} (hwork : Step.IsWork t step)
    (hstep : applyStep config bundle rt step = .ok rt') : Exits t rt rt' := by
  cases worked_of_applyStep hstep with
  | idle => exact Exits.refl t rt
  | fill hcandle hdone =>
    obtain rfl := hwork
    obtain ⟨_, _, rfl⟩ := dayCandles_eq_some hcandle
    exact exits_fillPendingAtOpen hdone
  | stop hcandle =>
    obtain rfl := hwork
    obtain ⟨_, _, rfl⟩ := dayCandles_eq_some hcandle
    exact exits_checkStopExit false
  | funding => exact exits_applyFunding
  | strategy _ hdone => exact exits_strategyAndQueue hdone
  | trailing _ hdone =>
    rcases updateTrailing_ok hdone with rfl | ⟨_, _, _, _, _, _, rfl⟩
    · exact Exits.refl t rt'
    · exact Exits.of_same rfl rfl
  | snapshot => exact hwork.elim

def firstCandle (config : BacktestConfig) (bundle : HistoricalDataBundle) (t : Time) :
    Option (CandleOf String) :=
  config.symbols.findSome? (dayCandles config bundle t)

theorem firstCandle_isSome (h : t ∈ buildTimeline config bundle) :
    ∃ first, firstCandle config bundle t = some first := by
  obtain ⟨work, evalTime, hsteps⟩ := daySteps_eq h
  cases hfirst : firstCandle config bundle t with
  | some first => exact ⟨first, rfl⟩
  | none =>
    unfold firstCandle at hfirst
    simp [daySteps, hfirst] at hsteps

theorem daySteps_of_firstCandle {first : CandleOf String} (h : firstCandle config bundle t = some first) :
    ∃ work, daySteps config bundle t = work ++ [.snapshot t (evaluationTimeForDaily first)] ∧
      ∀ step ∈ work, Step.IsWork t step := by
  unfold firstCandle at h
  unfold daySteps
  rw [h]
  refine ⟨_, rfl, ?_⟩
  intro step hstep
  simp only [List.mem_append, List.mem_map] at hstep
  rcases hstep with (((⟨s, _, rfl⟩ | ⟨s, _, rfl⟩) | hstep) | ⟨s, _, rfl⟩) | ⟨s, _, rfl⟩
  · rfl
  · rfl
  · split_ifs at hstep
    · obtain ⟨s, _, rfl⟩ := List.mem_map.mp hstep
      rfl
    · exact absurd hstep List.not_mem_nil
  · rfl
  · rfl

theorem day_records {first : CandleOf String} (hfirst : firstCandle config bundle t = some first)
    (h : (daySteps config bundle t).foldlM (applyStep config bundle) rt = .ok rt') :
    (∃ snap, rt'.equityCurve = rt.equityCurve ++ [snap] ∧ snap.time = evaluationTimeForDaily first) ∧
      ∃ new, rt'.closedTrades = rt.closedTrades ++ new ∧ ∀ trade ∈ new, trade.exitTime = some t := by
  obtain ⟨work, hsteps, hwork⟩ := daySteps_of_firstCandle hfirst
  rw [hsteps, List.foldlM_append] at h
  obtain ⟨rt₁, hworked, h⟩ := except_bind_eq_ok.mp h
  rw [List.foldlM_cons] at h
  obtain ⟨rt₂, hsnapshot, h⟩ := except_bind_eq_ok.mp h
  cases hsnapshot
  cases h
  have hexits : Exits t rt rt₁ :=
    foldlM_preserves_mem (fun rt₀ step hmem rt₁ hrt₀ hstep => hrt₀.trans (exits_applyStep (hwork step hmem) hstep))
      (Exits.refl t rt) hworked
  constructor
  · rw [← hexits.curve]
    exact ⟨_, rfl, rfl⟩
  · exact hexits.trades

end TradingBot.Backtester.DayRecords
