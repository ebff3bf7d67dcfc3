import TradingBot.Exceptions
import TradingBot.Library.Outcome
import TradingBot.Library.Truncation
import TradingBot.Strategy.Models

namespace TradingBot.Strategy.Stops

open Market.Models Strategy.Models Exceptions Library.Outcome Library.Truncation

/-- Rounds a price down to the tick: Python's `ROUND_DOWN` cuts toward zero. -/
def roundToTick (price tickSize : Decimal) : Except Exc Decimal :=
  if tickSize ≤ 0 then .error (.valueError "tick_size must be positive")
  else .ok (toStep tickSize price)

def roundIfTick (price : Decimal) : Option Decimal → Except Exc Decimal
  | none => .ok price
  | some tickSize => roundToTick price tickSize

def computeInitialStop (entryPrice atr14 : Decimal) (params : StrategyParameters)
    (tickSize : Option Decimal) : Except Exc Decimal :=
  roundIfTick (decimalResult (entryPrice - decimalResult (params.stopInitialAtrMult * atr14))) tickSize

def initializeTrailingStop (entryPrice atr14AtEntry stopInitial : Decimal)
    (params : StrategyParameters) (tickSize : Option Decimal) : Except Exc TrailingStopState := do
  let highestClose := entryPrice
  let trailStop ← roundIfTick
    (max (highestClose - params.trailAtrMult * atr14AtEntry) stopInitial) tickSize
  let effective := max stopInitial trailStop
  pure { entryPrice, stopInitial, highestClose, trailStop, effectiveStop := effective }

def updateTrailingStop (state : TrailingStopState) (closeT atr14DailyT : Decimal)
    (params : StrategyParameters) (tickSize : Option Decimal) : Except Exc TrailingStopState := do
  let highestClose := max state.highestClose closeT
  let trailCandidate := highestClose - params.trailAtrMult * atr14DailyT
  let trailStop := max (max state.trailStop trailCandidate) state.stopInitial
  let trailStop ← roundIfTick trailStop tickSize
  let effectiveStop := max state.stopInitial trailStop
  pure { entryPrice := state.entryPrice, stopInitial := state.stopInitial, highestClose,
         trailStop, effectiveStop }

variable {tick : Decimal}

theorem roundToTick_of_pos (htick : 0 < tick) (price : Decimal) :
    roundToTick price tick = .ok (toStep tick price) := by
  simp [roundToTick, htick]

/-- The effective stop that a day with highest close `highest` and the given ATR leads to. -/
def raisedStop (stopInitial stop highest mult atr tick : Decimal) : Decimal :=
  max stopInitial (toStep tick (max (max stop (highest - mult * atr)) stopInitial))

theorem updateTrailingStop_ok (htick : 0 < tick) (state : TrailingStopState)
    (closeT atr : Decimal) (params : StrategyParameters) :
    updateTrailingStop state closeT atr params (some tick) = .ok
      { entryPrice := state.entryPrice
        stopInitial := state.stopInitial
        highestClose := max state.highestClose closeT
        trailStop := toStep tick (max (max state.trailStop
          (max state.highestClose closeT - params.trailAtrMult * atr)) state.stopInitial)
        effectiveStop := raisedStop state.stopInitial state.trailStop
          (max state.highestClose closeT) params.trailAtrMult atr tick } := by
  simp [updateTrailingStop, roundIfTick, roundToTick_of_pos htick, raisedStop, bind, Except.bind,
    pure, Except.pure]

theorem raisedStop_max_initial (stopInitial trail highest mult atr : Decimal) :
    raisedStop stopInitial (max stopInitial trail) highest mult atr tick =
      raisedStop stopInitial trail highest mult atr tick := by
  unfold raisedStop
  congr 2
  rw [max_comm stopInitial trail, max_assoc, max_assoc, max_assoc, max_left_comm stopInitial,
    max_self]

theorem initializeTrailingStop_ok {entryPrice atr stopInitial : Decimal} {params : StrategyParameters}
    {tickSize : Option Decimal} {state : TrailingStopState}
    (h : initializeTrailingStop entryPrice atr stopInitial params tickSize = .ok state) :
    state.highestClose = entryPrice ∧ state.stopInitial ≤ state.effectiveStop := by
  obtain ⟨trailStop, _, hstate⟩ := except_bind_eq_ok.mp h
  cases hstate
  exact ⟨rfl, le_max_left _ _⟩

theorem updateTrailingStop_highest {state updated : TrailingStopState} {closeT atr : Decimal}
    {params : StrategyParameters} {tickSize : Option Decimal}
    (h : updateTrailingStop state closeT atr params tickSize = .ok updated) :
    state.highestClose ≤ updated.highestClose := by
  obtain ⟨trailStop, _, hupdated⟩ := except_bind_eq_ok.mp h
  cases hupdated
  exact le_max_left _ _

end TradingBot.Strategy.Stops
