import TradingBot.Exceptions
import TradingBot.Market.Repository

namespace TradingBot.Paper.MarketEvents

open Market.Models Market.Repository Exceptions

structure MarketEvent where
  eventType : MarketEventType
  symbol : Symbol
  candleOpenTime : Time
  providerReceivedAt : Time
  observedLow : Option Decimal := none
deriving DecidableEq, Repr

def MarketEvent.scheduledFor (e : MarketEvent) : Time := e.candleOpenTime

/-- The acknowledged events of a symbol, updated only after the bridge is done with one. -/
structure SymbolSeriesTracker where
  dailyOpenAckTime : Option Time := none
  dailyOpenTerminalFailedTime : Option Time := none
  dailyLiveAckLow : Option Decimal := none
  dailyClosedAckTime : Option Time := none
  dailyClosedTerminalFailedTime : Option Time := none
  weeklyClosedAckTime : Option Time := none
  weeklyClosedTerminalFailedTime : Option Time := none
  monthlyClosedAckTime : Option Time := none
  monthlyClosedTerminalFailedTime : Option Time := none
deriving DecidableEq, Repr

namespace SymbolSeriesTracker

def acknowledgeCompleted (t : SymbolSeriesTracker) (e : MarketEvent) : SymbolSeriesTracker :=
  match e.eventType with
  | .dailyOpenAvailable => { t with
      dailyOpenAckTime := some e.candleOpenTime
      dailyOpenTerminalFailedTime := none
      dailyLiveAckLow := e.observedLow }
  | .dailyLiveUpdate => { t with dailyLiveAckLow := e.observedLow }
  | .dailyClosed => { t with
      dailyClosedAckTime := some e.candleOpenTime, dailyClosedTerminalFailedTime := none }
  | .weeklyClosed => { t with
      weeklyClosedAckTime := some e.candleOpenTime, weeklyClosedTerminalFailedTime := none }
  | .monthlyClosed => { t with
      monthlyClosedAckTime := some e.candleOpenTime, monthlyClosedTerminalFailedTime := none }

def acknowledgeTerminalFailed (t : SymbolSeriesTracker) (e : MarketEvent) :
    Option SymbolSeriesTracker :=
  match e.eventType with
  | .dailyOpenAvailable => some { t with dailyOpenTerminalFailedTime := some e.candleOpenTime }
  | .dailyClosed => some { t with dailyClosedTerminalFailedTime := some e.candleOpenTime }
  | .weeklyClosed => some { t with weeklyClosedTerminalFailedTime := some e.candleOpenTime }
  | .monthlyClosed => some { t with monthlyClosedTerminalFailedTime := some e.candleOpenTime }
  | .dailyLiveUpdate => none

def clearTerminalFailed (t : SymbolSeriesTracker) (e : MarketEvent) : Option SymbolSeriesTracker :=
  match e.eventType with
  | .dailyOpenAvailable => some { t with dailyOpenTerminalFailedTime := none }
  | .dailyClosed => some { t with dailyClosedTerminalFailedTime := none }
  | .weeklyClosed => some { t with weeklyClosedTerminalFailedTime := none }
  | .monthlyClosed => some { t with monthlyClosedTerminalFailedTime := none }
  | .dailyLiveUpdate => none

end SymbolSeriesTracker

/-- Detects candidates without consuming them; a symbol not seen yet has the empty tracker. -/
structure MarketEventDetector where
  symbols : List Symbol
  evaluationDelaySeconds : ℕ := 5
  trackers : Symbol → SymbolSeriesTracker := fun _ => {}

namespace MarketEventDetector

def setTracker (d : MarketEventDetector) (symbol : Symbol) (t : SymbolSeriesTracker) :
    MarketEventDetector :=
  { d with trackers := fun s => if s = symbol then t else d.trackers s }

def acknowledgeCompleted (d : MarketEventDetector) (e : MarketEvent) : MarketEventDetector :=
  d.setTracker e.symbol ((d.trackers e.symbol).acknowledgeCompleted e)

def acknowledgeTerminalFailed (d : MarketEventDetector) (e : MarketEvent) : MarketEventDetector :=
  d.setTracker e.symbol (((d.trackers e.symbol).acknowledgeTerminalFailed e).getD (d.trackers e.symbol))

def clearTerminalFailed (d : MarketEventDetector) (e : MarketEvent) : MarketEventDetector :=
  d.setTracker e.symbol (((d.trackers e.symbol).clearTerminalFailed e).getD (d.trackers e.symbol))

def eventIf (condition : Bool) (e : MarketEvent) : List MarketEvent := if condition then [e] else []

theorem mem_eventIf {condition : Bool} {e e' : MarketEvent} :
    e ∈ eventIf condition e' ↔ condition ∧ e = e' := by
  cases condition <;> simp [eventIf]

def detectOpenOrLive (t : SymbolSeriesTracker) (c : Candle) (evaluationTime : Time) :
    List MarketEvent :=
  if !c.isClosed && decide (t.dailyOpenAckTime ≠ some c.openTime) then
    eventIf (t.dailyOpenTerminalFailedTime ≠ some c.openTime)
      ⟨.dailyOpenAvailable, c.symbol, c.openTime, evaluationTime, some c.low⟩
  else
    eventIf (t.dailyOpenAckTime = some c.openTime ∧ !c.isClosed ∧ t.dailyLiveAckLow ≠ some c.low)
      ⟨.dailyLiveUpdate, c.symbol, c.openTime, evaluationTime, some c.low⟩

def detectDaily (d : MarketEventDetector) (t : SymbolSeriesTracker) (c : Candle)
    (evaluationTime : Time) : List MarketEvent :=
  detectOpenOrLive t c evaluationTime ++
  eventIf (isCandleClosed c.closeTime evaluationTime ∧ c.isClosed ∧
      c.closeTime + d.evaluationDelaySeconds * second ≤ evaluationTime ∧
      t.dailyClosedAckTime ≠ some c.openTime ∧ t.dailyClosedTerminalFailedTime ≠ some c.openTime)
    ⟨.dailyClosed, c.symbol, c.openTime, evaluationTime, none⟩

def detectHigherClose (ackTime terminalFailedTime : Option Time) (c : Candle)
    (evaluationTime : Time) (eventType : MarketEventType) : List MarketEvent :=
  eventIf (isCandleClosed c.closeTime evaluationTime ∧ c.isClosed ∧ ackTime ≠ some c.openTime ∧
      terminalFailedTime ≠ some c.openTime)
    ⟨eventType, c.symbol, c.openTime, evaluationTime, none⟩

def detectSymbol (d : MarketEventDetector) (r : CandleRepository) (evaluationTime : Time)
    (symbol : Symbol) : List MarketEvent :=
  let t := d.trackers symbol
  (r.getLatest symbol .daily).toList.flatMap (d.detectDaily t · evaluationTime) ++
  (r.getLatest symbol .weekly).toList.flatMap (detectHigherClose t.weeklyClosedAckTime
    t.weeklyClosedTerminalFailedTime · evaluationTime .weeklyClosed) ++
  (r.getLatest symbol .monthly).toList.flatMap (detectHigherClose t.monthlyClosedAckTime
    t.monthlyClosedTerminalFailedTime · evaluationTime .monthlyClosed)

def detectCandidates (d : MarketEventDetector) (r : CandleRepository) (evaluationTime : Time) :
    List MarketEvent :=
  d.symbols.flatMap (d.detectSymbol r evaluationTime)

end MarketEventDetector

end TradingBot.Paper.MarketEvents
