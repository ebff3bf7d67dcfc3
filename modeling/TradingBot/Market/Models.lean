import TradingBot.Library.Rounding

namespace TradingBot.Market.Models

open Library.Rounding

abbrev Decimal := ℚ

def decimalPrecision : ℕ := 28

/-- What an operation on decimals gives for its exact result. -/
def decimalResult (x : Decimal) : Decimal := significant decimalPrecision x

theorem rounds_decimalResult : Rounds (5 / 10 ^ 28) decimalResult := rounds_significant (by decide)

/-- UTC instants, in microseconds. -/
abbrev Time := ℤ

def second : Time := 1000000

def day : Time := 86400 * second

def wholeSeconds (t : Time) : ℤ := t / second

inductive Symbol
  | BTC | ETH | SOL
deriving DecidableEq, Repr

def Symbol.value : Symbol → String
  | .BTC => "BTC"
  | .ETH => "ETH"
  | .SOL => "SOL"

theorem Symbol.value_injective : Function.Injective Symbol.value := by
  intro a b h
  cases a <;> cases b <;> first | rfl | exact absurd h (by decide)

/-- The order in which every loop over symbols runs. -/
def symbolProcessingOrder : List Symbol := [.BTC, .ETH, .SOL]

/-- `math.isfinite(float(value))`: from here on a decimal rounds to an infinite float. -/
def isFiniteFloat (value : Decimal) : Bool := |value| < 2 ^ 1024 - 2 ^ 970

theorem mem_symbolProcessingOrder (s : Symbol) : s ∈ symbolProcessingOrder := by
  cases s <;> decide

inductive Timeframe
  | daily | weekly | monthly
deriving DecidableEq, Repr

/-- A candle. The backtester takes any symbols, the paper runtime the three it knows. -/
structure CandleOf (σ : Type) where
  symbol : σ
  timeframe : Timeframe
  openTime : Time
  closeTime : Time
  openPrice : Decimal
  high : Decimal
  low : Decimal
  close : Decimal
  volume : Decimal
  isClosed : Bool
deriving DecidableEq, Repr

abbrev Candle := CandleOf Symbol

structure CandleKey where
  symbol : Symbol
  timeframe : Timeframe
  openTime : Time
deriving DecidableEq, Repr

def Candle.key (c : Candle) : CandleKey := ⟨c.symbol, c.timeframe, c.openTime⟩

def isCandleClosed (closeTime evaluationTime : Time) : Bool := closeTime ≤ evaluationTime

end TradingBot.Market.Models
