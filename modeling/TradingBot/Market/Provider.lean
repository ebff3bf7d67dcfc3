import TradingBot.Market.Timeframes

namespace TradingBot.Market.Provider

open Market.Models Market.Timeframes Exceptions

def providerToInternal : List (String × Symbol) :=
  [("BTC", .BTC), ("ETH", .ETH), ("SOL", .SOL), ("BTC-USD", .BTC), ("ETH-USD", .ETH), ("SOL-USD", .SOL),
    ("BTCUSDT", .BTC), ("ETHUSDT", .ETH), ("SOLUSDT", .SOL)]

def strip (s : String) : String :=
  String.ofList ((s.toList.dropWhile Char.isWhitespace).reverse.dropWhile Char.isWhitespace).reverse

def resolveInternalSymbol (providerSymbol : String) : Except Exc Symbol :=
  match providerToInternal.lookup (strip providerSymbol).toUpper with
  | some symbol => .ok symbol
  | none => .error (.valueError s!"Unknown provider symbol: '{providerSymbol}' (code=MD_UNKNOWN_SYMBOL)")

/-- A candle as the provider sends it. The parser refuses unknown symbols. -/
structure RawCandle where
  providerSymbol : String
  timeframe : Timeframe
  openTime : Time
  closeTime : Time
  openPrice : Decimal
  high : Decimal
  low : Decimal
  close : Decimal
  volume : Decimal
  isClosed : Bool := true
  known : (resolveInternalSymbol providerSymbol).isOk
deriving DecidableEq, Repr

def coinForSymbol : Symbol → String
  | .BTC => "BTC"
  | .ETH => "ETH"
  | .SOL => "SOL"

def intervalForTimeframe : Timeframe → String
  | .daily => "1d"
  | .weekly => "1w"
  | .monthly => "1M"

def hlIntervalToTimeframe : List (String × Timeframe) := [("1d", .daily), ("1w", .weekly), ("1M", .monthly)]

def intervalAliases : List (String × String) := [("1day", "1d"), ("1week", "1w"), ("1month", "1M")]

def resolveInterval (interval : String) : Except Exc (String × Timeframe) :=
  match hlIntervalToTimeframe.lookup interval, hlIntervalToTimeframe.lookup interval.toLower,
      intervalAliases.lookup interval.toLower with
  | some timeframe, _, _ => .ok (interval, timeframe)
  | none, some timeframe, _ => .ok (interval.toLower, timeframe)
  | none, none, some key =>
    match hlIntervalToTimeframe.lookup key with
    | some timeframe => .ok (key, timeframe)
    | none => .error (.valueError s!"Unsupported Hyperliquid interval: {interval}")
  | none, none, none => .error (.valueError s!"Unsupported Hyperliquid interval: {interval}")

/-- The fields of a candle message under the provider's names, with decoded numbers. -/
structure CandlePayload where
  s : String
  i : String
  t : ℤ
  T : ℤ
  o : Decimal
  h : Decimal
  l : Decimal
  c : Decimal
  v : Decimal
deriving DecidableEq, Repr

def epochMsToUtc (value : ℤ) (field : String) : Except Exc Time :=
  if value < 1000000000000 then
    .error (.valueError s!"Expected epoch milliseconds in field {field}: {value}")
  else .ok (value * 1000)

def rawCandle (payload : CandlePayload) (known : (resolveInternalSymbol payload.s.toUpper).isOk)
    (timeframe : Timeframe) (openTime closeTime evaluationTime : Time) : RawCandle where
  providerSymbol := payload.s.toUpper
  timeframe
  openTime
  closeTime
  openPrice := payload.o
  high := payload.h
  low := payload.l
  close := payload.c
  volume := payload.v
  isClosed := isCandleClosed closeTime evaluationTime
  known

theorem isOk_of_resolves {payload : CandlePayload} {symbol : Symbol}
    (h : resolveInternalSymbol payload.s.toUpper = .ok symbol) : (resolveInternalSymbol payload.s.toUpper).isOk := by
  rw [h]
  rfl

def parseCandle (payload : CandlePayload) (expectedCoin expectedInterval : String)
    (evaluationTime : Time) : Except Exc RawCandle :=
  match hsymbol : resolveInternalSymbol payload.s.toUpper with
  | .error exc => .error exc
  | .ok _ =>
    if payload.s.toUpper ≠ expectedCoin.toUpper then
      .error (.valueError s!"Symbol mismatch: expected {expectedCoin}, got {payload.s.toUpper}")
    else do
      let (key, timeframe) ← resolveInterval payload.i
      if key ≠ expectedInterval then
        .error (.valueError s!"Interval mismatch: expected {expectedInterval}, got {key}")
      else do
        let openTime ← epochMsToUtc payload.t "t"
        let closeTime ← epochMsToUtc payload.T "T"
        if closeTime ≤ openTime then
          .error (.valueError "Close timestamp T must be after open timestamp t")
        else pure (rawCandle payload (isOk_of_resolves hsymbol) timeframe openTime closeTime evaluationTime)

end TradingBot.Market.Provider
