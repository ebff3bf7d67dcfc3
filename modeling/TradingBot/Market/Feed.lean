import Mathlib.Data.List.Sort
import TradingBot.Market.Provider

namespace TradingBot.Market.Feed

open Market.Models Market.Provider Exceptions

inductive ConnectionStatus
  | disconnected | connecting | connected | reconnecting | shutdown
deriving DecidableEq, Repr

structure HyperliquidPublicConfig where
  symbols : List Symbol := symbolProcessingOrder
  timeframes : List Timeframe := [.daily, .weekly, .monthly]
  reconnectBufferSize : ℕ := 500
deriving DecidableEq, Repr

namespace HyperliquidPublicConfig

def allSubscriptions (config : HyperliquidPublicConfig) : List (Symbol × Timeframe) :=
  config.symbols.flatMap fun symbol => config.timeframes.map (symbol, ·)

/-- The provider's weeks do not start on Monday, so weeks are derived from days instead. -/
def providerSubscriptions (config : HyperliquidPublicConfig) : List (Symbol × Timeframe) :=
  config.allSubscriptions.filter (·.2 ≠ .weekly)

end HyperliquidPublicConfig

abbrev SubKey := String × String

def subKey (coin interval : String) : SubKey := (coin.toUpper, interval)

/-- What comes in on the socket; a candle message is handled with the clock at its receipt. -/
inductive Message
  | candles (items : List CandlePayload) (now : Time)
  | subscriptionResponse (coin interval : String)
  | other
deriving DecidableEq, Repr

/-- `received` is not in the source: the updates that were taken in, in the order of their receipt. -/
structure WebSocketFeed where
  config : HyperliquidPublicConfig := {}
  status : ConnectionStatus := .disconnected
  readerAlive : Bool := false
  ackedSubs : List SubKey := []
  subscribed : List SubKey := []
  liveQueue : List RawCandle := []
  buffer : List RawCandle := []
  buffering : Bool := false
  reconnectCount : ℕ := 0
  consecutiveFailures : ℕ := 0
  backgroundError : Option String := none
  received : List RawCandle := []
deriving DecidableEq, Repr

namespace WebSocketFeed

def expectedSubs (f : WebSocketFeed) : List SubKey :=
  (f.config.providerSubscriptions.map fun (symbol, timeframe) =>
    subKey (coinForSymbol symbol) (intervalForTimeframe timeframe)).dedup

def subscriptionsExpected (f : WebSocketFeed) : ℕ := f.expectedSubs.length

def subscriptionsAcknowledged (f : WebSocketFeed) : ℕ := f.ackedSubs.length

def beginBuffer (f : WebSocketFeed) : WebSocketFeed := { f with buffering := true, buffer := [] }

def endBuffer (f : WebSocketFeed) : WebSocketFeed × List RawCandle :=
  ({ f with buffering := false, buffer := [] }, f.buffer.insertionSort fun a b => a.openTime ≤ b.openTime)

def discardBuffer (f : WebSocketFeed) : WebSocketFeed := { f with buffering := false, buffer := [] }

/-- While buffering, a subscription need not be acknowledged yet. -/
def takesIn (f : WebSocketFeed) (key : SubKey) : Bool :=
  f.expectedSubs.contains key && if f.buffering then f.subscribed.contains key else f.ackedSubs.contains key

def handleItem (f : WebSocketFeed) (item : CandlePayload) (now : Time) : Except Exc WebSocketFeed :=
  let coin := item.s.toUpper
  if !f.takesIn (subKey coin item.i) then .ok f
  else do
    let raw ← parseCandle item coin item.i now
    if !f.buffering then
      pure { f with
        liveQueue := f.liveQueue ++ [raw]
        received := f.received ++ [raw] }
    else if f.config.reconnectBufferSize ≤ f.buffer.length then
      .error (.runtimeError "Reconnect buffer overflow")
    else
      pure { f with
        buffer := f.buffer ++ [raw]
        received := f.received ++ [raw] }

/-- The items before one that raises have been taken in. -/
def handleCandle (f : WebSocketFeed) (now : Time) : List CandlePayload → WebSocketFeed × Option Exc
  | [] => (f, none)
  | item :: items =>
    match f.handleItem item now with
    | .error exc => (f, some exc)
    | .ok f' => f'.handleCandle now items

def handleSubscriptionAck (f : WebSocketFeed) (coin interval : String) : WebSocketFeed :=
  let key := subKey coin interval
  if f.expectedSubs.contains key && !f.ackedSubs.contains key then
    { f with ackedSubs := f.ackedSubs ++ [key] }
  else f

def readOnce (f : WebSocketFeed) : Message → WebSocketFeed × Option Exc
  | .candles items now => f.handleCandle now items
  | .subscriptionResponse coin interval => (f.handleSubscriptionAck coin interval, none)
  | .other => (f, none)

/-- The reader or the heartbeat found the connection broken. -/
def lose (f : WebSocketFeed) (error : String) : WebSocketFeed :=
  { f with status := .reconnecting, backgroundError := some error }

def readerLoop (f : WebSocketFeed) (m : Message) : WebSocketFeed :=
  if !f.readerAlive then f
  else match f.readOnce m with
    | (f', none) => f'
    | (f', some exc) => { f'.lose exc.str with readerAlive := false }

def readerLost (f : WebSocketFeed) (error : String) : WebSocketFeed :=
  if f.readerAlive then { f.lose error with readerAlive := false } else f

/-- The heartbeat runs while the feed is connected; the reader goes on. -/
def heartbeatLost (f : WebSocketFeed) (error : String) : WebSocketFeed :=
  if f.status = .connected then f.lose error else f

/-- The socket is open and every subscription has been asked for. -/
def subscribe (f : WebSocketFeed) : WebSocketFeed := { f with ackedSubs := [], subscribed := f.expectedSubs }

/-- Every subscription has been acknowledged. -/
def connectionUp (f : WebSocketFeed) : WebSocketFeed :=
  { f with
    status := .connected
    consecutiveFailures := 0
    backgroundError := none
    readerAlive := true }

def drainEvents (f : WebSocketFeed) (maxItems : ℕ) : WebSocketFeed × List RawCandle :=
  ({ f with liveQueue := f.liveQueue.drop maxItems }, f.liveQueue.take maxItems)

end WebSocketFeed

end TradingBot.Market.Feed
