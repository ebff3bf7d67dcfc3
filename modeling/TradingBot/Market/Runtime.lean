import TradingBot.Market.Aggregation
import TradingBot.Market.Bundle
import TradingBot.Market.Feed
import TradingBot.Market.Ingest

namespace TradingBot.Market.Runtime

open Market.Models Market.Repository Market.Quality Market.Bundle Market.Provider Market.Feed Market.Ingest
open Market.Aggregation Exceptions

section Weeks

def upsertMany (r : CandleRepository) (candles : List Candle) : CandleRepository :=
  candles.foldl CandleRepository.upsert r

def refreshWeeksOf (evaluationTime : Time) (r : CandleRepository) (symbol : Symbol) :
    Except Exc CandleRepository := do
  let weeks ← aggregateWeeklyFromDaily (r.getClosedBefore symbol .daily evaluationTime) symbol evaluationTime
  pure (upsertMany r weeks)

def refreshIsoWeekly (r : CandleRepository) (symbols : List Symbol) (evaluationTime : Time) :
    Except Exc CandleRepository :=
  symbols.foldlM (refreshWeeksOf evaluationTime) r

end Weeks

/-- The calls of the runtime that wait for the network. -/
inductive Call
  | start | reconnect | processLive
deriving DecidableEq, Repr

/-- What the runtime is waiting for, between two of its atomic stretches. -/
inductive Phase
  | idle
  | backingOff (call : Call) (evaluationTime : Time)
  | connecting (call : Call) (evaluationTime : Time)
  | handshaking (call : Call) (evaluationTime : Time)
  | backfilling (call : Call) (evaluationTime : Time) (symbol : Symbol) (timeframe : Timeframe)
      (rest : List (Symbol × Timeframe))
deriving DecidableEq, Repr

inductive Reply
  | pending
  | returned (inserted : ℕ)
  | raised (exc : Exc)
deriving DecidableEq, Repr

/-- A batch of updates, with the candles that it met. -/
structure IngestEntry where
  before : CandleRepository
  evaluationTime : Time
  raws : List RawCandle

structure MarketDataRuntime where
  repository : CandleRepository := {}
  ws : WebSocketFeed := {}
  lastBackfill : Option Time := none
  lastError : Option String := none
  initialBackfillDone : Bool := false
  strategyBundlesReady : Bool := false
  metaOk : Bool := false
  backfillOk : Bool := false
  started : Bool := false
  phase : Phase := .idle
  ingestLog : List IngestEntry := []

namespace MarketDataRuntime

section Readiness

def seriesReport (r : CandleRepository) (evaluationTime : Time) (symbol : Symbol) (timeframe : Timeframe) :
    Except Exc DataQualityReport := do
  let closed := r.getClosedBefore symbol timeframe evaluationTime
  let gaps ← detectGaps closed symbol timeframe evaluationTime
  validateSeries closed symbol timeframe evaluationTime gaps (conflictsFor r.conflicts symbol timeframe)

def marketDataReady (r : CandleRepository) (evaluationTime : Time) (symbol : Symbol) : Except Exc Bool := do
  let bundle ← paperBundle r symbol evaluationTime
  let daily ← timeframeReport r symbol evaluationTime .daily
  let weekly ← timeframeReport r symbol evaluationTime .weekly
  let monthly ← timeframeReport r symbol evaluationTime .monthly
  pure (bundle.isUsable && [daily, weekly, monthly].all (·.status = .valid) &&
    [Timeframe.daily, .weekly, .monthly].all fun timeframe => conflictsFor r.conflicts symbol timeframe = [])

def refreshStrategyBundleReadiness (rt : MarketDataRuntime) (evaluationTime : Time) :
    Except Exc MarketDataRuntime := do
  let ready ← rt.ws.config.symbols.mapM (marketDataReady rt.repository evaluationTime)
  pure { rt with strategyBundlesReady := ready.all id }

/-- An empty text counts as no error of the runtime's own. -/
def currentError (rt : MarketDataRuntime) : Option String :=
  (rt.lastError.filter (· ≠ "")).or rt.ws.backgroundError

def transportReady (rt : MarketDataRuntime) : Bool :=
  rt.ws.status = .connected && rt.ws.subscriptionsExpected ≤ rt.ws.subscriptionsAcknowledged

def readiness (rt : MarketDataRuntime) (evaluationTime : Time) : Except Exc Bool := do
  let reports ← rt.ws.config.allSubscriptions.mapM fun (symbol, timeframe) =>
    seriesReport rt.repository evaluationTime symbol timeframe
  pure (rt.metaOk && rt.backfillOk && rt.ws.subscriptionsExpected ≤ rt.ws.subscriptionsAcknowledged &&
    rt.initialBackfillDone && rt.strategyBundlesReady && rt.repository.conflicts.isEmpty &&
    reports.all (·.status = .valid) && rt.ws.status = .connected && rt.currentError = none)

end Readiness

section Failures

def recordFailure (rt : MarketDataRuntime) (exc : Exc) : MarketDataRuntime :=
  { rt with
    lastError := some exc.str
    metaOk := false
    backfillOk := false
    initialBackfillDone := false
    strategyBundlesReady := false }

def recordReconnectFailure (rt : MarketDataRuntime) (exc : Exc) : MarketDataRuntime :=
  { rt with lastError := some exc.str }

def recordBackfillSuccess (rt : MarketDataRuntime) (evaluationTime : Time) : MarketDataRuntime :=
  { rt with
    lastBackfill := some evaluationTime
    backfillOk := true
    lastError := none }

/-- The call in progress gives up: what was buffered is dropped. -/
def fail (rt : MarketDataRuntime) (call : Call) (exc : Exc) : MarketDataRuntime × Reply :=
  let rt := if call = .start then rt.recordFailure exc else rt.recordReconnectFailure exc
  ({ rt with
    ws := rt.ws.discardBuffer
    phase := .idle }, .raised exc)

/-- A failed handshake makes the feed retryable, unless it was the first one. -/
def handshakeFailed (rt : MarketDataRuntime) (call : Call) (exc : Exc) : MarketDataRuntime × Reply :=
  let rt := if call = .start then rt else { rt with ws := rt.ws.lose exc.str }
  rt.fail call exc

end Failures

section Live

def maxItems : ℕ := 1000

def ingest (rt : MarketDataRuntime) (raws : List RawCandle) (evaluationTime : Time) :
    Except Exc (MarketDataRuntime × IngestResult) := do
  let g ← ingestLiveRaw rt.repository raws evaluationTime
  pure ({ rt with
    repository := g.repository
    ingestLog := rt.ingestLog ++ [⟨rt.repository, evaluationTime, raws⟩] }, g.result)

def refreshWeeks (rt : MarketDataRuntime) (evaluationTime : Time) : Except Exc MarketDataRuntime := do
  let repository ← refreshIsoWeekly rt.repository rt.ws.config.symbols evaluationTime
  pure { rt with repository }

/-- What `process_live` does once the feed is connected. -/
def ingestLive (rt : MarketDataRuntime) (evaluationTime : Time) : MarketDataRuntime × Reply :=
  let (ws, events) := rt.ws.drainEvents maxItems
  let rt := { rt with ws }
  match rt.ingest events evaluationTime with
  | .error exc => (rt, .raised exc)
  | .ok (rt, result) =>
    match rt.refreshWeeks evaluationTime with
    | .error exc => (rt, .raised exc)
    | .ok rt => (rt, .returned result.inserted)

end Live

section Backfill

def backfillFailed (rt : MarketDataRuntime) (call : Call) (exc : Exc) : MarketDataRuntime × Reply :=
  (rt.recordFailure exc).fail call exc

def finishStart (rt : MarketDataRuntime) : MarketDataRuntime × Reply :=
  ({ rt with
    initialBackfillDone := true
    backfillOk := true
    lastError := none
    started := true
    phase := .idle }, .returned 0)

def finishReconnect (rt : MarketDataRuntime) (call : Call) (evaluationTime : Time) :
    MarketDataRuntime × Reply :=
  let rt := { rt with
    lastError := none
    phase := .idle }
  match rt.readiness evaluationTime with
  | .error exc => (rt, .raised exc)
  | .ok recovered =>
    let rt := if recovered then rt else { rt with lastError := some "market_data_readiness_not_recovered" }
    if call = .processLive then rt.ingestLive evaluationTime else (rt, .returned 0)

/-- Every series has been fetched: the buffered updates come next, then the weeks. -/
def finishBackfills (rt : MarketDataRuntime) (call : Call) (evaluationTime : Time) :
    MarketDataRuntime × Reply :=
  let (ws, buffered) := rt.ws.endBuffer
  let rt := { rt with ws }
  match rt.ingest buffered evaluationTime with
  | .error exc => rt.fail call exc
  | .ok (rt, _) =>
    match rt.refreshWeeks evaluationTime with
    | .error exc => rt.fail call exc
    | .ok rt =>
      match rt.refreshStrategyBundleReadiness evaluationTime with
      | .error exc => rt.fail call exc
      | .ok rt => if call = .start then rt.finishStart else rt.finishReconnect call evaluationTime

/-- A reconnect leaves out the series that have no candle yet. -/
def nextBackfill (rt : MarketDataRuntime) (call : Call) (evaluationTime : Time) :
    List (Symbol × Timeframe) → MarketDataRuntime × Reply
  | [] => rt.finishBackfills call evaluationTime
  | (symbol, timeframe) :: rest =>
    if call ≠ .start ∧ rt.repository.getLatest symbol timeframe = none then
      rt.nextBackfill call evaluationTime rest
    else ({ rt with phase := .backfilling call evaluationTime symbol timeframe rest }, .pending)

def incompleteTransport : Exc :=
  .runtimeError "reconnect transport incomplete after websocket reconnect"

def startBackfills (rt : MarketDataRuntime) (call : Call) (evaluationTime : Time) :
    MarketDataRuntime × Reply :=
  if call ≠ .start ∧ !rt.transportReady then rt.fail call incompleteTransport
  else rt.nextBackfill call evaluationTime rt.ws.config.providerSubscriptions

/-- The days before the evaluation time that an empty series is fetched for. -/
def initialBackfillDays : ℕ := 730

def backfillStart (rt : MarketDataRuntime) (symbol : Symbol) (timeframe : Timeframe)
    (evaluationTime : Time) : Time :=
  match rt.repository.getLatest symbol timeframe with
  | none => evaluationTime - initialBackfillDays * day
  | some latest => latest.openTime

def toEpochMs (t : Time) : ℤ := t / 1000

def parseSnapshotItem (symbol : Symbol) (timeframe : Timeframe) (stop evaluationTime : Time)
    (item : CandlePayload) : Except Exc RawCandle := do
  let raw ← parseCandle item (coinForSymbol symbol) (intervalForTimeframe timeframe) evaluationTime
  if toEpochMs stop < toEpochMs raw.openTime then
    .error (.runtimeError s!"candleSnapshot candle open time {toEpochMs raw.openTime} after requested end {toEpochMs stop}")
  else pure raw

def firstOfEach : List (ℤ × ℤ) → List RawCandle → List RawCandle
  | _, [] => []
  | seen, raw :: raws =>
    let key := (toEpochMs raw.openTime, toEpochMs raw.closeTime)
    if key ∈ seen then firstOfEach seen raws else raw :: firstOfEach (key :: seen) raws

/-- The candles of the pages the provider has answered with, each period once and in order. -/
def fetchCandles (symbol : Symbol) (timeframe : Timeframe) (start stop evaluationTime : Time)
    (items : List CandlePayload) : Except Exc (List RawCandle) :=
  if stop < start then .error (.valueError "start_time must be <= end_time")
  else do
    let raws ← items.mapM (parseSnapshotItem symbol timeframe stop evaluationTime)
    let kept := raws.filter fun raw => toEpochMs start ≤ toEpochMs raw.openTime
    pure ((firstOfEach [] kept).insertionSort fun a b => a.openTime ≤ b.openTime)

def backfillSymbol (rt : MarketDataRuntime) (call : Call) (evaluationTime : Time) (symbol : Symbol)
    (timeframe : Timeframe) (rest : List (Symbol × Timeframe)) (fetchedMeta : Except Exc Unit)
    (pages : Except Exc (List CandlePayload)) : MarketDataRuntime × Reply :=
  match fetchedMeta with
  | .error exc => rt.backfillFailed call exc
  | .ok () =>
    let rt := { rt with metaOk := true }
    match pages with
    | .error exc => rt.backfillFailed call exc
    | .ok items =>
      let start := rt.backfillStart symbol timeframe evaluationTime
      match fetchCandles symbol timeframe start evaluationTime evaluationTime items with
      | .error exc => rt.backfillFailed call exc
      | .ok raws =>
        let rt := { rt with ws := { rt.ws with received := rt.ws.received ++ raws } }
        match rt.ingest raws evaluationTime with
        | .error exc => rt.backfillFailed call exc
        | .ok (rt, _) =>
          match seriesReport rt.repository evaluationTime symbol timeframe with
          | .error exc => rt.backfillFailed call exc
          | .ok _ => (rt.recordBackfillSuccess evaluationTime).nextBackfill call evaluationTime rest

end Backfill

section Steps

def awaitAcks (rt : MarketDataRuntime) (call : Call) (evaluationTime : Time) : MarketDataRuntime × Reply :=
  if rt.ws.subscriptionsAcknowledged < rt.ws.subscriptionsExpected then
    ({ rt with phase := .handshaking call evaluationTime }, .pending)
  else startBackfills { rt with ws := rt.ws.connectionUp } call evaluationTime

def message (rt : MarketDataRuntime) (m : Message) : MarketDataRuntime × Reply :=
  match rt.phase with
  | .connecting .. => (rt, .pending)
  | .handshaking call evaluationTime =>
    match rt.ws.readOnce m with
    | (ws, none) => awaitAcks { rt with ws } call evaluationTime
    | (ws, some exc) => handshakeFailed { rt with ws } call exc
  | _ => ({ rt with ws := rt.ws.readerLoop m }, .pending)

def start (rt : MarketDataRuntime) (evaluationTime : Time) (fetchedMeta : Except Exc Unit) :
    MarketDataRuntime × Reply :=
  if rt.started then (rt, .returned 0)
  else
    let rt := { rt with ws := rt.ws.beginBuffer }
    match fetchedMeta with
    | .error exc => rt.fail .start exc
    | .ok () =>
      ({ rt with
        metaOk := true
        ws := { rt.ws with status := .connecting }
        phase := .connecting .start evaluationTime }, .pending)

def beginReconnect (rt : MarketDataRuntime) (call : Call) (evaluationTime : Time) : MarketDataRuntime × Reply :=
  let ws := rt.ws.beginBuffer
  ({ rt with
    ws := { ws with reconnectCount := ws.reconnectCount + 1 }
    phase := .backingOff call evaluationTime }, .pending)

def reconnect (rt : MarketDataRuntime) (evaluationTime : Time) : MarketDataRuntime × Reply :=
  if rt.ws.status ≠ .reconnecting then (rt, .returned 0) else rt.beginReconnect .reconnect evaluationTime

def processLive (rt : MarketDataRuntime) (evaluationTime : Time) : MarketDataRuntime × Reply :=
  if rt.ws.status ≠ .reconnecting then rt.ingestLive evaluationTime
  else rt.beginReconnect .processLive evaluationTime

/-- The delay before the new connection is over: the old reader and heartbeat are cancelled. -/
def awake (rt : MarketDataRuntime) (call : Call) (evaluationTime : Time) : MarketDataRuntime :=
  { rt with
    ws := { rt.ws with
      consecutiveFailures := rt.ws.consecutiveFailures + 1
      readerAlive := false
      status := .connecting }
    phase := .connecting call evaluationTime }

def reconnectTimeout : Exc := .runtimeError "reconnect exceeded 120.0s"

/-- `asyncio.timeout` cancels whatever the reconnect is waiting for; a handshake stays retryable. -/
def timeout (rt : MarketDataRuntime) : MarketDataRuntime × Reply :=
  match rt.phase with
  | .backingOff call _ | .backfilling call .. =>
    if call = .start then (rt, .pending) else rt.fail call reconnectTimeout
  | .connecting call _ | .handshaking call _ =>
    if call = .start then (rt, .pending)
    else fail { rt with ws := rt.ws.lose "WebSocket reconnect cancelled" } call reconnectTimeout
  | .idle => (rt, .pending)

/-- What can happen next, in whatever order. -/
inductive Action
  | message (m : Message)
  | connectionLost (error : String)
  | heartbeatLost (error : String)
  | start (evaluationTime : Time) (fetchedMeta : Except Exc Unit)
  | processLive (evaluationTime : Time)
  | reconnect (evaluationTime : Time)
  | awake
  | connect (failure : Option Exc)
  | handshakeFailed (exc : Exc)
  | fetched (fetchedMeta : Except Exc Unit) (pages : Except Exc (List CandlePayload))
  | timeout

def step (rt : MarketDataRuntime) : Action → MarketDataRuntime × Reply
  | .message m => rt.message m
  | .connectionLost error => ({ rt with ws := rt.ws.readerLost error }, .pending)
  | .heartbeatLost error => ({ rt with ws := rt.ws.heartbeatLost error }, .pending)
  | .start evaluationTime fetchedMeta =>
    if rt.phase = .idle then rt.start evaluationTime fetchedMeta else (rt, .pending)
  | .processLive evaluationTime => if rt.phase = .idle then rt.processLive evaluationTime else (rt, .pending)
  | .reconnect evaluationTime => if rt.phase = .idle then rt.reconnect evaluationTime else (rt, .pending)
  | .awake =>
    match rt.phase with
    | .backingOff call evaluationTime => (rt.awake call evaluationTime, .pending)
    | _ => (rt, .pending)
  | .connect failure =>
    match rt.phase, failure with
    | .connecting call _, some exc => rt.handshakeFailed call exc
    | .connecting call evaluationTime, none => awaitAcks { rt with ws := rt.ws.subscribe } call evaluationTime
    | _, _ => (rt, .pending)
  | .handshakeFailed exc =>
    match rt.phase with
    | .handshaking call _ => rt.handshakeFailed call exc
    | _ => (rt, .pending)
  | .fetched fetchedMeta pages =>
    match rt.phase with
    | .backfilling call evaluationTime symbol timeframe rest =>
      rt.backfillSymbol call evaluationTime symbol timeframe rest fetchedMeta pages
    | _ => (rt, .pending)
  | .timeout => rt.timeout

def run (rt : MarketDataRuntime) (actions : List Action) : MarketDataRuntime :=
  actions.foldl (fun rt action => (rt.step action).1) rt

end Steps

end MarketDataRuntime

end TradingBot.Market.Runtime
