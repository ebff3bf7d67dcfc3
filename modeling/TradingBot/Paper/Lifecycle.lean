import TradingBot.Paper.Execution

namespace TradingBot.Paper.Lifecycle

open Market.Models Strategy.Models Exceptions Constraints Backtester.Lifecycle
open Library.Transaction Paper.Models Paper.Repository Paper.Execution

section Transitions

def intentTransitions : TradeIntentStatus → List TradeIntentStatus
  | .created => [.approved, .scheduled, .rejected, .cancelled, .failed]
  | .approved => [.scheduled, .submittedToPaperEngine, .rejected, .cancelled, .failed, .expired]
  | .scheduled => [.submittedToPaperEngine, .filled, .rejected, .cancelled, .failed, .expired]
  | .submittedToPaperEngine => [.filled, .rejected, .failed]
  | _ => []

def validateIntentTransition (current target : TradeIntentStatus) : Except Exc Unit :=
  if current = target then .ok ()
  else if terminalIntentStatuses.contains current then
    .error (.invalidTransition ("intent already terminal: " ++ current.value))
  else if (intentTransitions current).contains target then .ok ()
  else .error (.invalidTransition
    ("invalid intent transition " ++ current.value ++ " -> " ++ target.value))

end Transitions

section Authorization

structure EntryAuthorization where
  allowed : Bool
  reasons : List String
  paused : Bool := false
  killSwitch : Bool := false
deriving DecidableEq, Repr

def reasonIf (condition : Bool) (reason : String) : List String := if condition then [reason] else []

/-- An empty text is as good as none. -/
def errorSet (lastError : Option String) : Bool := lastError.any (· ≠ "")

def isStale (config : PaperTradingConfig) (runtime : RuntimeState) (evaluatedAt : Time) : Bool :=
  config.staleRuntimeThresholdSeconds * second < evaluatedAt - runtime.heartbeatAt

def authorizationReasons (config : PaperTradingConfig) (marketDataReady : Bool) (evaluatedAt : Time)
    (runtime : RuntimeState) : List String :=
  reasonIf (runtime.status ≠ .ready) "runtime_not_ready" ++
  reasonIf (errorSet runtime.lastError) "last_error_set" ++
  reasonIf (isStale config runtime evaluatedAt) "stale_heartbeat" ++
  reasonIf (!marketDataReady) "market_data_not_ready" ++
  reasonIf runtime.paused "paused" ++
  reasonIf runtime.killSwitch "kill_switch"

/-- Reads the runtime row, which the caller's transaction keeps locked until it ends. -/
def evaluateFinalEntryAuthorization (config : PaperTradingConfig) (marketDataReady : Bool)
    (evaluatedAt : Time) : Query EntryAuthorization := do
  match ← getRuntimeState with
  | none => pure { allowed := false, reasons := ["runtime_state_missing"] }
  | some runtime =>
    let reasons := authorizationReasons config marketDataReady evaluatedAt runtime
    pure { allowed := reasons.isEmpty, reasons, paused := runtime.paused
           killSwitch := runtime.killSwitch }

end Authorization

section Entry

structure EntryGateContext where
  entryReady : Bool
  marketDataReady : Bool
  paused : Bool
  killSwitch : Bool
  openPositionCount : ℕ
  hasSymbolPosition : Bool
  hasNonterminalIntent : Bool
deriving DecidableEq, Repr

def checkEntryGates (gates : EntryGateContext) (eval : StrategyEvaluation)
    (maxOpenPositions : ℕ := 3) : List String :=
  reasonIf (!gates.entryReady) "runtime_not_entry_ready" ++
  reasonIf (!gates.marketDataReady) "market_data_not_ready" ++
  reasonIf gates.paused "paused" ++
  reasonIf gates.killSwitch "kill_switch" ++
  reasonIf gates.hasSymbolPosition "existing_position" ++
  reasonIf gates.hasNonterminalIntent "existing_nonterminal_intent" ++
  reasonIf (maxOpenPositions ≤ gates.openPositionCount) "max_open_positions" ++
  reasonIf (eval.signalIntent.kind ≠ .longEntry) "no_long_entry_signal" ++
  reasonIf eval.selectedEntryType.isNone "no_selected_entry_type" ++
  reasonIf eval.signalIntent.stopInitial.isNone "missing_stop" ++
  reasonIf (eval.atr.all (· ≤ 0)) "missing_atr" ++
  reasonIf (!eval.weeklyTrend.trendConfirmed) "weekly_trend_not_confirmed"

def buildEntryGateContext (symbol : Symbol) (entryReady marketDataReady paused killSwitch : Bool) :
    Query EntryGateContext := do
  let openPositions ← getOpenPositions
  let nonterminal ← getNonterminalIntentForSymbol symbol
  pure { entryReady, marketDataReady, paused, killSwitch
         openPositionCount := openPositions.length
         hasSymbolPosition := openPositions.any (·.symbol = symbol)
         hasNonterminalIntent := nonterminal.isSome }

def nextDailyOpenAfterSignal (dailyCandleOpenTime : Time) : Time := dailyCandleOpenTime + day

def scheduledIntent (intentId : Id) (evaluation : StrategyEvaluationRecord)
    (eval : StrategyEvaluation) (signalType : EntryType) (entryPrice stopInitial : Decimal)
    (createdAt : Time) : TradeIntent :=
  { intentId
    idempotencyKey := ⟨evaluation.symbol, eval.strategyVersion,
      wholeSeconds evaluation.evaluationTime, signalType⟩
    symbol := evaluation.symbol
    signalType
    signalTime := evaluation.evaluationTime
    scheduledFillTime := nextDailyOpenAfterSignal evaluation.dailyCandleOpenTime
    requestedEntry := entryPrice
    requestedStop := stopInitial
    status := .scheduled
    strategyEvaluationId := evaluation.evaluationId
    createdAt }

def createIntentFromEvaluation (config : PaperTradingConfig) (evaluation : StrategyEvaluationRecord)
    (eval : StrategyEvaluation) (gates : EntryGateContext) (createdAt authorizationAt : Time)
    (marketDataReady : Bool) : Query (Option TradeIntent × Bool × List String) := do
  let authorization ← evaluateFinalEntryAuthorization config marketDataReady authorizationAt
  let gates := { gates with
    entryReady := gates.entryReady && authorization.allowed
    paused := authorization.paused
    killSwitch := authorization.killSwitch }
  let blocked := (checkEntryGates gates eval ++ authorization.reasons).eraseDups
  if blocked ≠ [] then pure (none, false, blocked)
  else
    match eval.selectedEntryType, eval.signalIntent.entryPrice, eval.signalIntent.stopInitial with
    | some signalType, some entryPrice, some stopInitial => do
      let intentId ← newId
      let (intent, created) ← insertOrGetTradeIntent
        (scheduledIntent intentId evaluation eval signalType entryPrice stopInitial createdAt)
      pure (some intent, created, [])
    | _, _, _ => raise .assertionError

end Entry

section Open

def pendingIntentsForSymbol (candleOpenTime : Time) (contexts : BySymbol FillProcessingContext)
    (skip : List IntentKey) (symbol : Symbol) : Query (List (PendingIntent IntentKey)) :=
  match contexts symbol with
  | none => pure []
  | some ctx =>
    if ctx.candleOpenTime ≠ candleOpenTime then pure []
    else do
      let intents ← getScheduledIntentsForSymbol symbol candleOpenTime
      pure ((intents.filter fun i => !skip.contains i.idempotencyKey).map fun i =>
        ⟨i.idempotencyKey, i.symbol⟩)

def pendingIntentsForOpenBatch (candleOpenTime : Time) (currentSymbol : Symbol)
    (contexts : BySymbol FillProcessingContext) (skip : List IntentKey) :
    Query (List (PendingIntent IntentKey)) := do
  let later := (symbolProcessingOrder.dropWhile (· ≠ currentSymbol)).tail
  let batches ← forEach later (pendingIntentsForSymbol candleOpenTime contexts skip)
  pure batches.flatten

structure FillBatchResult where
  symbol : Symbol
  processed : ℕ := 0
  filled : ℕ := 0
  rejected : ℕ := 0
  skipped : ℕ := 0
deriving DecidableEq, Repr

/-- What a batch carries from intent to intent; `asked` counts the readiness calls made. -/
structure BatchState where
  processedIntentIds : List IntentKey := []
  asked : ℕ := 0
  result : FillBatchResult

abbrev FillOutcome := EntryExecutionRejected ⊕ TransactionalFillResult

def authorizeAndFill (config : PaperTradingConfig) (risk : RiskEngine IntentKey) (processTime : Time)
    (contexts : BySymbol FillProcessingContext) (symbol : Symbol) (ctx : FillProcessingContext)
    (processedIntentIds : List IntentKey) (marketDataReady : Bool) (intent : TradeIntent) :
    Query (Option FillOutcome) := do
  let authorization ← evaluateFinalEntryAuthorization config marketDataReady processTime
  if authorization.allowed then do
    ofExcept (validateIntentTransition intent.status .submittedToPaperEngine)
    let _ ← updateIntentStatus intent.intentId { status := .submittedToPaperEngine }
    let pending ← pendingIntentsForOpenBatch ctx.candleOpenTime symbol contexts processedIntentIds
    let outcome ← executeScheduledPaperFill risk intent ctx processedIntentIds pending
    pure (some outcome)
  else do
    ofExcept (validateIntentTransition intent.status .cancelled)
    let _ ← updateIntentStatus intent.intentId
      { status := .cancelled, rejectionReason := some { reasonCodes := authorization.reasons } }
    pure none

def countOutcome (r : FillBatchResult) : Option FillOutcome → FillBatchResult
  | none => { r with skipped := r.skipped + 1 }
  | some (.inl _) => { r with rejected := r.rejected + 1 }
  | some (.inr result) =>
    if result.position.isSome then { r with filled := r.filled + 1 }
    else { r with skipped := r.skipped + 1 }

def processIntent (config : PaperTradingConfig) (risk : RiskEngine IntentKey) (processTime : Time)
    (contexts : BySymbol FillProcessingContext) (marketDataReady : ℕ → Bool) (symbol : Symbol)
    (ctx : FillProcessingContext) (b : BatchState) (intent : TradeIntent) : Query BatchState := do
  if intent.scheduledFillTime ≠ ctx.candleOpenTime then
    pure { b with result := { b.result with skipped := b.result.skipped + 1 } }
  else do
    let outcome ← scope (authorizeAndFill config risk processTime contexts symbol ctx
      b.processedIntentIds (marketDataReady b.asked) intent)
    let result := { b.result with processed := b.result.processed + 1 }
    pure { processedIntentIds :=
             if outcome.isSome then b.processedIntentIds ++ [intent.idempotencyKey]
             else b.processedIntentIds
           asked := b.asked + 1
           result := countOutcome result outcome }

def processSymbolForOpen (config : PaperTradingConfig) (risk : RiskEngine IntentKey)
    (processTime : Time) (contexts : BySymbol FillProcessingContext) (marketDataReady : ℕ → Bool)
    (b : BatchState × List FillBatchResult) (symbol : Symbol) :
    Query (BatchState × List FillBatchResult) := do
  let start : BatchState := { b.1 with result := { symbol } }
  match contexts symbol with
  | none => pure (start, b.2 ++ [start.result])
  | some ctx =>
    if processTime < ctx.candleOpenTime + config.fillDelaySeconds * second then
      pure (start, b.2 ++ [start.result])
    else do
      let intents ← getScheduledIntentsForSymbol symbol ctx.candleOpenTime
      let done ← forFold
        (processIntent config risk processTime contexts marketDataReady symbol ctx) start intents
      pure (done, b.2 ++ [done.result])

def processScheduledIntentsForOpen (config : PaperTradingConfig) (risk : RiskEngine IntentKey)
    (processTime : Time) (contexts : BySymbol FillProcessingContext) (marketDataReady : ℕ → Bool) :
    Query (List FillBatchResult) := do
  let (_, results) ← forFold
    (processSymbolForOpen config risk processTime contexts marketDataReady)
    ({ result := { symbol := .BTC } }, []) symbolProcessingOrder
  pure results

end Open

end TradingBot.Paper.Lifecycle
