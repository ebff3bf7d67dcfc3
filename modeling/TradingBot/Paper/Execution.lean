import TradingBot.Paper.Stops

namespace TradingBot.Paper.Execution

open Market.Models Strategy.Models Exceptions Constraints Backtester.Lifecycle
open Library.Transaction Paper.Models Paper.Repository Paper.Stops

/-- The execution parameters, within the bounds their model checks. -/
structure PaperExecutionConfig where
  feeRate : Decimal
  slippageBps : Decimal
  maxLeverage : Decimal
  feeRate_mem : 0 ≤ feeRate ∧ feeRate ≤ 1 / 100
  slippageBps_mem : 0 ≤ slippageBps ∧ slippageBps ≤ 100
  maxLeverage_mem : 0 < maxLeverage ∧ maxLeverage ≤ 2

def PaperExecutionConfig.fromTradingConfig (c : PaperTradingConfig) : PaperExecutionConfig :=
  { feeRate := c.paperFeeRate
    slippageBps := c.paperSlippageBps
    maxLeverage := c.paperMaxLeverage
    feeRate_mem := c.feeRate_mem
    slippageBps_mem := c.slippageBps_mem
    maxLeverage_mem := c.maxLeverage_mem }

/-- Market and execution inputs for filling at the next open. -/
structure FillProcessingContext where
  openRef : Decimal
  atr14 : Decimal
  candleOpenTime : Time
  constraints : SymbolConstraints
  strategyParams : StrategyParameters
  executionConfig : PaperExecutionConfig
  dayCandles : BySymbol Candle
  priorCloses : BySymbol Decimal

structure EntryExecutionRejected where
  reasonCodes : List ReasonCode := []
  detail : String := ""
deriving DecidableEq, Repr

structure EntryExecutionApproved where
  fillPrices : EntryFillComputation
  accounting : EntryAccounting
  quantity : Decimal
  reasonCodes : List ReasonCode
deriving DecidableEq, Repr

abbrev EntryExecutionResult := EntryExecutionRejected ⊕ EntryExecutionApproved

structure TransactionalFillResult where
  created : Bool
  fill : PaperFill
  order : PaperOrder
  position : Option PaperPosition
  intent : TradeIntent
deriving DecidableEq, Repr

def computeEntryExecution (risk : RiskEngine IntentKey) (intent : TradeIntent)
    (ctx : FillProcessingContext) (walletCash : Decimal) (openPositions : List PaperPosition)
    (pendingIntents : List (PendingIntent IntentKey)) (processedIntentIds : List IntentKey) :
    Except Exc EntryExecutionResult := do
  let constraints ← validateSymbolConstraints (some ctx.constraints)
  if ctx.openRef ≤ 0 then pure (.inl { detail := "invalid open price" })
  else
    let fillPrices ← computeEntryFillPrices ctx.openRef ctx.atr14 ctx.executionConfig.slippageBps
      ctx.strategyParams constraints.priceTickSize
    let decision ← risk
      { symbol := intent.symbol
        fillPrice := fillPrices.fillPrice
        stopInitial := fillPrices.stopInitial
        clientIntentId := intent.idempotencyKey
        atr14 := ctx.atr14
        constraints
        walletCash
        openPositions := openPositions.map paperPositionToSimulated
        pendingIntents
        processedIntentIds
        dayCandles := ctx.dayCandles
        priorCloses := ctx.priorCloses }
    match decision.approved, decision.roundedQuantity with
    | true, some quantity =>
      let accounting ← computeEntryAccounting fillPrices.fillPrice ctx.openRef quantity
        fillPrices.stopInitial ctx.executionConfig.feeRate ctx.executionConfig.maxLeverage
        ctx.strategyParams constraints.priceTickSize ctx.atr14
      if walletCash < accounting.fee then pure (.inl { detail := "insufficient cash for fee" })
      else pure (.inr { fillPrices, accounting, quantity, reasonCodes := decision.reasonCodes })
    | _, _ => pure (.inl { reasonCodes := filterRejectionReasonCodes decision
                           detail := "risk rejected" })

section Rows

def entryOrder (paperOrderId : Id) (intent : TradeIntent) (entry : EntryExecutionApproved)
    (candleOpenTime : Time) : PaperOrder :=
  { paperOrderId
    intentId := intent.intentId
    symbol := intent.symbol
    requestedQuantity := entry.quantity
    remainingQuantity := 0
    expectedFillTime := candleOpenTime
    status := .filled
    createdAt := candleOpenTime }

def entryFill (fillId paperOrderId : Id) (intent : TradeIntent) (entry : EntryExecutionApproved)
    (openRef : Decimal) (candleOpenTime : Time) : PaperFill :=
  { fillId
    paperOrderId := some paperOrderId
    positionId := none
    fillKind := .entry
    symbol := intent.symbol
    quantity := entry.quantity
    marketOpenPrice := openRef
    slippage := entry.accounting.slippageCost
    fillPrice := entry.fillPrices.fillPrice
    fee := entry.accounting.fee
    fillTime := candleOpenTime
    candleKey := candleOpenTime
    fillSequence := 0
    deterministicFillKey := .entry paperOrderId (wholeSeconds candleOpenTime) 0 }

def entryDelta (entry : EntryExecutionApproved) : WalletDelta :=
  { cash := -entry.accounting.fee
    fees := entry.accounting.fee
    slippage := entry.accounting.slippageCost }

def entryPosition (positionId : Id) (intent : TradeIntent) (entry : EntryExecutionApproved)
    (atr14 : Decimal) (candleOpenTime : Time) : PaperPosition :=
  { positionId
    symbol := intent.symbol
    status := .open_
    quantity := entry.quantity
    averageEntryPrice := entry.fillPrices.fillPrice
    initialStop := entry.accounting.trailState.stopInitial
    currentStop := entry.accounting.trailState.effectiveStop
    highestCloseSinceEntry := entry.accounting.trailState.highestClose
    entryAtr14 := atr14
    marginReserved := entry.accounting.marginReserved
    entryIntentId := intent.intentId
    openedAt := candleOpenTime }

end Rows

def getPositionForIntent (intentId : Id) : Query (Option PaperPosition) := do
  scalarOneOrNone (← read fun db => db.positions.filter (·.entryIntentId = intentId))

def loadExistingFill (intent : TradeIntent) (candleOpenTime : Time) :
    Query (Option TransactionalFillResult) := do
  match ← getOrderForIntent intent.intentId with
  | none => pure none
  | some order => do
    let key := FillKey.entry order.paperOrderId (wholeSeconds candleOpenTime) 0
    match ← read fun db => db.fills.find? (·.deterministicFillKey = key) with
    | none => pure none
    | some fill => do
      let stored ← getIntent intent.intentId
      let position ← getPositionForIntent intent.intentId
      pure (some { created := false, fill, order, position, intent := stored.getD intent })

def persistSuccessfulFill (intent : TradeIntent) (entry : EntryExecutionApproved) (openRef : Decimal)
    (candleOpenTime : Time) (atr14 : Decimal) : Query TransactionalFillResult := do
  let orderId ← newId
  let (order, orderCreated) ← insertOrGetPaperOrder (entryOrder orderId intent entry candleOpenTime)
  let fillId ← newId
  let (fill, fillCreated) ←
    insertOrGetPaperFill (entryFill fillId order.paperOrderId intent entry openRef candleOpenTime)
  if fillCreated then do
    updateWallet (entryDelta entry)
    let positionId ← newId
    let position ← createPosition (entryPosition positionId intent entry atr14 candleOpenTime)
    let updated ← updateIntentStatus intent.intentId
      { status := .filled, approvedQuantity := some entry.quantity }
    pure { created := orderCreated && fillCreated, fill, order, position := some position
           intent := updated }
  else do
    let stored ← getIntent intent.intentId
    let position ← getPositionForIntent intent.intentId
    pure { created := false, fill, order, position, intent := stored.getD intent }

def persistRejection (intent : TradeIntent) (entry : EntryExecutionRejected) : Query Unit := do
  let _ ← updateIntentStatus intent.intentId
    { status := .rejected
      rejectionReason := some ⟨entry.reasonCodes.map (·.value), some entry.detail⟩ }
  pure ()

def executeScheduledPaperFill (risk : RiskEngine IntentKey) (intent : TradeIntent)
    (ctx : FillProcessingContext) (processedIntentIds : List IntentKey)
    (pendingIntents : List (PendingIntent IntentKey)) :
    Query (EntryExecutionRejected ⊕ TransactionalFillResult) := do
  let _ ← ofExcept (validateSymbolConstraints (some ctx.constraints))
  match ← loadExistingFill intent ctx.candleOpenTime with
  | some existing => pure (.inr existing)
  | none => do
    let openPositions ← getOpenPositions
    if openPositions.any (·.symbol = intent.symbol) then
      pure (.inl { detail := "position already open for symbol" })
    else do
      match ← getWallet with
      | none => raise (.lookupError "paper_wallet not seeded")
      | some wallet => do
        let entry ← ofExcept (computeEntryExecution risk intent ctx wallet.cash openPositions
          pendingIntents processedIntentIds)
        match entry with
        | .inl rejected => do
          scope (persistRejection intent rejected)
          pure (.inl rejected)
        | .inr approved => do
          let result ← scope (persistSuccessfulFill intent approved ctx.openRef ctx.candleOpenTime
            ctx.atr14)
          pure (.inr result)

end TradingBot.Paper.Execution
