import Mathlib.Data.List.Sort
import Mathlib.Data.Rat.Floor
import TradingBot.Library.FixedPoint
import TradingBot.Library.Transaction
import TradingBot.Paper.Models

namespace TradingBot.Paper.Repository

open Market.Models Exceptions Library.FixedPoint Library.Transaction Paper.Models

/-- Computations of the paper runtime over its database session. -/
abbrev Query (α : Type) := Txn Exc Db α

def newId : Query Id := fun s => (.ok s.db.nextId, { s with db := { s.db with nextId := s.db.nextId + 1 } })

def scalarOneOrNone {α : Type} : List α → Query (Option α)
  | [] => pure none
  | [a] => pure (some a)
  | _ => raise .multipleResultsFound

def ofExcept {α : Type} : Except Exc α → Query α
  | .ok a => pure a
  | .error e => raise e

/-- A check constraint or a validator of a domain model. -/
def require (condition : Bool) (e : Exc) : Query Unit := if condition then pure () else raise e

def execute (f : Db → Db) : Query Unit := write .databaseError f

section Runtime

def getRuntimeState : Query (Option RuntimeState) := read (·.runtimeState)

structure RuntimeUpdate where
  status : Option RuntimeStatus := none
  lastError : Option String := none
  startedAt : Option Time := none
  heartbeatAt : Option Time := none
  killSwitch : Option Bool := none
  paused : Option Bool := none

/-- A field that is not given keeps its value; every update counts the version up. -/
def RuntimeUpdate.apply (u : RuntimeUpdate) (r : RuntimeState) : RuntimeState :=
  { status := u.status.getD r.status
    lastError := u.lastError.or r.lastError
    startedAt := u.startedAt.or r.startedAt
    heartbeatAt := u.heartbeatAt.getD r.heartbeatAt
    killSwitch := u.killSwitch.getD r.killSwitch
    paused := u.paused.getD r.paused
    version := r.version + 1 }

def updateRuntimeState (u : RuntimeUpdate) (expectedVersion : Option ℕ) : Query RuntimeState := do
  match ← getRuntimeState with
  | none => raise (.lookupError "runtime_state singleton not seeded")
  | some row =>
    if expectedVersion.any (· != row.version) then
      raise (.valueError "runtime_state version conflict")
    else do
      execute fun db => { db with runtimeState := some (u.apply row) }
      pure (u.apply row)

end Runtime

section Wallet

def getWallet : Query (Option PaperWalletState) := read (·.wallet)

structure WalletDelta where
  cash : Decimal := 0
  realizedPnl : Decimal := 0
  fees : Decimal := 0
  funding : Decimal := 0
  slippage : Decimal := 0

def WalletDelta.apply (d : WalletDelta) (w : PaperWalletState) : PaperWalletState :=
  { cash := w.cash + d.cash
    totalRealizedPnl := w.totalRealizedPnl + d.realizedPnl
    totalFees := w.totalFees + d.fees
    totalFunding := w.totalFunding + d.funding
    totalSlippage := w.totalSlippage + d.slippage
    version := w.version + 1 }

def updateWallet (d : WalletDelta) : Query Unit := do
  match ← getWallet with
  | none => raise (.lookupError "paper_wallet singleton not seeded")
  | some _ => execute fun db => { db with wallet := db.wallet.map d.apply }

end Wallet

section Intents

def sameSignal (a b : TradeIntent) : Bool :=
  a.strategyEvaluationId = b.strategyEvaluationId ∧ a.symbol = b.symbol ∧
    a.signalType = b.signalType

/-- What a column of 38 digits keeps of a number, 18 of them after the point. -/
def numericMoney (x : Decimal) : Option Decimal :=
  if |store 18 x| < 10 ^ 20 then some (store 18 x) else none

def intentColumns (row : TradeIntent) : Option TradeIntent := do
  let requestedEntry ← numericMoney row.requestedEntry
  let requestedStop ← numericMoney row.requestedStop
  pure { row with requestedEntry, requestedStop }

def insertOrGetTradeIntent (row : TradeIntent) : Query (TradeIntent × Bool) := do
  match intentColumns row with
  -- The values overflow before any conflict is looked for.
  | none => raise .databaseError
  | some row => do
    match ← read fun db => db.intents.find? (sameSignal row) with
    | some existing => do
      flush .databaseError
      pure (existing, false)
    | none => do
      let taken ← read fun db => db.intents.any (·.idempotencyKey = row.idempotencyKey)
      require (!taken) (.integrityError "trade_intents_idempotency_key_key")
      execute fun db => { db with intents := db.intents ++ [row] }
      pure (row, true)

structure IntentUpdate where
  status : TradeIntentStatus
  approvedQuantity : Option Decimal := none
  rejectionReason : Option RejectionReason := none

def IntentUpdate.apply (u : IntentUpdate) (i : TradeIntent) : TradeIntent :=
  { i with
    status := u.status
    approvedQuantity := u.approvedQuantity.or i.approvedQuantity
    rejectionReason := u.rejectionReason.or i.rejectionReason }

def getIntent (intentId : Id) : Query (Option TradeIntent) :=
  read fun db => db.intents.find? (·.intentId = intentId)

def updateIntentStatus (intentId : Id) (u : IntentUpdate) : Query TradeIntent := do
  execute fun db =>
    { db with intents := db.intents.map fun i => if i.intentId = intentId then u.apply i else i }
  match ← getIntent intentId with
  | none => raise .assertionError
  | some row => pure row

def terminalIntentStatuses : List TradeIntentStatus :=
  [.rejected, .cancelled, .expired, .failed, .filled]

def getNonterminalIntentForSymbol (symbol : Symbol) : Query (Option TradeIntent) := do
  let rows ← read fun db => db.intents.filter fun i =>
    decide (i.symbol = symbol) && !terminalIntentStatuses.contains i.status
  scalarOneOrNone rows

def isDueIntent (symbol : Symbol) (scheduledFillTime : Time) (i : TradeIntent) : Bool :=
  i.symbol = symbol ∧ i.scheduledFillTime = scheduledFillTime ∧
    (i.status = .scheduled ∨ i.status = .submittedToPaperEngine)

def getScheduledIntentsForSymbol (symbol : Symbol) (scheduledFillTime : Time) :
    Query (List TradeIntent) :=
  read fun db => (db.intents.filter (isDueIntent symbol scheduledFillTime)).insertionSort
    fun a b => a.createdAt ≤ b.createdAt

end Intents

section Orders

def getOrderForIntent (intentId : Id) : Query (Option PaperOrder) := do
  scalarOneOrNone (← read fun db => db.orders.filter (·.intentId = intentId))

def insertOrGetPaperOrder (row : PaperOrder) : Query (PaperOrder × Bool) := do
  match ← read fun db => db.orders.find? (·.intentId = row.intentId) with
  | some existing => do
    flush .databaseError
    pure (existing, false)
  | none => do
    require (0 ≤ row.remainingQuantity) (.integrityError "ck_paper_orders_remaining_nonneg")
    require (0 < row.requestedQuantity) (.integrityError "ck_paper_orders_requested_positive")
    execute fun db => { db with orders := db.orders ++ [row] }
    pure (row, true)

end Orders

section Fills

def sameOrderCandle (row f : PaperFill) : Bool :=
  row.paperOrderId.isSome ∧ f.paperOrderId = row.paperOrderId ∧ f.candleKey = row.candleKey ∧
    f.fillSequence = row.fillSequence

def sameExitCandle (row f : PaperFill) : Bool :=
  row.positionId.isSome ∧ row.fillKind = .exit ∧ f.positionId = row.positionId ∧
    f.candleKey = row.candleKey ∧ f.fillSequence = row.fillSequence ∧ f.fillKind = .exit

def fillKindRefs (row : PaperFill) : Bool :=
  match row.fillKind with
  | .entry => row.paperOrderId.isSome && row.positionId.isNone
  | .exit => row.positionId.isSome

def insertOrGetPaperFill (row : PaperFill) : Query (PaperFill × Bool) := do
  let rows ← read fun db => db.fills.filter fun f => sameOrderCandle row f || sameExitCandle row f
  match ← scalarOneOrNone rows with
  | some existing => pure (existing, false)
  | none => do
    match ← read fun db => db.fills.find? (·.deterministicFillKey = row.deterministicFillKey) with
    | some existing => do
      flush .databaseError
      pure (existing, false)
    | none => do
      require (0 < row.quantity) (.integrityError "ck_paper_fills_quantity_positive")
      require (0 < row.fillPrice) (.integrityError "ck_paper_fills_price_positive")
      require (fillKindRefs row) (.integrityError "ck_paper_fills_kind_refs")
      execute fun db => { db with fills := db.fills ++ [row] }
      require (0 < row.marketOpenPrice) (.valueError "quantity and prices must be > 0")
      pure (row, true)

def listAllFills : Query (List PaperFill) := read (·.fills)

def listFundingEvents : Query (List FundingEventRecord) := read (·.fundingEvents)

end Fills

section Positions

def isOpen (p : PaperPosition) : Bool := p.status = .open_ ∨ p.status = .closing

def getOpenPositions : Query (List PaperPosition) := read fun db => db.positions.filter isOpen

def getOpenPositionForSymbol (symbol : Symbol) : Query (Option PaperPosition) := do
  scalarOneOrNone (← read fun db => db.positions.filter fun p => decide (p.symbol = symbol) && isOpen p)

def getPosition (positionId : Id) : Query (Option PaperPosition) :=
  read fun db => db.positions.find? (·.positionId = positionId)

def listPositions (limit : ℕ) : Query (List PaperPosition) :=
  read fun db => (db.positions.insertionSort fun a b =>
    b.openedAt < a.openedAt ∨ (b.openedAt = a.openedAt ∧ b.positionId ≤ a.positionId)).take limit

def createPosition (row : PaperPosition) : Query PaperPosition := do
  let taken ← read fun db => db.positions.any fun p => decide (p.symbol = row.symbol) && isOpen p
  require (0 < row.quantity) (.integrityError "ck_paper_positions_quantity_positive")
  require (0 < row.averageEntryPrice) (.integrityError "ck_paper_positions_entry_positive")
  require (0 < row.entryAtr14) (.integrityError "ck_paper_positions_entry_atr_positive")
  require (row.initialStop ≤ row.currentStop) (.integrityError "ck_paper_positions_stop_monotonic")
  require (!(isOpen row && taken)) (.integrityError "uq_paper_positions_open_symbol")
  execute fun db => { db with positions := db.positions ++ [row] }
  require (row.initialStop < row.averageEntryPrice)
    (.valueError "initial_stop must be below average_entry_price for LONG")
  pure row

def updatePosition (positionId : Id) (f : PaperPosition → PaperPosition) : Query Unit :=
  execute fun db =>
    { db with positions := db.positions.map fun p => if p.positionId = positionId then f p else p }

def sameStopEvent (row e : PositionStopEvent) : Bool :=
  e.positionId = row.positionId ∧ e.evaluationTime = row.evaluationTime

def insertOrGetStopEvent (row : PositionStopEvent) : Query Bool := do
  match ← read fun db => db.stopHistory.find? (sameStopEvent row) with
  | some _ => do
    flush .databaseError
    pure false
  | none => do
    require (row.previousStop ≤ row.newStop) (.integrityError "ck_stop_history_monotonic")
    execute fun db => { db with stopHistory := db.stopHistory ++ [row] }
    pure true

end Positions

section Snapshots

def sameSnapshot (row p : PortfolioSnapshot) : Bool :=
  p.event = row.event ∧ wholeSeconds p.evaluationTime = wholeSeconds row.evaluationTime

def insertOrGetPortfolioSnapshot (row : PortfolioSnapshot) : Query (PortfolioSnapshot × Bool) := do
  match ← read fun db => db.snapshots.find? (sameSnapshot row) with
  | some existing => do
    flush .databaseError
    pure (existing, false)
  | none => do
    execute fun db => { db with snapshots := db.snapshots ++ [row] }
    pure (row, true)

end Snapshots

section Evaluations

def sameEvaluation (row e : StrategyEvaluationRecord) : Bool :=
  e.strategyVersion = row.strategyVersion ∧ e.symbol = row.symbol ∧
    e.dailyCandleOpenTime = row.dailyCandleOpenTime

def insertOrGetStrategyEvaluation (row : StrategyEvaluationRecord) :
    Query (StrategyEvaluationRecord × Bool) := do
  match ← read fun db => db.evaluations.find? (sameEvaluation row) with
  | some existing => do
    flush .databaseError
    pure (existing, false)
  | none => do
    execute fun db => { db with evaluations := db.evaluations ++ [row] }
    pure (row, true)

def listEvaluations (limit : ℕ) : Query (List StrategyEvaluationRecord) :=
  read fun db => (db.evaluations.insertionSort fun a b =>
    b.createdAt < a.createdAt ∨ (b.createdAt = a.createdAt ∧ b.evaluationId ≤ a.evaluationId)).take limit

end Evaluations

section SchedulerRuns

def isRun (jobName : JobName) (scheduledFor : Time) (r : SchedulerRun) : Bool :=
  r.jobName = jobName ∧ r.scheduledFor = scheduledFor

def getSchedulerRun (jobName : JobName) (scheduledFor : Time) : Query (Option SchedulerRun) :=
  read fun db => db.schedulerRuns.find? (isRun jobName scheduledFor)

def insertOrGetSchedulerRun (row : SchedulerRun) : Query (SchedulerRun × Bool) := do
  match ← getSchedulerRun row.jobName row.scheduledFor with
  | some existing => do
    flush .databaseError
    pure (existing, false)
  | none => do
    execute fun db => { db with schedulerRuns := db.schedulerRuns ++ [row] }
    pure (row, true)

def modifyRun (jobName : JobName) (scheduledFor : Time) (f : SchedulerRun → SchedulerRun)
    (r : SchedulerRun) : SchedulerRun :=
  if isRun jobName scheduledFor r then f r else r

def updateSchedulerRun (jobName : JobName) (scheduledFor : Time) (f : SchedulerRun → SchedulerRun) :
    Query Unit :=
  execute fun db => { db with schedulerRuns := db.schedulerRuns.map (modifyRun jobName scheduledFor f) }

def completeSchedulerRun (jobName : JobName) (scheduledFor : Time) (status : SchedulerRunStatus)
    (completedAt : Time) (error : Option String) : Query SchedulerRun := do
  updateSchedulerRun jobName scheduledFor fun r =>
    { r with status := status, completedAt := some completedAt, error := error }
  match ← getSchedulerRun jobName scheduledFor with
  | none => raise .noResultFound
  | some row => pure row

def countRecoveryAttempts (originalRunId : Id) : Query ℕ :=
  read fun db => (db.schedulerRuns.filter (·.recoveryOfRunId = some originalRunId)).length

def isActiveRecovery (r : SchedulerRun) : Bool :=
  r.status = .running ∨ (r.status = .skipped ∧ isRetryableMarketEventError r.error)

def getActiveRecoveryAttempt (originalRunId : Id) : Query (Option SchedulerRun) :=
  read fun db =>
    ((db.schedulerRuns.filter (·.recoveryOfRunId = some originalRunId)).insertionSort
      fun a b => b.startedAt.getD 0 ≤ a.startedAt.getD 0).find? isActiveRecovery

def reactivateSchedulerRun (jobName : JobName) (scheduledFor startedAt : Time) : Query Unit :=
  updateSchedulerRun jobName scheduledFor fun r =>
    { r with status := .running, error := none, startedAt := some startedAt, completedAt := none }

def markRunResolved (originalRunId recoveryRunId : Id) : Query Unit :=
  execute fun db => { db with schedulerRuns := db.schedulerRuns.map fun r =>
    if r.runId = originalRunId ∧ r.resolvedByRunId = none
    then { r with resolvedByRunId := some recoveryRunId } else r }

def deleteSchedulerRunIfRunning (jobName : JobName) (scheduledFor : Time) : Query Unit :=
  execute fun db => { db with schedulerRuns := db.schedulerRuns.filter fun r =>
    !(isRun jobName scheduledFor r && decide (r.status = .running ∧ r.completedAt = none)) }

end SchedulerRuns

end TradingBot.Paper.Repository
