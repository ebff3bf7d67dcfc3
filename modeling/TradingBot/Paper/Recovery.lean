import TradingBot.Paper.AccountingVerification
import TradingBot.Paper.Runtime

namespace TradingBot.Paper.Recovery

open Market.Models Exceptions Library.Transaction Paper.Models Paper.Repository Paper.Lifecycle
open Paper.AccountingVerification Paper.Runtime Paper.Stops

section Issues

inductive IssueSeverity
  | autoRepairable | manual | fatal
deriving DecidableEq, Repr

inductive IssueCode
  | orphanSchedulerRun | staleRuntimeHeartbeat | multipleOpenPositions | filledIntentWithoutFill
  | filledIntentWithoutStatus | fillWithoutEconomicChain | openOrderWithFill
  | terminalIntentWithoutOrder | positionWithoutEntryIntent | positionWithoutEntryFill
  | closingPositionPendingExit | exitFillWithoutPosition | entryFillWithoutOrder | fillWithoutOrder
  | fillWithoutPosition | currentStopBelowInitial | highestCloseBelowEntry | invalidStopHistory
  | duplicateDeterministicFill | accountingReconciliationMismatch | migrationNotAtHead
deriving DecidableEq, Repr

def IssueCode.value : IssueCode → String
  | .orphanSchedulerRun => "orphan_scheduler_run"
  | .staleRuntimeHeartbeat => "stale_runtime_heartbeat"
  | .multipleOpenPositions => "multiple_open_positions"
  | .filledIntentWithoutFill => "filled_intent_without_fill"
  | .filledIntentWithoutStatus => "filled_intent_without_status"
  | .fillWithoutEconomicChain => "fill_without_economic_chain"
  | .openOrderWithFill => "open_order_with_fill"
  | .terminalIntentWithoutOrder => "terminal_intent_without_order"
  | .positionWithoutEntryIntent => "position_without_entry_intent"
  | .positionWithoutEntryFill => "position_without_entry_fill"
  | .closingPositionPendingExit => "closing_position_pending_exit"
  | .exitFillWithoutPosition => "exit_fill_without_position"
  | .entryFillWithoutOrder => "entry_fill_without_order"
  | .fillWithoutOrder => "fill_without_order"
  | .fillWithoutPosition => "fill_without_position"
  | .currentStopBelowInitial => "current_stop_below_initial"
  | .highestCloseBelowEntry => "highest_close_below_entry"
  | .invalidStopHistory => "invalid_stop_history"
  | .duplicateDeterministicFill => "duplicate_deterministic_fill"
  | .accountingReconciliationMismatch => "accounting_reconciliation_mismatch"
  | .migrationNotAtHead => "migration_not_at_head"

inductive IssueDetails
  | none
  | run (runId : Id) (jobName : JobName)
  | age (seconds : ℤ)
  | openPositions (symbol : Symbol) (count : ℕ)
  | intent (intentId : Id)
  | order (paperOrderId : Id)
  | position (positionId : Id)
  | fill (fillId : Id)
  | stopEvent (stopEventId : Id)
  | fillKey (fillId : Id) (key : FillKey)
  | mismatches (issues : List AccountingIssue)
deriving DecidableEq, Repr

structure ConsistencyIssue where
  code : IssueCode
  severity : IssueSeverity
  message : String
  details : IssueDetails := .none
deriving DecidableEq, Repr

end Issues

section Reads

/-- `scalar_one_or_none` on rows that were read. -/
def oneOrNone {α : Type} : List α → Except Exc (Option α)
  | [] => .ok none
  | [a] => .ok (some a)
  | _ => .error .multipleResultsFound

def orderForIntent (db : Db) (intentId : Id) : Except Exc (Option PaperOrder) :=
  oneOrNone (db.orders.filter (·.intentId = intentId))

def fillsForOrder (db : Db) (paperOrderId : Id) : List PaperFill :=
  (db.fills.filter (·.paperOrderId = some paperOrderId)).insertionSort
    fun a b => a.fillSequence ≤ b.fillSequence

def openPositionFor (db : Db) (symbol : Symbol) : Except Exc (Option PaperPosition) :=
  oneOrNone (db.positions.filter fun p => decide (p.symbol = symbol) && isOpen p)

def fillEconomicChainConsistentForOrder (db : Db) (paperOrderId : Id) : Except Exc Bool :=
  match fillsForOrder db paperOrderId with
  | [] => .ok false
  | fill :: _ =>
    if fill.fillKind ≠ .entry then .ok false
    else match db.orders.find? (·.paperOrderId = paperOrderId) with
    | none => .ok false
    | some order => do
      match ← openPositionFor db fill.symbol with
      | none => pure false
      | some p => pure (decide (p.entryIntentId = order.intentId ∧ p.quantity = fill.quantity ∧
          p.averageEntryPrice = fill.fillPrice) && db.wallet.isSome)

def fillEconomicChainConsistentForIntent (db : Db) (intentId : Id) : Except Exc Bool := do
  match ← orderForIntent db intentId with
  | none => pure false
  | some order => fillEconomicChainConsistentForOrder db order.paperOrderId

end Reads

section Checks

def issueWhen (condition : Bool) (issue : ConsistencyIssue) : List ConsistencyIssue :=
  if condition then [issue] else []

def checkOrphanSchedulerRuns (db : Db) : List ConsistencyIssue :=
  (db.schedulerRuns.filter (·.status = .running)).map fun run =>
    { code := .orphanSchedulerRun, severity := .autoRepairable
      message := "Scheduler run stuck in RUNNING", details := .run run.runId run.jobName }

def checkStaleHeartbeat (config : PaperTradingConfig) (now : Time) (db : Db) : List ConsistencyIssue :=
  match db.runtimeState with
  | none => []
  | some runtime =>
    let age := now - runtime.heartbeatAt
    issueWhen (config.staleRuntimeThresholdSeconds * second < age)
      { code := .staleRuntimeHeartbeat, severity := .autoRepairable
        message := "Runtime heartbeat is stale", details := .age (age / second) }

def checkMultipleOpenPositions (db : Db) : List ConsistencyIssue :=
  let symbols := (db.positions.filter isOpen).map (·.symbol)
  (symbols.eraseDups.filter fun symbol => 1 < symbols.count symbol).map fun symbol =>
    { code := .multipleOpenPositions, severity := .fatal
      message := "Multiple open positions for " ++ symbol.value
      details := .openPositions symbol (symbols.count symbol) }

def filledIntentIssue (intentId : Id) (consistent : Bool) : ConsistencyIssue :=
  if consistent then
    { code := .filledIntentWithoutStatus, severity := .autoRepairable
      message := "Fill exists but intent not terminal", details := .intent intentId }
  else
    { code := .fillWithoutEconomicChain, severity := .fatal
      message := "Fill exists without consistent position/wallet chain", details := .intent intentId }

def openOrderIssue (paperOrderId : Id) (consistent : Bool) : ConsistencyIssue :=
  if consistent then
    { code := .openOrderWithFill, severity := .autoRepairable
      message := "OPEN order has fill rows", details := .order paperOrderId }
  else
    { code := .fillWithoutEconomicChain, severity := .fatal
      message := "OPEN order fill lacks economic chain consistency", details := .order paperOrderId }

def intentFillIssues (db : Db) (intent : TradeIntent) (fills : List PaperFill) :
    Except Exc (List ConsistencyIssue) :=
  if intent.status = .filled ∧ fills = [] then
    .ok [{ code := .filledIntentWithoutFill, severity := .manual
           message := "FILLED intent has no fill row", details := .intent intent.intentId }]
  else if fills ≠ [] ∧ intent.status ∉ terminalIntentStatuses then do
    let consistent ← fillEconomicChainConsistentForIntent db intent.intentId
    pure [filledIntentIssue intent.intentId consistent]
  else .ok []

def openOrderIssues (db : Db) (fills : List PaperFill) : Option PaperOrder →
    Except Exc (List ConsistencyIssue)
  | none => .ok []
  | some order =>
    if order.status = .open_ ∧ fills ≠ [] then do
      let consistent ← fillEconomicChainConsistentForOrder db order.paperOrderId
      pure [openOrderIssue order.paperOrderId consistent]
    else .ok []

def missingOrderIssues (intent : TradeIntent) (order : Option PaperOrder) : List ConsistencyIssue :=
  issueWhen (intent.status ∈ terminalIntentStatuses ∧ intent.status ≠ .filled ∧ order = none ∧
      intent.status ≠ .rejected ∧ intent.status ≠ .cancelled)
    { code := .terminalIntentWithoutOrder, severity := .manual
      message := "Terminal intent missing order", details := .intent intent.intentId }

def checkIntent (db : Db) (intent : TradeIntent) : Except Exc (List ConsistencyIssue) := do
  let order ← orderForIntent db intent.intentId
  let fills := (order.map fun o => fillsForOrder db o.paperOrderId).getD []
  let filled ← intentFillIssues db intent fills
  let opened ← openOrderIssues db fills order
  pure (filled ++ opened ++ missingOrderIssues intent order)

/-- The issues of each row, in the order of the rows. -/
def checkEach {α : Type} (check : α → Except Exc (List ConsistencyIssue)) :
    List α → Except Exc (List ConsistencyIssue)
  | [] => .ok []
  | a :: as => do
    let issues ← check a
    let rest ← checkEach check as
    pure (issues ++ rest)

def checkPosition (db : Db) (p : PaperPosition) : Except Exc (List ConsistencyIssue) := do
  let intent := db.intents.find? (·.intentId = p.entryIntentId)
  let order ← if intent.isSome then orderForIntent db p.entryIntentId else pure none
  let fills := (order.map fun o => fillsForOrder db o.paperOrderId).getD []
  pure (issueWhen (intent.isNone && decide (p.status ≠ .closed))
      { code := .positionWithoutEntryIntent, severity := .fatal
        message := "Open position missing entry intent", details := .position p.positionId } ++
    issueWhen (isOpen p && fills.isEmpty)
      { code := .positionWithoutEntryFill, severity := .fatal
        message := "Position missing entry fill", details := .position p.positionId } ++
    issueWhen (p.status = .closing)
      { code := .closingPositionPendingExit, severity := .manual
        message := "CLOSING position requires exit processing", details := .position p.positionId })

def checkFill (db : Db) (f : PaperFill) : Except Exc (List ConsistencyIssue) :=
  match f.fillKind with
  | .exit => .ok (issueWhen f.positionId.isNone
      { code := .exitFillWithoutPosition, severity := .fatal
        message := "EXIT fill missing position_id", details := .fill f.fillId })
  | .entry =>
    match f.paperOrderId with
    | none => .ok [{ code := .entryFillWithoutOrder, severity := .fatal
                     message := "ENTRY fill missing paper_order_id", details := .fill f.fillId }]
    | some orderId =>
      match db.orders.find? (·.paperOrderId = orderId) with
      | none => .ok [{ code := .fillWithoutOrder, severity := .fatal
                       message := "Fill references missing order", details := .fill f.fillId }]
      | some order => do
        let position ← oneOrNone (db.positions.filter (·.entryIntentId = order.intentId))
        pure (issueWhen (position.isNone && decide (order.status = .filled))
          { code := .fillWithoutPosition, severity := .fatal
            message := "Filled order has no position row", details := .fill f.fillId })

def checkPositionReferences (db : Db) : Except Exc (List ConsistencyIssue) := do
  let positions ← checkEach (checkPosition db) db.positions
  let fills ← checkEach (checkFill db) db.fills
  pure (positions ++ fills)

def stopHistoryIssues (db : Db) (p : PaperPosition) : List ConsistencyIssue :=
  ((db.stopHistory.filter fun e => e.positionId = p.positionId ∧ e.newStop < e.previousStop).insertionSort
    fun a b => a.evaluationTime ≤ b.evaluationTime).map fun e =>
      { code := .invalidStopHistory, severity := .fatal
        message := "Stop history not monotonic", details := .stopEvent e.stopEventId }

def checkStopInvariants (db : Db) : List ConsistencyIssue :=
  db.positions.flatMap fun p =>
    issueWhen (p.currentStop < p.initialStop)
      { code := .currentStopBelowInitial, severity := .fatal
        message := "current_stop < initial_stop", details := .position p.positionId } ++
    issueWhen (p.highestCloseSinceEntry < p.averageEntryPrice)
      { code := .highestCloseBelowEntry, severity := .manual
        message := "highest_close_since_entry below average_entry_price"
        details := .position p.positionId } ++
    stopHistoryIssues db p

def checkDuplicateFills (seen : List FillKey) : List PaperFill → List ConsistencyIssue
  | [] => []
  | f :: fills =>
    issueWhen (f.deterministicFillKey ∈ seen)
      { code := .duplicateDeterministicFill, severity := .fatal
        message := "Duplicate deterministic fill key", details := .fillKey f.fillId f.deterministicFillKey } ++
    checkDuplicateFills (f.deterministicFillKey :: seen) fills

/-- The checks that do not look at the runtime row or the scheduler's runs. -/
def accountIssues (db : Db) : Except Exc (List ConsistencyIssue) := do
  let intents ← checkEach (checkIntent db) db.intents
  let references ← checkPositionReferences db
  pure (checkMultipleOpenPositions db ++ intents ++ references ++ checkStopInvariants db ++
    checkDuplicateFills [] db.fills)

def consistencyIssues (config : PaperTradingConfig) (now : Time) (db : Db) :
    Except Exc (List ConsistencyIssue) := do
  let account ← accountIssues db
  pure (checkOrphanSchedulerRuns db ++ checkStaleHeartbeat config now db ++ account)

def runConsistencyChecks (config : PaperTradingConfig) (now : Time) : Query (List ConsistencyIssue) := do
  let issues ← read (consistencyIssues config now)
  ofExcept issues

def accountingIssue (mismatches : List AccountingIssue) : ConsistencyIssue :=
  { code := .accountingReconciliationMismatch, severity := .manual
    message := "Independent accounting reconciliation failed", details := .mismatches mismatches }

def runAccountingVerification (config : PaperTradingConfig) : Query (Option ConsistencyIssue) := do
  let mismatches ← verifyAccountingIndependent config.paperInitialEquity
  pure (if mismatches = [] then none else some (accountingIssue mismatches))

end Checks

section Repairs

inductive Repair
  | orphanRunsFailed (count : ℕ)
  | orderSetFilled (paperOrderId : Id)
  | intentSetFilled (intentId : Id)
  | heartbeatRefreshed
deriving DecidableEq, Repr

def failOrphanSchedulerRuns (completedAt : Time) : Query ℕ := do
  let count ← read fun db => (db.schedulerRuns.filter (·.status = .running)).length
  execute fun db => { db with schedulerRuns := db.schedulerRuns.map fun r =>
    if r.status = .running then
      { r with status := .failed, completedAt := some completedAt
               error := some "orphan_run_marked_failed_on_recovery" }
    else r }
  pure count

def updateOrderStatus (paperOrderId : Id) (status : PaperOrderStatus) (remainingQuantity : Decimal) :
    Query Unit := do
  execute fun db => { db with orders := db.orders.map fun o =>
    if o.paperOrderId = paperOrderId then { o with status, remainingQuantity } else o }
  let row ← read fun db => db.orders.find? (·.paperOrderId = paperOrderId)
  require row.isSome .assertionError

def repairOrphanRuns (now : Time) : Query (List Repair) := do
  let count ← failOrphanSchedulerRuns now
  pure (if count = 0 then [] else [.orphanRunsFailed count])

def repairOpenOrder (paperOrderId : Id) : Query (List Repair) := do
  let found ← read (fillEconomicChainConsistentForOrder · paperOrderId)
  let consistent ← ofExcept found
  if !consistent then pure []
  else do
    updateOrderStatus paperOrderId .filled 0
    pure [.orderSetFilled paperOrderId]

def repairFilledIntent (intentId : Id) : Query (List Repair) := do
  let found ← read (fillEconomicChainConsistentForIntent · intentId)
  let consistent ← ofExcept found
  if !consistent then pure []
  else do
    let _ ← updateIntentStatus intentId { status := .filled }
    pure [.intentSetFilled intentId]

def repairHeartbeat (now : Time) : Query (List Repair) := do
  match ← getRuntimeState with
  | none => pure []
  | some runtime => do
    let _ ← updateRuntimeState { heartbeatAt := some now } (some runtime.version)
    pure [.heartbeatRefreshed]

def repair (now : Time) (issue : ConsistencyIssue) : Query (List Repair) :=
  if issue.severity ≠ .autoRepairable then pure []
  else match issue.code, issue.details with
  | .orphanSchedulerRun, _ => repairOrphanRuns now
  | .openOrderWithFill, .order paperOrderId => repairOpenOrder paperOrderId
  | .filledIntentWithoutStatus, .intent intentId => repairFilledIntent intentId
  | .staleRuntimeHeartbeat, _ => repairHeartbeat now
  | _, _ => pure []

def applyAutoRepairs (now : Time) (issues : List ConsistencyIssue) : Query (List Repair) :=
  scope do
    let repairs ← forEach issues (repair now)
    pure repairs.flatten

end Repairs

section Startup

/-- The places that ask the clock during a recovery. -/
inductive RecoveryClock
  | firstChecks | repairs | secondChecks | starting | recovering | syncing | outcome | snapshot

structure RecoveryService where
  config : PaperTradingConfig
  now : RecoveryClock → Time
  lockAcquired : Bool := true
  recoveryActive : Bool := false
  migrationAtHead : Except Exc Bool := .ok true

structure RecoveryResult where
  success : Bool
  finalStatus : RuntimeStatus
  issues : List ConsistencyIssue
  repairsApplied : List Repair
  entryReadiness : Bool
deriving DecidableEq, Repr

namespace RecoveryService

variable (r : RecoveryService)

def buildResult (status : RuntimeStatus) (issues : List ConsistencyIssue) (repairs : List Repair) :
    Query RecoveryResult := do
  let runtime ← getState
  pure
    { success := status = .ready ∨ status = .degraded
      finalStatus := status
      issues
      repairsApplied := repairs
      entryReadiness := decide (status = .ready) && !runtime.paused && !runtime.killSwitch }

/-- The failure is written to the runtime row and to the audit log. -/
def failRecovery (code : IssueCode) : Query Unit := do
  let _ ← transition (r.now .outcome) .failed (some code.value)
  let _ ← getState
  scope (flush .databaseError)

def recordAccountingIncident : Query Unit := do
  let _ ← getState
  scope (flush .databaseError)

def checkAndRepair : Query (List ConsistencyIssue × List Repair) := do
  let found ← runConsistencyChecks r.config (r.now .firstChecks)
  let repairs ← applyAutoRepairs (r.now .repairs) found
  let remaining ← runConsistencyChecks r.config (r.now .secondChecks)
  match ← runAccountingVerification r.config with
  | none => pure (remaining, repairs)
  | some issue => do
    recordAccountingIncident
    pure (remaining ++ [issue], repairs)

def firstOf (severity : IssueSeverity) (issues : List ConsistencyIssue) : Option ConsistencyIssue :=
  issues.find? (·.severity = severity)

def recheckReady (marketDataReady : Bool) : Query RecoveryResult := do
  let (issues, repairs) ← r.checkAndRepair
  match firstOf .fatal issues, firstOf .manual issues with
  | some fatal, _ => do
    r.failRecovery fatal.code
    buildResult .failed issues repairs
  | none, some manual => do
    let _ ← transition (r.now .outcome) .degraded (some manual.code.value)
    buildResult .degraded issues repairs
  | none, none =>
    if !marketDataReady then do
      let _ ← transition (r.now .outcome) .degraded (some "market_data_not_ready")
      buildResult .degraded issues repairs
    else buildResult .ready issues repairs

def synchronize (marketDataReady : Bool) (issues : List ConsistencyIssue) (repairs : List Repair) :
    Query RecoveryResult := do
  let _ ← transition (r.now .syncing) .syncing
  if !marketDataReady then do
    let _ ← transition (r.now .outcome) .degraded (some "market_data_not_ready")
    buildResult .degraded issues repairs
  else match firstOf .manual issues with
  | some manual => do
    let _ ← transition (r.now .outcome) .degraded (some manual.code.value)
    buildResult .degraded issues repairs
  | none => do
    let _ ← transition (r.now .outcome) .ready (some "")
    let _ ← captureSnapshot (r.now .snapshot) "recovery"
    buildResult .ready issues repairs

def schemaIssue : ConsistencyIssue :=
  { code := .migrationNotAtHead, severity := .fatal, message := "schema" }

/-- Every other runtime is taken through a recovery, if its status allows one. -/
def recover (status : RuntimeStatus) (marketDataReady : Bool) : Query RecoveryResult := do
  if status = .stopped then do
    let _ ← transition (r.now .starting) .starting
    pure ()
  let _ ← transition (r.now .recovering) .recovering
  let atHead ← ofExcept r.migrationAtHead
  if !atHead then do
    r.failRecovery .migrationNotAtHead
    buildResult .failed [schemaIssue] []
  else do
    let (issues, repairs) ← r.checkAndRepair
    match firstOf .fatal issues with
    | some fatal => do
      r.failRecovery fatal.code
      buildResult .failed issues repairs
    | none => r.synchronize marketDataReady issues repairs

def recoverOnStartup (marketDataReady : Bool) : Query RecoveryResult := do
  if !r.lockAcquired then raise (.runtimeError "advisory lock required for recovery")
  else if r.recoveryActive then raise (.runtimeError "recovery already in progress")
  else do
    scope (flush .databaseError)
    let runtime ← getState
    if runtime.status = .ready then r.recheckReady marketDataReady
    else r.recover runtime.status marketDataReady

end RecoveryService

end Startup

end TradingBot.Paper.Recovery
