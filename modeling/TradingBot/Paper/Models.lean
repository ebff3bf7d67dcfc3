import TradingBot.Exceptions
import TradingBot.Strategy.Models
import Mathlib.Tactic.NormNum

namespace TradingBot.Paper.Models

open Market.Models Strategy.Models Exceptions

inductive RuntimeStatus
  | stopped | starting | recovering | syncing | ready | degraded | paused | killed
  | shuttingDown | failed
deriving DecidableEq, Repr

inductive TradeIntentStatus
  | created | approved | scheduled | submittedToPaperEngine | partiallyFilled | filled
  | cancelled | rejected | expired | failed
deriving DecidableEq, Repr

def TradeIntentStatus.value : TradeIntentStatus → String
  | .created => "CREATED"
  | .approved => "APPROVED"
  | .scheduled => "SCHEDULED"
  | .submittedToPaperEngine => "SUBMITTED_TO_PAPER_ENGINE"
  | .partiallyFilled => "PARTIALLY_FILLED"
  | .filled => "FILLED"
  | .cancelled => "CANCELLED"
  | .rejected => "REJECTED"
  | .expired => "EXPIRED"
  | .failed => "FAILED"

inductive PaperOrderStatus
  | pending | open_ | partiallyFilled | filled | cancelled | rejected | expired
deriving DecidableEq, Repr

inductive PaperPositionStatus
  | open_ | closing | closed
deriving DecidableEq, Repr

inductive PaperFillKind
  | entry | exit
deriving DecidableEq, Repr

inductive SchedulerRunStatus
  | pending | running | completed | failed | skipped
deriving DecidableEq, Repr

structure PaperTradingConfig where
  paperInitialEquity : Decimal := 100000
  paperFeeRate : Decimal := 5 / 10000
  paperSlippageBps : Decimal := 5
  paperMaxLeverage : Decimal := 2
  evaluationDelaySeconds : ℕ := 5
  fillDelaySeconds : ℕ := 0
  heartbeatIntervalSeconds : ℕ := 30
  staleRuntimeThresholdSeconds : ℕ := 300
  schedulerEnabled : Bool := true
  symbols : List Symbol := [.BTC, .ETH, .SOL]
  initialEquity_pos : 0 < paperInitialEquity := by norm_num
  feeRate_mem : 0 ≤ paperFeeRate ∧ paperFeeRate ≤ 1 / 100 := by norm_num
  slippageBps_mem : 0 ≤ paperSlippageBps ∧ paperSlippageBps ≤ 100 := by norm_num
  maxLeverage_mem : 0 < paperMaxLeverage ∧ paperMaxLeverage ≤ 2 := by norm_num
  heartbeatInterval_pos : 0 < heartbeatIntervalSeconds := by norm_num
  staleThreshold_gt : heartbeatIntervalSeconds < staleRuntimeThresholdSeconds := by norm_num
  symbols_nodup : symbols.Nodup := by decide

abbrev PaperTradingConfig.defaults : PaperTradingConfig := {}

/-- Identifiers are drawn from a supply, as `uuid4` draws them: no value comes up twice. -/
abbrev Id := ℕ

structure RuntimeState where
  status : RuntimeStatus
  lastError : Option String := none
  startedAt : Option Time := none
  heartbeatAt : Time
  killSwitch : Bool := false
  paused : Bool := false
  version : ℕ := 1
deriving DecidableEq, Repr

/-- The audit row that every change of the runtime status writes. -/
structure StatusChange where
  previous : RuntimeStatus
  current : RuntimeStatus
deriving DecidableEq, Repr

/-- What the stored evaluation keeps of the strategy's result, as its JSON columns do. -/
structure StrategyEvaluationRecord where
  evaluationId : Id
  symbol : Symbol
  evaluationTime : Time
  dailyCandleOpenTime : Time
  weeklyCandleKey : Time
  monthlyCandleKey : Time
  strategyVersion : String
  result : StrategyEvaluation
  createdAt : Time
deriving DecidableEq, Repr

structure IntentKey where
  symbol : Symbol
  strategyVersion : String
  signalSeconds : ℤ
  entryType : EntryType
deriving DecidableEq, Repr

/-- The JSON stored with a cancelled or rejected intent. -/
structure RejectionReason where
  reasonCodes : List String
  detail : Option String := none
deriving DecidableEq, Repr

structure TradeIntent where
  intentId : Id
  idempotencyKey : IntentKey
  symbol : Symbol
  signalType : EntryType
  signalTime : Time
  scheduledFillTime : Time
  requestedEntry : Decimal
  requestedStop : Decimal
  approvedQuantity : Option Decimal := none
  status : TradeIntentStatus
  strategyEvaluationId : Id
  rejectionReason : Option RejectionReason := none
  createdAt : Time
deriving DecidableEq, Repr

structure PaperOrder where
  paperOrderId : Id
  intentId : Id
  symbol : Symbol
  requestedQuantity : Decimal
  remainingQuantity : Decimal
  expectedFillTime : Time
  status : PaperOrderStatus
  createdAt : Time
deriving DecidableEq, Repr

/-- The deterministic keys of fills: `order:candle:sequence` and `exit:position:time`. -/
inductive FillKey
  | entry (paperOrderId : Id) (seconds : ℤ) (sequence : ℕ)
  | exit (positionId : Id) (seconds : ℤ)
deriving DecidableEq, Repr

structure PaperFill where
  fillId : Id
  paperOrderId : Option Id
  positionId : Option Id
  fillKind : PaperFillKind
  symbol : Symbol
  quantity : Decimal
  marketOpenPrice : Decimal
  slippage : Decimal
  fillPrice : Decimal
  fee : Decimal
  fillTime : Time
  candleKey : Time
  fillSequence : ℕ := 0
  deterministicFillKey : FillKey
deriving DecidableEq, Repr

structure PaperPosition where
  positionId : Id
  symbol : Symbol
  status : PaperPositionStatus
  quantity : Decimal
  averageEntryPrice : Decimal
  initialStop : Decimal
  currentStop : Decimal
  highestCloseSinceEntry : Decimal
  entryAtr14 : Decimal
  realizedPnl : Decimal := 0
  unrealizedPnl : Decimal := 0
  marginReserved : Decimal
  entryIntentId : Id
  openedAt : Time
  closedAt : Option Time := none
  version : ℕ := 1
deriving DecidableEq, Repr

structure PositionStopEvent where
  stopEventId : Id
  positionId : Id
  previousStop : Decimal
  newStop : Decimal
  highestClose : Decimal
  atr : Decimal
  evaluationTime : Time
  reason : String := "TRAILING_UPDATE"
deriving DecidableEq, Repr

structure PortfolioSnapshot where
  snapshotId : Id
  evaluationTime : Time
  cash : Decimal
  marginUsed : Decimal
  equity : Decimal
  unrealizedPnl : Decimal
  realizedPnl : Decimal
  totalOpenRisk : Decimal
  openPositionCount : ℕ
  event : String
deriving DecidableEq, Repr

structure FundingEventRecord where
  fundingEventId : Id
  positionId : Id
  symbol : Symbol
  amount : Decimal
  fundingTime : Time
  deterministicKey : String
deriving DecidableEq, Repr

/-- A run that repeats a failed one is stored under a recovery name. -/
structure SchedulerRun where
  runId : Id
  jobName : JobName
  scheduledFor : Time
  startedAt : Option Time := none
  completedAt : Option Time := none
  status : SchedulerRunStatus
  error : Option String := none
  recoveryOfRunId : Option Id := none
  resolvedByRunId : Option Id := none
  recovery_name : recoveryOfRunId.isSome → jobName.isRecovery := by simp
deriving DecidableEq, Repr

structure PaperWalletState where
  cash : Decimal
  totalRealizedPnl : Decimal := 0
  totalFees : Decimal := 0
  totalFunding : Decimal := 0
  totalSlippage : Decimal := 0
  version : ℕ := 1
deriving DecidableEq, Repr

/-- The work of one job that was done for a symbol with the symbol's own context. The program does not
keep this; it is recorded to say which work was done. -/
structure WorkEntry where
  job : SchedulerJobName
  scheduledFor : Time
  symbol : Symbol
deriving DecidableEq, Repr

structure Db where
  runtimeState : Option RuntimeState := none
  wallet : Option PaperWalletState := none
  evaluations : List StrategyEvaluationRecord := []
  intents : List TradeIntent := []
  orders : List PaperOrder := []
  fills : List PaperFill := []
  positions : List PaperPosition := []
  stopHistory : List PositionStopEvent := []
  snapshots : List PortfolioSnapshot := []
  fundingEvents : List FundingEventRecord := []
  schedulerRuns : List SchedulerRun := []
  statusChanges : List StatusChange := []
  work : List WorkEntry := []
  nextId : Id := 0
deriving DecidableEq, Repr

end TradingBot.Paper.Models
