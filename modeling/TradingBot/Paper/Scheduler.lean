import TradingBot.Paper.Runtime
import TradingBot.Paper.SchedulerContext

namespace TradingBot.Paper.Scheduler

open Market.Models Exceptions Backtester.Lifecycle Library.Transaction Paper.Models Paper.Repository
open Paper.Stops Paper.Execution Paper.Lifecycle Paper.Runtime Paper.SchedulerContext

structure JobRunOutcome where
  job : SchedulerJobName
  scheduledFor : Time
  status : SchedulerRunStatus
  skipped : Bool
  error : Option String := none
deriving DecidableEq, Repr

/-- The places that ask the clock while one event is processed. -/
inductive ClockSite
  | jobStarted | jobCompleted | evaluationDue | processTime | authorization
  | eventStarted | eventCompleted | fillPhase | closeDue

/-- The scheduler, with what its clock, its lock and the readiness callback answer during one event. -/
structure PaperTradingScheduler where
  config : PaperTradingConfig
  risk : RiskEngine IntentKey
  jobsEnabled : Bool := true
  lockAcquired : Bool := true
  now : ClockSite → Time
  marketDataReady : ℕ → Bool

/-- The contexts registered for the jobs of one event; a job reads only what its event registered. -/
structure JobContexts where
  evaluation : BySymbol EvaluationContext := fun _ => none
  fill : BySymbol FillProcessingContext := fun _ => none
  stop : Option StopContext := none

section Journal

def recordWork (job : SchedulerJobName) (scheduledFor : Time) (symbols : List Symbol) : Query Unit :=
  fun s => (.ok (), { s with db :=
    { s.db with work := s.db.work ++ symbols.map fun symbol => ⟨job, scheduledFor, symbol⟩ } })

def symbolsOf {α : Type} (contexts : BySymbol α) : List Symbol :=
  symbolProcessingOrder.filter fun symbol => (contexts symbol).isSome

end Journal

namespace PaperTradingScheduler

variable (s : PaperTradingScheduler) (ctx : JobContexts) (scheduledFor : Time)

section Handlers

def evaluationTimeFor : Time := scheduledFor + s.config.evaluationDelaySeconds * second

def evaluateForDailyClose (symbol : Symbol) : Query Unit :=
  match ctx.evaluation symbol with
  | none => pure ()
  | some c => do
    let _ ← evaluateSymbolForDailyClose s.config symbol (s.evaluationTimeFor scheduledFor) c
      (s.now .authorization) (s.marketDataReady 0)
    recordWork .dailySignalEvaluation scheduledFor [symbol]

def jobDailySignalEvaluation : Query Unit := do
  let _ ← forEach symbolProcessingOrder (s.evaluateForDailyClose ctx scheduledFor)
  pure ()

def jobNextOpenFillProcessing : Query Unit := do
  let _ ← processScheduledIntentsForOpen s.config s.risk (s.now .processTime) ctx.fill s.marketDataReady
  recordWork .nextOpenFillProcessing scheduledFor (symbolsOf ctx.fill)

def wrongArguments : Exc := .typeError "unexpected or missing keyword arguments"

def jobDailyStopUpdate : Query Unit :=
  match ctx.stop with
  | some (.atClose candles atrs constraints params) => do
    let _ ← updateDailyTrailingStops (s.evaluationTimeFor scheduledFor) candles atrs constraints params
    recordWork .dailyStopUpdate scheduledFor (symbolsOf candles)
  | _ => raise wrongArguments

def jobStopTriggerProcessing : Query Unit :=
  match ctx.stop with
  | some (.atOpen candles constraints) => do
    let _ ← processStopTriggersForDailyCandle s.config (s.now .processTime) candles constraints true
    recordWork .stopTriggerProcessing scheduledFor (symbolsOf candles)
  | _ => raise wrongArguments

def jobIntradayStopProcessing : Query Unit :=
  match ctx.stop with
  | some (.intraday candles constraints) =>
    if symbolsOf candles = [] then raise (.valueError "missing intraday preview_candles context")
    else do
      let _ ← processIntradayStopTriggers s.config (s.now .processTime) candles constraints
      recordWork .intradayStopProcessing scheduledFor (symbolsOf candles)
  | _ => raise (.valueError "missing intraday preview_candles context")

def jobPortfolioSnapshot : Query Unit := do
  let _ ← captureSnapshot (s.evaluationTimeFor scheduledFor) "scheduled_snapshot"
  pure ()

def jobReadinessCheck : Query Unit := do
  let _ ← evaluateReadiness s.config
    { marketDataReady := s.marketDataReady 0, schedulerActive := s.jobsEnabled, now := s.now .processTime }
  pure ()

def jobRuntimeHeartbeat : Query Unit := do
  let _ ← heartbeat (s.now .processTime)
  pure ()

def handler : SchedulerJobName → Query Unit
  | .readinessCheck => s.jobReadinessCheck
  | .dailySignalEvaluation => s.jobDailySignalEvaluation ctx scheduledFor
  | .nextOpenFillProcessing => s.jobNextOpenFillProcessing ctx scheduledFor
  | .dailyStopUpdate => s.jobDailyStopUpdate ctx scheduledFor
  | .stopTriggerProcessing => s.jobStopTriggerProcessing ctx scheduledFor
  | .intradayStopProcessing => s.jobIntradayStopProcessing ctx scheduledFor
  | .fundingProcessing => raise (.runtimeError "funding processing is not implemented in paper trading V1")
  | .portfolioSnapshot => s.jobPortfolioSnapshot scheduledFor
  | .runtimeHeartbeat => s.jobRuntimeHeartbeat

end Handlers

section Runs

def completeRun (job : SchedulerJobName) (status : SchedulerRunStatus) (error : Option String) :
    Query SchedulerRun :=
  scope (completeSchedulerRun (.scheduler job) scheduledFor status (s.now .jobCompleted) error)

/-- `first or second`: an empty text counts as none. -/
def textOr (error : Option String) (default : String) : String :=
  match error with
  | some text => if text = "" then default else text
  | none => default

def persistedJobOutcome (job : SchedulerJobName) (error : Option String) : Query JobRunOutcome := do
  match ← getSchedulerRun (.scheduler job) scheduledFor with
  | some run => pure { job, scheduledFor, status := run.status, skipped := false, error := run.error }
  | none => pure { job, scheduledFor, status := .failed, skipped := false
                   error := some (textOr error "scheduler_run_missing") }

def skippedOutcome (job : SchedulerJobName) (error : String) : JobRunOutcome :=
  { job, scheduledFor, status := .skipped, skipped := true, error := some error }

def runRow (runId : Id) (jobName : JobName) (startedAt : Time) : SchedulerRun :=
  { runId, jobName, scheduledFor, startedAt := some startedAt, status := .running }

/-- The handler and what is stored after it; whatever it raises is stored as a failure. -/
def executeJob (job : SchedulerJobName) : Query JobRunOutcome := do
  let result ← attempt (do
    s.handler ctx scheduledFor job
    let _ ← s.completeRun scheduledFor job .completed none
    persistedJobOutcome scheduledFor job none)
  match result with
  | .ok outcome => pure outcome
  | .error e => do
    let _ ← s.completeRun scheduledFor job .failed (some e.str)
    persistedJobOutcome scheduledFor job (some e.str)

/-- The run is stored as running before its handler is called. -/
def startJob (job : SchedulerJobName) : Query JobRunOutcome := do
  let runId ← newId
  let (run, created) ← scope (insertOrGetSchedulerRun
    (runRow scheduledFor runId (.scheduler job) (s.now .jobStarted)))
  if !created && decide (run.status = .completed) then
    pure { job, scheduledFor, status := .completed, skipped := true }
  else s.executeJob ctx scheduledFor job

def runJob (job : SchedulerJobName) : Query JobRunOutcome := do
  if !s.jobsEnabled && decide (job ≠ .readinessCheck) then
    pure (skippedOutcome scheduledFor job "scheduler_not_ready")
  else do
    let existing ← getSchedulerRun (.scheduler job) scheduledFor
    if existing.any (·.status = .completed) then
      pure { job, scheduledFor, status := .completed, skipped := true }
    else if existing.any (·.status = .running) then
      pure (skippedOutcome scheduledFor job "already_running")
    else s.startJob ctx scheduledFor job

end Runs

section Sequences

def runOpenSubsequence (job : SchedulerJobName) : Query (List JobRunOutcome) :=
  if s.lockAcquired then do
    let outcome ← s.runJob ctx scheduledFor job
    pure [outcome]
  else pure [skippedOutcome scheduledFor job "advisory_lock_not_acquired"]

def runDailyOpenGapStop : Query (List JobRunOutcome) :=
  s.runOpenSubsequence ctx scheduledFor .stopTriggerProcessing

def runDailyOpenFill : Query (List JobRunOutcome) :=
  s.runOpenSubsequence ctx scheduledFor .nextOpenFillProcessing

def runDailyOpenSnapshot : Query (List JobRunOutcome) :=
  s.runOpenSubsequence ctx scheduledFor .portfolioSnapshot

/-- All three jobs run, whatever becomes of the first ones. -/
def runDailyCloseSequence : Query (List JobRunOutcome) :=
  if !s.lockAcquired then
    pure [skippedOutcome scheduledFor .dailySignalEvaluation "advisory_lock_not_acquired"]
  else if s.now .evaluationDue < s.evaluationTimeFor scheduledFor then
    pure [skippedOutcome scheduledFor .dailySignalEvaluation "evaluation_not_due"]
  else forEach [.dailySignalEvaluation, .dailyStopUpdate, .portfolioSnapshot] (s.runJob ctx scheduledFor)

end Sequences

end PaperTradingScheduler

section Outcomes

def retryableSkipErrors : List String :=
  ["advisory_lock_not_acquired", "scheduler_not_ready", "already_running", "fill_not_due",
   "evaluation_not_due"]

def isIdempotentCompleted (o : JobRunOutcome) : Bool :=
  o.status = .completed ∧ o.skipped ∧ o.error = none

def isFreshCompleted (o : JobRunOutcome) : Bool := o.status = .completed ∧ !o.skipped

def isRetryableSkip (o : JobRunOutcome) : Bool := o.skipped && o.error.any (· ∈ retryableSkipErrors)

def isTerminalJobSuccess (o : JobRunOutcome) : Bool := isIdempotentCompleted o || isFreshCompleted o

/-- Raises at the first outcome that failed or was put off. -/
def requireSuccessfulJobs : List JobRunOutcome → Except Exc Unit
  | [] => .ok ()
  | o :: rest =>
    if o.status = .failed then
      .error (.runtimeError (PaperTradingScheduler.textOr o.error "scheduler job failed"))
    else if isRetryableSkip o then
      .error (.retryableSchedulerDeferred (PaperTradingScheduler.textOr o.error "scheduler_deferred"))
    else requireSuccessfulJobs rest

end Outcomes

end TradingBot.Paper.Scheduler
