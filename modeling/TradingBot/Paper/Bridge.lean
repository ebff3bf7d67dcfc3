import TradingBot.Paper.MarketEvents
import TradingBot.Paper.Scheduler

namespace TradingBot.Paper.Bridge

open Market.Models Exceptions Library.Transaction Paper.Models Paper.Repository Paper.MarketEvents
open Paper.SchedulerContext Paper.Scheduler Paper.Scheduler.PaperTradingScheduler

structure EventProcessOutcome where
  event : MarketEvent
  jobName : JobName
  status : SchedulerRunStatus
  skipped : Bool
  error : Option String := none
  deferred : Bool := false
  retryable : Bool := false
  terminalFailed : Bool := false
deriving DecidableEq, Repr

/-- A repetition of a failed run that the operator allowed. -/
structure RecoveryContext where
  originalRunId : Id
  recoveryJobName : JobName
  recoveryRunId : Id

structure MarketEventBridge where
  scheduler : PaperTradingScheduler
  builder : ContextBuilder
  lowDigest : Decimal → ℕ
  recoveryPending : Option { c : RecoveryContext // c.recoveryJobName.isRecovery } := none

section Names

def errorCode : Exc → String
  | .retryableContextNotReady _ => "RETRYABLE_CONTEXT_NOT_READY"
  | .retryableSchedulerDeferred _ => "RETRYABLE_SCHEDULER_DEFERRED"
  | .fillNotDue => "FILL_NOT_DUE"
  | .dailyEvaluationNotDue => "DAILY_EVALUATION_NOT_DUE"
  | .permanentConfigurationFailure code _ => code
  | e => e.str

def dailyOpenGapJobName (symbol : Symbol) (openTime : Time) : JobName :=
  .dailyOpenGap symbol (wholeSeconds openTime)

def dailyOpenFillJobName (symbol : Symbol) (openTime : Time) : JobName :=
  .dailyOpenFill symbol (wholeSeconds openTime)

def dailyOpenSnapshotJobName (symbol : Symbol) (openTime : Time) : JobName :=
  .dailyOpenSnapshot symbol (wholeSeconds openTime)

def marketEventJobName (lowDigest : Decimal → ℕ) (e : MarketEvent) : JobName :=
  match e.eventType with
  | .dailyLiveUpdate => .dailyLive e.symbol (wholeSeconds e.candleOpenTime) (lowDigest (e.observedLow.getD 0))
  | type => .marketEvent type e.symbol (wholeSeconds e.candleOpenTime)

def shouldAck (o : EventProcessOutcome) : Bool := o.status = .completed ∧ !o.deferred ∧ !o.retryable

end Names

namespace MarketEventBridge

variable (b : MarketEventBridge)

def jobName (e : MarketEvent) : JobName := marketEventJobName b.lowDigest e

section Runs

variable (jobName : JobName) (scheduledFor : Time)

def ensureSchedulerRun : Query (SchedulerRun × Bool) := do
  let runId ← newId
  scope (insertOrGetSchedulerRun (runRow scheduledFor runId jobName (b.scheduler.now .eventStarted)))

def completeMarketEvent (status : SchedulerRunStatus) (error : Option String) : Query Unit :=
  scope do
    let _ ← completeSchedulerRun jobName scheduledFor status (b.scheduler.now .eventCompleted) error
    pure ()

/-- A recovery attempt is put aside, another run that is still running is forgotten. -/
def releaseUncommittedSchedulerRun (code : String) : Query Unit := do
  match ← getSchedulerRun jobName scheduledFor with
  | none => pure ()
  | some existing =>
    if existing.recoveryOfRunId.isSome then
      b.completeMarketEvent jobName scheduledFor .skipped (some code)
    else scope (deleteSchedulerRunIfRunning jobName scheduledFor)

def persistedOutcome (e : MarketEvent) (skipped : Bool) : Query EventProcessOutcome := do
  match ← getSchedulerRun jobName scheduledFor with
  | none => raise (.runtimeError "scheduler run missing after processing")
  | some run => pure { event := e, jobName, status := run.status, skipped, error := run.error }

def deferredOutcome (e : MarketEvent) (error : Exc) (release : JobName) : Query EventProcessOutcome := do
  b.releaseUncommittedSchedulerRun release e.scheduledFor (errorCode error)
  pure { event := e, jobName := b.jobName e, status := .skipped, skipped := true
         error := some (errorCode error), deferred := true, retryable := true }

def completedSkipped (e : MarketEvent) : EventProcessOutcome :=
  { event := e, jobName, status := .completed, skipped := true }

def markPermanentFailure (e : MarketEvent) (code : String) : Query EventProcessOutcome := do
  b.completeMarketEvent jobName scheduledFor .failed (some code)
  pure { event := e, jobName, status := .failed, skipped := false, error := some code
         terminalFailed := true }

end Runs

section Recovery

/-- What the bridge remembers, else the active attempt in the database. -/
def activeRecoveryContext (jobName : JobName) (scheduledFor : Time) : Query (Option RecoveryContext) := do
  match b.recoveryPending with
  | some pending => pure (some pending.1)
  | none =>
    match ← getSchedulerRun jobName scheduledFor with
    | none => pure none
    | some existing => do
      let attempt ← getActiveRecoveryAttempt existing.runId
      pure (attempt.map fun a => ⟨existing.runId, a.jobName, a.runId⟩)

def maybeShortCircuitPermanentFailure (e : MarketEvent) (jobName : JobName) (scheduledFor : Time) :
    Query (Option EventProcessOutcome) := do
  match ← getSchedulerRun jobName scheduledFor with
  | none => pure none
  | some existing =>
    if existing.status ≠ .failed ∨ !isPermanentConfigurationError existing.error ∨
        existing.resolvedByRunId.isSome then pure none
    else do
      let recovery ← b.activeRecoveryContext jobName scheduledFor
      if recovery.isSome then pure none
      else pure (some { event := e, jobName, status := .failed, skipped := true, error := existing.error
                        terminalFailed := true })

def reactivateRecoveryAttempt (recoveryJob : JobName) (scheduledFor : Time) : Query Unit := do
  match ← getSchedulerRun recoveryJob scheduledFor with
  | none => do
    let _ ← b.ensureSchedulerRun recoveryJob scheduledFor
    pure ()
  | some existing =>
    if existing.status = .skipped ∧ isRetryableMarketEventError existing.error then
      scope (reactivateSchedulerRun recoveryJob scheduledFor (b.scheduler.now .eventStarted))
    else if existing.status ≠ .running then do
      let _ ← b.ensureSchedulerRun recoveryJob scheduledFor
      pure ()
    else pure ()

end Recovery

section Open

def failDailyOpenParent (parentJob : JobName) (scheduledFor : Time) (error : String) : Query Unit := do
  let existing ← getSchedulerRun parentJob scheduledFor
  if existing.any (·.status = .completed) then pure ()
  else do
    if existing.isNone then do
      let _ ← b.ensureSchedulerRun parentJob scheduledFor
      pure ()
    b.completeMarketEvent parentJob scheduledFor .failed (some error)

def persistDailyOpenFailureAudit (parentJob : JobName) (scheduledFor : Time) (subjob : JobName)
    (message : String) : Query Unit := do
  b.failDailyOpenParent parentJob scheduledFor message
  if subjob ≠ parentJob then do
    let existing ← getSchedulerRun subjob scheduledFor
    if existing.isNone then do
      let _ ← b.ensureSchedulerRun subjob scheduledFor
      pure ()
    b.completeMarketEvent subjob scheduledFor .failed (some message)

def subjobBody (job : JobName) (scheduledFor : Time) (runner : Query (List JobRunOutcome)) :
    Query Unit := do
  let outcomes ← runner
  ofExcept (requireSuccessfulJobs outcomes)
  if outcomes.all isTerminalJobSuccess then b.completeMarketEvent job scheduledFor .completed none
  else raise (.retryableSchedulerDeferred "scheduler_subjob_not_completed")

def runOpenSubjob (job : JobName) (scheduledFor : Time) (runner : Query (List JobRunOutcome)) :
    Query Unit := do
  let existing ← getSchedulerRun job scheduledFor
  if existing.any (·.status = .completed) then pure ()
  else do
    let _ ← b.ensureSchedulerRun job scheduledFor
    let result ← attempt (b.subjobBody job scheduledFor runner)
    match result with
    | .ok _ => pure ()
    | .error (.retryableSchedulerDeferred m) => do
      b.releaseUncommittedSchedulerRun job scheduledFor "RETRYABLE_SCHEDULER_DEFERRED"
      raise (.retryableSchedulerDeferred m)
    | .error (.dailyOpenSequenceFailure subjob m) => raise (.dailyOpenSequenceFailure subjob m)
    | .error e => raise (.dailyOpenSequenceFailure job e.str)

def latestDaily (symbol : Symbol) : Option Candle := b.builder.candles.getLatest symbol .daily

def candleFor (e : MarketEvent) (message : String) : Query Candle :=
  match b.latestDaily e.symbol with
  | none => raise (.retryableContextNotReady message)
  | some candle =>
    if candle.openTime ≠ e.candleOpenTime then raise (.retryableContextNotReady message) else pure candle

def handleDailyOpen (e : MarketEvent) : Query Unit := do
  let candle ← b.candleFor e "daily open candle missing at processing time"
  let (fill, stop) ← b.builder.buildOpenContexts e.symbol candle
  let ctx : JobContexts := { fill, stop := some stop }
  let t := e.candleOpenTime
  scope (b.runOpenSubjob (dailyOpenGapJobName e.symbol t) t (b.scheduler.runDailyOpenGapStop ctx t))
  if b.scheduler.now .fillPhase < t + b.scheduler.config.fillDelaySeconds * second then raise .fillNotDue
  else scope do
    b.runOpenSubjob (dailyOpenFillJobName e.symbol t) t (b.scheduler.runDailyOpenFill ctx t)
    b.runOpenSubjob (dailyOpenSnapshotJobName e.symbol t) t (b.scheduler.runDailyOpenSnapshot ctx t)

def isCompleted (jobName : JobName) (scheduledFor : Time) : Query Bool := do
  let run ← getSchedulerRun jobName scheduledFor
  pure (run.any (·.status = .completed))

/-- With or without a fill delay, all three subjobs have to be completed. -/
def dailyOpenTerminalComplete (symbol : Symbol) (scheduledFor : Time) : Query Bool := do
  let gap ← isCompleted (dailyOpenGapJobName symbol scheduledFor) scheduledFor
  let fill ← isCompleted (dailyOpenFillJobName symbol scheduledFor) scheduledFor
  let snap ← isCompleted (dailyOpenSnapshotJobName symbol scheduledFor) scheduledFor
  pure (gap && fill && snap)

def ensureParentRunCompleted (jobName : JobName) (scheduledFor : Time) : Query Unit := do
  let existing ← getSchedulerRun jobName scheduledFor
  if existing.any (·.status = .completed) then pure ()
  else do
    if existing.isNone then do
      let _ ← b.ensureSchedulerRun jobName scheduledFor
      pure ()
    b.completeMarketEvent jobName scheduledFor .completed none

def recoveryFailed (e : MarketEvent) (recovery : RecoveryContext) (error : String) (terminal : Bool) :
    Query EventProcessOutcome := do
  b.completeMarketEvent recovery.recoveryJobName e.scheduledFor .failed (some error)
  pure { event := e, jobName := b.jobName e, status := .failed, skipped := false, error := some error
         terminalFailed := terminal }

def processDailyOpenRecovery (e : MarketEvent) (recovery : RecoveryContext) :
    Query EventProcessOutcome := do
  b.reactivateRecoveryAttempt recovery.recoveryJobName e.scheduledFor
  let result ← attempt (do
    b.handleDailyOpen e
    b.completeMarketEvent recovery.recoveryJobName e.scheduledFor .completed none
    markRunResolved recovery.originalRunId recovery.recoveryRunId)
  match result with
  | .ok _ => pure { event := e, jobName := b.jobName e, status := .completed, skipped := false }
  | .error .fillNotDue => b.deferredOutcome e .fillNotDue recovery.recoveryJobName
  | .error (.retryableContextNotReady m) =>
    b.deferredOutcome e (.retryableContextNotReady m) recovery.recoveryJobName
  | .error (.retryableSchedulerDeferred m) =>
    b.deferredOutcome e (.retryableSchedulerDeferred m) recovery.recoveryJobName
  | .error (.permanentConfigurationFailure code _) => b.recoveryFailed e recovery code true
  | .error (.dailyOpenSequenceFailure _ m) => b.recoveryFailed e recovery m false
  | .error exc => b.recoveryFailed e recovery exc.str false

/-- The open for the first time, or again after it was put off. -/
def runDailyOpen (e : MarketEvent) : Query EventProcessOutcome := do
  let _ ← b.ensureSchedulerRun (b.jobName e) e.scheduledFor
  let result ← attempt (do
    b.handleDailyOpen e
    b.completeMarketEvent (b.jobName e) e.scheduledFor .completed none
    persistedOutcome (b.jobName e) e.scheduledFor e false)
  match result with
  | .ok outcome => pure outcome
  | .error .fillNotDue => b.deferredOutcome e .fillNotDue (b.jobName e)
  | .error (.retryableContextNotReady m) =>
    b.deferredOutcome e (.retryableContextNotReady m) (b.jobName e)
  | .error (.retryableSchedulerDeferred m) =>
    b.deferredOutcome e (.retryableSchedulerDeferred m) (b.jobName e)
  | .error (.permanentConfigurationFailure code _) =>
    b.markPermanentFailure (b.jobName e) e.scheduledFor e code
  | .error (.dailyOpenSequenceFailure subjob m) => do
    b.persistDailyOpenFailureAudit (b.jobName e) e.scheduledFor subjob m
    persistedOutcome (b.jobName e) e.scheduledFor e false
  | .error exc => do
    b.persistDailyOpenFailureAudit (b.jobName e) e.scheduledFor (b.jobName e) exc.str
    persistedOutcome (b.jobName e) e.scheduledFor e false

def processDailyOpen (e : MarketEvent) : Query EventProcessOutcome := do
  match ← b.maybeShortCircuitPermanentFailure e (b.jobName e) e.scheduledFor with
  | some outcome => pure outcome
  | none =>
    match ← b.activeRecoveryContext (b.jobName e) e.scheduledFor with
    | some recovery => b.processDailyOpenRecovery e recovery
    | none => do
      if ← dailyOpenTerminalComplete e.symbol e.scheduledFor then do
        b.ensureParentRunCompleted (b.jobName e) e.scheduledFor
        persistedOutcome (b.jobName e) e.scheduledFor e true
      else b.runDailyOpen e

end Open

section LiveAndClose

def handleDailyLive (e : MarketEvent) : Query Unit := do
  let candle ← b.candleFor e "daily live candle missing at processing time"
  let stop ← b.builder.buildIntradayStopContext e.symbol
    { candle with low := e.observedLow.getD candle.low }
  let outcome ← b.scheduler.runJob { stop := some stop } e.candleOpenTime .intradayStopProcessing
  if outcome.status = .failed then
    raise (.runtimeError (textOr outcome.error "intraday stop processing failed"))
  else ofExcept (requireSuccessfulJobs [outcome])

def handleDailyClosed (e : MarketEvent) : Query Unit := do
  let candle ← b.candleFor e "daily closed candle missing at processing time"
  let due := candle.closeTime + b.scheduler.config.evaluationDelaySeconds * second
  if b.scheduler.now .closeDue < due then raise .dailyEvaluationNotDue
  else do
    let evaluation ← b.builder.buildEvaluationContext e.symbol due
    let stop ← b.builder.buildStopContextForClose e.symbol due
    let outcomes ← b.scheduler.runDailyCloseSequence
      { evaluation := Backtester.Lifecycle.BySymbol.single e.symbol evaluation, stop := some stop }
      candle.closeTime
    ofExcept (requireSuccessfulJobs outcomes)

def completeMarkerEvent (e : MarketEvent) : Query EventProcessOutcome := do
  let (run, created) ← b.ensureSchedulerRun (b.jobName e) e.scheduledFor
  if !created && decide (run.status = .completed) then pure (completedSkipped (b.jobName e) e)
  else do
    b.completeMarketEvent (b.jobName e) e.scheduledFor .completed none
    persistedOutcome (b.jobName e) e.scheduledFor e (!created)

/-- The handler of a live update or a close and what is stored after it. -/
def runEvent (e : MarketEvent) (handle : Query Unit) : Query EventProcessOutcome := do
  let result ← attempt (do
    handle
    b.completeMarketEvent (b.jobName e) e.scheduledFor .completed none
    persistedOutcome (b.jobName e) e.scheduledFor e false)
  match result with
  | .ok outcome => pure outcome
  | .error (.retryableContextNotReady m) =>
    b.deferredOutcome e (.retryableContextNotReady m) (b.jobName e)
  | .error (.retryableSchedulerDeferred m) =>
    b.deferredOutcome e (.retryableSchedulerDeferred m) (b.jobName e)
  | .error .dailyEvaluationNotDue => b.deferredOutcome e .dailyEvaluationNotDue (b.jobName e)
  | .error (.permanentConfigurationFailure code _) =>
    b.markPermanentFailure (b.jobName e) e.scheduledFor e code
  | .error exc => do
    b.completeMarketEvent (b.jobName e) e.scheduledFor .failed (some exc.str)
    persistedOutcome (b.jobName e) e.scheduledFor e false

def processLiveOrClosed (e : MarketEvent) (handle : Query Unit) : Query EventProcessOutcome := do
  let (run, created) ← b.ensureSchedulerRun (b.jobName e) e.scheduledFor
  if !created && decide (run.status = .completed) then pure (completedSkipped (b.jobName e) e)
  else b.runEvent e handle

def processEvent (e : MarketEvent) : Query EventProcessOutcome := do
  if e.eventType = .dailyLiveUpdate ∧ e.observedLow = none then raise .assertionError
  else if e.eventType = .dailyOpenAvailable then b.processDailyOpen e
  else
    match ← b.maybeShortCircuitPermanentFailure e (b.jobName e) e.scheduledFor with
    | some outcome => pure outcome
    | none => do
      if ← isCompleted (b.jobName e) e.scheduledFor then pure (completedSkipped (b.jobName e) e)
      else
        match e.eventType with
        | .weeklyClosed | .monthlyClosed => b.completeMarkerEvent e
        | .dailyLiveUpdate => b.processLiveOrClosed e (b.handleDailyLive e)
        | .dailyClosed => b.processLiveOrClosed e (b.handleDailyClosed e)
        | .dailyOpenAvailable => raise (.valueError "unsupported event")

end LiveAndClose

end MarketEventBridge

end TradingBot.Paper.Bridge

namespace TradingBot.Paper.Polls

open Exceptions Library.Transaction Paper.Models Paper.Repository Paper.MarketEvents Paper.Bridge

abbrev Turn := MarketEventBridge × MarketEvent

/-- A poll: its turns, which of its writes fail, and whether its commit goes through. -/
structure Poll where
  turns : List Turn
  faults : List Bool := []
  commits : Bool := true

def eventsToAck (outcomes : List (MarketEvent × EventProcessOutcome)) : List MarketEvent :=
  (outcomes.filter fun o => shouldAck o.2).map (·.1)

def takeTurn (turn : Turn) : Query (MarketEvent × EventProcessOutcome) := do
  let outcome ← turn.1.processEvent turn.2
  pure (turn.2, outcome)

/-- The events of a poll are one transaction: an exception or a failed commit undoes all of them. -/
def Poll.process (p : Poll) : Query (List MarketEvent) :=
  scope do
    let outcomes ← forEach p.turns takeTurn
    if p.commits then pure (eventsToAck outcomes) else raise .databaseError

/-- The events are acknowledged only after the commit. -/
def Poll.run (p : Poll) (db : Db) : List MarketEvent × Db :=
  match p.process ⟨db, p.faults⟩ with
  | (.ok acked, s) => (acked, s.db)
  | (.error _, s) => ([], s.db)

/-- The events acknowledged in a row of polls and the tables after them. -/
def runPolls : Db → List Poll → List MarketEvent × Db
  | db, [] => ([], db)
  | db, p :: ps =>
    let (acked, db') := p.run db
    let (later, final) := runPolls db' ps
    (acked ++ later, final)

section Conditions

def AtTurns (condition : Turn → Db → Prop) : List Turn → Session Db → Prop
  | [], _ => True
  | turn :: turns, s => condition turn s.db ∧
    ∀ o s', takeTurn turn s = (.ok o, s') → AtTurns condition turns s'

def AtPolls (condition : Turn → Db → Prop) : Db → List Poll → Prop
  | _, [] => True
  | db, p :: ps => AtTurns condition p.turns ⟨db, p.faults⟩ ∧ AtPolls condition (p.run db).2 ps

end Conditions

end TradingBot.Paper.Polls
