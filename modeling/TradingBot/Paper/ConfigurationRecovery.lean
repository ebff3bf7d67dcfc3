import TradingBot.Paper.Bridge
import TradingBot.Paper.Recovery

namespace TradingBot.Paper.ConfigurationRecovery

open Market.Models Exceptions Constraints Library.Transaction Paper.Models Paper.Repository Paper.MarketEvents
open Paper.Bridge Paper.Bridge.MarketEventBridge Paper.Polls Paper.Recovery

section Recover

def marketEventTypeValue : MarketEventType → String
  | .dailyOpenAvailable => "DAILY_OPEN_AVAILABLE"
  | .dailyLiveUpdate => "DAILY_LIVE_UPDATE"
  | .dailyClosed => "DAILY_CLOSED"
  | .weeklyClosed => "WEEKLY_CLOSED"
  | .monthlyClosed => "MONTHLY_CLOSED"

/-- The attempts at repeating a failed run are numbered; live updates have none. -/
def marketEventRecoveryJobName (e : MarketEvent) (generation : ℕ) : Except Exc JobName :=
  if e.eventType = .dailyLiveUpdate then
    .error (.valueError ("recovery not supported for event type: " ++ marketEventTypeValue e.eventType))
  else .ok (.recovery e.eventType e.symbol (wholeSeconds e.candleOpenTime) generation)

/-- The row is stored as running, without any check of an earlier attempt. -/
def createRecoveryAttempt (original : SchedulerRun) (recoveryJobName : { name : JobName // name.isRecovery })
    (startedAt : Time) : Query (SchedulerRun × Bool) := do
  let runId ← newId
  insertOrGetSchedulerRun
    { runId
      jobName := recoveryJobName.1
      scheduledFor := original.scheduledFor
      startedAt := some startedAt
      status := .running
      recoveryOfRunId := some original.runId
      recovery_name := fun _ => recoveryJobName.2 }

def clearTerminalFailed (d : MarketEventDetector) (e : MarketEvent) : Query MarketEventDetector :=
  match (d.trackers e.symbol).clearTerminalFailed e with
  | none => raise (.valueError ("terminal failure clear unsupported for " ++ marketEventTypeValue e.eventType))
  | some tracker => pure (d.setTracker e.symbol tracker)

def recoverPermanentConfiguration (b : MarketEventBridge) (lockHeld : Bool) (d : MarketEventDetector)
    (e : MarketEvent) : Query (MarketEventDetector × RecoveryContext) := do
  if !lockHeld then raise (.runtimeError "advisory lock required for permanent failure recovery")
  else
    match ← getSchedulerRun (b.jobName e) e.scheduledFor with
    | none => raise (.valueError "no recoverable permanent failure")
    | some existing =>
      if existing.status ≠ .failed then raise (.valueError "no recoverable permanent failure")
      else if !isPermanentConfigurationError existing.error then
        raise (.valueError "scheduler run is not a permanent configuration failure")
      else if existing.resolvedByRunId.isSome then raise (.valueError "permanent failure already recovered")
      else do
        let _ ← b.builder.requireValidConstraints e.symbol
        let cleared ← clearTerminalFailed d e
        let attempts ← countRecoveryAttempts existing.runId
        match marketEventRecoveryJobName e (attempts + 1) with
        | .error exc => raise exc
        | .ok name =>
          if h : name.isRecovery then do
            let (attempt, _) ← createRecoveryAttempt existing ⟨name, h⟩ (b.scheduler.now .eventStarted)
            pure (cleared, ⟨existing.runId, name, attempt.runId⟩)
          else raise .assertionError

end Recover

section Worker

abbrev Pending := { c : RecoveryContext // c.recoveryJobName.isRecovery }

/-- The recovery contexts a bridge remembers, by the name and the time of the failed run. -/
abbrev Memory := JobName → Time → Option Pending

def Memory.set (m : Memory) (name : JobName) (t : Time) (p : Option Pending) : Memory :=
  fun name' t' => if name' = name ∧ t' = t then p else m name' t'

def toPending (c : RecoveryContext) : Option Pending :=
  if h : c.recoveryJobName.isRecovery then some ⟨c, h⟩ else none

def consulted (b : MarketEventBridge) (e : MarketEvent) (s : Session Db) : Option Pending :=
  match (b.activeRecoveryContext (b.jobName e) e.scheduledFor s).1 with
  | .ok (some c) => toPending c
  | _ => none

def isPermanentFailure (r : SchedulerRun) : Bool :=
  r.status = .failed ∧ isPermanentConfigurationError r.error ∧ r.resolvedByRunId = none

/-- What the bridge remembers for an event after its turn: an open forgets the attempt that came to an
end, other events only ask for it when their run has failed. -/
def recoveryAfter (b : MarketEventBridge) (e : MarketEvent) (s : Session Db)
    (result : Except Exc (MarketEvent × EventProcessOutcome)) : Option Pending :=
  if e.eventType = .dailyOpenAvailable then
    match result with
    | .ok o => if o.2.deferred then consulted b e s else none
    | .error _ => consulted b e s
  else if (s.db.schedulerRuns.find? (isRun (b.jobName e) e.scheduledFor)).any isPermanentFailure then
    consulted b e s
  else b.recoveryPending

/-- A worker: the tables, and what its bridge remembers between the events. -/
structure Worker where
  db : Db
  memory : Memory

def remembering (m : Memory) (turn : Turn) : MarketEventBridge :=
  { turn.1 with recoveryPending := m (turn.1.jobName turn.2) turn.2.scheduledFor }

def takeTurns (m : Memory) : List Turn → Session Db →
    Except Exc (List (MarketEvent × EventProcessOutcome)) × Memory × Session Db
  | [], s => (.ok [], m, s)
  | turn :: turns, s =>
    let b := remembering m turn
    let result := takeTurn (b, turn.2) s
    let m' := m.set (b.jobName turn.2) turn.2.scheduledFor (recoveryAfter b turn.2 s result.1)
    match result with
    | (.error exc, s') => (.error exc, m', s')
    | (.ok o, s') => match takeTurns m' turns s' with
      | (.ok os, rest) => (.ok (o :: os), rest)
      | (.error exc, rest) => (.error exc, rest)

/-- A poll is one transaction; what the bridge remembers is not part of it. -/
def Worker.poll (w : Worker) (p : Poll) : List MarketEvent × Worker :=
  match takeTurns w.memory p.turns ⟨w.db, p.faults⟩ with
  | (.ok outcomes, m, s) => if p.commits then (eventsToAck outcomes, ⟨s.db, m⟩) else ([], ⟨w.db, m⟩)
  | (.error _, m, _) => ([], ⟨w.db, m⟩)

/-- An operator's call of `recover_permanent_configuration`: it is remembered and committed if it returns. -/
structure RecoverCall where
  bridge : MarketEventBridge
  lockHeld : Bool
  detector : MarketEventDetector
  event : MarketEvent
  faults : List Bool := []

def RecoverCall.result (call : RecoverCall) (db : Db) :
    Except Exc (MarketEventDetector × RecoveryContext) × Session Db :=
  scope (recoverPermanentConfiguration call.bridge call.lockHeld call.detector call.event) ⟨db, call.faults⟩

def Worker.recover (w : Worker) (call : RecoverCall) : Worker :=
  match call.result w.db with
  | (.ok (_, c), s) =>
    ⟨s.db, w.memory.set (call.bridge.jobName call.event) call.event.scheduledFor (toPending c)⟩
  | (.error _, s) => ⟨s.db, w.memory⟩

/-- A control request records a job as completed without running it. -/
def controlRunCycle (job : SchedulerJobName) (scheduledFor : Time) : Query Unit := do
  let runId ← newId
  let _ ← insertOrGetSchedulerRun { runId, jobName := .scheduler job, scheduledFor, status := .completed }
  pure ()

/-- What can happen to a worker. A new process remembers nothing; recovery marks the runs left running as
failed, at startup or on request; whatever else is done leaves the table of runs alone. -/
inductive Action
  | recover (call : RecoverCall)
  | poll (p : Poll)
  | restart
  | failOrphans (completedAt : Time)
  | runCycle (job : SchedulerJobName) (scheduledFor : Time)
  | other (db : Db) (ids : ℕ)

def Worker.step (w : Worker) : Action → List MarketEvent × Worker
  | .recover call => ([], w.recover call)
  | .poll p => w.poll p
  | .restart => ([], { w with memory := fun _ _ => none })
  | .failOrphans t => ([], { w with db := (failOrphanSchedulerRuns t ⟨w.db, []⟩).2.db })
  | .runCycle job t => ([], { w with db := (controlRunCycle job t ⟨w.db, []⟩).2.db })
  | .other db ids =>
    ([], { w with db := { db with schedulerRuns := w.db.schedulerRuns, nextId := w.db.nextId + ids } })

def Worker.run : Worker → List Action → Worker
  | w, [] => w
  | w, action :: actions => (w.step action).2.run actions

end Worker

end TradingBot.Paper.ConfigurationRecovery
