import TradingBot.Paper.EventFairness
import TradingBot.Paper.Recovery

namespace TradingBot.Paper.Application

open Market.Models Exceptions Library.Transaction Paper.Models Paper.Repository Paper.Lifecycle
open Paper.Runtime Paper.Bridge Paper.EventFairness Paper.Recovery

section Worker

/-- The worker between its transactions: the stored rows, and what the process keeps in memory. -/
structure PaperTradingApplication where
  config : PaperTradingConfig
  db : Db
  tables : FairnessTables := {}
  hasEventBridge : Bool := true
  queueOverflow : Bool := false
  deferredEvents : Bool := false
  heartbeatHealthy : Bool := false
  lastLoopError : Option String := none

/-- How an attempt of the heartbeat loop goes: the lock is not held, every retry finds the row locked, or a
session of its own writes the row and another one looks whether the write can be seen. -/
inductive HeartbeatAttempt
  | lockNotHeld
  | retriesExhausted
  | session (now : Time) (faults : List Bool) (visible : Bool)

/-- A pass of the scheduler loop over the market events. `allowed` is whether the loop saw the lock held and
market data ready, `deferredBefore` what an exception leaves in the flag of the bridge. -/
structure PollAttempt where
  allowed : Bool := true
  poll : MarketEventPoll
  faults : List Bool := []
  commits : Bool := true
  deferredBefore : Bool := false

/-- What one round of readiness checks learns from outside the tables. -/
structure Checks where
  databaseReady : Bool := true
  schemaAtHead : Except Unit Bool := .ok true
  lockHeld : Option Bool := some true
  now : Time

structure ReadinessEvaluation where
  marketDataReady : Bool
  schedulerActive : Bool
  recoveryActive : Bool := false
  promotion : Checks
  snapshot : Checks
  now : Time
  faults : List Bool := []
  commits : Bool := true

end Worker

namespace PaperTradingApplication

variable (a : PaperTradingApplication)

section Loops

def bridgeOverflow : Bool := a.hasEventBridge && a.queueOverflow

def bridgeBacklog : Bool := a.hasEventBridge && (a.queueOverflow || a.deferredEvents)

def heartbeatLoop : HeartbeatAttempt → PaperTradingApplication
  | .lockNotHeld => a
  | .retriesExhausted =>
    { a with heartbeatHealthy := false, lastLoopError := some "runtime_heartbeat_lock_timeout" }
  | .session now faults visible =>
    match heartbeat now ⟨a.db, faults⟩ with
    | (.ok _, s) => { a with db := s.db, heartbeatHealthy := visible }
    | (.error _, s) => { a with db := s.db, heartbeatHealthy := false }

def pollTransaction (t : PollAttempt) : Query (BridgePollResult × FairnessTables) :=
  scope do
    let result ← t.poll.processAfterPoll a.tables
    if t.commits then pure result else raise .databaseError

/-- A poll that does not look at the events leaves the flag as it is. -/
def overflowAfter (p : MarketEventPoll) : Bool :=
  if !p.marketDataReady || !p.lockHeld || !p.sessionHealthy then a.queueOverflow
  else decide (p.maxEventsPerPoll < p.candidates.length)

/-- The failed outcomes set the error one after the other, and then the first of them does. -/
def errorAfter (result : BridgePollResult) : Option String :=
  match result.permanentFailures with
  | [] => a.lastLoopError
  | failure :: _ => failure.error

def processCommittedMarketEventPoll (t : PollAttempt) : PaperTradingApplication :=
  if !a.hasEventBridge || !t.allowed || !a.heartbeatHealthy then a
  else match a.pollTransaction t ⟨a.db, t.faults⟩ with
  | (.ok (result, tables), s) =>
    { a with db := s.db, tables
             queueOverflow := a.overflowAfter t.poll
             deferredEvents := result.deferredEvents
             lastLoopError := a.errorAfter result }
  | (.error exc, s) =>
    { a with db := s.db
             queueOverflow := a.overflowAfter t.poll
             deferredEvents := t.deferredBefore
             lastLoopError := some exc.str }

end Loops

section Readiness

def checks (e : ReadinessEvaluation) (c : Checks) : OperationalInputs :=
  { marketDataReady := e.marketDataReady && !a.bridgeOverflow
    databaseReady := c.databaseReady
    schemaAtHead := c.schemaAtHead
    lockHeld := c.lockHeld
    schedulerActive := e.schedulerActive
    recoveryActive := e.recoveryActive
    now := c.now }

def backlogReason : String :=
  if a.hasEventBridge && a.deferredEvents then "deferred_market_events"
  else if a.bridgeOverflow then "event_queue_overflow"
  else "event_backlog"

def loopReason : String := if errorSet a.lastLoopError then a.lastLoopError.getD "" else "not_ready"

def joinReasons (reasons : List String) : String := ",".intercalate reasons

def readinessFailureReason (promotionReasons evaluateReasons : List String) (bridgePermanent : Bool) : String :=
  if !a.heartbeatHealthy then "runtime_heartbeat_unhealthy"
  else if bridgePermanent then "permanent_configuration_failure"
  else if a.bridgeBacklog then a.backlogReason
  else if promotionReasons ≠ [] then joinReasons promotionReasons
  else if evaluateReasons ≠ [] then joinReasons evaluateReasons
  else a.loopReason

/-- Why a ready runtime is degraded. -/
def degradationReason (evaluateReasons : List String) (bridgePermanent : Bool) : String :=
  if bridgePermanent then "permanent_configuration_failure"
  else if a.bridgeBacklog then a.backlogReason
  else if joinReasons evaluateReasons ≠ "" then joinReasons evaluateReasons
  else a.loopReason

def bridgePermanent : Query Bool := do
  let failures ← listPermanentConfigurationFailures
  pure (a.hasEventBridge && !failures.isEmpty)

/-- What is written once both rounds of checks were made. -/
def applyReadiness (now : Time) (bridgePermanent : Bool) (promotion : PromotionReadinessSnapshot)
    (snapshot : ReadinessSnapshot) (state : RuntimeState) : Query Unit := do
  let runtimeReady := snapshot.runtimeReadiness && !a.bridgeBacklog && a.heartbeatHealthy
  let promotionReady := promotion.ready && !a.bridgeBacklog && !bridgePermanent && a.heartbeatHealthy
  if promotionReady ∧ state.status ∈ promotableStatuses then do
    let _ ← transition now .ready (some "")
    pure ()
  else if state.status = .degraded ∧ !promotionReady then do
    let reason := a.readinessFailureReason promotion.reasons snapshot.reasons bridgePermanent
    if reason ≠ "" ∧ state.lastError ≠ some reason then do
      let _ ← transition now .degraded (some reason)
      pure ()
  else if (!runtimeReady || bridgePermanent) ∧ state.status = .ready then do
    let _ ← transition now .degraded (some (a.degradationReason snapshot.reasons bridgePermanent))
    pure ()

def evaluateRuntimeReadiness (e : ReadinessEvaluation) : Query Unit := do
  let permanent ← a.bridgePermanent
  let promotion ← evaluateReadyPromotion a.config (a.checks e e.promotion)
  let snapshot ← evaluateReadiness a.config (a.checks e e.snapshot)
  let state ← getState
  a.applyReadiness e.now permanent promotion snapshot state

/-- The transaction around an evaluation; its exception is only noted by the loop. -/
def updateRuntimeReadiness (e : ReadinessEvaluation) : PaperTradingApplication :=
  let transaction : Query Unit := scope do
    a.evaluateRuntimeReadiness e
    if e.commits then pure () else raise .databaseError
  match transaction ⟨a.db, e.faults⟩ with
  | (.ok _, s) => { a with db := s.db }
  | (.error exc, s) => { a with db := s.db, lastLoopError := some exc.str }

end Readiness

end PaperTradingApplication

section Runs

inductive Step
  | heartbeat (attempt : HeartbeatAttempt)
  | poll (attempt : PollAttempt)
  | readiness (evaluation : ReadinessEvaluation)

namespace PaperTradingApplication

def step (a : PaperTradingApplication) : Step → PaperTradingApplication
  | .heartbeat attempt => a.heartbeatLoop attempt
  | .poll attempt => a.processCommittedMarketEventPoll attempt
  | .readiness evaluation => a.updateRuntimeReadiness evaluation

def run (a : PaperTradingApplication) (steps : List Step) : PaperTradingApplication := steps.foldl step a

theorem run_concat (a : PaperTradingApplication) (steps : List Step) (st : Step) :
    a.run (steps ++ [st]) = (a.run steps).step st := by
  simp [run]

end PaperTradingApplication

/-- A start whose recovery returns, and not with a failure. The market data runtime is not there yet. -/
structure Startup where
  hasEventBridge : Bool := true
  recovery : RecoveryService
  before : Session Db
  result : RecoveryResult
  after : Session Db
  ran : recovery.recoverOnStartup false before = (.ok result, after)
  running : result.finalStatus ≠ .failed

def Startup.application (s : Startup) : PaperTradingApplication :=
  { config := s.recovery.config, db := s.after.db, hasEventBridge := s.hasEventBridge }

end Runs

end TradingBot.Paper.Application
