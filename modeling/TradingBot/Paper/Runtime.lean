import TradingBot.Paper.Lifecycle

namespace TradingBot.Paper.Runtime

open Market.Models Exceptions Library.Transaction Paper.Models Paper.Repository Paper.Lifecycle

section Transitions

def runtimeStatusValue : RuntimeStatus → String
  | .stopped => "STOPPED"
  | .starting => "STARTING"
  | .recovering => "RECOVERING"
  | .syncing => "SYNCING"
  | .ready => "READY"
  | .degraded => "DEGRADED"
  | .paused => "PAUSED"
  | .killed => "KILLED"
  | .shuttingDown => "SHUTTING_DOWN"
  | .failed => "FAILED"

def runtimeTransitions : RuntimeStatus → List RuntimeStatus
  | .stopped => [.starting]
  | .starting => [.recovering, .syncing, .failed]
  | .recovering => [.syncing, .ready, .degraded, .failed]
  | .syncing => [.ready, .degraded, .failed]
  | .ready => [.degraded, .failed, .paused, .killed, .shuttingDown]
  | .degraded => [.recovering, .ready, .paused, .killed, .shuttingDown, .failed]
  | .paused => [.ready, .shuttingDown]
  | .killed => [.shuttingDown]
  | .shuttingDown => [.stopped, .failed]
  | .failed => []

def validateRuntimeTransition (current target : RuntimeStatus) : Except Exc Unit :=
  if current = target ∨ target ∈ runtimeTransitions current then .ok ()
  else .error (.invalidTransition ("invalid runtime transition " ++ runtimeStatusValue current ++
    " -> " ++ runtimeStatusValue target))

end Transitions

section Service

def getState : Query RuntimeState := do
  match ← getRuntimeState with
  | none => raise (.lookupError "runtime_state not seeded")
  | some state => pure state

def transition (now : Time) (target : RuntimeStatus) (lastError : Option String := none) :
    Query RuntimeState :=
  scope do
    let current ← getState
    ofExcept (validateRuntimeTransition current.status target)
    let updated ← updateRuntimeState
      { status := some target
        lastError := lastError.or current.lastError
        startedAt := if target = .starting then some now else none
        heartbeatAt := some now }
      (some current.version)
    execute fun db => { db with statusChanges := db.statusChanges ++ [⟨current.status, target⟩] }
    pure updated

def heartbeat (now : Time) : Query RuntimeState :=
  scope do
    let current ← getState
    updateRuntimeState { heartbeatAt := some now } (some current.version)

def setPaused (paused : Bool) : Query RuntimeState :=
  scope do
    let current ← getState
    updateRuntimeState { paused := some paused } (some current.version)

def setKillSwitch (enabled : Bool) : Query RuntimeState :=
  scope do
    let current ← getState
    updateRuntimeState { killSwitch := some enabled } (some current.version)

end Service

section Readiness

structure ReadinessSnapshot where
  processLiveness : Bool
  runtimeReadiness : Bool
  entryReadiness : Bool
  reasons : List String
deriving DecidableEq, Repr

/-- Whether a runtime that is not ready may become ready. -/
structure PromotionReadinessSnapshot where
  ready : Bool
  reasons : List String
deriving DecidableEq, Repr

/-- What the readiness checks learn from outside the tables. A migration check that cannot be made
counts as a failed one. -/
structure OperationalInputs where
  marketDataReady : Bool
  databaseReady : Bool := true
  schemaAtHead : Except Unit Bool := .ok true
  lockHeld : Option Bool := none
  schedulerActive : Bool := false
  recoveryActive : Bool := false
  now : Time

def getRunningSchedulerRuns : Query (List SchedulerRun) :=
  read fun db => db.schedulerRuns.filter (·.status = .running)

/-- The runs whose names start with `me:` and have no `:recovery:` in them. -/
def isMarketEventRun : JobName → Bool
  | .scheduler _ | .recovery .. => false
  | _ => true

def isPermanentConfigurationFailure (r : SchedulerRun) : Bool :=
  r.status = .failed ∧ isMarketEventRun r.jobName ∧ isPermanentConfigurationError r.error ∧
    r.recoveryOfRunId = none ∧ r.resolvedByRunId = none

def listPermanentConfigurationFailures : Query (List SchedulerRun) :=
  read fun db => db.schedulerRuns.filter isPermanentConfigurationFailure

def schemaReasons : Except Unit Bool → List String
  | .ok atHead => reasonIf (!atHead) "migration_not_at_head"
  | .error () => ["migration_check_failed"]

/-- The reasons against operating; none means that everything is in order. -/
def operationalReadiness (config : PaperTradingConfig) (inputs : OperationalInputs)
    (runtime : RuntimeState) : Query (List String) := do
  let running ← getRunningSchedulerRuns
  let failures ← listPermanentConfigurationFailures
  pure (reasonIf (!inputs.marketDataReady) "market_data_not_ready" ++
    reasonIf (!inputs.databaseReady) "database_unreachable" ++
    schemaReasons inputs.schemaAtHead ++
    reasonIf (inputs.lockHeld = some false) "advisory_lock_not_held" ++
    reasonIf (config.schedulerEnabled && !inputs.schedulerActive) "scheduler_not_active" ++
    reasonIf inputs.recoveryActive "recovery_active" ++
    reasonIf (!running.isEmpty) "orphan_scheduler_run" ++
    reasonIf (!failures.isEmpty) "permanent_configuration_failure" ++
    reasonIf (isStale config runtime inputs.now) "stale_heartbeat")

def entryReasons (runtime : RuntimeState) (failures : List SchedulerRun) : List String :=
  reasonIf runtime.paused "paused" ++ reasonIf runtime.killSwitch "kill_switch" ++
    reasonIf (!failures.isEmpty) "permanent_configuration_failure"

def evaluateReadiness (config : PaperTradingConfig) (inputs : OperationalInputs) :
    Query ReadinessSnapshot := do
  match ← getRuntimeState with
  | none => pure ⟨false, false, false, ["runtime_state_missing"]⟩
  | some runtime => do
    let liveness := reasonIf (runtime.status = .failed ∨ runtime.status = .stopped) "runtime_not_live"
    let operational ← operationalReadiness config inputs runtime
    let runtimeReasons := operational ++ reasonIf (runtime.status ≠ .ready) "runtime_not_ready" ++
      reasonIf (errorSet runtime.lastError) "last_error_set"
    let failures ← listPermanentConfigurationFailures
    let entry := if runtimeReasons = [] then entryReasons runtime failures else []
    pure
      { processLiveness := liveness.isEmpty
        runtimeReadiness := runtimeReasons.isEmpty
        entryReadiness := runtimeReasons.isEmpty && entry.isEmpty
        reasons := liveness ++ runtimeReasons ++ entry }

def promotableStatuses : List RuntimeStatus := [.starting, .recovering, .syncing, .degraded]

/-- Neither a ready status nor an empty `last_error` is asked for here. -/
def evaluateReadyPromotion (config : PaperTradingConfig) (inputs : OperationalInputs) :
    Query PromotionReadinessSnapshot := do
  match ← getRuntimeState with
  | none => pure ⟨false, ["runtime_state_missing"]⟩
  | some runtime =>
    if runtime.status ∉ promotableStatuses then pure ⟨false, ["runtime_not_promotable"]⟩
    else do
      let reasons ← operationalReadiness config inputs runtime
      pure ⟨reasons.isEmpty, reasons⟩

end Readiness

end TradingBot.Paper.Runtime
