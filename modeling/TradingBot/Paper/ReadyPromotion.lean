import TradingBot.Paper.Application
import TradingBot.Paper.EntrySafety
import TradingBot.Paper.FairRotation
import TradingBot.Paper.FalseAlarms
import TradingBot.Paper.RecoverySoundness

namespace TradingBot.Paper.ReadyPromotion

open Market.Models Exceptions Library.Transaction Paper.Models Paper.Repository Paper.Lifecycle
open Paper.AccountingVerification Paper.Runtime Paper.Recovery Paper.RecoverySoundness Paper.EventFairness
open Paper.EventRules Paper.Application
open Paper.FairRotation (okValue eq_okValue)
open Paper.EntrySafety (Commits Chain Reading runtimeState_of_chain)

section Polls

variable {p : MarketEventPoll} {inv : Db → Prop}

theorem keeps_clearGroupFairnessState (tables : FairnessTables) (key : GroupKey) :
    Keeps inv (MarketEventPoll.clearGroupFairnessState tables key) := by
  unfold MarketEventPoll.clearGroupFairnessState
  cases tables.states key with
  | none => exact keeps_pure _
  | some _ => exact keeps_bind (keeps_flush _) fun _ => keeps_pure _

theorem keeps_recordOutcome (known : GroupKey → Option MarketEventGroupState) (tables : FairnessTables)
    (key : GroupKey) (o : Bridge.EventProcessOutcome) : Keeps inv (p.recordOutcome known tables key o) := by
  have hrest : ∀ tables : FairnessTables, Keeps inv (if o.deferred || o.retryable then
      p.recordGroupDeferred known tables key else if o.status = .failed || o.status = .completed then
      MarketEventPoll.clearGroupFairnessState tables key else pure tables) := by
    intro tables
    split_ifs
    · exact keeps_bind (keeps_flush _) fun _ => keeps_pure _
    · exact keeps_clearGroupFairnessState tables key
    · exact keeps_pure _
  unfold MarketEventPoll.recordOutcome
  by_cases hterminal : o.terminalFailed
  · rw [if_pos hterminal]
    exact keeps_bind (keeps_clearGroupFairnessState tables key) hrest
  · rw [if_neg hterminal]
    exact keeps_bind (keeps_pure _) hrest

variable (h : ∀ e, Keeps inv ((p.bridge e).processEvent e))

include h

theorem keeps_processGroup (known : GroupKey → Option MarketEventGroupState) (key : GroupKey)
    (events : List MarketEvents.MarketEvent) (g : PollProgress) : Keeps inv (p.processGroup known key events g) := by
  induction events generalizing g with
  | nil => exact keeps_pure g
  | cons e events ih =>
    unfold MarketEventPoll.processGroup
    split_ifs
    · exact keeps_pure g
    · refine keeps_bind (keeps_read _) fun before => keeps_bind (h e) fun outcome => ?_
      refine keeps_bind (keeps_recordOutcome _ _ _ _) fun tables => ?_
      dsimp only
      split_ifs
      · exact keeps_pure _
      · exact ih _

theorem keeps_processGroups (known : GroupKey → Option MarketEventGroupState) (groups : List Group)
    (g : PollProgress) : Keeps inv (p.processGroups known groups g) := by
  induction groups generalizing g with
  | nil => exact keeps_pure g
  | cons group groups ih =>
    unfold MarketEventPoll.processGroups
    split_ifs
    · exact keeps_pure g
    · exact keeps_bind (keeps_processGroup h _ _ _ _) fun g => ih g

theorem keeps_processAfterPoll (tables : FairnessTables) : Keeps inv (p.processAfterPoll tables) := by
  unfold MarketEventPoll.processAfterPoll
  split_ifs
  · exact keeps_pure _
  · refine keeps_bind (keeps_processGroups h _ _ _) fun g => ?_
    exact keeps_bind (keeps_flush _) fun _ => keeps_pure _

end Polls

section Row

variable {asked : Reading → Prop} {db db' : Db}

theorem poll_runtimeState (a : PaperTradingApplication) (t : PollAttempt) :
    (a.processCommittedMarketEventPoll t).db.runtimeState = a.db.runtimeState := by
  have hprocess : Keeps (Chain (fun _ => True) (fun _ _ => False) a.db) (a.pollTransaction t) := by
    refine Keeps.scope (keeps_bind (keeps_processAfterPoll (fun e => ?_) _) fun result => ?_)
    · exact keeps_processEvent (EntrySafety.rules fun _ _ => trivial)
    · split_ifs
      · exact keeps_pure _
      · exact keeps_raise _
  have hrun := runtimeState_of_chain (hprocess ⟨a.db, t.faults⟩ Relation.ReflTransGen.refl)
  unfold PaperTradingApplication.processCommittedMarketEventPoll
  split_ifs
  · rfl
  · rcases hresult : a.pollTransaction t ⟨a.db, t.faults⟩ with ⟨exc | result, s⟩ <;> rw [hresult] at hrun
    · exact hrun
    · exact hrun

end Row

section Transitions

variable {db : Db} {row : RuntimeState} {faults : List Bool} {α : Type}

theorem getState_bind {f : RuntimeState → Query α} (hrow : db.runtimeState = some row) :
    (getState >>= f) ⟨db, faults⟩ = f row ⟨db, faults⟩ := by
  have hstate : getState (⟨db, faults⟩ : Session Db) = (.ok row, ⟨db, faults⟩) := by
    simp only [getState, getRuntimeState, read_bind, hrow]
    rfl
  simp only [bind, hstate]

theorem execute_bind (f : Db → Db) (g : Unit → Query α) :
    (execute f >>= g) ⟨db, faults⟩ = if faults.head? = some true then (.error .databaseError, ⟨db, faults.tail⟩)
      else g () ⟨f db, faults.tail⟩ := by
  match faults with
  | [] => rfl
  | true :: _ => rfl
  | false :: _ => rfl

def WritesFail (faults : List Bool) : Prop := faults.head? = some true ∨ faults.tail.head? = some true

theorem updateRuntimeState_bind {u : RuntimeUpdate} {f : RuntimeState → Query α} (hrow : db.runtimeState = some row) :
    (updateRuntimeState u (some row.version) >>= f) ⟨db, faults⟩ =
      (execute (fun db => { db with runtimeState := some (u.apply row) }) >>= fun _ => f (u.apply row))
        ⟨db, faults⟩ := by
  have hsame := FalseAlarms.updateRuntimeState_same (s := ⟨db, faults⟩) (u := u) hrow
  simp only [bind] at hsame ⊢
  rw [hsame]
  rcases execute (fun db => { db with runtimeState := some (u.apply row) }) ⟨db, faults⟩ with ⟨_ | _, _⟩ <;> rfl

theorem transition_outcome (faults : List Bool) (now : Time) (lastError : Option String) {target : RuntimeStatus}
    (hrow : db.runtimeState = some row) (hvalid : validateRuntimeTransition row.status target = .ok ()) :
    (WritesFail faults ∧ ∃ s, transition now target lastError ⟨db, faults⟩ = (.error .databaseError, s) ∧
        s.db = db) ∨
      (¬WritesFail faults ∧ ∃ updated s, transition now target lastError ⟨db, faults⟩ = (.ok updated, s) ∧
        HasStatus target s.db) := by
  unfold transition scope WritesFail
  rw [getState_bind hrow, hvalid]
  have hchecked : ∀ f : Unit → Query RuntimeState, (Repository.ofExcept (.ok ()) >>= f) ⟨db, faults⟩ =
      f () ⟨db, faults⟩ := fun _ => rfl
  rw [hchecked, updateRuntimeState_bind hrow, execute_bind]
  by_cases hfirst : faults.head? = some true
  · exact .inl ⟨.inl hfirst, by simp [hfirst]⟩
  · rw [if_neg hfirst, execute_bind]
    by_cases hsecond : faults.tail.head? = some true
    · exact .inl ⟨.inr hsecond, by simp [hsecond]⟩
    · refine .inr ⟨not_or.mpr ⟨hfirst, hsecond⟩, _, _, by rw [if_neg hsecond]; rfl, _, rfl, ?_⟩
      rfl

end Transitions

section Evaluation

variable {a : PaperTradingApplication} {e : ReadinessEvaluation} {row : RuntimeState}

/-- Every check of the operation is green: none of them looks at the consistency or the accounting. -/
structure Operational (config : PaperTradingConfig) (inputs : OperationalInputs) (row : RuntimeState) (db : Db) :
    Prop where
  marketData : inputs.marketDataReady
  database : inputs.databaseReady
  schema : inputs.schemaAtHead = .ok true
  lock : inputs.lockHeld ≠ some false
  scheduler : config.schedulerEnabled → inputs.schedulerActive
  recovery : inputs.recoveryActive = false
  runs : ∀ r ∈ db.schedulerRuns, r.status ≠ .running ∧ isPermanentConfigurationFailure r = false
  fresh : isStale config row inputs.now = false

theorem reasonIf_eq_nil {condition : Bool} {reason : String} : reasonIf condition reason = [] ↔ condition = false := by
  cases condition <;> simp [reasonIf]

theorem schemaReasons_eq_nil {x : Except Unit Bool} : schemaReasons x = [] ↔ x = .ok true := by
  match x with
  | .error () => simp [schemaReasons]
  | .ok true => simp [schemaReasons, reasonIf]
  | .ok false => simp [schemaReasons, reasonIf]

theorem operationalReadiness_ok (config : PaperTradingConfig) (inputs : OperationalInputs) (row : RuntimeState)
    (s : Session Db) : ∃ reasons, operationalReadiness config inputs row s = (.ok reasons, s) ∧
      (reasons = [] ↔ Operational config inputs row s.db) := by
  refine ⟨_, rfl, ?_⟩
  simp only [List.append_eq_nil_iff, reasonIf_eq_nil, schemaReasons_eq_nil]
  constructor
  · rintro ⟨⟨⟨⟨⟨⟨⟨⟨hmarket, hdatabase⟩, hschema⟩, hlock⟩, hscheduler⟩, hrecovery⟩, hrunning⟩, hfailures⟩, hfresh⟩
    have hnone : ∀ r ∈ s.db.schedulerRuns, r.status ≠ .running := by simpa using hrunning
    have hpermanent : ∀ r ∈ s.db.schedulerRuns, isPermanentConfigurationFailure r = false := by simpa using hfailures
    exact
      { marketData := by simpa using hmarket
        database := by simpa using hdatabase
        schema := hschema
        lock := by simpa using hlock
        scheduler := by simpa using hscheduler
        recovery := hrecovery
        runs := fun r hr => ⟨hnone r hr, hpermanent r hr⟩
        fresh := hfresh }
  · intro h
    refine ⟨⟨⟨⟨⟨⟨⟨⟨?_, ?_⟩, h.schema⟩, ?_⟩, ?_⟩, h.recovery⟩, ?_⟩, ?_⟩, h.fresh⟩
    · simpa using h.marketData
    · simpa using h.database
    · simpa using h.lock
    · simpa using h.scheduler
    · simpa using fun r hr => (h.runs r hr).1
    · simpa using fun r hr => (h.runs r hr).2

theorem evaluateReadyPromotion_ok (config : PaperTradingConfig) (inputs : OperationalInputs) {s : Session Db}
    (hrow : s.db.runtimeState = some row) : ∃ promotion, evaluateReadyPromotion config inputs s = (.ok promotion, s) ∧
      (promotion.ready ↔ row.status ∈ promotableStatuses ∧ Operational config inputs row s.db) := by
  unfold evaluateReadyPromotion getRuntimeState
  rw [read_bind, hrow]
  dsimp only
  split_ifs with hstatus
  · obtain ⟨reasons, heval, hiff⟩ := operationalReadiness_ok config inputs row s
    refine ⟨⟨reasons.isEmpty, reasons⟩, ?_, ?_⟩
    · simp only [bind, heval]
      rfl
    · simp only [List.isEmpty_iff, hiff, hstatus, true_and]
  · exact ⟨_, rfl, by simpa using fun h => absurd h hstatus⟩

theorem evaluateReadiness_ok (config : PaperTradingConfig) (inputs : OperationalInputs) (s : Session Db) :
    ∃ snapshot, evaluateReadiness config inputs s = (.ok snapshot, s) := by
  unfold evaluateReadiness getRuntimeState
  rw [read_bind]
  cases s.db.runtimeState with
  | none => exact ⟨_, rfl⟩
  | some row => exact ⟨_, rfl⟩

structure Promotes (a : PaperTradingApplication) (e : ReadinessEvaluation) : Prop where
  operational : ∃ row, a.db.runtimeState = some row ∧ row.status ∈ [.recovering, .syncing, .degraded] ∧
    Operational a.config (a.checks e e.promotion) row a.db
  backlog : a.bridgeBacklog = false
  heartbeat : a.heartbeatHealthy
  stored : ¬WritesFail e.faults ∧ e.commits

theorem validate_ready {status : RuntimeStatus} (hpromotable : status ∈ promotableStatuses) :
    validateRuntimeTransition status .ready = .ok () ↔
      status ∈ ([.recovering, .syncing, .degraded] : List RuntimeStatus) := by
  revert hpromotable
  cases status <;> decide

theorem promotable_of_mem {status : RuntimeStatus}
    (h : status ∈ ([.recovering, .syncing, .degraded] : List RuntimeStatus)) : status ∈ promotableStatuses := by
  revert h
  cases status <;> decide

theorem evaluateRuntimeReadiness_ok {s : Session Db} (hrow : s.db.runtimeState = some row) :
    ∃ permanent promotion snapshot, a.evaluateRuntimeReadiness e s =
        a.applyReadiness e.now permanent promotion snapshot row s ∧
      (promotion.ready ↔ row.status ∈ promotableStatuses ∧ Operational a.config (a.checks e e.promotion) row s.db) ∧
      (promotion.ready → permanent = false) := by
  obtain ⟨promotion, hpromotion, hready⟩ := evaluateReadyPromotion_ok a.config (a.checks e e.promotion) hrow
  obtain ⟨snapshot, hsnapshot⟩ := evaluateReadiness_ok a.config (a.checks e e.snapshot) s
  refine ⟨a.hasEventBridge && !(s.db.schedulerRuns.filter isPermanentConfigurationFailure).isEmpty, promotion,
    snapshot, ?_, hready, fun h => ?_⟩
  · have hpermanent : a.bridgePermanent s =
        (.ok (a.hasEventBridge && !(s.db.schedulerRuns.filter isPermanentConfigurationFailure).isEmpty), s) := rfl
    unfold PaperTradingApplication.evaluateRuntimeReadiness
    have hstate : ∀ f : RuntimeState → Query Unit, (getState >>= f) s = f row s := fun f => getState_bind hrow
    simp only [bind, hpermanent, hpromotion, hsnapshot] at hstate ⊢
    exact hstate _
  · have hnone := (hready.mp h).2.runs
    simpa using fun _ r hr => (hnone r hr).2

theorem not_ready_of_transition {now : Time} {error : Option String} {s s' : Session Db}
    (h : (transition now .degraded error >>= fun _ => pure ()) s = (.ok (), s')) : ¬HasStatus .ready s'.db := by
  obtain ⟨_, t, htransition, hpure⟩ := bind_eq_ok.mp h
  obtain ⟨_, rfl⟩ := pure_eq_ok.mp hpure
  obtain ⟨_, updated, _, hstatus, _, hdb⟩ := transition_ok htransition
  have hdegraded : HasStatus .degraded t.db := ⟨updated, by rw [hdb], hstatus⟩
  intro hready
  exact absurd (hready.unique hdegraded) (by decide)

theorem applyReadiness_ready_iff (now : Time) (snapshot : ReadinessSnapshot) {permanent : Bool}
    {promotion : PromotionReadinessSnapshot} {s : Session Db} (hrow : s.db.runtimeState = some row)
    (hunready : ¬HasStatus .ready s.db) (hpermanent : promotion.ready → permanent = false) :
    (∃ s', a.applyReadiness now permanent promotion snapshot row s = (.ok (), s') ∧ HasStatus .ready s'.db) ↔
      promotion.ready ∧ a.bridgeBacklog = false ∧ a.heartbeatHealthy ∧
        row.status ∈ ([.recovering, .syncing, .degraded] : List RuntimeStatus) ∧ ¬WritesFail s.faults := by
  unfold PaperTradingApplication.applyReadiness
  dsimp only
  by_cases hpromote : (promotion.ready && !a.bridgeBacklog && !permanent && a.heartbeatHealthy) = true ∧
      row.status ∈ promotableStatuses
  · rw [if_pos hpromote]
    obtain ⟨hgreen, hpromotable⟩ := hpromote
    simp only [Bool.and_eq_true, Bool.not_eq_true'] at hgreen
    obtain ⟨⟨⟨hpromotion, hbacklog⟩, _⟩, hheartbeat⟩ := hgreen
    constructor
    · rintro ⟨s', h, _⟩
      obtain ⟨_, t, htransition, _⟩ := bind_eq_ok.mp h
      obtain ⟨row', _, hrow', _, hvalid, _⟩ := transition_ok htransition
      rw [hrow] at hrow'
      cases hrow'
      refine ⟨hpromotion, hbacklog, hheartbeat, (validate_ready hpromotable).mp hvalid, fun hfail => ?_⟩
      obtain ⟨_, t', herror, _⟩ | ⟨hnot, _⟩ := transition_outcome s.faults now (some "")
        hrow hvalid
      · rw [htransition] at herror
        cases herror
      · exact hnot hfail
    · rintro ⟨_, _, _, hstatus, hwrites⟩
      obtain ⟨hfail, _⟩ | ⟨_, updated, t, hok, hstored⟩ := transition_outcome s.faults now (some "")
        hrow ((validate_ready hpromotable).mpr hstatus)
      · exact absurd hfail hwrites
      · exact ⟨t, bind_eq_ok.mpr ⟨updated, t, hok, rfl⟩, hstored⟩
  · rw [if_neg hpromote]
    refine iff_of_false ?_ fun hright => ?_
    · rintro ⟨s', h, hready⟩
      split_ifs at h
      · exact not_ready_of_transition h hready
      · cases h
        exact hunready hready
      · exact not_ready_of_transition h hready
      · cases h
        exact hunready hready
    · obtain ⟨hpromotion, hbacklog, hheartbeat, hstatus, _⟩ := hright
      have hgreen := hpermanent hpromotion
      exact hpromote ⟨by simp [hpromotion, hbacklog, hheartbeat, hgreen], promotable_of_mem hstatus⟩

theorem evaluateRuntimeReadiness_error {s : Session Db} (hrow : s.db.runtimeState = none) :
    a.evaluateRuntimeReadiness e s = (.error (.lookupError "runtime_state not seeded"), s) := by
  have hpermanent : a.bridgePermanent s =
      (.ok (a.hasEventBridge && !(s.db.schedulerRuns.filter isPermanentConfigurationFailure).isEmpty), s) := rfl
  have hpromotion : evaluateReadyPromotion a.config (a.checks e e.promotion) s =
      (.ok ⟨false, ["runtime_state_missing"]⟩, s) := by
    unfold evaluateReadyPromotion getRuntimeState
    rw [read_bind, hrow]
    rfl
  have hstate : getState s = (.error (.lookupError "runtime_state not seeded"), s) := by
    unfold getState getRuntimeState
    rw [read_bind, hrow]
    rfl
  obtain ⟨snapshot, hsnapshot⟩ := evaluateReadiness_ok a.config (a.checks e e.snapshot) s
  unfold PaperTradingApplication.evaluateRuntimeReadiness
  simp only [bind, hpermanent, hpromotion, hsnapshot, hstate]

theorem updateRuntimeReadiness_db (a : PaperTradingApplication) (e : ReadinessEvaluation) :
    (a.updateRuntimeReadiness e).db = match a.evaluateRuntimeReadiness e ⟨a.db, e.faults⟩ with
      | (.ok _, s) => if e.commits then s.db else a.db
      | (.error _, _) => a.db := by
  unfold PaperTradingApplication.updateRuntimeReadiness scope
  simp only [bind]
  rcases a.evaluateRuntimeReadiness e ⟨a.db, e.faults⟩ with ⟨exc | u, s⟩
  · rfl
  · cases e.commits <;> rfl

theorem updateRuntimeReadiness_ready_iff (hunready : ¬HasStatus .ready a.db) :
    HasStatus .ready (a.updateRuntimeReadiness e).db ↔ Promotes a e := by
  rw [updateRuntimeReadiness_db]
  cases hrow : a.db.runtimeState with
  | none =>
    rw [evaluateRuntimeReadiness_error hrow]
    refine iff_of_false hunready fun h => ?_
    obtain ⟨row, hfound, _⟩ := h.operational
    rw [hrow] at hfound
    cases hfound
  | some row =>
    obtain ⟨permanent, promotion, snapshot, heval, hpromotion, hpermanent⟩ :=
      evaluateRuntimeReadiness_ok (a := a) (e := e) (s := ⟨a.db, e.faults⟩) hrow
    have hiff := applyReadiness_ready_iff (a := a) e.now snapshot (s := ⟨a.db, e.faults⟩) hrow hunready hpermanent
    rw [heval]
    constructor
    · intro hready
      rcases hrun : a.applyReadiness e.now permanent promotion snapshot row ⟨a.db, e.faults⟩ with ⟨exc | u, s⟩ <;>
        rw [hrun] at hready
      · exact absurd hready hunready
      · dsimp only at hready
        split_ifs at hready with hcommits
        · obtain ⟨hgreen, hbacklog, hheartbeat, hstatus, hwrites⟩ := hiff.mp ⟨s, hrun, hready⟩
          exact ⟨⟨row, hrow, hstatus, (hpromotion.mp hgreen).2⟩, hbacklog, hheartbeat, hwrites, hcommits⟩
        · exact absurd hready hunready
    · intro h
      obtain ⟨row', hrow', hstatus, hoperational⟩ := h.operational
      rw [hrow] at hrow'
      cases hrow'
      have hgreen := hpromotion.mpr ⟨promotable_of_mem hstatus, hoperational⟩
      obtain ⟨s, hrun, hready⟩ := hiff.mpr ⟨hgreen, h.backlog, h.heartbeat, hstatus, h.stored.1⟩
      rw [hrun]
      dsimp only
      rw [if_pos h.stored.2]
      exact hready

end Evaluation

section Runs

variable {a : PaperTradingApplication}

theorem ofStatus_unready : OfStatus fun db => ¬HasStatus .ready db := by
  rintro db db' hstatus _ hunready ⟨row, hrow, hready⟩
  rw [hrow, Option.map_some] at hstatus
  obtain ⟨row', hrow', hsame⟩ := Option.map_eq_some_iff.mp hstatus.symm
  exact hunready ⟨row', hrow', hsame.trans hready⟩

theorem heartbeatLoop_unready (attempt : HeartbeatAttempt) (hunready : ¬HasStatus .ready a.db) :
    ¬HasStatus .ready (a.heartbeatLoop attempt).db := by
  cases attempt with
  | lockNotHeld => exact hunready
  | retriesExhausted => exact hunready
  | session now faults visible =>
    have hkeeps : Keeps (fun db => ¬HasStatus .ready db) (heartbeat now) :=
      Keeps.scope (keeps_bind keeps_getState fun _ => keeps_updateRuntimeState ofStatus_unready rfl _)
    have hrun := hkeeps ⟨a.db, faults⟩ hunready
    rcases hbeat : heartbeat now ⟨a.db, faults⟩ with ⟨exc | row, s⟩ <;> rw [hbeat] at hrun <;>
      simp only [PaperTradingApplication.heartbeatLoop, hbeat]
    · exact hrun
    · exact hrun

theorem step_ready {st : Step} (hunready : ¬HasStatus .ready a.db) (hready : HasStatus .ready (a.step st).db) :
    ∃ e, st = .readiness e ∧ Promotes a e := by
  cases st with
  | heartbeat attempt => exact absurd hready (heartbeatLoop_unready attempt hunready)
  | poll attempt =>
    have hrow := poll_runtimeState a attempt
    refine absurd ?_ hunready
    obtain ⟨row, hfound, hstatus⟩ := hready
    exact ⟨row, hrow ▸ hfound, hstatus⟩
  | readiness e => exact ⟨e, rfl, (updateRuntimeReadiness_ready_iff hunready).mp hready⟩

end Runs

section Claim

def SameIssue (issue found : ConsistencyIssue) : Prop :=
  found.code = issue.code ∧ found.severity = issue.severity ∧
    (found.details = issue.details ∨ issue.code = .accountingReconciliationMismatch)

/-- The checks of a recovery, made on the tables now, find the issue again. -/
def Exhibits (config : PaperTradingConfig) (issue : ConsistencyIssue) (db : Db) : Prop :=
  ∃ found, SameIssue issue found ∧
    ((∃ now issues, consistencyIssues config now db = .ok issues ∧ found ∈ issues) ∨
      ∃ mismatches, (verifyAccountingIndependent config.paperInitialEquity ⟨db, []⟩).1 = .ok mismatches ∧
        mismatches ≠ [] ∧ found = accountingIssue mismatches)

/-- A start whose recovery found an issue that is left to an operator. -/
structure ManualStartup extends Startup where
  issue : ConsistencyIssue
  found : issue ∈ result.issues
  manual : issue.severity = .manual

namespace ManualStartup

variable (s : ManualStartup)

/-- The issue is there in every state of the worker up to the one after `done`. -/
def StillThere (done : List Step) : Prop :=
  ∀ earlier, earlier <+: done → Exhibits s.recovery.config s.issue (s.application.run earlier).db

/-- As long as the issue is there no step makes the runtime ready. -/
def NeverPromoted (steps : List Step) : Prop :=
  ¬HasStatus .ready s.application.db ∧
    ∀ done st, done ++ [st] <+: steps → s.StillThere done → ¬HasStatus .ready (s.application.run (done ++ [st])).db

end ManualStartup

theorem startup_unready (s : Startup) : ¬HasStatus .ready s.application.db := by
  obtain ⟨hsettled, _, _⟩ := recovery_ready_sound s.recovery false s.before
  have h := hsettled _ _ s.ran
  intro hready
  have hstatus := h.stored.unique hready
  exact absurd (h.ready hstatus).1 (by decide)

theorem unready_of_neverPromoted {s : ManualStartup} {steps done : List Step} (h : s.NeverPromoted steps)
    (hdone : done <+: steps) (hstill : s.StillThere done) : ¬HasStatus .ready (s.application.run done).db := by
  rcases List.eq_nil_or_concat done with rfl | ⟨init, st, rfl⟩
  · exact h.1
  · rw [List.concat_eq_append] at hdone hstill ⊢
    exact h.2 init st hdone fun earlier hearlier => hstill earlier (hearlier.trans (List.prefix_append _ _))

/-- With an issue that is left to an operator, the runtime is not made ready as long as no evaluation finds the
checks of the operation green, and only then. -/
theorem never_promoted_iff (s : ManualStartup) (steps : List Step) :
    s.NeverPromoted steps ↔ ∀ done e, done ++ [.readiness e] <+: steps → s.StillThere done →
      ¬Promotes (s.application.run done) e := by
  constructor
  · intro h done e hdone hstill hpromotes
    have hunready := unready_of_neverPromoted h ((List.prefix_append _ _).trans hdone) hstill
    refine h.2 done _ hdone hstill ?_
    rw [PaperTradingApplication.run_concat]
    exact (updateRuntimeReadiness_ready_iff hunready).mpr hpromotes
  · intro h
    have hunready : ∀ done, done <+: steps → (∀ earlier st, earlier ++ [st] <+: done → s.StillThere earlier) →
        ¬HasStatus .ready (s.application.run done).db := by
      intro done
      induction done using List.reverseRecOn with
      | nil => exact fun _ _ => startup_unready s.toStartup
      | append_singleton done st ih =>
        intro hdone hstill hready
        have hbefore := ih ((List.prefix_append _ _).trans hdone) fun earlier st' hearlier =>
          hstill earlier st' (hearlier.trans (List.prefix_append _ _))
        rw [PaperTradingApplication.run_concat] at hready
        obtain ⟨e, rfl, hpromotes⟩ := step_ready hbefore hready
        exact h done e hdone (hstill done _ (List.prefix_refl _)) hpromotes
    refine ⟨startup_unready s.toStartup, fun done st hdone hstill => hunready _ hdone fun earlier st' hearlier => ?_⟩
    have hbefore : earlier <+: done := by
      obtain hsame | hshorter := List.prefix_concat_iff.mp hearlier
      · exact (List.append_inj_left' hsame rfl) ▸ List.prefix_refl _
      · exact (List.prefix_append _ _).trans hshorter
    exact fun first hfirst => hstill first (hfirst.trans hbefore)

theorem exhibits_of_mismatch {config : PaperTradingConfig} {issue : ConsistencyIssue} {db : Db}
    (hcode : issue.code = .accountingReconciliationMismatch) (hmanual : issue.severity = .manual)
    (h : ((verifyAccountingIndependent config.paperInitialEquity ⟨db, []⟩).1.toOption.any (· ≠ [])) = true) :
    Exhibits config issue db := by
  obtain ⟨mismatches, hverified, hne⟩ := Library.Outcome.exists_of_any h
  exact ⟨accountingIssue mismatches, ⟨hcode.symm, hmanual.symm, .inr hcode⟩,
    .inr ⟨mismatches, hverified, by simpa using hne, rfl⟩⟩

end Claim

section Samples

/-- A stopped runtime whose wallet holds more than was deposited, with no fill to show for it. -/
def driftedDb : Db := { stoppedDb with wallet := some { cash := 100001 } }

def recovered (db : Db) : Except Exc RecoveryResult × Session Db := morningRecovery.recoverOnStartup false ⟨db, []⟩

def manualStartup (db : Db) (hok : (recovered db).1.isOk = true) (hfinal : (okValue _ hok).finalStatus ≠ .failed)
    (hissues : (okValue _ hok).issues ≠ []) (hmanual : ((okValue _ hok).issues.head hissues).severity = .manual) :
    ManualStartup :=
  { recovery := morningRecovery
    before := ⟨db, []⟩
    result := okValue _ hok
    after := (recovered db).2
    ran := eq_okValue hok
    running := hfinal
    issue := (okValue _ hok).issues.head hissues
    found := List.head_mem hissues
    manual := hmanual }

def driftedStartup : ManualStartup :=
  manualStartup driftedDb (by decide +kernel) (by decide +kernel) (by decide +kernel) (by decide +kernel)

def morningHeartbeat : Step := .heartbeat (.session (6 * second) [] true)

def greenEvaluation : ReadinessEvaluation :=
  { marketDataReady := true
    schedulerActive := true
    promotion := { now := 7 * second }
    snapshot := { now := 7 * second }
    now := 7 * second }

theorem mismatch_promoted : ¬driftedStartup.NeverPromoted [morningHeartbeat, .readiness greenEvaluation] := by
  intro h
  have hstart : Exhibits {} driftedStartup.issue (driftedStartup.application.run []).db :=
    exhibits_of_mismatch (by decide +kernel) driftedStartup.manual (by decide +kernel)
  have hbeat : Exhibits {} driftedStartup.issue (driftedStartup.application.run [morningHeartbeat]).db :=
    exhibits_of_mismatch (by decide +kernel) driftedStartup.manual (by decide +kernel)
  have hstill : driftedStartup.StillThere [morningHeartbeat] := by
    intro earlier hearlier
    obtain rfl | hshorter := List.prefix_concat_iff.mp (show earlier <+: [] ++ [morningHeartbeat] from hearlier)
    · exact hbeat
    · rw [List.prefix_nil.mp hshorter]
      exact hstart
  refine h.2 [morningHeartbeat] (.readiness greenEvaluation) (List.prefix_refl _) hstill ?_
  have hready : (driftedStartup.application.run ([morningHeartbeat] ++ [.readiness greenEvaluation])).db.runtimeState.any
      (·.status = .ready) = true := by decide +kernel
  obtain ⟨row, hrow, hstatus⟩ := (Option.any_eq_true _ _).mp hready
  exact ⟨row, hrow, by simpa using hstatus⟩

end Samples

end TradingBot.Paper.ReadyPromotion
