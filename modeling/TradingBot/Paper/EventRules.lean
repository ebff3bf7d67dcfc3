import TradingBot.Paper.Bookkeeping
import TradingBot.Paper.Failures

namespace TradingBot.Paper.EventRules

open Market.Models Exceptions Backtester.Lifecycle Constraints Library.Transaction Paper.Models
open Paper.Repository Paper.MarketEvents Paper.SchedulerContext Paper.Scheduler
open Paper.Scheduler.PaperTradingScheduler Paper.Bridge Paper.Bridge.MarketEventBridge Paper.Failures Paper.Polls
open Paper.Bookkeeping (keeps_ofExcept keeps_scalarOneOrNone)

section Definitions

/-- One change of the table of runs, made under a name and a time of its own. -/
inductive RunOp (own : JobName → Time → Prop) (db : Db) : Db → Prop
  | insert (name : JobName) (t startedAt : Time) (hown : own name t)
      (hnew : db.schedulerRuns.find? (isRun name t) = none) :
    RunOp own db { db with
      nextId := db.nextId + 1
      schedulerRuns := db.schedulerRuns ++ [runRow t db.nextId name startedAt] }
  | complete (name : JobName) (t : Time) (status : SchedulerRunStatus) (completedAt : Time)
      (error : Option String) (hown : own name t) (hstatus : status ≠ .running)
      (hskipped : name.isRecovery → status = .skipped → isRetryableMarketEventError error) :
    RunOp own db { db with schedulerRuns := db.schedulerRuns.map (modifyRun name t fun r =>
      { r with status := status, completedAt := some completedAt, error := error }) }
  | reactivate (name : JobName) (t startedAt : Time) (hown : own name t)
      (hskipped : ∃ r, db.schedulerRuns.find? (isRun name t) = some r ∧ r.status = .skipped ∧
        isRetryableMarketEventError r.error) :
    RunOp own db { db with schedulerRuns := db.schedulerRuns.map (modifyRun name t fun r =>
      { r with status := .running, error := none, startedAt := some startedAt, completedAt := none }) }
  | delete (name : JobName) (t : Time) (hown : own name t)
      (hplain : ∃ r, db.schedulerRuns.find? (isRun name t) = some r ∧ r.recoveryOfRunId = none) :
    RunOp own db { db with schedulerRuns := db.schedulerRuns.filter fun r =>
      !(isRun name t r && decide (r.status = .running ∧ r.completedAt = none)) }

theorem RunOp.mono {own own' : JobName → Time → Prop} {db db' : Db} (h : RunOp own db db')
    (hown : ∀ name t, own name t → own' name t) : RunOp own' db db' := by
  cases h with
  | insert name t startedAt h hnew => exact .insert name t startedAt (hown _ _ h) hnew
  | complete name t status completedAt error h hstatus hskipped =>
    exact .complete name t status completedAt error (hown _ _ h) hstatus hskipped
  | reactivate name t startedAt h hskipped => exact .reactivate name t startedAt (hown _ _ h) hskipped
  | delete name t h hplain => exact .delete name t (hown _ _ h) hplain

/-- The names under which the handler of an event stores the runs of its jobs. -/
inductive JobOwn (e : MarketEvent) : JobName → Time → Prop
  | subjob {name : JobName} (h : name ∈ openSubjobs e) : JobOwn e name e.candleOpenTime
  | job (job : SchedulerJobName) (t : Time) : JobOwn e (.scheduler job) t

/-- The names under which the bridge stores runs while it processes an event. -/
inductive Own (b : MarketEventBridge) (e : MarketEvent) (recovers : RecoveryContext → Prop) :
    JobName → Time → Prop
  | event : Own b e recovers (b.jobName e) e.scheduledFor
  | handler {name : JobName} {t : Time} (h : JobOwn e name t) : Own b e recovers name t
  | recovery {c : RecoveryContext} (h : recovers c) : Own b e recovers c.recoveryJobName e.scheduledFor

def openContexts (b : MarketEventBridge) (e : MarketEvent) (candle : Candle) (atr14 : Decimal)
    (constraints : SymbolConstraints) : JobContexts :=
  { fill := BySymbol.single e.symbol (b.builder.fillContext e.symbol candle atr14 constraints)
    stop := some (.atOpen (BySymbol.single e.symbol (ContextBuilder.gapCheckStrategyCandle candle))
      (BySymbol.single e.symbol constraints)) }

def liveContexts (e : MarketEvent) (candle : Candle) (constraints : SymbolConstraints) : JobContexts :=
  { stop := some (.intraday (BySymbol.single e.symbol { candle with low := e.observedLow.getD candle.low })
      (BySymbol.single e.symbol constraints)) }

inductive JobOf (b : MarketEventBridge) (e : MarketEvent) : JobContexts → Time → SchedulerJobName → Prop
  | opening {candle : Candle} {atr14 : Decimal} {constraints : SymbolConstraints} {job : SchedulerJobName}
      (htype : e.eventType = .dailyOpenAvailable) (hlatest : b.latestDaily e.symbol = some candle)
      (htime : candle.openTime = e.candleOpenTime)
      (hjob : job ∈ [.stopTriggerProcessing, .nextOpenFillProcessing, .portfolioSnapshot]) :
    JobOf b e (openContexts b e candle atr14 constraints) e.candleOpenTime job
  | live {candle : Candle} {constraints : SymbolConstraints} (htype : e.eventType = .dailyLiveUpdate)
      (hlatest : b.latestDaily e.symbol = some candle) (htime : candle.openTime = e.candleOpenTime) :
    JobOf b e (liveContexts e candle constraints) e.candleOpenTime .intradayStopProcessing
  | closing {candle : Candle} {evaluation : EvaluationContext} {stop : StopContext} {job : SchedulerJobName}
      (htype : e.eventType = .dailyClosed)
      (hjob : job ∈ [.dailySignalEvaluation, .dailyStopUpdate, .portfolioSnapshot]) :
    JobOf b e { evaluation := BySymbol.single e.symbol evaluation, stop := some stop } candle.closeTime job

/-- A property that survives every change of the runs under names of its own. -/
structure RunRules (own : JobName → Time → Prop) (inv : Db → Prop) : Prop where
  ids : ∀ db, inv db → inv { db with nextId := db.nextId + 1 }
  runs : ∀ db db', inv db → RunOp own db db' → inv db'

theorem RunRules.of_same {own : JobName → Time → Prop} {inv : Db → Prop}
    (hsame : ∀ (db : Db) (n : Id) (runs : List SchedulerRun), inv db → db.nextId ≤ n →
      inv { db with nextId := n, schedulerRuns := runs }) : RunRules own inv where
  ids := fun db h => hsame db _ _ h (Nat.le_succ _)
  runs := fun db db' h hop => by
    cases hop with
    | insert name t startedAt hown hnew => exact hsame db _ _ h (Nat.le_succ _)
    | complete name t status completedAt error hown hstatus hskipped => exact hsame db _ _ h le_rfl
    | reactivate name t startedAt hown hskipped => exact hsame db _ _ h le_rfl
    | delete name t hown hplain => exact hsame db _ _ h le_rfl

/-- What a property has to survive to hold through the handler of an event. -/
structure JobRules (b : MarketEventBridge) (e : MarketEvent) (inv : Db → Prop) : Prop
    extends RunRules (JobOwn e) inv where
  handler : ∀ ctx t job, JobOf b e ctx t job → Keeps inv (b.scheduler.handler ctx t job)

/-- What a property has to survive to hold through the processing of an event. `recovers` are the
recovery attempts the event may be processed for. -/
structure Rules (b : MarketEventBridge) (e : MarketEvent) (recovers : RecoveryContext → Prop)
    (inv : Db → Prop) : Prop extends RunRules (Own b e recovers) inv where
  pending : ∀ c, b.recoveryPending = some c → recovers c.1
  found : ∀ db existing a, inv db →
    db.schedulerRuns.find? (isRun (b.jobName e) e.scheduledFor) = some existing →
    (getActiveRecoveryAttempt existing.runId ⟨db, []⟩).1 = .ok (some a) →
    recovers ⟨existing.runId, a.jobName, a.runId⟩
  resolve : ∀ db c, inv db → recovers c → inv { db with schedulerRuns := db.schedulerRuns.map fun r =>
    if r.runId = c.originalRunId ∧ r.resolvedByRunId = none
    then { r with resolvedByRunId := some c.recoveryRunId } else r }
  handler : ∀ ctx t job, JobOf b e ctx t job → Keeps inv (b.scheduler.handler ctx t job)

theorem Rules.jobs {b : MarketEventBridge} {e : MarketEvent} {recovers : RecoveryContext → Prop} {inv : Db → Prop}
    (h : Rules b e recovers inv) : JobRules b e inv where
  ids := h.ids
  runs := fun db db' hdb hop => h.runs db db' hdb (hop.mono fun _ _ => .handler)
  handler := h.handler

end Definitions

section Runs

variable {b : MarketEventBridge} {e : MarketEvent} {recovers : RecoveryContext → Prop} {inv : Db → Prop}
  {own : JobName → Time → Prop} {name : JobName} {t : Time}

theorem insertOrGetSchedulerRun_ok {row : SchedulerRun} {r : SchedulerRun × Bool} {s s' : Session Db}
    (h : insertOrGetSchedulerRun row s = (.ok r, s')) :
    (s'.db = s.db ∧ r.2 = false ∧ s.db.schedulerRuns.find? (isRun row.jobName row.scheduledFor) = some r.1) ∨
    (s.db.schedulerRuns.find? (isRun row.jobName row.scheduledFor) = none ∧ r = (row, true) ∧
      s'.db = { s.db with schedulerRuns := s.db.schedulerRuns ++ [row] }) := by
  unfold insertOrGetSchedulerRun getSchedulerRun at h
  rw [read_bind] at h
  cases hfind : s.db.schedulerRuns.find? (isRun row.jobName row.scheduledFor) with
  | some existing =>
    simp only [hfind] at h
    obtain ⟨_, u, hflush, hpure⟩ := bind_eq_ok.mp h
    cases hpure
    exact .inl ⟨flush_ok_db hflush, rfl, rfl⟩
  | none =>
    simp only [hfind] at h
    obtain ⟨_, u, hwrite, hpure⟩ := bind_eq_ok.mp h
    cases hpure
    exact .inr ⟨rfl, rfl, write_ok_db hwrite⟩

theorem keeps_insertRun (h : RunRules own inv) (hown : own name t) (startedAt : Time) :
    Keeps inv (do
      let runId ← newId
      scope (insertOrGetSchedulerRun (runRow t runId name startedAt))) := by
  intro s hs
  have hnext : inv { s.db with nextId := s.db.nextId + 1 } := h.ids s.db hs
  refine scope_keeps hnext fun r s' hr => ?_
  rcases insertOrGetSchedulerRun_ok hr with ⟨hsame, _⟩ | ⟨hnone, _, hdb⟩
  · rw [hsame]
    exact hnext
  · rw [hdb]
    exact h.runs s.db _ hs (.insert name t startedAt hown hnone)

theorem keeps_ensureSchedulerRun (h : RunRules own inv) (hown : own name t) :
    Keeps inv (b.ensureSchedulerRun name t) := keeps_insertRun h hown _

theorem keeps_completeSchedulerRun (h : RunRules own inv) (hown : own name t)
    {status : SchedulerRunStatus} {error : Option String} (hstatus : status ≠ .running)
    (hskipped : name.isRecovery → status = .skipped → isRetryableMarketEventError error) (at_ : Time) :
    Keeps inv (completeSchedulerRun name t status at_ error) := by
  refine keeps_bind (keeps_write _ fun db hdb => ?_) fun _ => keeps_bind (keeps_read _) fun row => ?_
  · exact h.runs db _ hdb (.complete name t status at_ error hown hstatus hskipped)
  · cases row with
    | none => exact keeps_raise _
    | some _ => exact keeps_pure _

theorem keeps_completeMarketEvent (h : RunRules own inv) (hown : own name t)
    {status : SchedulerRunStatus} {error : Option String} (hstatus : status ≠ .running)
    (hskipped : name.isRecovery → status = .skipped → isRetryableMarketEventError error) :
    Keeps inv (b.completeMarketEvent name t status error) :=
  Keeps.scope (keeps_bind (keeps_completeSchedulerRun h hown hstatus hskipped _) fun _ => keeps_pure _)

theorem keeps_endRun (h : RunRules own inv) (hown : own name t)
    {status : SchedulerRunStatus} (hstatus : status = .completed ∨ status = .failed) (error : Option String) :
    Keeps inv (b.completeMarketEvent name t status error) := by
  rcases hstatus with rfl | rfl
  · exact keeps_completeMarketEvent h hown (by decide) fun _ hs => by cases hs
  · exact keeps_completeMarketEvent h hown (by decide) fun _ hs => by cases hs

theorem keeps_releaseUncommittedSchedulerRun (h : RunRules own inv) (hown : own name t)
    {code : String} (hcode : name.isRecovery → isRetryableMarketEventError (some code)) :
    Keeps inv (b.releaseUncommittedSchedulerRun name t code) := by
  refine keeps_read_bind fun s hs => ?_
  cases hfind : s.db.schedulerRuns.find? (isRun name t) with
  | none => exact hs
  | some existing =>
    dsimp only
    split_ifs with hrecovery
    · exact keeps_completeMarketEvent h hown (by decide) (fun hname _ => hcode hname) s hs
    · refine scope_keeps hs fun _ s' hdelete => ?_
      unfold deleteSchedulerRunIfRunning execute at hdelete
      rw [write_ok_db hdelete]
      have hplain : existing.recoveryOfRunId = none := by simpa using hrecovery
      exact h.runs _ _ hs (.delete name t hown ⟨existing, hfind, hplain⟩)

theorem keeps_persistedOutcome (skipped : Bool) : Keeps inv (persistedOutcome name t e skipped) := by
  refine keeps_bind (keeps_read _) fun run => ?_
  cases run with
  | none => exact keeps_raise _
  | some _ => exact keeps_pure _

theorem jobName_not_recovery (b : MarketEventBridge) (e : MarketEvent) : (b.jobName e).isRecovery = false := by
  unfold MarketEventBridge.jobName marketEventJobName
  split
  · rfl
  · rfl

theorem keeps_deferredOutcome (h : RunRules (Own b e recovers) inv) (exc : Exc) :
    Keeps inv (b.deferredOutcome e exc (b.jobName e)) := by
  refine keeps_bind (keeps_releaseUncommittedSchedulerRun h .event fun hname => ?_) fun _ => keeps_pure _
  rw [jobName_not_recovery] at hname
  cases hname

theorem keeps_deferredRecovery (h : RunRules own inv) (hown : own name e.scheduledFor) {exc : Exc}
    (hexc : isRetryableMarketEventError (some (errorCode exc))) :
    Keeps inv (b.deferredOutcome e exc name) :=
  keeps_bind (keeps_releaseUncommittedSchedulerRun h hown fun _ => hexc) fun _ => keeps_pure _

theorem keeps_reactivateRecoveryAttempt (h : RunRules own inv) (hown : own name t) :
    Keeps inv (b.reactivateRecoveryAttempt name t) := by
  have hensure : Keeps inv (do
      let _ ← b.ensureSchedulerRun name t
      pure ()) :=
    keeps_bind (keeps_ensureSchedulerRun h hown) fun _ => keeps_pure _
  refine keeps_read_bind fun s hs => ?_
  cases hfind : s.db.schedulerRuns.find? (isRun name t) with
  | none => exact hensure s hs
  | some existing =>
    dsimp only
    split_ifs with hskipped
    · refine scope_keeps hs fun _ s' hwrite => ?_
      unfold reactivateSchedulerRun updateSchedulerRun execute at hwrite
      rw [write_ok_db hwrite]
      exact h.runs _ _ hs (.reactivate _ _ _ hown ⟨existing, hfind, hskipped⟩)
    · exact hensure s hs
    · exact hs

theorem keeps_recoveryFailed {c : RecoveryContext} (h : RunRules own inv)
    (hown : own c.recoveryJobName e.scheduledFor) (error : String) (terminal : Bool) :
    Keeps inv (b.recoveryFailed e c error terminal) :=
  keeps_bind (keeps_endRun h hown (.inr rfl) _) fun _ => keeps_pure _

end Runs

section Jobs

variable {b : MarketEventBridge} {e : MarketEvent} {inv : Db → Prop}
  {ctx : JobContexts} {t : Time} {job : SchedulerJobName} {s : Session Db}

theorem keeps_completeRun (h : RunRules (JobOwn e) inv) {status : SchedulerRunStatus}
    (hstatus : status ≠ .running) (error : Option String) :
    Keeps inv (b.scheduler.completeRun t job status error) :=
  (keeps_completeSchedulerRun h (.job job t) hstatus (fun hname => by cases hname) _).scope

theorem keeps_persistedJobOutcome (error : Option String) : Keeps inv (persistedJobOutcome t job error) := by
  refine keeps_bind (keeps_read _) fun run => ?_
  cases run with
  | some _ => exact keeps_pure _
  | none => exact keeps_pure _

theorem executeJob_keeps (h : RunRules (JobOwn e) inv) (hhandler : inv (b.scheduler.handler ctx t job s).2.db) :
    inv (b.scheduler.executeJob ctx t job s).2.db := by
  have hbody : inv ((do
      b.scheduler.handler ctx t job
      let _ ← b.scheduler.completeRun t job .completed none
      persistedJobOutcome t job none : Query JobRunOutcome) s).2.db :=
    bind_keeps hhandler fun _ => keeps_bind (keeps_completeRun h (by decide) _) fun _ => keeps_persistedJobOutcome _
  refine bind_keeps (m := attempt _) hbody fun result => ?_
  cases result with
  | ok _ => exact keeps_pure _
  | error _ => exact keeps_bind (keeps_completeRun h (by decide) _) fun _ => keeps_persistedJobOutcome _

theorem runJob_keeps {pre : Db → Prop} (hpre : RunRules (JobOwn e) pre) (h : RunRules (JobOwn e) inv)
    (hweaker : ∀ db, pre db → inv db)
    (hhandler : ∀ s, pre s.db → inv (b.scheduler.handler ctx t job s).2.db) (hs : pre s.db) :
    inv (b.scheduler.runJob ctx t job s).2.db := by
  have hstart : inv (b.scheduler.startJob ctx t job s).2.db := by
    have hinsert := (keeps_insertRun hpre (.job job t) (b.scheduler.now .jobStarted)).leaves hs
    refine (hinsert.bind_mono (q := fun _ _ => True) hweaker fun (r : SchedulerRun × Bool) t' ht' _ =>
      show Leaves inv _ ((if !r.2 && decide (r.1.status = .completed) then
        pure { job, scheduledFor := t, status := .completed, skipped := true }
      else b.scheduler.executeJob ctx t job : Query JobRunOutcome)) t' from ?_).1
    split_ifs
    · exact leaves_pure (hweaker _ ht') trivial
    · exact ⟨executeJob_keeps h (hhandler t' ht'), fun _ _ _ => trivial⟩
  unfold runJob
  split_ifs
  · exact hweaker _ hs
  · rw [getSchedulerRun, read_bind]
    split_ifs
    · exact hweaker _ hs
    · exact hweaker _ hs
    · exact hstart

theorem keeps_runJob (h : JobRules b e inv) (hjob : JobOf b e ctx t job) :
    Keeps inv (b.scheduler.runJob ctx t job) := fun _ hs =>
  runJob_keeps h.toRunRules h.toRunRules (fun _ h => h) (h.handler ctx t job hjob) hs

theorem keeps_runOpenSubsequence (h : JobRules b e inv) (hjob : JobOf b e ctx t job) :
    Keeps inv (b.scheduler.runOpenSubsequence ctx t job) := by
  unfold runOpenSubsequence
  split_ifs
  · exact keeps_bind (keeps_runJob h hjob) fun _ => keeps_pure _
  · exact keeps_pure _

end Jobs

section Open

variable {b : MarketEventBridge} {e : MarketEvent} {recovers : RecoveryContext → Prop} {inv : Db → Prop}

theorem keeps_candleFor (message : String) : Keeps inv (b.candleFor e message) := by
  unfold candleFor
  split
  · exact keeps_raise _
  · split_ifs
    · exact keeps_raise _
    · exact keeps_pure _

theorem candleFor_ok {message : String} {candle : Candle} {s s' : Session Db}
    (h : b.candleFor e message s = (.ok candle, s')) :
    s' = s ∧ b.latestDaily e.symbol = some candle ∧ candle.openTime = e.candleOpenTime := by
  unfold candleFor at h
  cases hlatest : b.latestDaily e.symbol with
  | none =>
    rw [hlatest] at h
    cases h
  | some latest =>
    simp only [hlatest] at h
    split_ifs at h with hopen
    · cases h
    · cases h
      exact ⟨rfl, rfl, not_not.mp hopen⟩

theorem buildOpenContexts_ok {candle : Candle} {r : BySymbol Execution.FillProcessingContext × StopContext}
    {s s' : Session Db} (h : b.builder.buildOpenContexts e.symbol candle s = (.ok r, s')) :
    s' = s ∧ ∃ atr14 constraints, ({ fill := r.1, stop := some r.2 } : JobContexts) =
      openContexts b e candle atr14 constraints := by
  obtain ⟨constraints, u, hconstraints, h⟩ := bind_eq_ok.mp h
  obtain ⟨_, rfl⟩ := Effects.ofExcept_eq_ok.mp hconstraints
  obtain ⟨bundle, u, hbundle, h⟩ := bind_eq_ok.mp h
  obtain ⟨_, rfl⟩ := Effects.ofExcept_eq_ok.mp hbundle
  split_ifs at h
  · cases h
  · obtain ⟨evaluation, u, hevaluation, h⟩ := bind_eq_ok.mp h
    obtain ⟨_, rfl⟩ := Effects.ofExcept_eq_ok.mp hevaluation
    cases hatr : evaluation.atr with
    | none =>
      simp only [hatr] at h
      cases h
    | some atr14 =>
      simp only [hatr] at h
      split_ifs at h
      · cases h
      · cases h
        exact ⟨rfl, atr14, constraints, rfl⟩

theorem keeps_buildOpenContexts (candle : Candle) : Keeps inv (b.builder.buildOpenContexts e.symbol candle) := by
  refine keeps_bind (keeps_ofExcept _) fun _ => keeps_bind (keeps_ofExcept _) fun _ => ?_
  split_ifs
  · exact keeps_raise _
  · refine keeps_bind (keeps_ofExcept _) fun evaluation => ?_
    split
    · exact keeps_raise _
    · split_ifs
      · exact keeps_raise _
      · exact keeps_pure _

theorem keeps_runOpenSubjob (h : JobRules b e inv) {name : JobName} (hname : name ∈ openSubjobs e)
    {runner : Query (List JobRunOutcome)} (hrunner : Keeps inv runner) :
    Keeps inv (b.runOpenSubjob name e.candleOpenTime runner) := by
  have hown : JobOwn e name e.candleOpenTime := .subjob hname
  have hrecovery : name.isRecovery = false := by
    rcases List.mem_cons.mp hname with rfl | hname
    · rfl
    rcases List.mem_cons.mp hname with rfl | hname
    · rfl
    · rw [List.mem_singleton.mp hname]
      rfl
  have hbody : Keeps inv (b.subjobBody name e.candleOpenTime runner) := by
    refine keeps_bind hrunner fun outcomes => keeps_bind (keeps_ofExcept _) fun _ => ?_
    split_ifs
    · exact keeps_endRun h.toRunRules hown (.inl rfl) _
    · exact keeps_raise _
  refine keeps_bind (keeps_read _) fun existing => ?_
  split_ifs
  · exact keeps_pure _
  · refine keeps_bind (keeps_ensureSchedulerRun h.toRunRules hown) fun _ =>
      keeps_bind (keeps_attempt hbody) fun result => ?_
    split
    · exact keeps_pure _
    · refine keeps_bind (keeps_releaseUncommittedSchedulerRun h.toRunRules hown fun hname => ?_) fun _ => keeps_raise _
      rw [hrecovery] at hname
      cases hname
    · exact keeps_raise _
    · exact keeps_raise _

theorem keeps_handleDailyOpen (h : JobRules b e inv) (htype : e.eventType = .dailyOpenAvailable) :
    Keeps inv (b.handleDailyOpen e) := by
  refine keeps_bind_ok (keeps_candleFor _) fun s candle s₁ _ hcandle hs₁ => ?_
  obtain ⟨_, hlatest, htime⟩ := candleFor_ok hcandle
  refine keeps_bind_ok (keeps_buildOpenContexts candle) (fun s₂ contexts s₃ _ hcontexts hs₃ => ?_) s₁ hs₁
  obtain ⟨_, atr14, constraints, hctx⟩ := buildOpenContexts_ok hcontexts
  have hjob : ∀ job ∈ [SchedulerJobName.stopTriggerProcessing, .nextOpenFillProcessing, .portfolioSnapshot],
      Keeps inv (b.scheduler.runOpenSubsequence { fill := contexts.1, stop := some contexts.2 }
        e.candleOpenTime job) := by
    intro job hjob
    rw [hctx]
    exact keeps_runOpenSubsequence h (.opening htype hlatest htime hjob)
  refine keeps_bind (Keeps.scope (keeps_runOpenSubjob h ?_ (hjob _ ?_))) (fun _ => ?_) s₃ hs₃
  · simp [openSubjobs]
  · simp
  · split_ifs
    · exact keeps_raise _
    · refine Keeps.scope (keeps_bind (keeps_runOpenSubjob h ?_ (hjob _ ?_)) fun _ =>
        keeps_runOpenSubjob h ?_ (hjob _ ?_))
      · simp [openSubjobs]
      · simp
      · simp [openSubjobs]
      · simp

theorem keeps_activeRecoveryContext (name : JobName) (t : Time) : Keeps inv (b.activeRecoveryContext name t) := by
  unfold activeRecoveryContext
  split
  · exact keeps_pure _
  · refine keeps_bind (keeps_read _) fun existing => ?_
    cases existing with
    | none => exact keeps_pure _
    | some existing => exact keeps_bind (keeps_read _) fun _ => keeps_pure _

theorem activeRecoveryContext_ok (h : Rules b e recovers inv) {c : RecoveryContext} {s s' : Session Db}
    (hs : inv s.db) (hrun : b.activeRecoveryContext (b.jobName e) e.scheduledFor s = (.ok (some c), s')) :
    recovers c := by
  unfold activeRecoveryContext at hrun
  cases hpending : b.recoveryPending with
  | some pending =>
    simp only [hpending] at hrun
    cases hrun
    exact h.pending pending hpending
  | none =>
    simp only [hpending, getSchedulerRun] at hrun
    rw [read_bind] at hrun
    cases hfind : s.db.schedulerRuns.find? (isRun (b.jobName e) e.scheduledFor) with
    | none =>
      simp only [hfind] at hrun
      cases hrun
    | some existing =>
      simp only [hfind, getActiveRecoveryAttempt] at hrun
      rw [read_bind] at hrun
      obtain ⟨hsome, _⟩ := pure_eq_ok.mp hrun
      obtain ⟨a, ha, rfl⟩ := Option.map_eq_some_iff.mp hsome
      exact h.found s.db existing a hs hfind (congrArg Except.ok ha)

theorem keeps_maybeShortCircuitPermanentFailure (name : JobName) (t : Time) :
    Keeps inv (b.maybeShortCircuitPermanentFailure e name t) := by
  refine keeps_bind (keeps_read _) fun existing => ?_
  cases existing with
  | none => exact keeps_pure _
  | some existing =>
    dsimp only
    split_ifs
    · exact keeps_pure _
    · refine keeps_bind (keeps_activeRecoveryContext _ _) fun recovery => ?_
      split_ifs
      · exact keeps_pure _
      · exact keeps_pure _

theorem keeps_failDailyOpenParent (h : Rules b e recovers inv) (message : String) :
    Keeps inv (b.failDailyOpenParent (b.jobName e) e.scheduledFor message) := by
  refine keeps_bind (keeps_read _) fun existing => ?_
  split_ifs
  · exact keeps_pure _
  · refine keeps_bind (keeps_ensureSchedulerRun h.toRunRules .event) fun _ => ?_
    exact keeps_endRun h.toRunRules .event (.inr rfl) _
  · exact keeps_endRun h.toRunRules .event (.inr rfl) _

theorem keeps_persistDailyOpenFailureAudit (h : Rules b e recovers inv) {subjob : JobName}
    (hsubjob : subjob ∈ openSubjobs e ∨ subjob = b.jobName e) (message : String) :
    Keeps inv (b.persistDailyOpenFailureAudit (b.jobName e) e.scheduledFor subjob message) := by
  refine keeps_bind (keeps_failDailyOpenParent h message) fun _ => ?_
  split_ifs with hne
  · have hown : Own b e recovers subjob e.scheduledFor := .handler (.subjob (hsubjob.resolve_right hne))
    refine keeps_bind (keeps_read _) fun existing => ?_
    split_ifs
    · refine keeps_bind (keeps_ensureSchedulerRun h.toRunRules hown) fun _ => ?_
      exact keeps_endRun h.toRunRules hown (.inr rfl) _
    · exact keeps_endRun h.toRunRules hown (.inr rfl) _
  · exact keeps_pure _

theorem keeps_runDailyOpen (h : Rules b e recovers inv) (htype : e.eventType = .dailyOpenAvailable) :
    Keeps inv (b.runDailyOpen e) := by
  refine keeps_bind (keeps_ensureSchedulerRun h.toRunRules .event) fun _ => ?_
  have hbody : Keeps inv (do
      b.handleDailyOpen e
      b.completeMarketEvent (b.jobName e) e.scheduledFor .completed none
      persistedOutcome (b.jobName e) e.scheduledFor e false) :=
    keeps_bind (keeps_handleDailyOpen h.jobs htype) fun _ =>
      keeps_bind (keeps_endRun h.toRunRules .event (.inl rfl) _) fun _ => keeps_persistedOutcome _
  have hraises : Raises (NamesOwnSubjob e) (do
      b.handleDailyOpen e
      b.completeMarketEvent (b.jobName e) e.scheduledFor .completed none
      persistedOutcome (b.jobName e) e.scheduledFor e false) := by
    refine raises_bind (handleDailyOpen_raises b e) fun _ => ?_
    refine raises_bind ((completeMarketEvent_raises b _ _ _ _).mono fun _ => .of_storage) fun _ => ?_
    refine raises_bind (raises_read _) fun run => ?_
    cases run with
    | none => exact raises_raise fun _ _ h => by cases h
    | some _ => exact raises_pure _
  refine hbody.attempt_bind hraises (fun _ => keeps_pure _) fun exc hexc => ?_
  split
  · exact keeps_pure _
  · exact keeps_deferredOutcome h.toRunRules _
  · exact keeps_deferredOutcome h.toRunRules _
  · exact keeps_deferredOutcome h.toRunRules _
  · exact keeps_bind (keeps_endRun h.toRunRules .event (.inr rfl) _) fun _ => keeps_pure _
  · rename_i subjob m heq
    have hsubjob := hexc subjob m (Except.error.inj heq)
    refine keeps_bind (keeps_persistDailyOpenFailureAudit h (.inl hsubjob) m) fun _ => ?_
    exact keeps_persistedOutcome _
  · refine keeps_bind (keeps_persistDailyOpenFailureAudit h (.inr rfl) _) fun _ => ?_
    exact keeps_persistedOutcome _

theorem keeps_processDailyOpenRecovery (h : Rules b e recovers inv) (htype : e.eventType = .dailyOpenAvailable)
    {c : RecoveryContext} (hc : recovers c) : Keeps inv (b.processDailyOpenRecovery e c) := by
  refine keeps_bind (keeps_reactivateRecoveryAttempt h.toRunRules (.recovery hc)) fun _ => ?_
  have hbody : Keeps inv (do
      b.handleDailyOpen e
      b.completeMarketEvent c.recoveryJobName e.scheduledFor .completed none
      markRunResolved c.originalRunId c.recoveryRunId) := by
    refine keeps_bind (keeps_handleDailyOpen h.jobs htype) fun _ => ?_
    refine keeps_bind (keeps_endRun h.toRunRules (.recovery hc) (.inl rfl) _) fun _ => ?_
    exact keeps_write _ fun db hdb => h.resolve db c hdb hc
  refine keeps_bind (keeps_attempt hbody) fun result => ?_
  split
  · exact keeps_pure _
  · exact keeps_deferredRecovery h.toRunRules (.recovery hc) rfl
  · exact keeps_deferredRecovery h.toRunRules (.recovery hc) rfl
  · exact keeps_deferredRecovery h.toRunRules (.recovery hc) rfl
  · exact keeps_recoveryFailed h.toRunRules (.recovery hc) _ _
  · exact keeps_recoveryFailed h.toRunRules (.recovery hc) _ _
  · exact keeps_recoveryFailed h.toRunRules (.recovery hc) _ _

theorem keeps_isCompleted (name : JobName) (t : Time) : Keeps inv (isCompleted name t) :=
  keeps_bind (keeps_read _) fun _ => keeps_pure _

theorem keeps_dailyOpenTerminalComplete (symbol : Symbol) (t : Time) :
    Keeps inv (dailyOpenTerminalComplete symbol t) :=
  keeps_bind (keeps_isCompleted _ _) fun _ => keeps_bind (keeps_isCompleted _ _) fun _ =>
    keeps_bind (keeps_isCompleted _ _) fun _ => keeps_pure _

theorem keeps_ensureParentRunCompleted (h : Rules b e recovers inv) :
    Keeps inv (b.ensureParentRunCompleted (b.jobName e) e.scheduledFor) := by
  refine keeps_bind (keeps_read _) fun existing => ?_
  split_ifs
  · exact keeps_pure _
  · refine keeps_bind (keeps_ensureSchedulerRun h.toRunRules .event) fun _ => ?_
    exact keeps_endRun h.toRunRules .event (.inl rfl) _
  · exact keeps_endRun h.toRunRules .event (.inl rfl) _

theorem keeps_processDailyOpen (h : Rules b e recovers inv) (htype : e.eventType = .dailyOpenAvailable) :
    Keeps inv (b.processDailyOpen e) := by
  refine keeps_bind (keeps_maybeShortCircuitPermanentFailure _ _) fun shortCircuit => ?_
  cases shortCircuit with
  | some _ => exact keeps_pure _
  | none =>
    refine keeps_bind_ok (keeps_activeRecoveryContext _ _) fun s recovery s' hs hrecovery hs' => ?_
    cases recovery with
    | some c => exact keeps_processDailyOpenRecovery h htype (activeRecoveryContext_ok h hs hrecovery) s' hs'
    | none =>
      refine keeps_bind (keeps_dailyOpenTerminalComplete _ _) (fun complete => ?_) s' hs'
      split_ifs
      · exact keeps_bind (keeps_ensureParentRunCompleted h) fun _ => keeps_persistedOutcome _
      · exact keeps_runDailyOpen h htype

end Open

section LiveAndClose

variable {b : MarketEventBridge} {e : MarketEvent} {recovers : RecoveryContext → Prop} {inv : Db → Prop}

theorem buildIntradayStopContext_ok {candle : Candle} {stop : StopContext} {s s' : Session Db}
    (h : b.builder.buildIntradayStopContext e.symbol candle s = (.ok stop, s')) :
    s' = s ∧ ∃ constraints, stop = .intraday (BySymbol.single e.symbol candle)
      (BySymbol.single e.symbol constraints) := by
  obtain ⟨constraints, u, hconstraints, h⟩ := bind_eq_ok.mp h
  obtain ⟨_, rfl⟩ := Effects.ofExcept_eq_ok.mp hconstraints
  split_ifs at h
  · cases h
  · cases h
    exact ⟨rfl, constraints, rfl⟩

theorem keeps_handleDailyLive (h : JobRules b e inv) (htype : e.eventType = .dailyLiveUpdate) :
    Keeps inv (b.handleDailyLive e) := by
  refine keeps_bind_ok (keeps_candleFor _) fun s candle s₁ _ hcandle hs₁ => ?_
  obtain ⟨_, hlatest, htime⟩ := candleFor_ok hcandle
  have hbuild : Keeps inv (b.builder.buildIntradayStopContext e.symbol
      { candle with low := e.observedLow.getD candle.low }) := by
    refine keeps_bind (keeps_ofExcept _) fun _ => ?_
    split_ifs
    · exact keeps_raise _
    · exact keeps_pure _
  refine keeps_bind_ok hbuild (fun s₂ stop s₃ _ hstop hs₃ => ?_) s₁ hs₁
  obtain ⟨_, constraints, rfl⟩ := buildIntradayStopContext_ok hstop
  have hjob : JobOf b e (liveContexts e candle constraints) e.candleOpenTime .intradayStopProcessing :=
    .live htype hlatest htime
  refine keeps_bind (keeps_runJob h hjob) (fun outcome => ?_) s₃ hs₃
  split_ifs
  · exact keeps_raise _
  · exact keeps_ofExcept _

theorem keeps_buildEvaluationContext (t : Time) : Keeps inv (b.builder.buildEvaluationContext e.symbol t) := by
  refine keeps_bind (keeps_ofExcept _) fun _ => keeps_bind (keeps_ofExcept _) fun bundle => ?_
  split_ifs
  · exact keeps_raise _
  · refine keeps_bind (keeps_bind (keeps_read _) fun runtime => ?_) fun gates => ?_
    · cases runtime with
      | none => exact keeps_pure _
      | some _ => exact keeps_pure _
    · refine keeps_bind ?_ fun _ => keeps_pure _
      refine keeps_bind (keeps_read _) fun _ => keeps_bind ?_ fun _ => keeps_pure _
      exact keeps_bind (keeps_read _) fun _ => keeps_scalarOneOrNone _

theorem runtimeGates_ok {r : Bool × Bool × Bool} {s s' : Session Db}
    (h : ContextBuilder.runtimeGates s = (.ok r, s')) : s' = s := by
  unfold ContextBuilder.runtimeGates getRuntimeState at h
  rw [read_bind] at h
  cases hstate : s.db.runtimeState with
  | none =>
    simp only [hstate] at h
    cases h
    rfl
  | some runtime =>
    simp only [hstate] at h
    cases h
    rfl

theorem keeps_buildStopContextForClose (t : Time) :
    Keeps inv (b.builder.buildStopContextForClose e.symbol t) := by
  refine keeps_bind (keeps_ofExcept _) fun _ => keeps_bind (keeps_ofExcept _) fun bundle => ?_
  split
  · exact keeps_raise _
  · split_ifs
    · exact keeps_raise _
    · refine keeps_bind (keeps_bind (keeps_read _) fun _ => keeps_scalarOneOrNone _) fun _ => ?_
      exact keeps_bind (keeps_read _) fun _ => keeps_pure _

theorem keeps_handleDailyClosed (h : JobRules b e inv) (htype : e.eventType = .dailyClosed) :
    Keeps inv (b.handleDailyClosed e) := by
  refine keeps_bind (keeps_candleFor _) fun candle => ?_
  dsimp only
  split_ifs
  · exact keeps_raise _
  · refine keeps_bind (keeps_buildEvaluationContext _) fun evaluation => ?_
    refine keeps_bind (keeps_buildStopContextForClose _) fun stop => ?_
    refine keeps_bind ?_ fun _ => keeps_ofExcept _
    unfold runDailyCloseSequence
    split_ifs
    · exact keeps_pure _
    · exact keeps_pure _
    · refine keeps_forEach fun job hjob => keeps_runJob h ?_
      exact .closing htype hjob

theorem keeps_runEvent (h : RunRules (Own b e recovers) inv) {handle : Query Unit} (hhandle : Keeps inv handle) :
    Keeps inv (b.runEvent e handle) := by
  have hbody : Keeps inv (do
      handle
      b.completeMarketEvent (b.jobName e) e.scheduledFor .completed none
      persistedOutcome (b.jobName e) e.scheduledFor e false) :=
    keeps_bind hhandle fun _ =>
      keeps_bind (keeps_endRun h .event (.inl rfl) _) fun _ => keeps_persistedOutcome _
  refine keeps_bind (keeps_attempt hbody) fun result => ?_
  split
  · exact keeps_pure _
  · exact keeps_deferredOutcome h _
  · exact keeps_deferredOutcome h _
  · exact keeps_deferredOutcome h _
  · exact keeps_bind (keeps_endRun h .event (.inr rfl) _) fun _ => keeps_pure _
  · exact keeps_bind (keeps_endRun h .event (.inr rfl) _) fun _ => keeps_persistedOutcome _

theorem keeps_processLiveOrClosed (h : RunRules (Own b e recovers) inv) {handle : Query Unit}
    (hhandle : Keeps inv handle) : Keeps inv (b.processLiveOrClosed e handle) := by
  refine keeps_bind (keeps_ensureSchedulerRun h .event) fun r => ?_
  dsimp only
  split_ifs
  · exact keeps_pure _
  · exact keeps_runEvent h hhandle

theorem keeps_completeMarkerEvent (h : Rules b e recovers inv) : Keeps inv (b.completeMarkerEvent e) := by
  refine keeps_bind (keeps_ensureSchedulerRun h.toRunRules .event) fun r => ?_
  dsimp only
  split_ifs
  · exact keeps_pure _
  · exact keeps_bind (keeps_endRun h.toRunRules .event (.inl rfl) _) fun _ => keeps_persistedOutcome _

/-- A property that survives each change the bridge can make survives the processing of an event, whatever
becomes of it. -/
theorem keeps_processEvent (h : Rules b e recovers inv) : Keeps inv (b.processEvent e) := by
  unfold processEvent
  split_ifs with _ hopen
  · exact keeps_raise _
  · exact keeps_processDailyOpen h hopen
  · refine keeps_bind (keeps_maybeShortCircuitPermanentFailure _ _) fun shortCircuit => ?_
    cases shortCircuit with
    | some _ => exact keeps_pure _
    | none =>
      refine keeps_bind (keeps_isCompleted _ _) fun complete => ?_
      split_ifs
      · exact keeps_pure _
      · split
        · exact keeps_completeMarkerEvent h
        · exact keeps_completeMarkerEvent h
        · exact keeps_processLiveOrClosed h.toRunRules (keeps_handleDailyLive h.jobs (by assumption))
        · exact keeps_processLiveOrClosed h.toRunRules (keeps_handleDailyClosed h.jobs (by assumption))
        · exact keeps_raise _

theorem keeps_takeTurn {turn : Turn} (h : Rules turn.1 turn.2 recovers inv) : Keeps inv (takeTurn turn) :=
  keeps_bind (keeps_processEvent h) fun _ => keeps_pure _

theorem poll_keeps {p : Poll} {db : Db} (h : ∀ turn ∈ p.turns, ∃ recovers, Rules turn.1 turn.2 recovers inv)
    (hdb : inv db) : inv (p.run db).2 := by
  have hprocess : Keeps inv p.process := by
    refine Keeps.scope (keeps_bind (keeps_forEach fun turn hturn => ?_) fun outcomes => ?_)
    · obtain ⟨recovers, hrules⟩ := h turn hturn
      exact keeps_takeTurn hrules
    · split_ifs
      · exact keeps_pure _
      · exact keeps_raise _
  have hrun := hprocess ⟨db, p.faults⟩ hdb
  unfold Poll.run
  rcases hresult : p.process ⟨db, p.faults⟩ with ⟨exc | acked, s'⟩ <;> rw [hresult] at hrun
  · exact hrun
  · exact hrun

theorem runPolls_keeps {polls : List Poll} {db : Db}
    (h : ∀ p ∈ polls, ∀ turn ∈ p.turns, ∃ recovers, Rules turn.1 turn.2 recovers inv) (hdb : inv db) :
    inv (runPolls db polls).2 := by
  induction polls generalizing db with
  | nil => exact hdb
  | cons p ps ih =>
    have hp := poll_keeps (h p List.mem_cons_self) hdb
    exact ih (fun q hq => h q (List.mem_cons_of_mem p hq)) hp

end LiveAndClose

end TradingBot.Paper.EventRules
