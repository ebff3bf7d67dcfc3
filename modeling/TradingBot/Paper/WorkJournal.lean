import TradingBot.Paper.Bookkeeping
import TradingBot.Paper.Bridge

namespace TradingBot.Paper.WorkJournal

open Market.Models Market.Timeframes Exceptions Backtester.Lifecycle Library.Transaction
open Paper.Models Paper.Repository Paper.MarketEvents Paper.SchedulerContext Paper.Scheduler
open Paper.Scheduler.PaperTradingScheduler Paper.Bookkeeping Paper.Bridge

section Evidence

def symbolJobs : List SchedulerJobName :=
  [.dailySignalEvaluation, .dailyStopUpdate, .stopTriggerProcessing, .nextOpenFillProcessing]

def openWork (symbol : Symbol) (openTime : Time) : List WorkEntry :=
  [⟨.stopTriggerProcessing, openTime, symbol⟩, ⟨.nextOpenFillProcessing, openTime, symbol⟩]

def closeWork (symbol : Symbol) (openTime : Time) : List WorkEntry :=
  [⟨.dailySignalEvaluation, dailyClose openTime, symbol⟩, ⟨.dailyStopUpdate, dailyClose openTime, symbol⟩]

/-- The work that a completed run of the bridge stands for; its name carries the symbol. -/
def eventWork : JobName → Time → List WorkEntry
  | .dailyOpenGap symbol _, t => [⟨.stopTriggerProcessing, t, symbol⟩]
  | .dailyOpenFill symbol _, t => [⟨.nextOpenFillProcessing, t, symbol⟩]
  | .marketEvent .dailyOpenAvailable symbol _, t => openWork symbol t
  | .marketEvent .dailyClosed symbol _, t => closeWork symbol t
  | _, _ => []

def requiredWork (symbol : Symbol) : JobName → Time → List WorkEntry
  | .scheduler job, t => if job ∈ symbolJobs then [⟨job, t, symbol⟩] else []
  | jobName, t => eventWork jobName t

/-- The runs of a candle are scheduled for its open or its close. -/
def Concerns (openTime t : Time) : Prop := t = openTime ∨ t = dailyClose openTime

structure Evidenced (symbol : Symbol) (openTime : Time) (kept : List WorkEntry) (db : Db) : Prop where
  runs : ∀ r ∈ db.schedulerRuns, r.status = .completed → Concerns openTime r.scheduledFor →
    requiredWork symbol r.jobName r.scheduledFor ⊆ db.work
  kept : kept ⊆ db.work

variable {symbol : Symbol} {openTime t : Time} {kept : List WorkEntry} {s : Session Db}

theorem Evidenced.add {db : Db} (h : Evidenced symbol openTime kept db) {more : List WorkEntry}
    (hmore : more ⊆ db.work) : Evidenced symbol openTime (more ++ kept) db :=
  ⟨h.runs, List.append_subset.mpr ⟨hmore, h.kept⟩⟩

theorem Evidenced.drop {db : Db} {more : List WorkEntry}
    (h : Evidenced symbol openTime (more ++ kept) db) : Evidenced symbol openTime kept db :=
  ⟨h.runs, (List.append_subset.mp h.kept).2⟩

instance : Journals (Evidenced symbol openTime kept) where
  frame := fun {db db'} hruns hwork _ h => by
    obtain ⟨hevidence, hkept⟩ := h
    rw [← hwork] at hevidence hkept
    exact ⟨fun r hr => hevidence r (hruns ▸ hr), hkept⟩
  grows := fun {db} more h =>
    ⟨fun r hr hc ht => List.Subset.trans (h.runs r hr hc ht) (List.subset_append_left _ _),
      List.Subset.trans h.kept (List.subset_append_left _ _)⟩

end Evidence

section Runs

variable {symbol : Symbol} {openTime t : Time} {kept : List WorkEntry} {s : Session Db} {jobName : JobName}

/-- Rows may be dropped and changed as long as none becomes completed without its work. -/
theorem Evidenced.of_runs {db : Db} (h : Evidenced symbol openTime kept db) {runs : List SchedulerRun}
    (hruns : ∀ r ∈ runs, r.status = .completed → Concerns openTime r.scheduledFor →
      requiredWork symbol r.jobName r.scheduledFor ⊆ db.work) :
    Evidenced symbol openTime kept { db with schedulerRuns := runs } := ⟨hruns, h.kept⟩

theorem updateSchedulerRun_leaves {f : SchedulerRun → SchedulerRun}
    (hkey : ∀ r, (f r).jobName = r.jobName ∧ (f r).scheduledFor = r.scheduledFor)
    (hs : Evidenced symbol openTime kept s.db)
    (hf : ∀ r, isRun jobName t r → (f r).status = .completed → r.status = .completed ∨
      (Concerns openTime t → requiredWork symbol jobName t ⊆ s.db.work)) :
    Evidenced symbol openTime kept (updateSchedulerRun jobName t f s).2.db := by
  have hwrite : Evidenced symbol openTime kept
      { s.db with schedulerRuns := s.db.schedulerRuns.map (modifyRun jobName t f) } := by
    refine hs.of_runs fun r hr hc ht => ?_
    obtain ⟨r₀, hr₀, rfl⟩ := List.mem_map.mp hr
    unfold modifyRun at hc ht ⊢
    split_ifs at hc ht ⊢ with hrun
    · rw [(hkey r₀).1, (hkey r₀).2]
      rw [(hkey r₀).2] at ht
      rcases hf r₀ hrun hc with hdone | hwork
      · exact hs.runs r₀ hr₀ hdone ht
      · simp only [isRun, decide_eq_true_eq] at hrun
        rw [hrun.1, hrun.2]
        exact hwork (hrun.2 ▸ ht)
    · exact hs.runs r₀ hr₀ hc ht
  unfold updateSchedulerRun execute write flush
  simp only [bind]
  split <;> rename_i h <;> split at h <;> cases h
  · exact hwrite
  · exact hs

theorem completeSchedulerRun_leaves {status : SchedulerRunStatus} {now : Time} {error : Option String}
    (hs : Evidenced symbol openTime kept s.db)
    (hwork : status = .completed → Concerns openTime t → requiredWork symbol jobName t ⊆ s.db.work) :
    Leaves (Evidenced symbol openTime kept) (fun _ _ => True)
      (completeSchedulerRun jobName t status now error) s := by
  have hupdate : Leaves (Evidenced symbol openTime kept) (fun _ _ => True)
      (updateSchedulerRun jobName t fun r =>
        { r with status := status, completedAt := some now, error := error }) s :=
    ⟨updateSchedulerRun_leaves (fun _ => ⟨rfl, rfl⟩) hs fun _ _ hc => .inr (hwork hc), fun _ _ _ => trivial⟩
  refine hupdate.bind fun _ t ht _ => Keeps.leaves (keeps_bind (keeps_read _) fun row => ?_) ht
  cases row with
  | none => exact keeps_raise _
  | some _ => exact keeps_pure _

theorem completeMarketEvent_leaves (b : MarketEventBridge) {status : SchedulerRunStatus}
    {error : Option String} (hs : Evidenced symbol openTime kept s.db)
    (hwork : status = .completed → Concerns openTime t → requiredWork symbol jobName t ⊆ s.db.work) :
    Leaves (Evidenced symbol openTime kept) (fun _ _ => True)
      (b.completeMarketEvent jobName t status error) s := by
  refine Leaves.scope hs ((completeSchedulerRun_leaves hs hwork).bind fun _ _ ht _ => ?_)
  exact leaves_pure ht trivial

theorem completeMarketEvent_keeps (b : MarketEventBridge) {status : SchedulerRunStatus}
    (hstatus : status ≠ .completed) (error : Option String) :
    Keeps (Evidenced symbol openTime kept) (b.completeMarketEvent jobName t status error) :=
  fun _ hs => (completeMarketEvent_leaves b hs fun h => absurd h hstatus).1

theorem releaseUncommittedSchedulerRun_keeps (b : MarketEventBridge) (code : String) :
    Keeps (Evidenced symbol openTime kept) (b.releaseUncommittedSchedulerRun jobName t code) := by
  refine keeps_bind (keeps_read _) fun existing => ?_
  cases existing with
  | none => exact keeps_pure _
  | some existing =>
    dsimp only
    split_ifs
    · exact completeMarketEvent_keeps b (by decide) _
    · refine Keeps.scope (keeps_write _ fun db hdb => hdb.of_runs fun r hr => ?_)
      exact hdb.runs r (List.mem_of_mem_filter hr)

theorem Evidenced.of_find {db : Db} (h : Evidenced symbol openTime kept db) {r : SchedulerRun}
    (hfind : db.schedulerRuns.find? (isRun jobName t) = some r) (hc : r.status = .completed)
    (ht : Concerns openTime t) : requiredWork symbol jobName t ⊆ db.work := by
  have hrun : isRun jobName t r = true := List.find?_some hfind
  simp only [isRun, decide_eq_true_eq] at hrun
  have hwork := h.runs r (List.mem_of_find?_eq_some hfind) hc (hrun.2 ▸ ht)
  rwa [hrun.1, hrun.2] at hwork

theorem Evidenced.of_any {db : Db} (h : Evidenced symbol openTime kept db)
    (hany : (db.schedulerRuns.find? (isRun jobName t)).any (·.status = .completed))
    (ht : Concerns openTime t) : requiredWork symbol jobName t ⊆ db.work := by
  rcases hfind : db.schedulerRuns.find? (isRun jobName t) with _ | run
  · simp [hfind] at hany
  · exact h.of_find hfind (by simpa [hfind] using hany) ht

def Backed (symbol : Symbol) (openTime : Time) (jobName : JobName) (t : Time)
    (status : SchedulerRunStatus) (db : Db) : Prop :=
  status = .completed → Concerns openTime t → requiredWork symbol jobName t ⊆ db.work

theorem insertOrGetSchedulerRun_leaves {row : SchedulerRun} (hrow : row.status ≠ .completed)
    (hs : Evidenced symbol openTime kept s.db) :
    Leaves (Evidenced symbol openTime kept)
      (fun r db => Backed symbol openTime row.jobName row.scheduledFor r.1.status db)
      (insertOrGetSchedulerRun row) s := by
  unfold insertOrGetSchedulerRun getSchedulerRun
  rw [Leaves, read_bind]
  rcases hfind : s.db.schedulerRuns.find? (isRun row.jobName row.scheduledFor) with _ | run
  · have hinsert : Keeps (Evidenced symbol openTime kept)
        (execute fun db => { db with schedulerRuns := db.schedulerRuns ++ [row] }) := by
      refine keeps_write _ fun db hdb => hdb.of_runs fun r hr hc => ?_
      rcases List.mem_append.mp hr with hr | hr
      · exact hdb.runs r hr hc
      · exact absurd (List.mem_singleton.mp hr ▸ hc) hrow
    exact (hinsert.leaves hs).bind fun _ t ht _ => leaves_pure ht fun hc => absurd hc hrow
  · have hflush : Leaves (Evidenced symbol openTime kept)
        (fun _ db => Backed symbol openTime row.jobName row.scheduledFor run.status db)
        (flush Exc.databaseError) s := by
      refine ⟨keeps_flush _ s hs, fun _ t h hc ht => ?_⟩
      rw [flush_ok_db h]
      exact hs.of_find hfind hc ht
    exact hflush.bind fun _ t ht hbacked => leaves_pure ht hbacked

theorem ensureSchedulerRun_leaves (b : MarketEventBridge) (hs : Evidenced symbol openTime kept s.db) :
    Leaves (Evidenced symbol openTime kept)
      (fun r db => Backed symbol openTime jobName t r.1.status db) (b.ensureSchedulerRun jobName t) s := by
  refine (keeps_newId.leaves hs).bind fun runId t₁ ht₁ _ => ?_
  have hrow : (runRow t runId jobName (b.scheduler.now .eventStarted)).status ≠ .completed := by
    simp [runRow]
  exact Leaves.scope ht₁ (insertOrGetSchedulerRun_leaves hrow ht₁)

theorem ensureSchedulerRun_keeps (b : MarketEventBridge) :
    Keeps (Evidenced symbol openTime kept) (b.ensureSchedulerRun jobName t) :=
  fun _ hs => (ensureSchedulerRun_leaves b hs).1

theorem persistedOutcome_leaves {e : MarketEvent} {skipped : Bool}
    (hs : Evidenced symbol openTime kept s.db) :
    Leaves (Evidenced symbol openTime kept) (fun o db => Backed symbol openTime jobName t o.status db)
      (MarketEventBridge.persistedOutcome jobName t e skipped) s := by
  unfold MarketEventBridge.persistedOutcome getSchedulerRun
  rw [Leaves, read_bind]
  rcases hfind : s.db.schedulerRuns.find? (isRun jobName t) with _ | run
  · exact leaves_raise hs
  · exact leaves_pure hs fun hc ht => hs.of_find hfind hc ht

end Runs

section Jobs

variable {symbol : Symbol} {openTime t : Time} {kept : List WorkEntry} {s : Session Db}
  {sched : PaperTradingScheduler} {ctx : JobContexts} {job : SchedulerJobName}

/-- Whenever the computation returns, the entry is in the journal. -/
def Does (symbol : Symbol) (openTime : Time) (m : Query Unit) (w : WorkEntry) : Prop :=
  ∀ s s', Evidenced symbol openTime [] s.db → m s = (.ok (), s') → w ∈ s'.db.work

theorem persistedJobOutcome_leaves {error : Option String} (hs : Evidenced symbol openTime kept s.db) :
    Leaves (Evidenced symbol openTime kept)
      (fun o db => Backed symbol openTime (.scheduler job) t o.status db)
      (persistedJobOutcome t job error) s := by
  unfold persistedJobOutcome getSchedulerRun
  rw [Leaves, read_bind]
  rcases hfind : s.db.schedulerRuns.find? (isRun (.scheduler job) t) with _ | run
  · exact leaves_pure hs fun hc => by cases hc
  · exact leaves_pure hs fun hc ht => hs.of_find hfind hc ht

def ContextFor (symbol : Symbol) (ctx : JobContexts) : SchedulerJobName → Prop
  | .dailySignalEvaluation => (ctx.evaluation symbol).isSome
  | .nextOpenFillProcessing => (ctx.fill symbol).isSome
  | .dailyStopUpdate => ∀ candles atrs constraints params,
      ctx.stop = some (.atClose candles atrs constraints params) → (candles symbol).isSome
  | .stopTriggerProcessing => ∀ candles constraints,
      ctx.stop = some (.atOpen candles constraints) → (candles symbol).isSome
  | _ => True

theorem does_recordWork {α : Type} {m : Query α} {symbols : List Symbol} (h : symbol ∈ symbols) :
    Does symbol openTime (do let _ ← m; recordWork job t symbols) ⟨job, t, symbol⟩ := by
  intro s s' _ hrun
  obtain ⟨a, u, _, hrecord⟩ := bind_eq_ok.mp hrun
  cases hrecord
  exact List.mem_append_right _ (List.mem_map.mpr ⟨symbol, h, rfl⟩)

theorem mem_symbolsOf {α : Type} {contexts : BySymbol α} (h : (contexts symbol).isSome) :
    symbol ∈ symbolsOf contexts :=
  List.mem_filter.mpr ⟨mem_symbolProcessingOrder symbol, h⟩

theorem evaluations_do (hctx : (ctx.evaluation symbol).isSome) {symbols : List Symbol}
    (hmem : symbol ∈ symbols) {s s' : Session Db} {units : List Unit}
    (hs : Evidenced symbol openTime [] s.db)
    (h : forEach symbols (sched.evaluateForDailyClose ctx t) s = (.ok units, s')) :
    (⟨.dailySignalEvaluation, t, symbol⟩ : WorkEntry) ∈ s'.db.work := by
  induction symbols generalizing s units with
  | nil => cases hmem
  | cons other symbols ih =>
    obtain ⟨u, s₁, hfirst, h⟩ := bind_eq_ok.mp h
    obtain ⟨us, s₂, hrest, h⟩ := bind_eq_ok.mp h
    cases h
    have hs₁ := (keeps_evaluateForDailyClose other).of_ok hs hfirst
    rcases List.mem_cons.mp hmem with rfl | hmem
    · -- the entry is written in this turn and no later turn removes it
      have hdone : (⟨.dailySignalEvaluation, t, symbol⟩ : WorkEntry) ∈ s₁.db.work := by
        unfold evaluateForDailyClose at hfirst
        obtain ⟨c, hc⟩ := Option.isSome_iff_exists.mp hctx
        rw [hc] at hfirst
        exact does_recordWork List.mem_cons_self s s₁ hs hfirst
      have hkept : Evidenced symbol openTime [⟨.dailySignalEvaluation, t, symbol⟩] s'.db :=
        (keeps_forEach fun other _ => keeps_evaluateForDailyClose other).of_ok
          ⟨hs₁.runs, List.cons_subset.mpr ⟨hdone, List.nil_subset _⟩⟩ hrest
      exact hkept.kept List.mem_cons_self
    · exact ih hmem hs₁ hrest

theorem handler_does (hctx : ContextFor symbol ctx job) (hjob : job ∈ symbolJobs) :
    Does symbol openTime (sched.handler ctx t job) ⟨job, t, symbol⟩ := by
  cases job with
  | dailySignalEvaluation =>
    intro s s' hs h
    obtain ⟨units, u, hloop, h⟩ := bind_eq_ok.mp h
    cases h
    exact evaluations_do hctx (mem_symbolProcessingOrder symbol) hs hloop
  | nextOpenFillProcessing => exact does_recordWork (mem_symbolsOf hctx)
  | dailyStopUpdate =>
    simp only [handler, jobDailyStopUpdate]
    split
    next candles atrs constraints params hstop =>
      exact does_recordWork (mem_symbolsOf (hctx _ _ _ _ hstop))
    · exact fun _ _ _ h => absurd h raise_ne_ok
  | stopTriggerProcessing =>
    simp only [handler, jobStopTriggerProcessing]
    split
    next candles constraints hstop => exact does_recordWork (mem_symbolsOf (hctx _ _ hstop))
    · exact fun _ _ _ h => absurd h raise_ne_ok
  | readinessCheck | intradayStopProcessing | fundingProcessing | portfolioSnapshot | runtimeHeartbeat =>
    exact absurd hjob (by decide)

theorem executeJob_leaves (hctx : ContextFor symbol ctx job) (hs : Evidenced symbol openTime kept s.db) :
    Leaves (Evidenced symbol openTime kept)
      (fun o db => Backed symbol openTime (.scheduler job) t o.status db)
      (sched.executeJob ctx t job) s := by
  have hhandler : Leaves (Evidenced symbol openTime kept)
      (fun _ db => requiredWork symbol (.scheduler job) t ⊆ db.work) (sched.handler ctx t job) s := by
    refine ⟨keeps_handler job s hs, fun u s' h => ?_⟩
    dsimp only [requiredWork]
    split_ifs with hjob
    · exact List.cons_subset.mpr ⟨handler_does hctx hjob s s' ⟨hs.runs, List.nil_subset _⟩ h, List.nil_subset _⟩
    · exact List.nil_subset _
  unfold executeJob
  refine Leaves.attempt_bind (p := fun o db => Backed symbol openTime (.scheduler job) t o.status db)
    (hhandler.bind fun _ t₁ ht₁ hwork => ?_) (fun o t₂ ht₂ ho => ?_) fun e t₂ ht₂ => ?_
  · refine (Leaves.scope ht₁ (completeSchedulerRun_leaves ht₁ fun _ _ => hwork)).bind fun _ t₂ ht₂ _ => ?_
    exact persistedJobOutcome_leaves ht₂
  · exact leaves_pure ht₂ ho
  · refine (Leaves.scope ht₂ (completeSchedulerRun_leaves ht₂ fun h => by cases h)).bind fun _ t₃ ht₃ _ => ?_
    exact persistedJobOutcome_leaves ht₃

theorem startJob_leaves (hctx : ContextFor symbol ctx job) (hs : Evidenced symbol openTime kept s.db) :
    Leaves (Evidenced symbol openTime kept)
      (fun o db => Backed symbol openTime (.scheduler job) t o.status db)
      (sched.startJob ctx t job) s := by
  refine (keeps_newId.leaves hs).bind fun runId t₁ ht₁ _ => ?_
  have hrow : (runRow t runId (.scheduler job) (sched.now .jobStarted)).status ≠ .completed := by
    simp [runRow]
  refine (Leaves.scope ht₁ (insertOrGetSchedulerRun_leaves hrow ht₁)).bind fun r t₂ ht₂ hr => ?_
  obtain ⟨run, created⟩ := r
  dsimp only
  split_ifs with hcompleted
  · simp only [Bool.and_eq_true, decide_eq_true_eq] at hcompleted
    exact leaves_pure ht₂ fun _ => hr hcompleted.2
  · exact executeJob_leaves hctx ht₂

theorem runJob_leaves (hctx : ContextFor symbol ctx job) (hs : Evidenced symbol openTime kept s.db) :
    Leaves (Evidenced symbol openTime kept)
      (fun o db => Backed symbol openTime (.scheduler job) t o.status db)
      (sched.runJob ctx t job) s := by
  unfold runJob
  split_ifs with henabled
  · exact leaves_pure hs fun hc => by cases hc
  · unfold getSchedulerRun
    rw [Leaves, read_bind]
    rcases hfind : s.db.schedulerRuns.find? (isRun (.scheduler job) t) with _ | run
    · exact startJob_leaves hctx hs
    · by_cases hdone : run.status = .completed
      · simp only [Option.any_some, hdone, decide_true, if_true]
        exact leaves_pure hs fun _ ht => hs.of_find hfind hdone ht
      · by_cases hrunning : run.status = .running
        · simp only [Option.any_some, hrunning, reduceCtorEq, decide_false, decide_true, if_true, if_false,
            Bool.false_eq_true]
          exact leaves_pure hs fun hc => by cases hc
        · simp only [Option.any_some, hdone, hrunning, decide_false, if_false, Bool.false_eq_true]
          exact startJob_leaves hctx hs

end Jobs

end TradingBot.Paper.WorkJournal
