import TradingBot.Paper.Bridge

namespace TradingBot.Paper.Failures

open Market.Models Market.Timeframes Market.Quality Market.Bundle Strategy.Models Strategy.Indicators
open Strategy.Stops Strategy.Engine Constraints Exceptions Library.Outcome Library.Transaction
open Paper.Models Paper.Repository Paper.MarketEvents Paper.SchedulerContext Paper.Scheduler
open Paper.Scheduler.PaperTradingScheduler Paper.Bridge

/-- The exceptions for which the contexts of an event are not built. -/
def ContextFailure : Exc → Prop
  | .valueError _ | .indexError _ | .divisionByZero | .permanentConfigurationFailure _ _
  | .retryableContextNotReady _ => True
  | _ => False

section Values

theorem expectedCloseTime_fails (t : Time) (timeframe : Timeframe) :
    Fails ContextFailure (expectedCloseTime t timeframe) := by
  cases timeframe with
  | daily => exact fails_ok _
  | weekly =>
    simp only [expectedCloseTime, weeklyClose]
    split_ifs
    · exact fails_error.mpr trivial
    · exact fails_ok _
  | monthly =>
    simp only [expectedCloseTime, monthlyClose]
    split_ifs
    · exact fails_error.mpr trivial
    · exact fails_ok _

theorem gapAt_fails (symbol : Symbol) (timeframe : Timeframe) (t : Time) :
    Fails ContextFailure (gapAt symbol timeframe t) :=
  fails_bind (expectedCloseTime_fails t timeframe) fun _ => fails_ok _

theorem gapsBetween_fails (symbol : Symbol) (timeframe : Timeframe) (stop : Time) (fuel : ℕ) (t : Time) :
    Fails ContextFailure (gapsBetween symbol timeframe stop fuel t) := by
  induction fuel generalizing t with
  | zero => exact fails_ok _
  | succ fuel ih =>
    unfold gapsBetween
    split_ifs
    · exact fails_ok _
    · exact fails_bind (gapAt_fails symbol timeframe t) fun _ => fails_bind (ih _) fun _ => fails_ok _

theorem trailingGaps_fails (symbol : Symbol) (timeframe : Timeframe) (stop : Time) (fuel : ℕ) (t : Time) :
    Fails ContextFailure (trailingGaps symbol timeframe stop fuel t) := by
  induction fuel generalizing t with
  | zero => exact fails_ok _
  | succ fuel ih =>
    unfold trailingGaps
    split_ifs
    · exact fails_ok _
    · refine fails_bind (gapAt_fails symbol timeframe t) fun gap => ?_
      split_ifs
      · exact fails_ok _
      · exact fails_bind (ih _) fun _ => fails_ok _

theorem innerGaps_fails (symbol : Symbol) (timeframe : Timeframe) (candles : List Candle) :
    Fails ContextFailure (innerGaps symbol timeframe candles) := by
  fun_induction innerGaps symbol timeframe candles with
  | case1 current next rest cursor ih =>
    exact fails_bind (gapsBetween_fails _ _ _ _ _) fun _ => fails_bind ih fun _ => fails_ok _
  | case2 => exact fails_ok _

theorem detectGaps_fails (candles : List Candle) (symbol : Symbol) (timeframe : Timeframe) (t : Time) :
    Fails ContextFailure (detectGaps candles symbol timeframe t) := by
  refine fails_bind (innerGaps_fails _ _ _) fun inner => ?_
  split
  · exact fails_ok _
  · exact fails_bind (trailingGaps_fails _ _ _ _ _) fun _ => fails_ok _

theorem seriesCodes_fails (symbol : Symbol) (timeframe : Timeframe) (t : Time) (seen candles : List Candle) :
    Fails ContextFailure (seriesCodes symbol timeframe t seen candles) := by
  induction candles generalizing seen with
  | nil => exact fails_ok _
  | cons c cs ih =>
    have hstructure : Fails ContextFailure (validateCandleStructure c) :=
      fails_bind (fails_bind (expectedCloseTime_fails _ _) fun _ => fails_ok _) fun _ => fails_ok _
    refine fails_bind (fails_bind hstructure fun _ => fails_ok _) fun _ => ?_
    exact fails_bind (ih _) fun _ => fails_ok _

theorem timeframeReport_fails (r : Market.Repository.CandleRepository) (symbol : Symbol) (t : Time)
    (timeframe : Timeframe) : Fails ContextFailure (timeframeReport r symbol t timeframe) := by
  refine fails_bind (detectGaps_fails _ _ _ _) fun gaps => ?_
  unfold validateSeries
  split_ifs
  · exact fails_ok _
  · exact fails_bind (seriesCodes_fails _ _ _ _ _) fun _ => fails_ok _

theorem paperBundle_fails (r : Market.Repository.CandleRepository) (symbol : Symbol) (t : Time) :
    Fails ContextFailure (paperBundle r symbol t) := by
  refine fails_bind (timeframeReport_fails r symbol t .daily) fun _ => ?_
  refine fails_bind (timeframeReport_fails r symbol t .weekly) fun _ => ?_
  exact fails_bind (timeframeReport_fails r symbol t .monthly) fun _ => fails_ok _

theorem computeEma_fails (closes : List Decimal) (period : ℤ) :
    Fails ContextFailure (computeEma closes period) := by
  unfold computeEma
  dsimp only
  split_ifs
  · exact fails_error.mpr trivial
  · exact fails_ok _
  · exact fails_ok _

theorem observe_fails (daily weekly monthly : List Candle) (params : StrategyParameters) :
    Fails ContextFailure (observe daily weekly monthly params) := by
  have hatr : Fails ContextFailure (computeWilderAtr daily params.atrPeriod) := by
    unfold computeWilderAtr negativeWilderAtr
    dsimp only
    split_ifs
    · exact fails_ok _
    · exact fails_error.mpr trivial
    · exact fails_error.mpr trivial
    · exact fails_ok _
    · exact fails_ok _
  have hvolume : Fails ContextFailure (computeVolumeRatio (daily.map (·.volume)) params.volumeSmaPeriod) := by
    refine fails_bind ?_ fun _ => fails_ok _
    unfold computeVolumeSma
    dsimp only
    split_ifs
    · exact fails_ok _
    · exact fails_error.mpr trivial
    · exact fails_error.mpr trivial
    · exact fails_ok _
    · exact fails_ok _
  have hhigh : Fails ContextFailure (computeHigh20 (daily.map (·.high)) params.breakoutLookback) := by
    unfold computeHigh20
    split_ifs
    · exact fails_error.mpr trivial
    · exact fails_ok _
  refine fails_bind (computeEma_fails _ _) fun _ => fails_bind hatr fun _ => fails_bind hvolume fun _ => ?_
  refine fails_bind hhigh fun _ => fails_bind (computeEma_fails _ _) fun _ => ?_
  exact fails_bind (computeEma_fails _ _) fun _ => fails_bind (computeEma_fails _ _) fun _ => fails_ok _

theorem evaluate_fails (daily weekly monthly : CandleSeries) (t : Time) (params : StrategyParameters) :
    Fails ContextFailure (evaluate daily weekly monthly t params) := by
  unfold evaluate
  split
  · exact fails_ok _
  · dsimp only
    split_ifs
    · exact fails_ok _
    · exact fails_ok _
    · refine fails_bind (observe_fails _ _ _ _) fun o => ?_
      unfold decideSignal
      split
      · split_ifs
        · exact fails_ok _
        · refine fails_bind (fails_ok _) fun _ => ?_
          split
          · split_ifs
            · exact fails_ok _
            · exact fails_ok _
          · exact fails_ok _
      · exact fails_ok _

theorem requireValidProductionConstraints_fails (symbol : Symbol) (constraints : Option SymbolConstraints) :
    Fails ContextFailure (requireValidProductionConstraints symbol constraints) := by
  unfold requireValidProductionConstraints
  split
  · exact fails_error.mpr trivial
  · split
    · exact fails_error.mpr trivial
    · exact fails_ok _

end Values

section Queries

variable {p : Exc → Prop}

theorem raises_ofExcept {α : Type} {x : Except Exc α} (h : Fails p x) : Raises p (ofExcept x) := by
  cases x with
  | ok a => exact raises_pure a
  | error e => exact raises_raise (fails_error.mp h)

theorem buildOpenContexts_raises (builder : ContextBuilder) (symbol : Symbol) (candle : Candle) :
    Raises ContextFailure (builder.buildOpenContexts symbol candle) := by
  refine raises_bind (raises_ofExcept (requireValidProductionConstraints_fails _ _)) fun _ => ?_
  refine raises_bind (raises_ofExcept (paperBundle_fails _ _ _)) fun bundle => ?_
  split_ifs
  · exact raises_raise trivial
  · refine raises_bind (raises_ofExcept (evaluate_fails _ _ _ _ _)) fun evaluation => ?_
    split
    · exact raises_raise trivial
    · split_ifs
      · exact raises_raise trivial
      · exact raises_pure _

variable (b : MarketEventBridge)

theorem candleFor_raises (e : MarketEvent) (message : String) :
    Raises ContextFailure (b.candleFor e message) := by
  unfold MarketEventBridge.candleFor
  split
  · exact raises_raise trivial
  · split_ifs
    · exact raises_raise trivial
    · exact raises_pure _

/-- What a change of the scheduler's runs can raise. -/
def StorageFailure (exc : Exc) : Prop := exc = .databaseError ∨ exc = .noResultFound

theorem raises_execute (f : Db → Db) : Raises StorageFailure (execute f) := raises_write (.inl rfl) f

theorem raises_newId : Raises p newId := by
  intro s e t h
  cases h

theorem insertOrGetSchedulerRun_raises (row : SchedulerRun) :
    Raises StorageFailure (insertOrGetSchedulerRun row) := by
  refine raises_bind (raises_read _) fun existing => ?_
  cases existing with
  | some _ => exact raises_bind (raises_flush (.inl rfl)) fun _ => raises_pure _
  | none => exact raises_bind (raises_execute _) fun _ => raises_pure _

theorem completeSchedulerRun_raises (name : JobName) (t : Time) (status : SchedulerRunStatus) (at_ : Time)
    (error : Option String) : Raises StorageFailure (completeSchedulerRun name t status at_ error) := by
  refine raises_bind (raises_execute _) fun _ => raises_bind (raises_read _) fun row => ?_
  cases row with
  | none => exact raises_raise (.inr rfl)
  | some _ => exact raises_pure _

theorem completeMarketEvent_raises (name : JobName) (t : Time) (status : SchedulerRunStatus)
    (error : Option String) : Raises StorageFailure (b.completeMarketEvent name t status error) :=
  Raises.scope (raises_bind (completeSchedulerRun_raises _ _ _ _ _) fun _ => raises_pure _)

theorem ensureSchedulerRun_raises (name : JobName) (t : Time) :
    Raises StorageFailure (b.ensureSchedulerRun name t) :=
  raises_bind raises_newId fun _ => (insertOrGetSchedulerRun_raises _).scope

theorem persistedJobOutcome_raises (t : Time) (job : SchedulerJobName) (error : Option String) :
    Raises StorageFailure (persistedJobOutcome t job error) := by
  refine raises_bind (raises_read _) fun run => ?_
  cases run with
  | some _ => exact raises_pure _
  | none => exact raises_pure _

theorem runJob_raises (s : PaperTradingScheduler) (ctx : JobContexts) (t : Time) (job : SchedulerJobName) :
    Raises StorageFailure (s.runJob ctx t job) := by
  have hexecute : Raises StorageFailure (s.executeJob ctx t job) := by
    refine Raises.attempt_bind (q := fun _ => True) (fun _ _ _ _ => trivial) (fun _ => raises_pure _) ?_
    intro e _
    refine raises_bind (Raises.scope (completeSchedulerRun_raises _ _ _ _ _)) fun _ => ?_
    exact persistedJobOutcome_raises _ _ _
  have hstart : Raises StorageFailure (s.startJob ctx t job) := by
    refine raises_bind raises_newId fun _ => ?_
    refine raises_bind (insertOrGetSchedulerRun_raises _).scope fun r => ?_
    dsimp only
    split_ifs
    · exact raises_pure _
    · exact hexecute
  unfold runJob
  split_ifs
  · exact raises_pure _
  · refine raises_bind (raises_read _) fun existing => ?_
    split_ifs
    · exact raises_pure _
    · exact raises_pure _
    · exact hstart

theorem runOpenSubsequence_raises (s : PaperTradingScheduler) (ctx : JobContexts) (t : Time)
    (job : SchedulerJobName) : Raises StorageFailure (s.runOpenSubsequence ctx t job) := by
  unfold runOpenSubsequence
  split_ifs
  · exact raises_bind (runJob_raises s ctx t job) fun _ => raises_pure _
  · exact raises_pure _

/-- A sub-job of an open is put off, fails under its own name, or cannot store its run. -/
def SubjobFailure (job : JobName) : Exc → Prop
  | .retryableSchedulerDeferred _ => True
  | .dailyOpenSequenceFailure name _ => name = job
  | exc => StorageFailure exc

theorem SubjobFailure.of_storage {job : JobName} {exc : Exc} (h : StorageFailure exc) :
    SubjobFailure job exc := by
  rcases h with rfl | rfl
  · exact .inl rfl
  · exact .inr rfl

theorem releaseUncommittedSchedulerRun_raises (name : JobName) (t : Time) (code : String) :
    Raises StorageFailure (b.releaseUncommittedSchedulerRun name t code) := by
  refine raises_bind (raises_read _) fun existing => ?_
  cases existing with
  | none => exact raises_pure _
  | some existing =>
    dsimp only
    split_ifs
    · exact completeMarketEvent_raises b _ _ _ _
    · exact (raises_execute _).scope

theorem runOpenSubjob_raises {job : JobName} {t : Time} {runner : Query (List JobRunOutcome)}
    (hrunner : Raises StorageFailure runner) :
    Raises (SubjobFailure job) (b.runOpenSubjob job t runner) := by
  have hbody : Raises (fun e => ∀ name m, e ≠ .dailyOpenSequenceFailure name m)
      (b.subjobBody job t runner) := by
    have hstorage : ∀ e, StorageFailure e → ∀ name m, e ≠ .dailyOpenSequenceFailure name m := by
      rintro e (rfl | rfl) name m h <;> cases h
    refine raises_bind (hrunner.mono hstorage) fun outcomes => ?_
    refine raises_bind (raises_ofExcept ?_) fun _ => ?_
    · induction outcomes with
      | nil => exact fails_ok _
      | cons o rest ih =>
        unfold requireSuccessfulJobs
        split_ifs
        · exact fails_error.mpr (fun _ _ h => by cases h)
        · exact fails_error.mpr (fun _ _ h => by cases h)
        · exact ih
    · split_ifs
      · exact (completeMarketEvent_raises b _ _ _ _).mono hstorage
      · exact raises_raise (fun _ _ h => by cases h)
  refine raises_bind (raises_read _) fun existing => ?_
  split_ifs
  · exact raises_pure _
  · refine raises_bind ((ensureSchedulerRun_raises b job t).mono fun _ => .of_storage) fun _ => ?_
    refine hbody.attempt_bind (fun _ => raises_pure _) fun e he => ?_
    split
    · rename_i heq
      cases heq
    · refine raises_bind ((releaseUncommittedSchedulerRun_raises b _ _ _).mono fun _ => .of_storage) fun _ => ?_
      exact raises_raise trivial
    · rename_i name m heq
      exact absurd (Except.error.inj heq) (he name m)
    · exact raises_raise rfl

/-- The sub-jobs of an open, under the names the bridge stores them with. -/
def openSubjobs (e : MarketEvent) : List JobName :=
  [dailyOpenGapJobName e.symbol e.candleOpenTime, dailyOpenFillJobName e.symbol e.candleOpenTime,
    dailyOpenSnapshotJobName e.symbol e.candleOpenTime]

def NamesOwnSubjob (e : MarketEvent) (exc : Exc) : Prop :=
  ∀ name m, exc = .dailyOpenSequenceFailure name m → name ∈ openSubjobs e

theorem NamesOwnSubjob.of_storage {e : MarketEvent} {exc : Exc} (h : StorageFailure exc) :
    NamesOwnSubjob e exc := by
  rintro name m rfl
  rcases h with h | h <;> cases h

theorem NamesOwnSubjob.of_context {e : MarketEvent} {exc : Exc} (h : ContextFailure exc) :
    NamesOwnSubjob e exc := by
  rintro name m rfl
  cases h

theorem NamesOwnSubjob.of_subjob {e : MarketEvent} {job : JobName} (hjob : job ∈ openSubjobs e) {exc : Exc}
    (h : SubjobFailure job exc) : NamesOwnSubjob e exc := by
  rintro name m rfl
  exact h ▸ hjob

theorem handleDailyOpen_raises (e : MarketEvent) : Raises (NamesOwnSubjob e) (b.handleDailyOpen e) := by
  have hsubjob : ∀ {job : JobName} {runner : Query (List JobRunOutcome)}, job ∈ openSubjobs e →
      Raises StorageFailure runner →
      Raises (NamesOwnSubjob e) (b.runOpenSubjob job e.candleOpenTime runner) := fun hjob hrunner =>
    (runOpenSubjob_raises b hrunner).mono fun _ => .of_subjob hjob
  refine raises_bind ((candleFor_raises b e _).mono fun _ => .of_context) fun candle => ?_
  refine raises_bind ((buildOpenContexts_raises _ _ _).mono fun _ => .of_context) fun contexts => ?_
  refine raises_bind (hsubjob ?_ (runOpenSubsequence_raises _ _ _ _)).scope fun _ => ?_
  · exact List.mem_cons_self
  · split_ifs
    · exact raises_raise fun _ _ h => by cases h
    · refine Raises.scope (raises_bind (hsubjob ?_ (runOpenSubsequence_raises _ _ _ _)) fun _ => ?_)
      · exact List.mem_cons_of_mem _ List.mem_cons_self
      · refine hsubjob ?_ (runOpenSubsequence_raises _ _ _ _)
        exact List.mem_cons_of_mem _ (List.mem_cons_of_mem _ List.mem_cons_self)

end Queries

end TradingBot.Paper.Failures
