import TradingBot.Backtester.Structure
import TradingBot.Paper.Account
import TradingBot.Paper.SnapshotMarks

namespace TradingBot.Paper.CloseOrder

open Market.Models Market.Repository Market.Bundle Strategy.Models Exceptions Constraints Backtester.Lifecycle
open Backtester.Engine (trailingAtr)
open Library.Outcome Library.Transaction
open Paper.Models Paper.Repository Paper.Stops Paper.PositionTable Paper.Lifecycle Paper.SchedulerContext
open Paper.MarketEvents Paper.EventRules
open Paper.Scheduler Paper.Scheduler.PaperTradingScheduler Paper.Bridge Paper.Bridge.MarketEventBridge

section Progress

def jobStart (s : PaperTradingScheduler) (scheduledFor : Time) (job : SchedulerJobName) :
    Query (Option JobRunOutcome) := do
  if !s.jobsEnabled && decide (job ≠ .readinessCheck) then
    pure (some (skippedOutcome scheduledFor job "scheduler_not_ready"))
  else do
    let existing ← getSchedulerRun (.scheduler job) scheduledFor
    if existing.any (·.status = .completed) then
      pure (some { job, scheduledFor, status := .completed, skipped := true })
    else if existing.any (·.status = .running) then
      pure (some (skippedOutcome scheduledFor job "already_running"))
    else do
      let runId ← newId
      let (run, created) ← scope (insertOrGetSchedulerRun
        (runRow scheduledFor runId (.scheduler job) (s.now .jobStarted)))
      if !created && decide (run.status = .completed) then
        pure (some { job, scheduledFor, status := .completed, skipped := true })
      else pure none

/-- How far the processing of a close has come when the handler of its stop update is about to be called,
or when it is clear that it will not be. -/
inductive Progress
  | ended (outcomes : List JobRunOutcome)
  | skipping (ctx : JobContexts) (scheduledFor : Time) (evaluated updated : JobRunOutcome)
  | updating (ctx : JobContexts) (scheduledFor : Time) (evaluated : JobRunOutcome)

def closeJobsProgress (s : PaperTradingScheduler) (ctx : JobContexts) (scheduledFor : Time) : Query Progress :=
  if !s.lockAcquired then
    pure (.ended [skippedOutcome scheduledFor .dailySignalEvaluation "advisory_lock_not_acquired"])
  else if s.now .evaluationDue < s.evaluationTimeFor scheduledFor then
    pure (.ended [skippedOutcome scheduledFor .dailySignalEvaluation "evaluation_not_due"])
  else do
    let evaluated ← s.runJob ctx scheduledFor .dailySignalEvaluation
    match ← jobStart s scheduledFor .dailyStopUpdate with
    | some updated => pure (.skipping ctx scheduledFor evaluated updated)
    | none => pure (.updating ctx scheduledFor evaluated)

def closeProgress (b : MarketEventBridge) (e : MarketEvent) : Query Progress := do
  let candle ← b.candleFor e "daily closed candle missing at processing time"
  let due := candle.closeTime + b.scheduler.config.evaluationDelaySeconds * second
  if b.scheduler.now .closeDue < due then raise .dailyEvaluationNotDue
  else do
    let evaluation ← b.builder.buildEvaluationContext e.symbol due
    let stop ← b.builder.buildStopContextForClose e.symbol due
    closeJobsProgress b.scheduler { evaluation := BySymbol.single e.symbol evaluation, stop := some stop }
      candle.closeTime

/-- What is left of the close. -/
def Progress.rest (s : PaperTradingScheduler) : Progress → Query (List JobRunOutcome)
  | .ended outcomes => pure outcomes
  | .skipping ctx scheduledFor evaluated updated => do
    let snapshot ← s.runJob ctx scheduledFor .portfolioSnapshot
    pure [evaluated, updated, snapshot]
  | .updating ctx scheduledFor evaluated => do
    let updated ← s.executeJob ctx scheduledFor .dailyStopUpdate
    let snapshot ← s.runJob ctx scheduledFor .portfolioSnapshot
    pure [evaluated, updated, snapshot]

theorem runJob_eq (s : PaperTradingScheduler) (ctx : JobContexts) (scheduledFor : Time) (job : SchedulerJobName) :
    s.runJob ctx scheduledFor job = (do
      match ← jobStart s scheduledFor job with
      | some outcome => pure outcome
      | none => s.executeJob ctx scheduledFor job) := by
  unfold runJob jobStart startJob
  split_ifs
  · rfl
  · rw [bind_assoc_run]
    refine bind_congr fun existing => ?_
    split_ifs
    · rfl
    · rfl
    · rw [bind_assoc_run]
      refine bind_congr fun runId => ?_
      rw [bind_assoc_run]
      refine bind_congr fun r => ?_
      obtain ⟨run, created⟩ := r
      dsimp only
      split_ifs
      · rfl
      · rfl

theorem runDailyCloseSequence_eq (s : PaperTradingScheduler) (ctx : JobContexts) (scheduledFor : Time) :
    s.runDailyCloseSequence ctx scheduledFor = closeJobsProgress s ctx scheduledFor >>= Progress.rest s := by
  unfold runDailyCloseSequence closeJobsProgress
  split_ifs
  · rfl
  · rfl
  · simp only [forEach, bind_assoc_run]
    refine bind_congr fun evaluated => ?_
    rw [runJob_eq s ctx scheduledFor .dailyStopUpdate, bind_assoc_run]
    refine bind_congr fun start => ?_
    cases start with
    | some updated => rfl
    | none => rfl

theorem handleDailyClosed_eq (b : MarketEventBridge) (e : MarketEvent) :
    b.handleDailyClosed e = closeProgress b e >>= fun progress =>
      progress.rest b.scheduler >>= fun outcomes => ofExcept (requireSuccessfulJobs outcomes) := by
  unfold handleDailyClosed closeProgress
  rw [bind_assoc_run]
  refine bind_congr fun candle => ?_
  dsimp only
  split_ifs
  · rfl
  · rw [bind_assoc_run]
    refine bind_congr fun evaluation => ?_
    rw [bind_assoc_run]
    refine bind_congr fun stop => ?_
    rw [runDailyCloseSequence_eq, bind_assoc_run]

end Progress

section Contexts

variable {b : MarketEventBridge} {e : MarketEvent} {symbol : Symbol} {t : Time} {s s' : Session Db}
  {candle : Candle} {bundle : StrategyDataBundle}

/-- The symbol's evaluation that is found first among the hundred newest. -/
def latestEvaluation (symbol : Symbol) (db : Db) : Option StrategyEvaluationRecord :=
  ((db.evaluations.insertionSort fun a b =>
    b.createdAt < a.createdAt ∨ (b.createdAt = a.createdAt ∧ b.evaluationId ≤ a.evaluationId)).take 100).find?
      (·.symbol = symbol)

structure TrailingInputs where
  close : Decimal
  atr : Decimal
deriving DecidableEq, Repr

def registeredInputs (ctx : JobContexts) (p : PaperPosition) : Option TrailingInputs :=
  match ctx.stop with
  | some (.atClose candles atrs _ _) => (candles p.symbol).map fun c => ⟨c.close, (atrs p.symbol).getD p.entryAtr14⟩
  | _ => none

theorem buildEntryGateContext_same {entryReady ready paused kill : Bool} {gates : EntryGateContext}
    (h : buildEntryGateContext symbol entryReady ready paused kill s = (.ok gates, s')) : s' = s := by
  unfold buildEntryGateContext getOpenPositions getNonterminalIntentForSymbol at h
  rw [read_bind] at h
  obtain ⟨intent, u, hintent, hpure⟩ := bind_eq_ok.mp h
  cases hpure
  rw [read_bind] at hintent
  obtain ⟨_, rfl⟩ := Effects.scalarOneOrNone_eq_ok.mp hintent
  rfl

theorem buildEvaluationContext_ok {ctx : EvaluationContext}
    (h : b.builder.buildEvaluationContext symbol t s = (.ok ctx, s')) :
    s' = s ∧ paperBundle b.builder.candles symbol t = .ok ctx.bundle ∧ ctx.bundle.isUsable ∧
      ctx.strategyParams = b.builder.strategyParams := by
  obtain ⟨constraints, u, hconstraints, h⟩ := bind_eq_ok.mp h
  obtain ⟨_, rfl⟩ := Effects.ofExcept_eq_ok.mp hconstraints
  obtain ⟨bundle, u, hbundle, h⟩ := bind_eq_ok.mp h
  obtain ⟨hpaper, rfl⟩ := Effects.ofExcept_eq_ok.mp hbundle
  split_ifs at h with husable
  · cases h
  · obtain ⟨⟨entryReady, paused, kill⟩, u, hgates, h⟩ := bind_eq_ok.mp h
    obtain ⟨gates, v, hcontext, hpure⟩ := bind_eq_ok.mp h
    cases hpure
    rw [runtimeGates_ok hgates] at hcontext
    exact ⟨buildEntryGateContext_same hcontext, hpaper, by simpa using husable, rfl⟩

theorem buildStopContextForClose_ok {stop : StopContext}
    (h : b.builder.buildStopContextForClose symbol t s = (.ok stop, s')) :
    s' = s ∧ ∃ bundle last constraints, ∃ position : Option PaperPosition,
      paperBundle b.builder.candles symbol t = .ok bundle ∧
      bundle.daily.candles.getLast? = some last ∧ openOf s.db symbol = position.toList ∧
      stop = .atClose (BySymbol.single symbol last)
        (fun x => if x = symbol then position.map fun p =>
          ContextBuilder.atrForTrailingUpdate p (latestEvaluation symbol s.db) else none)
        (BySymbol.single symbol constraints) b.builder.strategyParams := by
  obtain ⟨constraints, u, hconstraints, h⟩ := bind_eq_ok.mp h
  obtain ⟨_, rfl⟩ := Effects.ofExcept_eq_ok.mp hconstraints
  obtain ⟨bundle, u, hbundle, h⟩ := bind_eq_ok.mp h
  obtain ⟨hpaper, rfl⟩ := Effects.ofExcept_eq_ok.mp hbundle
  rcases hlast : bundle.daily.candles.getLast? with _ | last <;> simp only [hlast] at h
  · cases h
  · split_ifs at h
    · cases h
    · obtain ⟨position, u, hposition, h⟩ := bind_eq_ok.mp h
      unfold getOpenPositionForSymbol at hposition
      rw [read_bind] at hposition
      obtain ⟨hrows, rfl⟩ := Effects.scalarOneOrNone_eq_ok.mp hposition
      cases h
      exact ⟨rfl, bundle, last, constraints, position, hpaper, hlast, hrows, rfl⟩

theorem lastDaily_eq (hlatest : b.latestDaily symbol = some candle) (hdue : candle.closeTime ≤ t)
    (hbundle : paperBundle b.builder.candles symbol t = .ok bundle) (husable : bundle.isUsable) :
    bundle.daily.candles.getLast? = some { candle with isClosed := true } := by
  have hdaily := (Market.BundleFacts.paperBundle_single hbundle husable).2.daily
  have hclosed : (b.builder.candles.getClosedBefore symbol .daily t).getLast? = some candle := by
    obtain ⟨before, hrange⟩ := List.getLast?_eq_some_iff.mp hlatest
    rw [CandleRepository.getClosedBefore, hrange, List.filter_append, List.getLast?_append]
    simp [isCandleClosed, hdue]
  have hlength : 0 < (b.builder.candles.getClosedBefore symbol .daily t).length :=
    List.length_pos_of_mem (List.mem_of_getLast? hclosed)
  have hdrop : ¬(b.builder.candles.getClosedBefore symbol .daily t).length ≤
      (b.builder.candles.getClosedBefore symbol .daily t).length - 21 := by omega
  simp only [hdaily, toSeries, minDailyCandles, List.getLast?_map, OfNat.ofNat_ne_zero, if_false,
    List.getLast?_drop, if_neg hdrop, hclosed, Option.map_some]

end Contexts

section Evaluation

variable {e : MarketEvent} {computed : Except Exc StrategyEvaluation} {db₀ db : Db} {s s' : Session Db}

def isDayEvaluation (e : MarketEvent) (r : StrategyEvaluationRecord) : Bool :=
  r.strategyVersion = Strategy.Models.strategyVersion ∧ r.symbol = e.symbol ∧
    r.dailyCandleOpenTime = e.candleOpenTime

def dayEvaluation (e : MarketEvent) (db : Db) : Option StrategyEvaluationRecord :=
  db.evaluations.find? (isDayEvaluation e)

/-- Since an earlier state at most the day's evaluation has been added, and no position has changed. -/
structure Since (e : MarketEvent) (computed : Except Exc StrategyEvaluation) (db₀ db : Db) : Prop where
  positions : db.positions = db₀.positions
  evaluations : db.evaluations = db₀.evaluations ∨ dayEvaluation e db₀ = none ∧
    ∃ row, isDayEvaluation e row ∧ computed = .ok row.result ∧ db.evaluations = db₀.evaluations ++ [row]

theorem Since.refl (db : Db) : Since e computed db db := ⟨rfl, .inl rfl⟩

theorem Since.of_tables {db' : Db} (h : Since e computed db₀ db) (hpositions : db'.positions = db.positions)
    (hevaluations : db'.evaluations = db.evaluations) : Since e computed db₀ db' :=
  ⟨hpositions.trans h.positions, by rw [hevaluations]; exact h.evaluations⟩

theorem Since.dayEvaluation_result (h : Since e computed db₀ db) {row : StrategyEvaluationRecord}
    (hrow : dayEvaluation e db = some row) :
    dayEvaluation e db₀ = some row ∨ dayEvaluation e db₀ = none ∧ computed = .ok row.result := by
  unfold dayEvaluation at hrow ⊢
  rcases h.evaluations with hsame | ⟨hnone, stored, hday, hcomputed, hadded⟩
  · rw [hsame] at hrow
    exact .inl hrow
  · unfold dayEvaluation at hnone
    rw [hadded, List.find?_append, hnone, Option.none_or, List.find?_singleton, if_pos hday] at hrow
    cases hrow
    exact .inr ⟨hnone, hcomputed⟩

theorem sameEvaluation_eq {row : StrategyEvaluationRecord} (h : isDayEvaluation e row) :
    sameEvaluation row = isDayEvaluation e := by
  simp only [isDayEvaluation, decide_eq_true_eq] at h
  obtain ⟨hversion, hsymbol, hday⟩ := h
  funext r
  simp only [sameEvaluation, isDayEvaluation, hversion, hsymbol, hday]

theorem since_insertOrGet {row : StrategyEvaluationRecord} {r : StrategyEvaluationRecord × Bool}
    (hday : isDayEvaluation e row) (hcomputed : computed = .ok row.result) (hs : Since e computed db₀ s.db)
    (h : insertOrGetStrategyEvaluation row s = (.ok r, s')) : Since e computed db₀ s'.db := by
  rcases Effects.insertOrGetStrategyEvaluation_ok h with ⟨_, hdb⟩ | ⟨hnone, _, hdb⟩ <;> rw [hdb]
  · exact hs
  · rw [sameEvaluation_eq hday] at hnone
    rcases hs.evaluations with hsame | ⟨_, stored, hstored, _, hadded⟩
    · rw [hsame] at hnone
      refine ⟨hs.positions, .inr ⟨hnone, row, hday, hcomputed, ?_⟩⟩
      rw [← hsame]
    · rw [hadded, List.find?_append] at hnone
      simp [hstored] at hnone

theorem since_recordEvaluation {config : PaperTradingConfig} {row : StrategyEvaluationRecord}
    {gates : EntryGateContext} {authorizationAt : Time} {ready : Bool} {r : EvaluationResult}
    (hday : isDayEvaluation e row) (hcomputed : computed = .ok row.result) (hs : Since e computed db₀ s.db)
    (h : recordEvaluation config row gates authorizationAt ready s = (.ok r, s')) : Since e computed db₀ s'.db := by
  obtain ⟨⟨evaluation, created⟩, t, hinsert, h⟩ := bind_eq_ok.mp h
  have ht := since_insertOrGet hday hcomputed hs hinsert
  simp only at h
  split_ifs at h
  · obtain ⟨intent, u, hcreate, hpure⟩ := bind_eq_ok.mp h
    cases hpure
    rcases Account.createIntentFromEvaluation_ok hcreate with ⟨n, _, hdb⟩ | ⟨_, _, _, _, _, hdb⟩ <;> rw [hdb]
    · exact ht.of_tables rfl rfl
    · exact ht.of_tables rfl rfl
  · cases h
    exact ht

theorem keeps_evaluateSymbol {config : PaperTradingConfig} {t authorizationAt : Time} {ctx : EvaluationContext}
    {ready : Bool} (hday : ∀ last, ctx.bundle.daily.candles.getLast? = some last → last.openTime = e.candleOpenTime)
    (hcomputed : computed = Strategy.Engine.evaluate ctx.bundle.daily ctx.bundle.weekly ctx.bundle.monthly t
      ctx.strategyParams) :
    Keeps (Since e computed db₀) (evaluateSymbolForDailyClose config e.symbol t ctx authorizationAt ready) := by
  unfold evaluateSymbolForDailyClose
  split_ifs
  · exact keeps_raise _
  · rcases hlast : ctx.bundle.daily.candles.getLast? with _ | last
    · exact keeps_raise _
    · dsimp only
      split_ifs
      · exact keeps_raise _
      · refine keeps_bind_ok (Bookkeeping.keeps_ofExcept _) fun s result u hs hresult _ => ?_
        obtain ⟨hvalue, rfl⟩ := Effects.ofExcept_eq_ok.mp hresult
        have hrow : ∀ evaluationId, isDayEvaluation e
            { evaluationId, symbol := e.symbol, evaluationTime := t, result
              dailyCandleOpenTime := last.openTime
              weeklyCandleKey := lastOpenTime ctx.bundle.weekly last.openTime
              monthlyCandleKey := lastOpenTime ctx.bundle.monthly last.openTime
              strategyVersion := result.strategyVersion
              createdAt := t } := by
          intro evaluationId
          have hversion := (Strategy.EngineFacts.evaluate_stamped hvalue).strategyVersion
          simp [isDayEvaluation, hversion, hday last hlast]
        have hnext : Since e computed db₀ { s.db with nextId := s.db.nextId + 1 } := hs.of_tables rfl rfl
        refine scope_keeps (s := ⟨{ s.db with nextId := s.db.nextId + 1 }, s.faults⟩) hnext fun r s' h => ?_
        exact since_recordEvaluation (hrow _) (hcomputed.trans hvalue) hnext h

theorem since_runRules : RunRules (JobOwn e) (Since e computed db₀) where
  ids := fun _ h => h.of_tables rfl rfl
  runs := by
    intro db db' h hop
    cases hop <;> exact h.of_tables rfl rfl

end Evaluation

section Update

variable {b : MarketEventBridge} {e : MarketEvent} {candle : Candle} {ctx : JobContexts} {t : Time}
  {evaluated : JobRunOutcome} {p : PaperPosition} {inputs : TrailingInputs} {db₀ db : Db} {s u : Session Db}

def closeDue (b : MarketEventBridge) (candle : Candle) : Time :=
  candle.closeTime + b.scheduler.config.evaluationDelaySeconds * second

/-- What the strategy says about the candles of the day. -/
def computedEvaluation (b : MarketEventBridge) (e : MarketEvent) (candle : Candle) :
    Except Exc StrategyEvaluation := do
  let bundle ← paperBundle b.builder.candles e.symbol (closeDue b candle)
  Strategy.Engine.evaluate bundle.daily bundle.weekly bundle.monthly (closeDue b candle) b.builder.strategyParams

/-- The evaluation of the day: the one that is stored already, or else the one to be made. -/
def dayResult (b : MarketEventBridge) (e : MarketEvent) (candle : Candle) (db : Db) :
    Except Exc StrategyEvaluation :=
  match dayEvaluation e db with
  | some row => .ok row.result
  | none => computedEvaluation b e candle

theorem Since.dayResult_eq (h : Since e (computedEvaluation b e candle) db₀ db)
    {row : StrategyEvaluationRecord} (hrow : dayEvaluation e db = some row) :
    dayResult b e candle db₀ = .ok row.result := by
  unfold dayResult
  rcases h.dayEvaluation_result hrow with hstored | ⟨hnone, hcomputed⟩
  · rw [hstored]
  · rw [hnone]
    exact hcomputed

theorem keeps_evaluationJob {evaluation : EvaluationContext} {stop : StopContext} {sched : PaperTradingScheduler}
    {computed : Except Exc StrategyEvaluation}
    (hday : ∀ last, evaluation.bundle.daily.candles.getLast? = some last → last.openTime = e.candleOpenTime)
    (hcomputed : computed = Strategy.Engine.evaluate evaluation.bundle.daily evaluation.bundle.weekly
      evaluation.bundle.monthly (sched.evaluationTimeFor t) evaluation.strategyParams) :
    Keeps (Since e computed db₀) (sched.handler
      { evaluation := BySymbol.single e.symbol evaluation, stop := some stop } t .dailySignalEvaluation) := by
  refine keeps_bind (keeps_forEach fun symbol _ => ?_) fun _ => keeps_pure _
  unfold evaluateForDailyClose BySymbol.single
  by_cases hsymbol : symbol = e.symbol
  · subst hsymbol
    simp only [if_true]
    refine keeps_bind (keeps_evaluateSymbol hday hcomputed) fun _ s hs => ?_
    exact hs.of_tables rfl rfl
  · simp only [if_neg hsymbol]
    exact keeps_pure _

theorem jobStart_keeps {inv : Db → Prop} (h : RunRules (JobOwn e) inv) (sched : PaperTradingScheduler)
    (job : SchedulerJobName) : Keeps inv (jobStart sched t job) := by
  unfold jobStart
  split_ifs
  · exact keeps_pure _
  · refine keeps_bind (keeps_read _) fun existing => ?_
    split_ifs
    · exact keeps_pure _
    · exact keeps_pure _
    · rw [← bind_assoc_run]
      refine keeps_bind (keeps_insertRun h (.job job t) (sched.now .jobStarted)) fun r => ?_
      obtain ⟨run, created⟩ := r
      dsimp only
      split_ifs
      · exact keeps_pure _
      · exact keeps_pure _

theorem evaluatedAs {evaluation : EvaluationContext}
    (hbundle : paperBundle b.builder.candles e.symbol (closeDue b candle) = .ok evaluation.bundle)
    (hparams : evaluation.strategyParams = b.builder.strategyParams) :
    computedEvaluation b e candle = Strategy.Engine.evaluate evaluation.bundle.daily evaluation.bundle.weekly
      evaluation.bundle.monthly (b.scheduler.evaluationTimeFor candle.closeTime) evaluation.strategyParams := by
  rw [computedEvaluation, hbundle, hparams]
  rfl

theorem closeProgress_updating (hrun : closeProgress b e s = (.ok (.updating ctx t evaluated), u)) :
    ∃ candle constraints, ∃ position : Option PaperPosition,
      b.latestDaily e.symbol = some candle ∧ candle.openTime = e.candleOpenTime ∧
      openOf s.db e.symbol = position.toList ∧
      ctx.stop = some (.atClose (BySymbol.single e.symbol { candle with isClosed := true })
        (fun x => if x = e.symbol then position.map fun p =>
          ContextBuilder.atrForTrailingUpdate p (latestEvaluation e.symbol s.db) else none)
        (BySymbol.single e.symbol constraints) b.builder.strategyParams) ∧
      Since e (computedEvaluation b e candle) s.db u.db := by
  obtain ⟨candle, s₁, hcandle, hbuild⟩ := bind_eq_ok.mp hrun
  obtain ⟨rfl, hlatest, hopen⟩ := candleFor_ok hcandle
  split_ifs at hbuild
  · cases hbuild
  · obtain ⟨evaluation, s₂, hevaluation, hregister⟩ := bind_eq_ok.mp hbuild
    obtain ⟨rfl, hbundle, husable, hparams⟩ := buildEvaluationContext_ok hevaluation
    obtain ⟨stop, s₃, hstop, hjobs⟩ := bind_eq_ok.mp hregister
    obtain ⟨rfl, bundle, last, constraints, position, hbundle', hlast, hrows, rfl⟩ := buildStopContextForClose_ok hstop
    have hdelay : (0 : ℤ) ≤ b.scheduler.config.evaluationDelaySeconds * second :=
      mul_nonneg (Int.natCast_nonneg _) (by decide)
    have hdue : candle.closeTime ≤ candle.closeTime + b.scheduler.config.evaluationDelaySeconds * second :=
      le_add_of_nonneg_right hdelay
    have hday := lastDaily_eq hlatest hdue hbundle husable
    obtain rfl : evaluation.bundle = bundle := by
      rw [hbundle] at hbundle'
      exact Except.ok.inj hbundle'
    obtain rfl : { candle with isClosed := true } = last := by
      rw [hday] at hlast
      exact Option.some.inj hlast
    refine ⟨candle, constraints, position, hlatest, hopen, hrows, ?_⟩
    unfold closeJobsProgress at hjobs
    split_ifs at hjobs
    · cases hjobs
    · cases hjobs
    · obtain ⟨first, s₄, hfirst, hupdate⟩ := bind_eq_ok.mp hjobs
      obtain ⟨start, s₅, hstart, hprogress⟩ := bind_eq_ok.mp hupdate
      have hlastOpen : ∀ last, evaluation.bundle.daily.candles.getLast? = some last →
          last.openTime = e.candleOpenTime := by
        intro last hlast
        rw [hday] at hlast
        cases hlast
        exact hopen
      have hs₄ : Since e (computedEvaluation b e candle) s₃.db s₄.db := by
        refine Keeps.of_ok (fun v hv => ?_) (Since.refl s₃.db) hfirst
        exact runJob_keeps (b := b) since_runRules since_runRules (fun _ hdb => hdb)
          (keeps_evaluationJob hlastOpen (evaluatedAs hbundle hparams)) hv
      have hs₅ := (jobStart_keeps since_runRules b.scheduler .dailyStopUpdate).of_ok hs₄ hstart
      cases start with
      | some outcome => cases hprogress
      | none =>
        cases hprogress
        exact ⟨rfl, hs₅⟩

/-- The update of a position works with the close of the day and the ATR of the evaluation made for it, as
the backtester's rule takes them from that evaluation. -/
structure SameDay (e : MarketEvent) (candle : Candle) (p : PaperPosition) (inputs : TrailingInputs) (db : Db) :
    Prop where
  close : inputs.close = candle.close
  atr : ∃ row, dayEvaluation e db = some row ∧ inputs.atr = row.result.atr.getD p.entryAtr14 ∧
    inputs.atr = trailingAtr (paperPositionToSimulated p) row.result.atr

structure Level (b : MarketEventBridge) (e : MarketEvent) (candle : Candle) (p : PaperPosition) (db : Db)
    (result : StrategyEvaluation) : Prop where
  day : dayResult b e candle db = .ok result
  atr : ContextBuilder.atrForTrailingUpdate p (latestEvaluation e.symbol db) = result.atr.getD p.entryAtr14
  nonzero : result.atr = some 0 → p.entryAtr14 = 0

theorem getD_eq_trailingAtr_iff (p : PaperPosition) (atr : Option Decimal) :
    atr.getD p.entryAtr14 = trailingAtr (paperPositionToSimulated p) atr ↔ (atr = some 0 → p.entryAtr14 = 0) := by
  have hentry : (paperPositionToSimulated p).entryAtr14 = p.entryAtr14 := rfl
  rcases atr with _ | a
  · simp [trailingAtr, hentry]
  · by_cases hzero : a = 0
    · simp [trailingAtr, hzero, hentry, eq_comm]
    · simp [trailingAtr, hzero]

/-- A stop that is raised is raised to what the inputs give. -/
theorem updateTrailingStopOf_inputs {candles : BySymbol Candle} {atrs : BySymbol Decimal}
    {constraints : BySymbol SymbolConstraints} {params : StrategyParameters} {inputs : TrailingInputs}
    {r : StopUpdateResult} (hstop : ctx.stop = some (.atClose candles atrs constraints params))
    (hinputs : registeredInputs ctx p = some inputs)
    (h : updateTrailingStopOf t p (candles p.symbol) (atrs p.symbol) (constraints p.symbol) params s = (.ok r, u))
    (hraised : r.updated) : ∃ c ∈ constraints p.symbol, ∃ updated,
      computeTrailingStopUpdate (trailingState p) inputs.close inputs.atr params c.priceTickSize = .ok updated ∧
        r.newStop = some updated.effectiveStop := by
  simp only [registeredInputs, hstop] at hinputs
  obtain ⟨candle, hcandle, rfl⟩ := Option.map_eq_some_iff.mp hinputs
  simp only [updateTrailingStopOf, hcandle] at h
  cases hconstraints : constraints p.symbol with
  | none =>
    rw [hconstraints] at h
    cases h
    cases hraised
  | some c =>
    simp only [hconstraints] at h
    split_ifs at h
    · cases h
      cases hraised
    · obtain ⟨updated, v, hupdated, h⟩ := bind_eq_ok.mp h
      obtain ⟨hcompute, rfl⟩ := Effects.ofExcept_eq_ok.mp hupdated
      refine ⟨c, rfl, updated, hcompute, ?_⟩
      split_ifs at h
      · cases h
        cases hraised
      · obtain ⟨kept, w, _, h⟩ := bind_eq_ok.mp h
        cases kept with
        | false =>
          cases h
          cases hraised
        | true =>
          obtain ⟨_, _, _, h⟩ := bind_eq_ok.mp h
          cases h
          rfl

/-- The trailing update of a close works with the day's values exactly when the day's evaluation is stored by
then and the latest evaluation that the event found before its jobs has the same ATR. -/
theorem close_update_same_day_iff (hrun : closeProgress b e s = (.ok (.updating ctx t evaluated), u))
    (hp : p ∈ openOf u.db e.symbol) : ∃ candle inputs, b.latestDaily e.symbol = some candle ∧
      candle.openTime = e.candleOpenTime ∧ registeredInputs ctx p = some inputs ∧
      (SameDay e candle p inputs u.db ↔
        (dayEvaluation e u.db).isSome ∧ ∃ result, Level b e candle p s.db result) := by
  obtain ⟨candle, constraints, position, hlatest, hopen, hrows, hstop, hsince⟩ := closeProgress_updating hrun
  obtain rfl : position = some p := by
    have hopenOf : openOf u.db e.symbol = openOf s.db e.symbol := by
      simp only [openOf, hsince.positions]
    rw [hopenOf, hrows] at hp
    exact Option.mem_toList.mp hp
  have hsymbol : p.symbol = e.symbol := (mem_openOf.mp hp).2.1
  refine ⟨candle, ⟨candle.close, ContextBuilder.atrForTrailingUpdate p (latestEvaluation e.symbol s.db)⟩, hlatest,
    hopen, ?_, ?_⟩
  · simp [registeredInputs, hstop, hsymbol, BySymbol.single]
  · constructor
    · rintro ⟨_, row, hrow, hatr, hbacktest⟩
      refine ⟨by rw [hrow]; rfl, row.result, hsince.dayResult_eq hrow, hatr, ?_⟩
      exact (getD_eq_trailingAtr_iff p _).mp (hatr.symm.trans hbacktest)
    · rintro ⟨hstored, result, hday, hatr, hnonzero⟩
      obtain ⟨row, hrow⟩ := Option.isSome_iff_exists.mp hstored
      obtain rfl : row.result = result := by
        rw [hsince.dayResult_eq hrow] at hday
        exact Except.ok.inj hday
      exact ⟨rfl, row, hrow, hatr, hatr.trans ((getD_eq_trailingAtr_iff p _).mpr hnonzero)⟩

end Update

section Samples

open SnapshotMarks (eveningBridge closeEvent heldBtc eveningDb)

def wideDay (c : Candle) : Candle :=
  if c.timeframe = .daily ∧ c.openTime = 19744 * day then { c with high := 140, low := 60 } else c

def threeWeeksAndAWideDay : CandleRepository :=
  { store := (SignalParity.flatHistory (List.replicate 22 100)).map wideDay, keys := by decide +kernel }

def nextEveningBridge : MarketEventBridge :=
  { eveningBridge with
    scheduler := { eveningBridge.scheduler with now := fun _ => 19745 * day + 5 * second }
    builder := { eveningBridge.builder with candles := threeWeeksAndAWideDay } }

def nextCloseEvent : MarketEvent :=
  { closeEvent with candleOpenTime := 19744 * day, providerReceivedAt := 19745 * day + 5 * second }

/-- What the close of the evening before has left; the ATR of its evaluation is 20. -/
def nextEveningDb : Db := (eveningBridge.handleDailyClosed closeEvent ⟨eveningDb, []⟩).2.db

def updateAtrs (e : MarketEvent) (p : PaperPosition) :
    Except Exc Progress × Session Db → Option (TrailingInputs × Option Decimal)
  | (.ok (.updating ctx _ _), u) =>
    if p ∈ openOf u.db e.symbol then
      (registeredInputs ctx p).bind fun inputs => (dayEvaluation e u.db).map fun row => (inputs, row.result.atr)
    else none
  | _ => none

theorem updateAtrs_eq_some {p : PaperPosition} {run : Except Exc Progress × Session Db} {inputs : TrailingInputs}
    {atr : Option Decimal} {e : MarketEvent} (h : updateAtrs e p run = some (inputs, atr)) :
    ∃ ctx t evaluated u, run = (.ok (.updating ctx t evaluated), u) ∧ p ∈ openOf u.db e.symbol ∧
      registeredInputs ctx p = some inputs ∧ ∃ row, dayEvaluation e u.db = some row ∧ row.result.atr = atr := by
  unfold updateAtrs at h
  split at h
  · next ctx t evaluated u =>
    split_ifs at h with hp
    · obtain ⟨_, hinputs, hrow⟩ := Option.bind_eq_some_iff.mp h
      obtain ⟨row, hstored, heq⟩ := Option.map_eq_some_iff.mp hrow
      cases heq
      exact ⟨ctx, t, evaluated, u, rfl, hp, hinputs, row, hstored, rfl⟩
  · cases h

theorem nextEvening_updateAtrs :
    updateAtrs nextCloseEvent heldBtc (closeProgress nextEveningBridge nextCloseEvent ⟨nextEveningDb, []⟩) =
      some (⟨100, 20⟩, some (2428571428571428571428571429 / 100000000000000000000000000)) := by
  decide +kernel

theorem next_evening_same_day_iff : ∃ ctx t evaluated u,
    closeProgress nextEveningBridge nextCloseEvent ⟨nextEveningDb, []⟩ = (.ok (.updating ctx t evaluated), u) ∧
    ∃ candle inputs, nextEveningBridge.latestDaily .BTC = some candle ∧ candle.openTime = 19744 * day ∧
      registeredInputs ctx heldBtc = some inputs ∧
      (SameDay nextCloseEvent candle heldBtc inputs u.db ↔ (dayEvaluation nextCloseEvent u.db).isSome ∧
        ∃ result, Level nextEveningBridge nextCloseEvent candle heldBtc nextEveningDb result) := by
  obtain ⟨ctx, t, evaluated, u, hrun, hp, _⟩ := updateAtrs_eq_some nextEvening_updateAtrs
  exact ⟨ctx, t, evaluated, u, hrun, close_update_same_day_iff hrun hp⟩

/-- The ATR of the wide day is above 24, and its stop update works with the 20 of the day before. -/
theorem wide_day_updated_with_old_atr : ¬ ∀ (b : MarketEventBridge) (e : MarketEvent) (s u : Session Db)
    (ctx : JobContexts) (t : Time) (evaluated : JobRunOutcome) (p : PaperPosition),
    closeProgress b e s = (.ok (.updating ctx t evaluated), u) → p ∈ openOf u.db e.symbol →
    ∃ candle inputs, b.latestDaily e.symbol = some candle ∧ registeredInputs ctx p = some inputs ∧
      SameDay e candle p inputs u.db := by
  intro h
  obtain ⟨ctx, t, evaluated, u, hrun, hp, hinputs, row, hrow, hatr⟩ := updateAtrs_eq_some nextEvening_updateAtrs
  obtain ⟨candle, inputs, _, hinputs', _, row', hrow', hsame, _⟩ := h _ _ _ _ _ _ _ _ hrun hp
  rw [hinputs] at hinputs'
  rw [hrow] at hrow'
  cases hinputs'
  cases hrow'
  rw [hatr] at hsame
  exact absurd hsame (by decide +kernel)

end Samples

end TradingBot.Paper.CloseOrder
