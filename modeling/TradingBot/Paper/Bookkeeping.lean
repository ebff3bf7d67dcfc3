import TradingBot.Paper.Effects
import TradingBot.Paper.Scheduler

namespace TradingBot.Paper.Bookkeeping

open Market.Models Strategy.Models Exceptions Constraints Backtester.Lifecycle Library.Transaction
open Paper.Models Paper.Repository Paper.Stops Paper.Execution Paper.Lifecycle Paper.Runtime
open Paper.PositionTable (openOf modifyPosition)
open Paper.Effects (exited persistExit_ok)
open Paper.SchedulerContext Paper.Scheduler Paper.Scheduler.PaperTradingScheduler

/-- A property that only looks at the runs and the journal, and does not mind new identifiers. -/
class Unconcerned (inv : Db → Prop) : Prop where
  frame : ∀ {db db' : Db}, db'.schedulerRuns = db.schedulerRuns → db'.work = db.work →
    db.nextId ≤ db'.nextId → inv db → inv db'

def snapshotRow (wallet : PaperWalletState) (positions : List PaperPosition) (snapshotId : Id)
    (evaluationTime : Time) (event : String) : PortfolioSnapshot :=
  let openPositions := positions.map paperPositionToSimulated
  let marks := resolveMarksAtOpen openPositions (fun _ => none) (fun _ => none)
  { snapshotId
    evaluationTime
    cash := wallet.cash
    marginUsed := computeUsedMargin openPositions
    equity := computeEquity wallet.cash openPositions marks
    unrealizedPnl := computeUnrealizedPnl openPositions marks
    realizedPnl := wallet.totalRealizedPnl
    totalOpenRisk := currentOpenRisk openPositions marks
    openPositionCount := openPositions.length
    event }

/-- A property that survives what the services do to the positions and the snapshots: a position changes or
closes, one is opened for a symbol without one, and the portfolio of the moment is stored. -/
class Undisturbed (inv : Db → Prop) : Prop where
  frame : ∀ {db db' : Db}, db'.schedulerRuns = db.schedulerRuns → db'.work = db.work →
    db'.positions = db.positions → db'.snapshots = db.snapshots → db.nextId ≤ db'.nextId → inv db → inv db'
  modify : ∀ {db : Db} (positionId : Id) {f : PaperPosition → PaperPosition}, (∀ p, (f p).symbol = p.symbol) →
    (∀ p, isOpen (f p) → isOpen p) → inv db → inv (modifyPosition positionId f db)
  enter : ∀ {db : Db} {row : PaperPosition}, (isOpen row → openOf db row.symbol = []) → inv db →
    inv { db with positions := db.positions ++ [row] }
  capture : ∀ {db : Db} {wallet : PaperWalletState} (id : Id) (time : Time) (event : String),
    db.wallet = some wallet → inv db →
    inv { db with snapshots := db.snapshots ++ [snapshotRow wallet (db.positions.filter isOpen) id time event] }

instance {inv : Db → Prop} [Unconcerned inv] : Undisturbed inv where
  frame := fun hruns hwork _ _ hids => Unconcerned.frame hruns hwork hids
  modify := fun _ _ _ _ => Unconcerned.frame rfl rfl le_rfl
  enter := fun _ => Unconcerned.frame rfl rfl le_rfl
  capture := fun _ _ _ _ => Unconcerned.frame rfl rfl le_rfl

variable {inv : Db → Prop} [Undisturbed inv]

section Rules

variable {α : Type}

theorem keeps_execute {f : Db → Db} (hf : ∀ db, (f db).schedulerRuns = db.schedulerRuns ∧
    (f db).work = db.work ∧ (f db).positions = db.positions ∧ (f db).snapshots = db.snapshots ∧
    (f db).nextId = db.nextId) : Keeps inv (execute f) := by
  refine keeps_write _ fun db hdb => ?_
  obtain ⟨hruns, hwork, hpositions, hsnapshots, hids⟩ := hf db
  exact Undisturbed.frame hruns hwork hpositions hsnapshots hids.ge hdb

theorem keeps_newId : Keeps inv newId := by
  intro s hs
  have hruns : (newId s).2.db.schedulerRuns = s.db.schedulerRuns := rfl
  exact Undisturbed.frame hruns rfl rfl rfl (Nat.le_succ _) hs

omit [Undisturbed inv] in
theorem keeps_ofExcept (x : Except Exc α) : Keeps inv (ofExcept x) := by
  cases x with
  | ok a => exact keeps_pure a
  | error e => exact keeps_raise e

omit [Undisturbed inv] in
theorem keeps_require (condition : Bool) (e : Exc) :
    Keeps inv (Repository.require condition e) := by
  unfold Repository.require
  split
  · exact keeps_pure _
  · exact keeps_raise _

omit [Undisturbed inv] in
theorem execute_keeps {f : Db → Db} {s : Session Db} (hs : inv s.db) (hf : inv (f s.db)) :
    inv (execute f s).2.db := by
  rcases hwrite : execute f s with ⟨exc | u, s'⟩
  · rw [write_error_db hwrite]
    exact hs
  · rw [write_ok_db hwrite]
    exact hf

omit [Undisturbed inv] in
theorem require_keeps {condition : Bool} {e : Exc} {f : Unit → Query α} {s : Session Db} (hs : inv s.db)
    (hf : condition → inv (f () s).2.db) : inv ((Repository.require condition e >>= f) s).2.db := by
  cases condition with
  | false => exact hs
  | true => exact hf rfl

omit [Undisturbed inv] in
theorem keeps_scalarOneOrNone (rows : List α) : Keeps inv (scalarOneOrNone rows) := by
  unfold scalarOneOrNone
  split
  · exact keeps_pure _
  · exact keeps_pure _
  · exact keeps_raise _

end Rules

section Tables

theorem keeps_updateWallet (d : WalletDelta) : Keeps inv (updateWallet d) := by
  refine keeps_bind (keeps_read _) fun wallet => ?_
  cases wallet with
  | none => exact keeps_raise _
  | some _ => exact keeps_execute fun _ => ⟨rfl, rfl, rfl, rfl, rfl⟩

theorem keeps_insertOrGetTradeIntent (row : TradeIntent) :
    Keeps inv (insertOrGetTradeIntent row) := by
  unfold insertOrGetTradeIntent
  cases intentColumns row with
  | none => exact keeps_raise _
  | some stored =>
    refine keeps_bind (keeps_read _) fun existing => ?_
    cases existing with
    | some _ => exact keeps_bind (keeps_flush _) fun _ => keeps_pure _
    | none =>
      refine keeps_bind (keeps_read _) fun _ => keeps_bind (keeps_require _ _) fun _ => ?_
      exact keeps_bind (keeps_execute fun _ => ⟨rfl, rfl, rfl, rfl, rfl⟩) fun _ => keeps_pure _

theorem keeps_updateIntentStatus (intentId : Id) (u : IntentUpdate) :
    Keeps inv (updateIntentStatus intentId u) := by
  refine keeps_bind (keeps_execute fun _ => ⟨rfl, rfl, rfl, rfl, rfl⟩) fun _ => ?_
  refine keeps_bind (keeps_read _) fun row => ?_
  cases row with
  | none => exact keeps_raise _
  | some _ => exact keeps_pure _

theorem keeps_insertOrGetPaperOrder (row : PaperOrder) :
    Keeps inv (insertOrGetPaperOrder row) := by
  refine keeps_bind (keeps_read _) fun existing => ?_
  cases existing with
  | some _ => exact keeps_bind (keeps_flush _) fun _ => keeps_pure _
  | none =>
    refine keeps_bind (keeps_require _ _) fun _ => keeps_bind (keeps_require _ _) fun _ => ?_
    exact keeps_bind (keeps_execute fun _ => ⟨rfl, rfl, rfl, rfl, rfl⟩) fun _ => keeps_pure _

theorem keeps_insertOrGetPaperFill (row : PaperFill) :
    Keeps inv (insertOrGetPaperFill row) := by
  refine keeps_bind (keeps_read _) fun rows => keeps_bind (keeps_scalarOneOrNone _) fun existing => ?_
  cases existing with
  | some _ => exact keeps_pure _
  | none =>
    refine keeps_bind (keeps_read _) fun existing => ?_
    cases existing with
    | some _ => exact keeps_bind (keeps_flush _) fun _ => keeps_pure _
    | none =>
      refine keeps_bind (keeps_require _ _) fun _ => keeps_bind (keeps_require _ _) fun _ => ?_
      refine keeps_bind (keeps_require _ _) fun _ => ?_
      refine keeps_bind (keeps_execute fun _ => ⟨rfl, rfl, rfl, rfl, rfl⟩) fun _ => ?_
      exact keeps_bind (keeps_require _ _) fun _ => keeps_pure _

theorem keeps_createPosition (row : PaperPosition) :
    Keeps inv (createPosition row) := by
  refine keeps_read_bind fun s hs => ?_
  refine require_keeps hs fun _ => require_keeps hs fun _ => require_keeps hs fun _ => ?_
  refine require_keeps hs fun _ => require_keeps hs fun hfree => ?_
  have hnone : isOpen row → openOf s.db row.symbol = [] := by
    intro hopen
    simp only [hopen, Bool.true_and, Bool.not_eq_true', List.any_eq_false] at hfree
    exact List.filter_eq_nil_iff.mpr hfree
  have hrest : Keeps inv (do
      require (row.initialStop < row.averageEntryPrice)
        (.valueError "initial_stop must be below average_entry_price for LONG")
      pure row : Query PaperPosition) := keeps_bind (keeps_require _ _) fun _ => keeps_pure _
  exact bind_keeps (execute_keeps hs (Undisturbed.enter hnone hs)) fun _ => hrest

theorem keeps_updatePosition (positionId : Id) {f : PaperPosition → PaperPosition}
    (hsymbol : ∀ p, (f p).symbol = p.symbol) (hclosed : ∀ p, isOpen (f p) → isOpen p) :
    Keeps inv (updatePosition positionId f) :=
  keeps_write _ fun _ hdb => Undisturbed.modify positionId hsymbol hclosed hdb

theorem keeps_insertOrGetStopEvent (row : PositionStopEvent) :
    Keeps inv (insertOrGetStopEvent row) := by
  refine keeps_bind (keeps_read _) fun existing => ?_
  cases existing with
  | some _ => exact keeps_bind (keeps_flush _) fun _ => keeps_pure _
  | none =>
    refine keeps_bind (keeps_require _ _) fun _ => ?_
    exact keeps_bind (keeps_execute fun _ => ⟨rfl, rfl, rfl, rfl, rfl⟩) fun _ => keeps_pure _

omit [Undisturbed inv] in
theorem insertOrGetPortfolioSnapshot_keeps {row : PortfolioSnapshot} {s : Session Db} (hs : inv s.db)
    (hrow : inv { s.db with snapshots := s.db.snapshots ++ [row] }) :
    inv (insertOrGetPortfolioSnapshot row s).2.db := by
  unfold insertOrGetPortfolioSnapshot
  rw [read_bind]
  cases s.db.snapshots.find? (sameSnapshot row) with
  | some _ => exact bind_keeps (keeps_flush _ s hs) fun _ => keeps_pure _
  | none => exact bind_keeps (execute_keeps hs hrow) fun _ => keeps_pure _

theorem keeps_insertOrGetStrategyEvaluation (row : StrategyEvaluationRecord) :
    Keeps inv (insertOrGetStrategyEvaluation row) := by
  refine keeps_bind (keeps_read _) fun existing => ?_
  cases existing with
  | some _ => exact keeps_bind (keeps_flush _) fun _ => keeps_pure _
  | none => exact keeps_bind (keeps_execute fun _ => ⟨rfl, rfl, rfl, rfl, rfl⟩) fun _ => keeps_pure _

omit [Undisturbed inv] in
theorem keeps_getOpenPositionForSymbol (symbol : Symbol) :
    Keeps inv (getOpenPositionForSymbol symbol) :=
  keeps_bind (keeps_read _) fun _ => keeps_scalarOneOrNone _

end Tables

section Stops

theorem keeps_captureSnapshot (time : Time) (event : String) :
    Keeps inv (captureSnapshot time event) := by
  refine keeps_read_bind fun s hs => ?_
  cases hwallet : s.db.wallet with
  | none => exact hs
  | some wallet =>
    have hruns : { s.db with nextId := s.db.nextId + 1 }.schedulerRuns = s.db.schedulerRuns := rfl
    have hnext : inv { s.db with nextId := s.db.nextId + 1 } :=
      Undisturbed.frame hruns rfl rfl rfl (Nat.le_succ _) hs
    have hinsert := insertOrGetPortfolioSnapshot_keeps (s := ⟨{ s.db with nextId := s.db.nextId + 1 }, s.faults⟩)
      hnext (Undisturbed.capture s.db.nextId time event hwallet hnext)
    refine scope_keeps (s := ⟨{ s.db with nextId := s.db.nextId + 1 }, s.faults⟩) hnext fun r s' h => ?_
    have hresult : s' = (insertOrGetPortfolioSnapshot (snapshotRow wallet (s.db.positions.filter isOpen)
      s.db.nextId time event) ⟨{ s.db with nextId := s.db.nextId + 1 }, s.faults⟩).2 := congrArg Prod.snd h.symm
    rw [hresult]
    exact hinsert

theorem keeps_persistRaisedStop (position : PaperPosition) (updated : TrailingStopState) (atr : Decimal)
    (time : Time) : Keeps inv (persistRaisedStop position updated atr time) := by
  refine keeps_bind keeps_newId fun _ => keeps_bind (keeps_insertOrGetStopEvent _) fun created => ?_
  cases created with
  | false => exact keeps_pure _
  | true =>
    refine keeps_bind (keeps_read _) fun row => ?_
    cases row with
    | none => exact keeps_raise _
    | some _ =>
      exact keeps_bind (keeps_updatePosition _ (fun _ => rfl) fun _ h => h) fun _ => keeps_pure _

theorem keeps_updateTrailingStopOf (time : Time) (position : PaperPosition) (candle : Option Candle)
    (atr : Option Decimal) (constraints : Option SymbolConstraints) (params : StrategyParameters) :
    Keeps inv (updateTrailingStopOf time position candle atr constraints params) := by
  unfold updateTrailingStopOf
  cases candle with
  | none => exact keeps_pure _
  | some candle =>
    cases constraints with
    | none => exact keeps_pure _
    | some constraints =>
      dsimp only
      split_ifs
      · exact keeps_pure _
      · refine keeps_bind (keeps_ofExcept _) fun updated => ?_
        split_ifs
        · exact keeps_pure _
        · refine keeps_bind (keeps_persistRaisedStop _ _ _ _).scope fun raised => ?_
          split_ifs
          · exact keeps_bind (keeps_captureSnapshot _ _) fun _ => keeps_pure _
          · exact keeps_pure _

theorem keeps_updateDailyTrailingStops (time : Time) (candles : BySymbol Candle)
    (atrs : BySymbol Decimal) (constraints : BySymbol SymbolConstraints) (params : StrategyParameters) :
    Keeps inv (updateDailyTrailingStops time candles atrs constraints params) := by
  refine keeps_forEach fun symbol _ => ?_
  refine keeps_bind (keeps_getOpenPositionForSymbol _) fun position => ?_
  cases position with
  | none => exact keeps_pure _
  | some _ => exact keeps_bind (keeps_updateTrailingStopOf _ _ _ _ _ _) fun _ => keeps_pure _

theorem keeps_exited {position : PaperPosition} {trigger : StopTriggerResult} {exit : ExitAccounting} {time : Time}
    {db : Db} (h : inv db) : inv (exited position trigger exit time db) := by
  have hclosed : inv (modifyPosition position.positionId (closePosition exit time) db) :=
    Undisturbed.modify _ (fun _ => rfl) (fun p hopen => by simp [isOpen, closePosition] at hopen) h
  have hruns : (exited position trigger exit time db).schedulerRuns =
      (modifyPosition position.positionId (closePosition exit time) db).schedulerRuns := rfl
  exact Undisturbed.frame hruns rfl rfl rfl (Nat.le_succ _) hclosed

theorem keeps_persistExit (position : PaperPosition) (trigger : StopTriggerResult)
    (exit : ExitAccounting) (time : Time) :
    Keeps inv (scope (persistExit position trigger exit time)) := by
  refine keeps_scope fun s closed s' hs h => ?_
  rcases persistExit_ok h with ⟨_, n, hn, hdb⟩ | ⟨_, _, _, hdb⟩
  · rw [hdb]
    have hruns : { s.db with nextId := n }.schedulerRuns = s.db.schedulerRuns := rfl
    exact Undisturbed.frame hruns rfl rfl rfl hn hs
  · rw [hdb]
    exact keeps_exited hs

theorem keeps_closeSymbolIfStopped (config : PaperTradingConfig) (check : StopCheck) (time : Time)
    (candles : BySymbol Candle) (constraints : BySymbol SymbolConstraints) (symbol : Symbol) :
    Keeps inv (closeSymbolIfStopped config check time candles constraints symbol) := by
  refine keeps_bind (keeps_getOpenPositionForSymbol _) fun position => ?_
  cases position with
  | none => exact keeps_pure _
  | some position =>
    cases candles symbol with
    | none => exact keeps_pure _
    | some candle =>
      refine keeps_bind ?_ fun _ => keeps_pure _
      unfold closeIfStopped
      dsimp only
      split
      · refine keeps_bind (keeps_persistExit _ _ _ _) fun closed => ?_
        split_ifs
        · exact keeps_bind (keeps_captureSnapshot _ _) fun _ => keeps_pure _
        · exact keeps_pure _
      · exact keeps_pure _

end Stops

section Fills

omit [Undisturbed inv] in
theorem keeps_getOrderForIntent (intentId : Id) :
    Keeps inv (getOrderForIntent intentId) :=
  keeps_bind (keeps_read _) fun _ => keeps_scalarOneOrNone _

omit [Undisturbed inv] in
theorem keeps_getPositionForIntent (intentId : Id) :
    Keeps inv (getPositionForIntent intentId) :=
  keeps_bind (keeps_read _) fun _ => keeps_scalarOneOrNone _

omit [Undisturbed inv] in
theorem keeps_loadExistingFill (intent : TradeIntent) (time : Time) :
    Keeps inv (loadExistingFill intent time) := by
  refine keeps_bind (keeps_getOrderForIntent _) fun order => ?_
  cases order with
  | none => exact keeps_pure _
  | some order =>
    refine keeps_bind (keeps_read _) fun fill => ?_
    cases fill with
    | none => exact keeps_pure _
    | some _ =>
      refine keeps_bind (keeps_read _) fun _ => ?_
      exact keeps_bind (keeps_getPositionForIntent _) fun _ => keeps_pure _

theorem keeps_persistSuccessfulFill (intent : TradeIntent) (entry : EntryExecutionApproved)
    (openRef : Decimal) (time : Time) (atr : Decimal) :
    Keeps inv (persistSuccessfulFill intent entry openRef time atr) := by
  refine keeps_bind keeps_newId fun _ => keeps_bind (keeps_insertOrGetPaperOrder _) fun order => ?_
  refine keeps_bind keeps_newId fun _ => keeps_bind (keeps_insertOrGetPaperFill _) fun fill => ?_
  dsimp only
  split_ifs
  · refine keeps_bind (keeps_updateWallet _) fun _ => keeps_bind keeps_newId fun _ => ?_
    refine keeps_bind (keeps_createPosition _) fun _ => ?_
    exact keeps_bind (keeps_updateIntentStatus _ _) fun _ => keeps_pure _
  · refine keeps_bind (keeps_read _) fun _ => ?_
    exact keeps_bind (keeps_getPositionForIntent _) fun _ => keeps_pure _

theorem keeps_executeScheduledPaperFill (risk : RiskEngine IntentKey) (intent : TradeIntent)
    (ctx : FillProcessingContext) (processed : List IntentKey) (pending : List (PendingIntent IntentKey)) :
    Keeps inv (executeScheduledPaperFill risk intent ctx processed pending) := by
  refine keeps_bind (keeps_ofExcept _) fun _ => keeps_bind (keeps_loadExistingFill _ _) fun existing => ?_
  cases existing with
  | some _ => exact keeps_pure _
  | none =>
    refine keeps_bind (keeps_read _) fun openPositions => ?_
    split_ifs
    · exact keeps_pure _
    · refine keeps_bind (keeps_read _) fun wallet => ?_
      cases wallet with
      | none => exact keeps_raise _
      | some wallet =>
        refine keeps_bind (keeps_ofExcept _) fun entry => ?_
        cases entry with
        | inl rejected =>
          refine keeps_bind (Keeps.scope ?_) fun _ => keeps_pure _
          exact keeps_bind (keeps_updateIntentStatus _ _) fun _ => keeps_pure _
        | inr approved =>
          exact keeps_bind (keeps_persistSuccessfulFill _ _ _ _ _).scope fun _ => keeps_pure _

omit [Undisturbed inv] in
theorem keeps_evaluateFinalEntryAuthorization (config : PaperTradingConfig) (ready : Bool) (time : Time) :
    Keeps inv (evaluateFinalEntryAuthorization config ready time) := by
  refine keeps_bind (keeps_read _) fun runtime => ?_
  cases runtime with
  | none => exact keeps_pure _
  | some _ => exact keeps_pure _

omit [Undisturbed inv] in
theorem keeps_pendingIntentsForOpenBatch (time : Time) (symbol : Symbol)
    (contexts : BySymbol FillProcessingContext) (skip : List IntentKey) :
    Keeps inv (pendingIntentsForOpenBatch time symbol contexts skip) := by
  refine keeps_bind (keeps_forEach fun other _ => ?_) fun _ => keeps_pure _
  unfold pendingIntentsForSymbol
  split
  · exact keeps_pure _
  · split_ifs
    · exact keeps_pure _
    · exact keeps_bind (keeps_read _) fun _ => keeps_pure _

theorem keeps_authorizeAndFill (config : PaperTradingConfig) (risk : RiskEngine IntentKey) (time : Time)
    (contexts : BySymbol FillProcessingContext) (symbol : Symbol) (ctx : FillProcessingContext)
    (processed : List IntentKey) (ready : Bool) (intent : TradeIntent) :
    Keeps inv
      (authorizeAndFill config risk time contexts symbol ctx processed ready intent) := by
  refine keeps_bind (keeps_evaluateFinalEntryAuthorization _ _ _) fun authorization => ?_
  split_ifs
  · refine keeps_bind (keeps_ofExcept _) fun _ => keeps_bind (keeps_updateIntentStatus _ _) fun _ => ?_
    refine keeps_bind (keeps_pendingIntentsForOpenBatch _ _ _ _) fun _ => ?_
    exact keeps_bind (keeps_executeScheduledPaperFill _ _ _ _ _) fun _ => keeps_pure _
  · refine keeps_bind (keeps_ofExcept _) fun _ => ?_
    exact keeps_bind (keeps_updateIntentStatus _ _) fun _ => keeps_pure _

theorem keeps_processScheduledIntentsForOpen (config : PaperTradingConfig) (risk : RiskEngine IntentKey)
    (time : Time) (contexts : BySymbol FillProcessingContext) (ready : ℕ → Bool) :
    Keeps inv (processScheduledIntentsForOpen config risk time contexts ready) := by
  refine keeps_bind (keeps_forFold (fun b symbol => ?_) _) fun _ => keeps_pure _
  unfold processSymbolForOpen
  dsimp only
  cases contexts symbol with
  | none => exact keeps_pure _
  | some ctx =>
    dsimp only
    split_ifs
    · exact keeps_pure _
    · refine keeps_bind (keeps_read _) fun _ => ?_
      refine keeps_bind (keeps_forFold (fun c intent => ?_) _) fun _ => keeps_pure _
      unfold processIntent
      split_ifs
      · exact keeps_pure _
      · exact keeps_bind (keeps_authorizeAndFill _ _ _ _ _ _ _ _ _).scope fun _ => keeps_pure _

end Fills

section Evaluation

theorem keeps_createIntentFromEvaluation (config : PaperTradingConfig)
    (evaluation : StrategyEvaluationRecord) (eval : StrategyEvaluation) (gates : EntryGateContext)
    (createdAt authorizationAt : Time) (ready : Bool) :
    Keeps inv
      (createIntentFromEvaluation config evaluation eval gates createdAt authorizationAt ready) := by
  refine keeps_bind (keeps_evaluateFinalEntryAuthorization _ _ _) fun authorization => ?_
  dsimp only
  split_ifs
  · exact keeps_pure _
  · split
    · refine keeps_bind keeps_newId fun _ => ?_
      exact keeps_bind (keeps_insertOrGetTradeIntent _) fun _ => keeps_pure _
    · exact keeps_raise _

theorem keeps_evaluateSymbolForDailyClose (config : PaperTradingConfig) (symbol : Symbol) (time : Time)
    (ctx : EvaluationContext) (authorizationAt : Time) (ready : Bool) :
    Keeps inv
      (evaluateSymbolForDailyClose config symbol time ctx authorizationAt ready) := by
  unfold evaluateSymbolForDailyClose
  split_ifs
  · exact keeps_raise _
  · split
    · exact keeps_raise _
    · split_ifs
      · exact keeps_raise _
      · refine keeps_bind (keeps_ofExcept _) fun result => keeps_bind keeps_newId fun _ => Keeps.scope ?_
        refine keeps_bind (keeps_insertOrGetStrategyEvaluation _) fun stored => ?_
        split_ifs
        · exact keeps_bind (keeps_createIntentFromEvaluation _ _ _ _ _ _ _) fun _ => keeps_pure _
        · exact keeps_pure _

omit [Undisturbed inv] in
theorem keeps_buildEntryGateContext (symbol : Symbol) (entryReady ready paused kill : Bool) :
    Keeps inv (buildEntryGateContext symbol entryReady ready paused kill) := by
  refine keeps_bind (keeps_read _) fun _ => keeps_bind ?_ fun _ => keeps_pure _
  exact keeps_bind (keeps_read _) fun _ => keeps_scalarOneOrNone _

theorem keeps_updateRuntimeState (u : RuntimeUpdate) (version : Option ℕ) :
    Keeps inv (updateRuntimeState u version) := by
  refine keeps_bind (keeps_read _) fun row => ?_
  cases row with
  | none => exact keeps_raise _
  | some row =>
    dsimp only
    split_ifs
    · exact keeps_raise _
    · exact keeps_bind (keeps_execute fun _ => ⟨rfl, rfl, rfl, rfl, rfl⟩) fun _ => keeps_pure _

theorem keeps_heartbeat (now : Time) : Keeps inv (heartbeat now) := by
  refine Keeps.scope (keeps_bind (keeps_bind (keeps_read _) fun state => ?_) fun _ => ?_)
  · cases state with
    | none => exact keeps_raise _
    | some _ => exact keeps_pure _
  · exact keeps_updateRuntimeState _ _

end Evaluation

section Handlers

/-- The property does not mind more work in the journal either. -/
class Journals (inv : Db → Prop) : Prop extends Unconcerned inv where
  grows : ∀ {db : Db} (more : List WorkEntry), inv db → inv { db with work := db.work ++ more }

class Recording (inv : Db → Prop) : Prop extends Undisturbed inv where
  records : ∀ {db : Db} (more : List WorkEntry), inv db → inv { db with work := db.work ++ more }

instance {inv : Db → Prop} [Journals inv] : Recording inv where
  records := Journals.grows

variable {inv : Db → Prop} [Recording inv] {t : Time}

theorem keeps_recordWork (job : SchedulerJobName) (symbols : List Symbol) :
    Keeps inv (recordWork job t symbols) := fun s hs => @Recording.records inv _ s.db _ hs

variable {sched : PaperTradingScheduler} {ctx : JobContexts}

theorem keeps_evaluateForDailyClose (symbol : Symbol) :
    Keeps inv (sched.evaluateForDailyClose ctx t symbol) := by
  unfold evaluateForDailyClose
  split
  · exact keeps_pure _
  · refine keeps_bind ?_ fun _ => keeps_recordWork _ _
    exact keeps_evaluateSymbolForDailyClose _ _ _ _ _ _

theorem keeps_handler (job : SchedulerJobName) : Keeps inv (sched.handler ctx t job) := by
  cases job with
  | readinessCheck =>
    refine keeps_bind (keeps_bind (keeps_read _) fun runtime => ?_) fun _ => keeps_pure _
    cases runtime with
    | none => exact keeps_pure _
    | some _ =>
      refine keeps_bind ?_ fun _ => keeps_bind (keeps_read _) fun _ => keeps_pure _
      exact keeps_bind (keeps_read _) fun _ => keeps_bind (keeps_read _) fun _ => keeps_pure _
  | dailySignalEvaluation =>
    exact keeps_bind (keeps_forEach fun symbol _ => keeps_evaluateForDailyClose symbol) fun _ => keeps_pure _
  | nextOpenFillProcessing =>
    exact keeps_bind (keeps_processScheduledIntentsForOpen _ _ _ _ _) fun _ => keeps_recordWork _ _
  | dailyStopUpdate =>
    simp only [handler, jobDailyStopUpdate]
    split
    · exact keeps_bind (keeps_updateDailyTrailingStops _ _ _ _ _) fun _ => keeps_recordWork _ _
    · exact keeps_raise _
  | stopTriggerProcessing =>
    simp only [handler, jobStopTriggerProcessing]
    split
    · refine keeps_bind ?_ fun _ => keeps_recordWork _ _
      exact keeps_forEach fun symbol _ => keeps_closeSymbolIfStopped _ _ _ _ _ symbol
    · exact keeps_raise _
  | intradayStopProcessing =>
    simp only [handler, jobIntradayStopProcessing]
    split
    · split_ifs
      · exact keeps_raise _
      · refine keeps_bind ?_ fun _ => keeps_recordWork _ _
        exact keeps_forEach fun symbol _ => keeps_closeSymbolIfStopped _ _ _ _ _ symbol
    · exact keeps_raise _
  | fundingProcessing => exact keeps_raise _
  | portfolioSnapshot => exact keeps_bind (keeps_captureSnapshot _ _) fun _ => keeps_pure _
  | runtimeHeartbeat => exact keeps_bind (keeps_heartbeat _) fun _ => keeps_pure _

end Handlers

end TradingBot.Paper.Bookkeeping
