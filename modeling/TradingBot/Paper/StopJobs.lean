import TradingBot.Paper.ConfigurationRecovery
import TradingBot.Paper.EventRules

namespace TradingBot.Paper.StopJobs

open Market.Models Strategy.Models Exceptions Constraints Backtester.Lifecycle Library.Transaction
open Paper.Models Paper.Repository Paper.Stops Paper.Effects Paper.Scheduler
open PaperTradingScheduler Paper.MarketEvents Paper.Bridge Paper.EventRules Paper.ConfigurationRecovery
open Paper.Bookkeeping (keeps_ofExcept)

/-- What a property has to survive to hold through the jobs that look after the open positions. -/
structure StopRules (inv : Db → Prop) : Prop where
  frame : ∀ {db : Db} {n : ℕ} {snapshots : List PortfolioSnapshot} {work : List WorkEntry}, db.nextId ≤ n → inv db →
    inv { db with nextId := n, snapshots := snapshots, work := work }
  exited : ∀ {db : Db} {position : PaperPosition} {trigger : StopTriggerResult} {exit : ExitAccounting} {time : Time},
    inv db → inv (exited position trigger exit time db)
  raised : ∀ {db : Db} {position : PaperPosition} {updated : TrailingStopState} {atr : Decimal} {time : Time},
    inv db → inv (raised position updated atr time db)

variable {inv : Db → Prop} {b : MarketEventBridge} {e : MarketEvent}

theorem keeps_newId (h : StopRules inv) : Keeps inv newId := fun _ hs => h.frame (Nat.le_succ _) hs

theorem keeps_recordWork (h : StopRules inv) (job : SchedulerJobName) (t : Time) (symbols : List Symbol) :
    Keeps inv (recordWork job t symbols) := fun _ hs => h.frame le_rfl hs

theorem keeps_captureSnapshot (h : StopRules inv) (time : Time) (event : String) :
    Keeps inv (captureSnapshot time event) := by
  refine keeps_bind (keeps_read _) fun wallet => ?_
  cases wallet with
  | none => exact keeps_raise _
  | some wallet =>
    refine keeps_bind (keeps_read _) fun _ => keeps_bind (keeps_newId h) fun _ => Keeps.scope ?_
    refine keeps_bind (keeps_read _) fun existing => ?_
    cases existing with
    | some existing => exact keeps_bind (keeps_flush _) fun _ => keeps_pure _
    | none => exact keeps_bind (keeps_write _ fun db hdb => h.frame le_rfl hdb) fun _ => keeps_pure _

theorem keeps_closeSymbolIfStopped (h : StopRules inv) (config : PaperTradingConfig) (check : StopCheck) (time : Time)
    (candles : BySymbol Candle) (constraints : BySymbol SymbolConstraints) (symbol : Symbol) :
    Keeps inv (closeSymbolIfStopped config check time candles constraints symbol) := by
  refine keeps_bind (Bookkeeping.keeps_getOpenPositionForSymbol symbol) fun position => ?_
  split
  · refine keeps_bind ?_ fun _ => keeps_pure _
    unfold closeIfStopped
    dsimp only
    split
    · refine keeps_bind (keeps_scope fun s closed s' hs hexit => ?_) fun closed => ?_
      · rcases persistExit_ok hexit with ⟨_, n, hn, hdb⟩ | ⟨_, _, _, hdb⟩
        · rw [hdb]
          exact h.frame hn hs
        · rw [hdb]
          exact h.exited hs
      · split_ifs
        · exact keeps_bind (keeps_captureSnapshot h _ _) fun _ => keeps_pure _
        · exact keeps_pure _
    · exact keeps_pure _
  · exact keeps_pure _

theorem keeps_persistRaisedStop (h : StopRules inv) (position : PaperPosition) (updated : TrailingStopState)
    (atr : Decimal) (time : Time) : Keeps inv (scope (persistRaisedStop position updated atr time)) := by
  refine keeps_scope fun s raised s' hs hraise => ?_
  rcases persistRaisedStop_ok hraise with hdb | hdb <;> rw [hdb]
  · exact h.frame (Nat.le_succ _) hs
  · exact h.raised hs

theorem keeps_updateTrailingStopForSymbol (h : StopRules inv) (time : Time) (candles : BySymbol Candle)
    (atrs : BySymbol Decimal) (constraints : BySymbol SymbolConstraints) (params : StrategyParameters)
    (symbol : Symbol) : Keeps inv (updateTrailingStopForSymbol time candles atrs constraints params symbol) := by
  refine keeps_bind (Bookkeeping.keeps_getOpenPositionForSymbol symbol) fun position => ?_
  cases position with
  | none => exact keeps_pure _
  | some position =>
    refine keeps_bind ?_ fun _ => keeps_pure _
    unfold updateTrailingStopOf
    dsimp only
    split
    · split_ifs
      · exact keeps_pure _
      · refine keeps_bind (keeps_ofExcept _) fun updated => ?_
        split_ifs
        · exact keeps_pure _
        · refine keeps_bind (keeps_persistRaisedStop h _ _ _ _) fun raised => ?_
          split_ifs
          · exact keeps_bind (keeps_captureSnapshot h _ _) fun _ => keeps_pure _
          · exact keeps_pure _
    · exact keeps_pure _

theorem keeps_updateDailyTrailingStops (h : StopRules inv) (time : Time) (candles : BySymbol Candle)
    (atrs : BySymbol Decimal) (constraints : BySymbol SymbolConstraints) (params : StrategyParameters) :
    Keeps inv (updateDailyTrailingStops time candles atrs constraints params) :=
  keeps_forEach fun symbol _ => keeps_updateTrailingStopForSymbol h time candles atrs constraints params symbol

def stopJobs : List SchedulerJobName :=
  [.dailyStopUpdate, .stopTriggerProcessing, .intradayStopProcessing, .portfolioSnapshot]

theorem JobOf.kinds {ctx : JobContexts} {t : Time} {job : SchedulerJobName}
    (h : JobOf b e ctx t job) : e.eventType = .dailyClosed ∧ job = .dailySignalEvaluation ∨
      job = .nextOpenFillProcessing ∨ job ∈ stopJobs := by
  cases h with
  | opening _ _ _ hjob =>
    simp only [List.mem_cons, List.not_mem_nil, or_false] at hjob
    rcases hjob with rfl | rfl | rfl <;> simp [stopJobs]
  | live => simp [stopJobs]
  | closing hclosed hjob =>
    simp only [List.mem_cons, List.not_mem_nil, or_false] at hjob
    rcases hjob with rfl | rfl | rfl <;> simp [stopJobs, hclosed]

theorem keeps_stopJob (h : StopRules inv) {sched : PaperTradingScheduler} {ctx : JobContexts} {t : Time}
    {job : SchedulerJobName} (hjob : job ∈ stopJobs) : Keeps inv (sched.handler ctx t job) := by
  simp only [stopJobs, List.mem_cons, List.not_mem_nil, or_false] at hjob
  rcases hjob with rfl | rfl | rfl | rfl
  · simp only [handler, jobDailyStopUpdate]
    split
    · exact keeps_bind (keeps_updateDailyTrailingStops h _ _ _ _ _) fun _ => keeps_recordWork h _ _ _
    · exact keeps_raise _
  · simp only [handler, jobStopTriggerProcessing]
    split
    · refine keeps_bind ?_ fun _ => keeps_recordWork h _ _ _
      exact keeps_forEach fun symbol _ => keeps_closeSymbolIfStopped h _ _ _ _ _ symbol
    · exact keeps_raise _
  · simp only [handler, jobIntradayStopProcessing]
    split
    · split_ifs
      · exact keeps_raise _
      · refine keeps_bind ?_ fun _ => keeps_recordWork h _ _ _
        exact keeps_forEach fun symbol _ => keeps_closeSymbolIfStopped h _ _ _ _ _ symbol
    · exact keeps_raise _
  · exact keeps_bind (keeps_captureSnapshot h _ _) fun _ => keeps_pure _

theorem keeps_recoverPermanentConfiguration
    (hruns : ∀ (db : Db) (n : ℕ) (runs : List SchedulerRun), db.nextId ≤ n → inv db →
      inv { db with nextId := n, schedulerRuns := runs })
    (lockHeld : Bool) (d : MarketEventDetector) : Keeps inv (recoverPermanentConfiguration b lockHeld d e) := by
  have hid : Keeps inv newId := fun s hs => hruns s.db _ s.db.schedulerRuns (Nat.le_succ _) hs
  have hcreate : ∀ original name startedAt, Keeps inv (createRecoveryAttempt original name startedAt) := by
    refine fun original name startedAt => keeps_bind hid fun runId => keeps_bind (keeps_read _) fun found => ?_
    cases found with
    | some existing => exact keeps_bind (keeps_flush _) fun _ => keeps_pure _
    | none => exact keeps_bind (keeps_write _ fun db hdb => hruns db _ _ le_rfl hdb) fun _ => keeps_pure _
  have hclear : Keeps inv (clearTerminalFailed d e) := by
    unfold clearTerminalFailed
    split
    · exact keeps_raise _
    · exact keeps_pure _
  unfold recoverPermanentConfiguration
  split_ifs
  · exact keeps_raise _
  · refine keeps_bind (keeps_read _) fun existing => ?_
    cases existing with
    | none => exact keeps_raise _
    | some existing =>
      dsimp only
      split_ifs
      · exact keeps_raise _
      · exact keeps_raise _
      · exact keeps_raise _
      · refine keeps_bind (keeps_ofExcept _) fun _ => keeps_bind hclear fun cleared => ?_
        refine keeps_bind (keeps_read _) fun attempts => ?_
        split
        · exact keeps_raise _
        · split_ifs
          · exact keeps_bind (hcreate _ _ _) fun _ => keeps_pure _
          · exact keeps_raise _

end TradingBot.Paper.StopJobs
