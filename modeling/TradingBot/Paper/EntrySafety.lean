import TradingBot.Library.Monitor
import TradingBot.Paper.LiveEntries

namespace TradingBot.Paper.EntrySafety

open Relation
open Market.Models Strategy.Models Exceptions Backtester.Lifecycle Constraints Library.Transaction Library.Monitor
open Paper.Models Paper.Repository Paper.Stops Paper.Execution Paper.Lifecycle Paper.MarketEvents
open Paper.SchedulerContext Paper.Scheduler Paper.Effects Paper.Polls Paper.Bridge Paper.ConfigurationRecovery
open Paper.EventRules Paper.StopJobs PaperTradingScheduler MarketEventBridge
open Paper.Account (Authorized)
open Paper.Bookkeeping (keeps_ofExcept)

section Definitions

/-- What a transaction is told when it asks whether an entry is allowed. -/
structure Reading where
  config : PaperTradingConfig
  marketDataReady : Bool
  time : Time

def SameEntries (db db' : Db) : Prop :=
  db'.intents.map (·.intentId) = db.intents.map (·.intentId) ∧
    db'.fills.filter (·.fillKind = .entry) = db.fills.filter (·.fillKind = .entry)

def Enters (db db' : Db) : Prop :=
  (∃ i ∈ db'.intents, i.intentId ∉ db.intents.map (·.intentId)) ∨ ∃ f ∈ db'.fills, f.fillKind = .entry ∧ f ∉ db.fills

/-- A transaction that commits: the one around a due intent, the one that stores a new intent, one that leaves
the entries and the row of the runtime alone, or a control operation on that row. -/
inductive Commits (asked : Reading → Prop) (changes : Option RuntimeState → Option RuntimeState → Prop) :
    Db → Db → Prop
  | fill {q : Reading} {db : Db} {faults : List Bool} {s' : Session Db} {r : Option FillOutcome}
      (risk : RiskEngine IntentKey) (contexts : BySymbol FillProcessingContext) (symbol : Symbol)
      (ctx : FillProcessingContext) (processed : List IntentKey) (intent : TradeIntent) (hasked : asked q)
      (h : authorizeAndFill q.config risk q.time contexts symbol ctx processed q.marketDataReady intent ⟨db, faults⟩ =
        (.ok r, s')) : Commits asked changes db s'.db
  | schedule {q : Reading} {db : Db} {faults : List Bool} {s' : Session Db} {r : Option TradeIntent × Bool × List String}
      (evaluation : StrategyEvaluationRecord) (eval : StrategyEvaluation) (gates : EntryGateContext) (createdAt : Time)
      (hasked : asked q)
      (h : createIntentFromEvaluation q.config evaluation eval gates createdAt q.time q.marketDataReady ⟨db, faults⟩ =
        (.ok r, s')) : Commits asked changes db s'.db
  | other {db db' : Db} (hsame : SameEntries db db') (hrow : db'.runtimeState = db.runtimeState) :
      Commits asked changes db db'
  | control {db : Db} {state : Option RuntimeState} (h : changes db.runtimeState state) :
      Commits asked changes db { db with runtimeState := state }

end Definitions

section Transactions

variable {asked : Reading → Prop} {changes : Option RuntimeState → Option RuntimeState → Prop} {db db' : Db}

theorem not_enters_of_same (h : SameEntries db db') : ¬Enters db db' := by
  rintro (⟨i, hi, hnew⟩ | ⟨f, hf, hentry, hnew⟩)
  · exact hnew (h.1 ▸ List.mem_map_of_mem hi)
  · have hmem : f ∈ db'.fills.filter (·.fillKind = .entry) := List.mem_filter.mpr ⟨hf, by simp [hentry]⟩
    rw [h.2] at hmem
    exact hnew (List.mem_filter.mp hmem).1

theorem sameEntries_modifyIntent (intentId : Id) (u : IntentUpdate) (db : Db) :
    SameEntries db (modifyIntent intentId u db) := ⟨TradeBook.modifyIntent_ids intentId u db, rfl⟩

theorem authorized_of_enters (h : Commits asked changes db db') (henters : Enters db db') :
    ∃ q, asked q ∧ Authorized q.config q.marketDataReady q.time db ∧ db'.runtimeState = db.runtimeState := by
  cases h with
  | @fill q db faults s' r risk contexts symbol ctx processed intent hasked h =>
    rcases Account.authorizeAndFill_ok h with ⟨reason, hdb⟩ | ⟨hallowed, t, pending, outcome, hdb, hfill⟩
    · rw [hdb] at henters
      exact absurd henters (not_enters_of_same (sameEntries_modifyIntent _ _ _))
    · have hrow := (LiveEntries.executeScheduledPaperFill_rows hfill).2
      rw [hdb] at hrow
      exact ⟨q, hasked, hallowed, hrow⟩
  | @schedule q db faults s' r evaluation eval gates createdAt hasked h =>
    rcases Account.createIntentFromEvaluation_ok h with ⟨n, _, hdb⟩ | ⟨hallowed, _, _, _, _, hdb⟩
    · have hsame : SameEntries db s'.db := by
        rw [hdb]
        exact ⟨rfl, rfl⟩
      exact absurd henters (not_enters_of_same hsame)
    · refine ⟨q, hasked, hallowed, ?_⟩
      rw [hdb]
  | other hsame _ => exact absurd henters (not_enters_of_same hsame)
  | control _ =>
    have hsame : SameEntries db { db with runtimeState := _ } := ⟨rfl, rfl⟩
    exact absurd henters (not_enters_of_same hsame)

theorem runtimeState_of_commits (h : Commits asked (fun _ _ => False) db db') :
    db'.runtimeState = db.runtimeState := by
  cases h with
  | fill risk contexts symbol ctx processed intent hasked h =>
    obtain ⟨reason, hdb⟩ | ⟨_, t, pending, outcome, hdb, hfill⟩ := Account.authorizeAndFill_ok h
    · rw [hdb]
      rfl
    · have hrow := (LiveEntries.executeScheduledPaperFill_rows hfill).2
      rw [hdb] at hrow
      exact hrow
  | schedule evaluation eval gates createdAt hasked h =>
    obtain ⟨n, _, hdb⟩ | ⟨_, _, _, _, _, hdb⟩ := Account.createIntentFromEvaluation_ok h
    · rw [hdb]
    · rw [hdb]
  | other hsame hrow => exact hrow
  | control hchanges => exact hchanges.elim

end Transactions

section Chains

variable {asked : Reading → Prop} {changes : Option RuntimeState → Option RuntimeState → Prop} {db₀ db db' : Db}

def Chain (asked : Reading → Prop) (changes : Option RuntimeState → Option RuntimeState → Prop) (db₀ db : Db) : Prop :=
  ReflTransGen (Commits asked changes) db₀ db

theorem Chain.other (h : Chain asked changes db₀ db) (hsame : SameEntries db db')
    (hrow : db'.runtimeState = db.runtimeState) : Chain asked changes db₀ db' :=
  ReflTransGen.tail h (.other hsame hrow)

theorem Chain.same (h : Chain asked changes db₀ db) (hintents : db'.intents = db.intents)
    (hfills : db'.fills = db.fills) (hrow : db'.runtimeState = db.runtimeState) : Chain asked changes db₀ db' :=
  h.other ⟨by rw [hintents], by rw [hfills]⟩ hrow

theorem stopRules : StopRules (Chain asked changes db₀) where
  frame := fun _ h => h.same rfl rfl rfl
  exited := by
    intro db position trigger exit time h
    refine h.other ⟨rfl, ?_⟩ rfl
    simp [exited, exitFill, PositionTable.modifyPosition]
  raised := fun h => h.same rfl rfl rfl

theorem runRules {own : JobName → Time → Prop} : RunRules own (Chain asked changes db₀) :=
  .of_same fun _ _ _ h _ => h.same rfl rfl rfl

theorem keeps_authorizeAndFill {config : PaperTradingConfig} {ready : Bool} {time : Time}
    (hasked : asked ⟨config, ready, time⟩) (risk : RiskEngine IntentKey) (contexts : BySymbol FillProcessingContext)
    (symbol : Symbol) (ctx : FillProcessingContext) (processed : List IntentKey) (intent : TradeIntent) :
    Keeps (Chain asked changes db₀)
      (scope (authorizeAndFill config risk time contexts symbol ctx processed ready intent)) := by
  refine keeps_scope fun s r s' hs h => ?_
  have hcommit : Commits asked changes s.db s'.db :=
    .fill (q := ⟨config, ready, time⟩) risk contexts symbol ctx processed intent hasked h
  exact ReflTransGen.tail hs hcommit

theorem runtimeState_of_chain (h : Chain asked (fun _ _ => False) db₀ db) : db.runtimeState = db₀.runtimeState := by
  induction h with
  | refl => rfl
  | tail _ hstep ih => exact (runtimeState_of_commits hstep).trans ih

/-- An entry that a chain makes is made by one of its transactions. -/
theorem exists_commit (h : Chain asked changes db₀ db') (henters : Enters db₀ db') :
    ∃ d d', Chain asked changes db₀ d ∧ Commits asked changes d d' ∧ Enters d d' := by
  induction h with
  | refl => exact absurd henters (not_enters_of_same ⟨rfl, rfl⟩)
  | @tail d d' hchain hcommit ih =>
    by_cases hearlier : Enters db₀ d
    · exact ih hearlier
    · refine ⟨d, d', hchain, hcommit, ?_⟩
      rcases henters with ⟨i, hi, hnew⟩ | ⟨f, hf, hentry, hnew⟩
      · refine .inl ⟨i, hi, fun hmem => hearlier ?_⟩
        obtain ⟨j, hj, hid⟩ := List.mem_map.mp hmem
        exact .inl ⟨j, hj, hid ▸ hnew⟩
      · exact .inr ⟨f, hf, hentry, fun hmem => hearlier (.inr ⟨f, hmem, hentry, hnew⟩)⟩

/-- While nobody changes the row of the runtime, all transactions of a chain read the same one. -/
theorem authorized_of_chain (h : Chain asked (fun _ _ => False) db₀ db') (henters : Enters db₀ db') :
    ∃ q, asked q ∧ Authorized q.config q.marketDataReady q.time db₀ ∧ db'.runtimeState = db₀.runtimeState := by
  obtain ⟨d, d', hchain, hcommit, hentry⟩ := exists_commit h henters
  obtain ⟨q, hasked, hauthorized, -⟩ := authorized_of_enters hcommit hentry
  refine ⟨q, hasked, ?_, runtimeState_of_chain h⟩
  rwa [Authorized, runtimeState_of_chain hchain] at hauthorized

theorem not_enters_of_chain (h : Chain (fun _ => False) changes db₀ db') : ¬Enters db₀ db' := by
  intro henters
  obtain ⟨d, d', -, hcommit, hentry⟩ := exists_commit h henters
  obtain ⟨q, hasked, -⟩ := authorized_of_enters hcommit hentry
  exact hasked

end Chains

section Batches

/-- What other transactions leave of the row of the runtime before the transaction of each intent of a batch. -/
abbrev Interference := ℕ → Option RuntimeState → Option RuntimeState

def interfere (f : Option RuntimeState → Option RuntimeState) (db : Db) : Db :=
  { db with runtimeState := f db.runtimeState }

def processIntentUnder (control : Interference) (config : PaperTradingConfig) (risk : RiskEngine IntentKey)
    (processTime : Time) (contexts : BySymbol FillProcessingContext) (marketDataReady : ℕ → Bool) (symbol : Symbol)
    (ctx : FillProcessingContext) (b : BatchState) (intent : TradeIntent) : Query BatchState := fun s =>
  processIntent config risk processTime contexts marketDataReady symbol ctx b intent
    ⟨interfere (control b.asked) s.db, s.faults⟩

def processSymbolForOpenUnder (control : Interference) (config : PaperTradingConfig) (risk : RiskEngine IntentKey)
    (processTime : Time) (contexts : BySymbol FillProcessingContext) (marketDataReady : ℕ → Bool)
    (b : BatchState × List FillBatchResult) (symbol : Symbol) : Query (BatchState × List FillBatchResult) := do
  let start : BatchState := { b.1 with result := { symbol } }
  match contexts symbol with
  | none => pure (start, b.2 ++ [start.result])
  | some ctx =>
    if processTime < ctx.candleOpenTime + config.fillDelaySeconds * second then
      pure (start, b.2 ++ [start.result])
    else do
      let intents ← getScheduledIntentsForSymbol symbol ctx.candleOpenTime
      let done ← forFold
        (processIntentUnder control config risk processTime contexts marketDataReady symbol ctx) start intents
      pure (done, b.2 ++ [done.result])

/-- A batch, with what happens to the row of the runtime between its transactions. -/
def processScheduledIntentsForOpenUnder (control : Interference) (config : PaperTradingConfig)
    (risk : RiskEngine IntentKey) (processTime : Time) (contexts : BySymbol FillProcessingContext)
    (marketDataReady : ℕ → Bool) : Query (List FillBatchResult) := do
  let (_, results) ← forFold
    (processSymbolForOpenUnder control config risk processTime contexts marketDataReady)
    ({ result := { symbol := .BTC } }, []) symbolProcessingOrder
  pure results

variable {asked : Reading → Prop} {changes : Option RuntimeState → Option RuntimeState → Prop} {db₀ : Db}
  {config : PaperTradingConfig} {risk : RiskEngine IntentKey} {time : Time}
  {contexts : BySymbol FillProcessingContext} {ready : ℕ → Bool}

theorem keeps_processIntent {b : BatchState} (hasked : asked ⟨config, ready b.asked, time⟩) (symbol : Symbol)
    (ctx : FillProcessingContext) (intent : TradeIntent) :
    Keeps (Chain asked changes db₀) (processIntent config risk time contexts ready symbol ctx b intent) := by
  unfold processIntent
  split_ifs
  · exact keeps_pure _
  · exact keeps_bind (keeps_authorizeAndFill hasked _ _ _ _ _ _) fun _ => keeps_pure _

theorem keeps_processScheduledIntentsForOpen (hasked : ∀ n, asked ⟨config, ready n, time⟩) :
    Keeps (Chain asked changes db₀) (processScheduledIntentsForOpen config risk time contexts ready) := by
  refine keeps_bind (keeps_forFold (fun b symbol => ?_) _) fun _ => keeps_pure _
  unfold processSymbolForOpen
  cases contexts symbol with
  | none => exact keeps_pure _
  | some ctx =>
    dsimp only
    split_ifs
    · exact keeps_pure _
    · refine keeps_bind (keeps_read _) fun intents => keeps_bind (keeps_forFold (fun b intent => ?_) _) fun _ =>
        keeps_pure _
      exact keeps_processIntent (hasked _) symbol ctx intent

end Batches

section Evaluations

variable {asked : Reading → Prop} {changes : Option RuntimeState → Option RuntimeState → Prop} {db₀ : Db}
  {config : PaperTradingConfig} {ready : Bool} {authorizationAt : Time}

theorem keeps_createIntentFromEvaluation (hasked : asked ⟨config, ready, authorizationAt⟩)
    (evaluation : StrategyEvaluationRecord) (eval : StrategyEvaluation) (gates : EntryGateContext) (createdAt : Time)
    {s s' : Session Db} {r : Option TradeIntent × Bool × List String} (hs : Chain asked changes db₀ s.db)
    (h : createIntentFromEvaluation config evaluation eval gates createdAt authorizationAt ready s = (.ok r, s')) :
    Chain asked changes db₀ s'.db := by
  have hcommit : Commits asked changes s.db s'.db :=
    .schedule (q := ⟨config, ready, authorizationAt⟩) evaluation eval gates createdAt hasked h
  exact ReflTransGen.tail hs hcommit

theorem keeps_recordEvaluation (hasked : asked ⟨config, ready, authorizationAt⟩) (row : StrategyEvaluationRecord)
    (gates : EntryGateContext) {s s' : Session Db} {r : EvaluationResult} (hs : Chain asked changes db₀ s.db)
    (h : recordEvaluation config row gates authorizationAt ready s = (.ok r, s')) : Chain asked changes db₀ s'.db := by
  obtain ⟨⟨evaluation, created⟩, t, hinsert, h⟩ := bind_eq_ok.mp h
  obtain ⟨_, evaluations, hdb⟩ := LiveEntries.storedEvaluation_symbol hinsert
  have ht : Chain asked changes db₀ t.db := by
    rw [hdb]
    exact hs.same rfl rfl rfl
  simp only at h
  split_ifs at h
  · obtain ⟨intent, u, hcreate, hpure⟩ := bind_eq_ok.mp h
    cases hpure
    exact keeps_createIntentFromEvaluation hasked _ _ _ _ ht hcreate
  · cases h
    exact ht

theorem keeps_evaluateSymbolForDailyClose (hasked : asked ⟨config, ready, authorizationAt⟩) (symbol : Symbol)
    (t : Time) (ctx : EvaluationContext) :
    Keeps (Chain asked changes db₀) (evaluateSymbolForDailyClose config symbol t ctx authorizationAt ready) := by
  unfold evaluateSymbolForDailyClose
  split_ifs
  · exact keeps_raise _
  · cases ctx.bundle.daily.candles.getLast? with
    | none => exact keeps_raise _
    | some lastDaily =>
      dsimp only
      split_ifs
      · exact keeps_raise _
      · refine keeps_bind (keeps_ofExcept _) fun result => keeps_bind (keeps_newId stopRules) fun evaluationId => ?_
        exact keeps_scope fun s r s' hs h => keeps_recordEvaluation hasked _ _ hs h

end Evaluations

section Runs

/-- What a scheduler's configuration, clock and readiness callback may say. -/
def Reads (sched : PaperTradingScheduler) (q : Reading) : Prop :=
  q.config = sched.config ∧ (q.time = sched.now .processTime ∨ q.time = sched.now .authorization) ∧
    ∃ n, q.marketDataReady = sched.marketDataReady n

def evaluateUnder (control : Symbol → Option RuntimeState → Option RuntimeState) (sched : PaperTradingScheduler)
    (ctx : JobContexts) (t : Time) (_ : Unit) (symbol : Symbol) : Query Unit := fun s =>
  sched.evaluateForDailyClose ctx t symbol ⟨interfere (control symbol) s.db, s.faults⟩

/-- The steps that interleave: a control operation, which may leave anything in the row of the runtime (pause,
kill switch, status, error, heartbeat), the turn of an event, a whole poll, an operator's recovery, a scheduler
job with any contexts, and the two jobs that make entries while others change the row between their transactions. -/
inductive Step
  | control (state : Option RuntimeState)
  | turn (turn : Turn) (faults : List Bool)
  | poll (p : Poll)
  | recover (call : RecoverCall)
  | job (sched : PaperTradingScheduler) (ctx : JobContexts) (t : Time) (job : SchedulerJobName) (faults : List Bool)
  | openBatch (sched : PaperTradingScheduler) (contexts : BySymbol FillProcessingContext) (control : Interference)
      (faults : List Bool)
  | evaluationBatch (sched : PaperTradingScheduler) (ctx : JobContexts) (t : Time)
      (control : Symbol → Option RuntimeState → Option RuntimeState) (faults : List Bool)

/-- The rows that a transaction finds and those that it leaves, and what it may be told when it asks. -/
structure Transaction where
  before : Db
  after : Db
  asks : Reading → Prop

/-- An answer that the transaction is given and the row of the runtime that it finds and leaves allow an entry. -/
def Transaction.Authorized (tr : Transaction) : Prop :=
  ∃ q, tr.asks q ∧ Account.Authorized q.config q.marketDataReady q.time tr.before ∧
    tr.after.runtimeState = tr.before.runtimeState

section Transactions

variable (control : Interference) (sched : PaperTradingScheduler) (contexts : BySymbol FillProcessingContext)

/-- The transaction of each intent that a symbol's turn comes to. -/
def symbolTransactions (b : BatchState × List FillBatchResult) (symbol : Symbol) (s : Session Db) : List Transaction :=
  match contexts symbol with
  | none => []
  | some ctx =>
    if sched.now .processTime < ctx.candleOpenTime + sched.config.fillDelaySeconds * second then []
    else
      let intents := (s.db.intents.filter (isDueIntent symbol ctx.candleOpenTime)).insertionSort
        fun a b => a.createdAt ≤ b.createdAt
      let turn := processIntentUnder control sched.config sched.risk (sched.now .processTime) contexts
        sched.marketDataReady symbol ctx
      (forFoldTurns turn { b.1 with result := { symbol } } intents s).map fun (b, intent, s) =>
        { before := interfere (control b.asked) s.db
          after := (turn b intent s).2.db
          asks := (· = ⟨sched.config, sched.marketDataReady b.asked, sched.now .processTime⟩) }

def openTransactions (s : Session Db) : List Transaction :=
  (forFoldTurns (processSymbolForOpenUnder control sched.config sched.risk (sched.now .processTime) contexts
    sched.marketDataReady) ({ result := { symbol := .BTC } }, []) symbolProcessingOrder s).flatMap fun (b, symbol, s) =>
      symbolTransactions control sched contexts b symbol s

/-- The transaction of each symbol that the evaluation comes to. -/
def evaluationTransactions (control : Symbol → Option RuntimeState → Option RuntimeState) (ctx : JobContexts) (t : Time)
    (s : Session Db) : List Transaction :=
  (forFoldTurns (evaluateUnder control sched ctx t) () symbolProcessingOrder s).map fun (_, symbol, s) =>
    { before := interfere (control symbol) s.db
      after := (evaluateUnder control sched ctx t () symbol s).2.db
      asks := (· = ⟨sched.config, sched.marketDataReady 0, sched.now .authorization⟩) }

end Transactions

namespace Step

def run (db : Db) : Step → Db
  | control state => { db with runtimeState := state }
  | turn t faults => (takeTurn t ⟨db, faults⟩).2.db
  | poll p => (p.run db).2
  | recover call => (call.result db).2.db
  | job sched ctx t name faults => (sched.handler ctx t name ⟨db, faults⟩).2.db
  | openBatch sched contexts between faults => (processScheduledIntentsForOpenUnder between sched.config sched.risk
      (sched.now .processTime) contexts sched.marketDataReady ⟨db, faults⟩).2.db
  | evaluationBatch sched ctx t between faults =>
      (forFold (evaluateUnder between sched ctx t) () symbolProcessingOrder ⟨db, faults⟩).2.db

def asks (step : Step) (q : Reading) : Prop :=
  match step with
  | control _ | recover _ => False
  | turn t _ => Reads t.1.scheduler q
  | poll p => ∃ t ∈ p.turns, Reads t.1.scheduler q
  | job sched _ _ name _ => name ≠ .runtimeHeartbeat ∧ Reads sched q
  | openBatch sched _ _ _ | evaluationBatch sched _ _ _ _ => Reads sched q

/-- The transactions of the two disturbed jobs; every other step is one transaction. -/
def transactions (db : Db) (step : Step) : List Transaction :=
  match step with
  | openBatch sched contexts between faults => openTransactions between sched contexts ⟨db, faults⟩
  | evaluationBatch sched ctx t between faults => evaluationTransactions sched between ctx t ⟨db, faults⟩
  | _ => [⟨db, step.run db, step.asks⟩]

end Step

def run (db : Db) (steps : List Step) : Db := steps.foldl Step.run db

variable {asked : Reading → Prop} {changes : Option RuntimeState → Option RuntimeState → Prop} {db₀ : Db}

theorem keeps_readinessCheck (sched : PaperTradingScheduler) :
    Keeps (Chain asked changes db₀) sched.jobReadinessCheck := by
  refine keeps_bind (keeps_bind (keeps_read _) fun runtime => ?_) fun _ => keeps_pure _
  cases runtime with
  | none => exact keeps_pure _
  | some runtime =>
    refine keeps_bind (keeps_bind (keeps_read _) fun _ => ?_) fun _ => keeps_bind (keeps_read _) fun _ => keeps_pure _
    exact keeps_bind (keeps_read _) fun _ => keeps_pure _

theorem keeps_runtimeHeartbeat (hchanges : ∀ row row', changes row row') (sched : PaperTradingScheduler) :
    Keeps (Chain asked changes db₀) sched.jobRuntimeHeartbeat := by
  refine keeps_bind (Keeps.scope (keeps_bind ?_ fun current => ?_)) fun _ => keeps_pure _
  · refine keeps_bind (keeps_read _) fun state => ?_
    cases state with
    | none => exact keeps_raise _
    | some state => exact keeps_pure _
  · refine keeps_bind (keeps_read _) fun row => ?_
    cases row with
    | none => exact keeps_raise _
    | some row =>
      dsimp only
      split_ifs
      · exact keeps_raise _
      · refine keeps_bind (keeps_write _ fun db hdb => ?_) fun _ => keeps_pure _
        exact ReflTransGen.tail hdb (.control (hchanges _ _))

theorem keeps_evaluateForDailyClose {sched : PaperTradingScheduler}
    (hasked : asked ⟨sched.config, sched.marketDataReady 0, sched.now .authorization⟩) (ctx : JobContexts) (t : Time)
    (symbol : Symbol) : Keeps (Chain asked changes db₀) (sched.evaluateForDailyClose ctx t symbol) := by
  unfold evaluateForDailyClose
  cases ctx.evaluation symbol with
  | none => exact keeps_pure _
  | some evaluation =>
    exact keeps_bind (keeps_evaluateSymbolForDailyClose hasked _ _ _) fun _ => keeps_recordWork stopRules _ _ _

theorem keeps_handler {sched : PaperTradingScheduler} (hasked : ∀ q, Reads sched q → asked q) (ctx : JobContexts)
    (t : Time) {job : SchedulerJobName} (hchanges : job = .runtimeHeartbeat → ∀ row row', changes row row') :
    Keeps (Chain asked changes db₀) (sched.handler ctx t job) := by
  have hjob : ∀ job ∈ stopJobs, Keeps (Chain asked changes db₀) (sched.handler ctx t job) :=
    fun _ hjob => keeps_stopJob stopRules hjob
  cases job with
  | readinessCheck => exact keeps_readinessCheck sched
  | dailySignalEvaluation =>
    refine keeps_bind (keeps_forEach fun symbol _ => ?_) fun _ => keeps_pure _
    exact keeps_evaluateForDailyClose (hasked _ ⟨rfl, .inr rfl, 0, rfl⟩) ctx t symbol
  | nextOpenFillProcessing =>
    refine keeps_bind (keeps_processScheduledIntentsForOpen fun n => hasked _ ?_) fun _ =>
      keeps_recordWork stopRules _ _ _
    exact ⟨rfl, .inl rfl, n, rfl⟩
  | dailyStopUpdate => exact hjob _ (by simp [stopJobs])
  | stopTriggerProcessing => exact hjob _ (by simp [stopJobs])
  | intradayStopProcessing => exact hjob _ (by simp [stopJobs])
  | fundingProcessing => exact keeps_raise _
  | portfolioSnapshot => exact hjob _ (by simp [stopJobs])
  | runtimeHeartbeat => exact keeps_runtimeHeartbeat (hchanges rfl) sched

theorem rules {b : MarketEventBridge} {e : MarketEvent} (hasked : ∀ q, Reads b.scheduler q → asked q) :
    Rules b e (fun _ => True) (Chain asked changes db₀) where
  toRunRules := runRules
  pending := fun _ _ => trivial
  found := fun _ _ _ _ _ _ => trivial
  resolve := fun _ _ h _ => h.same rfl rfl rfl
  handler := fun ctx t job hjob => by
    refine keeps_handler hasked ctx t fun hbeat => ?_
    have hkinds := JobOf.kinds hjob
    simp [hbeat, stopJobs] at hkinds

theorem chain_turn (t : Turn) (faults : List Bool) (db : Db) :
    Chain (Step.turn t faults).asks (fun _ _ => False) db ((Step.turn t faults).run db) :=
  keeps_takeTurn (rules fun _ hq => hq) ⟨db, faults⟩ ReflTransGen.refl

theorem chain_poll (p : Poll) (db : Db) :
    Chain (Step.poll p).asks (fun _ _ => False) db ((Step.poll p).run db) :=
  poll_keeps (fun turn hturn => ⟨_, rules fun _ hq => ⟨turn, hturn, hq⟩⟩) ReflTransGen.refl

theorem chain_recover (call : RecoverCall) (db : Db) :
    Chain (Step.recover call).asks (fun _ _ => False) db ((Step.recover call).run db) := by
  have hruns : ∀ (d : Db) (n : ℕ) (runs : List SchedulerRun), d.nextId ≤ n →
      Chain (Step.recover call).asks (fun _ _ => False) db d →
      Chain (Step.recover call).asks (fun _ _ => False) db { d with nextId := n, schedulerRuns := runs } :=
    fun _ _ _ _ h => h.same rfl rfl rfl
  exact (keeps_recoverPermanentConfiguration hruns _ _).scope ⟨db, call.faults⟩ ReflTransGen.refl

theorem chain_job (sched : PaperTradingScheduler) (ctx : JobContexts) (t : Time) {name : SchedulerJobName}
    (hname : name ≠ .runtimeHeartbeat) (faults : List Bool) (db : Db) :
    Chain (Step.job sched ctx t name faults).asks (fun _ _ => False) db ((Step.job sched ctx t name faults).run db) :=
  keeps_handler (fun _ hq => ⟨hname, hq⟩) ctx t (fun h => absurd h hname) ⟨db, faults⟩ ReflTransGen.refl

theorem not_enters_heartbeat (sched : PaperTradingScheduler) (ctx : JobContexts) (t : Time) (faults : List Bool)
    (db : Db) : ¬Enters db ((Step.job sched ctx t .runtimeHeartbeat faults).run db) := by
  have hchain : Chain (fun _ => False) (fun _ _ => True) db ((Step.job sched ctx t .runtimeHeartbeat faults).run db) :=
    keeps_runtimeHeartbeat (fun _ _ => trivial) sched ⟨db, faults⟩ ReflTransGen.refl
  exact not_enters_of_chain hchain

section Disturbed

variable {sched : PaperTradingScheduler} {contexts : BySymbol FillProcessingContext} {control : Interference}
  {tr : Transaction} {s : Session Db} {p : Db → Prop}

theorem authorized_of_open (htr : tr ∈ openTransactions control sched contexts s) (henters : Enters tr.before tr.after) :
    tr.Authorized := by
  obtain ⟨⟨b, symbol, t⟩, -, htr⟩ := List.mem_flatMap.mp htr
  simp only [symbolTransactions] at htr
  split at htr
  · cases htr
  · next ctx hctx =>
    split_ifs at htr
    · cases htr
    · obtain ⟨⟨b, intent, u⟩, -, rfl⟩ := List.mem_map.mp htr
      have hkeeps : Keeps (Chain (fun q => q = ⟨sched.config, sched.marketDataReady b.asked, sched.now .processTime⟩)
          (fun _ _ => False) (interfere (control b.asked) u.db)) (processIntent sched.config sched.risk
            (sched.now .processTime) contexts sched.marketDataReady symbol ctx b intent) :=
        keeps_processIntent (by rfl) symbol ctx intent
      exact authorized_of_chain (hkeeps ⟨_, u.faults⟩ ReflTransGen.refl) henters

theorem exists_symbolTransaction (hp : ∀ f db, p (interfere f db) ↔ p db) {b : BatchState × List FillBatchResult}
    {symbol : Symbol} (hs : ¬p s.db) (h : p (processSymbolForOpenUnder control sched.config sched.risk
      (sched.now .processTime) contexts sched.marketDataReady b symbol s).2.db) :
    ∃ tr ∈ symbolTransactions control sched contexts b symbol s, ¬p tr.before ∧ p tr.after := by
  unfold processSymbolForOpenUnder at h
  unfold symbolTransactions
  cases hctx : contexts symbol with
  | none =>
    rw [hctx] at h
    exact absurd h hs
  | some ctx =>
    rw [hctx] at h
    dsimp only at h ⊢
    split_ifs at h ⊢
    · exact absurd h hs
    · rw [getScheduledIntentsForSymbol, read_bind, bind_pure_db] at h
      obtain ⟨⟨b, intent, t⟩, hturn, hbefore, hafter⟩ := exists_turn hs h
      exact ⟨_, List.mem_map_of_mem hturn, fun hfound => hbefore ((hp _ _).mp hfound), hafter⟩

theorem exists_openTransaction (hp : ∀ f db, p (interfere f db) ↔ p db) (hs : ¬p s.db)
    (h : p (processScheduledIntentsForOpenUnder control sched.config sched.risk (sched.now .processTime) contexts
      sched.marketDataReady s).2.db) :
    ∃ tr ∈ openTransactions control sched contexts s, ¬p tr.before ∧ p tr.after := by
  rw [processScheduledIntentsForOpenUnder, bind_pure_db] at h
  obtain ⟨⟨b, symbol, t⟩, hturn, hbefore, hafter⟩ := exists_turn hs h
  obtain ⟨tr, htr, hwork⟩ := exists_symbolTransaction hp hbefore hafter
  exact ⟨tr, List.mem_flatMap.mpr ⟨_, hturn, htr⟩, hwork⟩

variable {evaluationControl : Symbol → Option RuntimeState → Option RuntimeState} {ctx : JobContexts} {time : Time}

theorem authorized_of_evaluation (htr : tr ∈ evaluationTransactions sched evaluationControl ctx time s)
    (henters : Enters tr.before tr.after) : tr.Authorized := by
  obtain ⟨⟨_, symbol, u⟩, -, rfl⟩ := List.mem_map.mp htr
  have hkeeps : Keeps (Chain (fun q => q = ⟨sched.config, sched.marketDataReady 0, sched.now .authorization⟩)
      (fun _ _ => False) (interfere (evaluationControl symbol) u.db)) (sched.evaluateForDailyClose ctx time symbol) :=
    keeps_evaluateForDailyClose (by rfl) ctx time symbol
  exact authorized_of_chain (hkeeps ⟨_, u.faults⟩ ReflTransGen.refl) henters

theorem exists_evaluationTransaction (hp : ∀ f db, p (interfere f db) ↔ p db) (hs : ¬p s.db)
    (h : p (forFold (evaluateUnder evaluationControl sched ctx time) () symbolProcessingOrder s).2.db) :
    ∃ tr ∈ evaluationTransactions sched evaluationControl ctx time s, ¬p tr.before ∧ p tr.after := by
  obtain ⟨⟨_, symbol, t⟩, hturn, hbefore, hafter⟩ := exists_turn hs h
  exact ⟨_, List.mem_map_of_mem hturn, fun hfound => hbefore ((hp _ _).mp hfound), hafter⟩

end Disturbed

theorem authorized_of_transaction {db : Db} {step : Step} {tr : Transaction} (htr : tr ∈ step.transactions db)
    (henters : Enters tr.before tr.after) : tr.Authorized := by
  cases step with
  | openBatch sched contexts control faults => exact authorized_of_open htr henters
  | evaluationBatch sched ctx t control faults => exact authorized_of_evaluation htr henters
  | control state =>
    cases List.mem_singleton.mp htr
    exact absurd henters (not_enters_of_same ⟨rfl, rfl⟩)
  | turn t faults =>
    cases List.mem_singleton.mp htr
    exact authorized_of_chain (chain_turn t faults db) henters
  | poll p =>
    cases List.mem_singleton.mp htr
    exact authorized_of_chain (chain_poll p db) henters
  | recover call =>
    cases List.mem_singleton.mp htr
    exact authorized_of_chain (chain_recover call db) henters
  | job sched ctx t name faults =>
    cases List.mem_singleton.mp htr
    by_cases hname : name = .runtimeHeartbeat
    · subst hname
      exact absurd henters (not_enters_heartbeat sched ctx t faults db)
    · exact authorized_of_chain (chain_job sched ctx t hname faults db) henters

/-- What a step brings about, the row of the runtime aside, one of its transactions brings about. -/
theorem exists_transaction {p : Db → Prop} (hp : ∀ f db, p (interfere f db) ↔ p db) {db : Db} {step : Step}
    (hdb : ¬p db) (h : p (step.run db)) : ∃ tr ∈ step.transactions db, ¬p tr.before ∧ p tr.after := by
  cases step with
  | openBatch sched contexts control faults => exact exists_openTransaction hp (s := ⟨db, faults⟩) hdb h
  | evaluationBatch sched ctx t control faults => exact exists_evaluationTransaction hp (s := ⟨db, faults⟩) hdb h
  | control state => exact ⟨_, List.mem_singleton.mpr rfl, hdb, h⟩
  | turn t faults => exact ⟨_, List.mem_singleton.mpr rfl, hdb, h⟩
  | poll p => exact ⟨_, List.mem_singleton.mpr rfl, hdb, h⟩
  | recover call => exact ⟨_, List.mem_singleton.mpr rfl, hdb, h⟩
  | job sched ctx t name faults => exact ⟨_, List.mem_singleton.mpr rfl, hdb, h⟩

/-- Every transaction that makes an entry is authorized, and a step makes its entries in its transactions. -/
structure EntersAuthorized (db : Db) (step : Step) : Prop where
  authorized : ∀ tr ∈ step.transactions db, Enters tr.before tr.after → tr.Authorized
  intents : ∀ i ∈ (step.run db).intents, i.intentId ∉ db.intents.map (·.intentId) →
    ∃ tr ∈ step.transactions db, i.intentId ∉ tr.before.intents.map (·.intentId) ∧
      i.intentId ∈ tr.after.intents.map (·.intentId)
  fills : ∀ f ∈ (step.run db).fills, f.fillKind = .entry → f ∉ db.fills →
    ∃ tr ∈ step.transactions db, f ∉ tr.before.fills ∧ f ∈ tr.after.fills

end Runs

end TradingBot.Paper.EntrySafety
