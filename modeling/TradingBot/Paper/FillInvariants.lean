import TradingBot.Paper.Account

namespace TradingBot.Paper.FillInvariants

open Market.Models Strategy.Models Constraints Backtester.Lifecycle Library Library.Transaction
open Paper.Models Paper.Repository Paper.Stops Paper.Execution Paper.Lifecycle Paper.PositionTable
open Paper.TradeBook Paper.Account

section Operations

/-- The operations on the account with whatever their callers pass. `fillIntent` is the turn of one intent, which is
skipped like in the batch where the candle is not the one it is scheduled for. -/
inductive Operation
  | createIntent (evaluation : StrategyEvaluationRecord) (eval : StrategyEvaluation)
      (gates : EntryGateContext) (createdAt authorizationAt : Time) (marketDataReady : Bool)
  | openFill (processTime : Time) (contexts : BySymbol FillProcessingContext)
      (marketDataReady : ℕ → Bool)
  | fillIntent (intentId : Id) (ctx : FillProcessingContext) (processedIntentIds : List IntentKey)
      (pendingIntents : List (PendingIntent IntentKey))
  | stopTriggers (processTime : Time) (dailyCandles : BySymbol Candle)
      (constraints : BySymbol SymbolConstraints) (atOpen : Bool)
  | intradayStop (processTime : Time) (previewCandles : BySymbol Candle)
      (constraints : BySymbol SymbolConstraints)
  | trailingStops (evaluationTime : Time) (dailyCandles : BySymbol Candle) (atrs : BySymbol Decimal)
      (constraints : BySymbol SymbolConstraints) (params : StrategyParameters)
  | administration (runtimeState : Option RuntimeState) (evaluations : List StrategyEvaluationRecord)
      (schedulerRuns : List SchedulerRun)

def fillStoredIntent (risk : RiskEngine IntentKey) (intentId : Id) (ctx : FillProcessingContext)
    (processedIntentIds : List IntentKey) (pendingIntents : List (PendingIntent IntentKey)) :
    Query Unit := do
  match ← getIntent intentId with
  | none => pure ()
  | some intent =>
    if intent.scheduledFillTime ≠ ctx.candleOpenTime then pure ()
    else do
      let _ ← executeScheduledPaperFill risk intent ctx processedIntentIds pendingIntents
      pure ()

def Operation.run (config : PaperTradingConfig) (risk : RiskEngine IntentKey) : Operation → Query Unit
  | .createIntent evaluation eval gates createdAt authorizationAt ready => do
    let _ ← scope (createIntentFromEvaluation config evaluation eval gates createdAt authorizationAt
      ready)
    pure ()
  | .openFill processTime contexts ready => do
    let _ ← processScheduledIntentsForOpen config risk processTime contexts ready
    pure ()
  | .fillIntent intentId ctx processed pending => scope (fillStoredIntent risk intentId ctx processed pending)
  | .stopTriggers processTime candles constraints atOpen => do
    let _ ← processStopTriggersForDailyCandle config processTime candles constraints atOpen
    pure ()
  | .intradayStop processTime candles constraints => do
    let _ ← processIntradayStopTriggers config processTime candles constraints
    pure ()
  | .trailingStops evaluationTime candles atrs constraints params => do
    let _ ← updateDailyTrailingStops evaluationTime candles atrs constraints params
    pure ()
  | .administration runtimeState evaluations schedulerRuns =>
    execute fun db => { db with runtimeState, evaluations, schedulerRuns }

/-- An operation with the writes that fail in it, either kept or rolled back as a whole. -/
structure Attempt where
  operation : Operation
  faults : List Bool := []
  kept : Bool := true

def Attempt.apply (config : PaperTradingConfig) (risk : RiskEngine IntentKey) (db : Db)
    (a : Attempt) : Db :=
  if a.kept then (a.operation.run config risk ⟨db, a.faults⟩).2.db else db

/-- A funded account before its first intent; the other tables may hold anything. -/
def emptyAccount (w₀ : PaperWalletState) (base : Db) : Db :=
  { base with
    wallet := some w₀, intents := [], orders := [], fills := [], positions := [], fundingEvents := [] }

def account (config : PaperTradingConfig) (risk : RiskEngine IntentKey) (w₀ : PaperWalletState)
    (base : Db) (history : List Attempt) : Db :=
  history.foldl (Attempt.apply config risk) (emptyAccount w₀ base)

end Operations

section Run

variable {w₀ : PaperWalletState} {config : PaperTradingConfig} {risk : RiskEngine IntentKey}
  {inv : Db → Prop} [Accounted inv]

omit [Accounted inv] in
theorem emptyAccount_ledger (base : Db) : Ledger w₀ (emptyAccount w₀ base) := by
  refine ⟨[], rfl, rfl, .nil, rfl, ⟨List.nodup_nil, fun _ => Nat.zero_le _⟩, List.nodup_nil,
    List.nodup_nil, List.nodup_nil, ?_, ?_, ?_, ?_, rfl⟩ <;> simp [emptyAccount]

theorem fillStoredIntent_keeps {intentId : Id} {ctx : FillProcessingContext}
    {processed : List IntentKey} {pending : List (PendingIntent IntentKey)} {s s' : Session Db}
    {u : Unit} (hs : inv s.db)
    (h : fillStoredIntent risk intentId ctx processed pending s = (.ok u, s')) : inv s'.db := by
  unfold fillStoredIntent getIntent at h
  rw [read_bind] at h
  rcases hfind : s.db.intents.find? (·.intentId = intentId) with _ | intent <;> simp only [hfind] at h
  · cases h
    exact hs
  · split_ifs at h with hother
    · cases h
      exact hs
    · obtain ⟨outcome, t, hfill, hpure⟩ := bind_eq_ok.mp h
      cases hpure
      refine executeScheduledPaperFill_keeps hs ?_ hfill
      exact ⟨intent, List.mem_of_find?_eq_some hfind, rfl, not_not.mp hother⟩

theorem Operation.run_keeps (operation : Operation) : Keeps inv (operation.run config risk) := by
  cases operation with
  | createIntent evaluation eval gates createdAt authorizationAt ready =>
    refine keeps_bind (keeps_scope fun s r s' hs h => ?_) fun _ => keeps_pure _
    exact createIntentFromEvaluation_keeps hs h
  | openFill processTime contexts ready =>
    exact keeps_bind (processScheduledIntentsForOpen_keeps _ _ _ _ _) fun _ => keeps_pure _
  | fillIntent intentId ctx processed pending =>
    exact keeps_scope fun s u s' hs h => fillStoredIntent_keeps hs h
  | stopTriggers processTime candles constraints atOpen =>
    refine keeps_bind (keeps_forEach fun symbol _ => ?_) fun _ => keeps_pure _
    exact closeSymbolIfStopped_keeps _ _ _ _ _ symbol
  | intradayStop processTime candles constraints =>
    refine keeps_bind (keeps_forEach fun symbol _ => ?_) fun _ => keeps_pure _
    exact closeSymbolIfStopped_keeps _ _ _ _ _ symbol
  | trailingStops evaluationTime candles atrs constraints params =>
    refine keeps_bind (keeps_forEach fun symbol _ => ?_) fun _ => keeps_pure _
    exact updateTrailingStopForSymbol_keeps _ _ _ _ _ symbol
  | administration runtimeState evaluations schedulerRuns =>
    refine keeps_write _ fun db hdb => ?_
    have horders : ({ db with runtimeState, evaluations, schedulerRuns } : Db).orders = db.orders := rfl
    exact Accounted.frame horders rfl rfl rfl rfl rfl rfl (le_refl _) hdb

theorem Attempt.apply_keeps {db : Db} (h : inv db) (a : Attempt) : inv (a.apply config risk db) := by
  unfold Attempt.apply
  split_ifs
  · exact a.operation.run_keeps ⟨db, a.faults⟩ h
  · exact h

theorem attempts_keep {db : Db} (h : inv db) (history : List Attempt) :
    inv (history.foldl (Attempt.apply config risk) db) := by
  induction history generalizing db with
  | nil => exact h
  | cons a history ih => exact ih (Attempt.apply_keeps h a)

omit [Accounted inv] in
theorem account_ledger (base : Db) (history : List Attempt) :
    Ledger w₀ (account config risk w₀ base history) :=
  attempts_keep (emptyAccount_ledger base) history

end Run

section Counting

def ordersOf (db : Db) (i : TradeIntent) : List PaperOrder :=
  db.orders.filter (·.intentId = i.intentId)

def entryFillsOf (db : Db) (i : TradeIntent) : List PaperFill :=
  db.fills.filter fun f => f.fillKind = .entry ∧ ∃ o ∈ ordersOf db i, f.paperOrderId = some o.paperOrderId

def positionsOf (db : Db) (i : TradeIntent) : List PaperPosition :=
  db.positions.filter (·.entryIntentId = i.intentId)

def exitFillsOf (db : Db) (p : PaperPosition) : List PaperFill :=
  db.fills.filter fun f => f.fillKind = .exit ∧ f.positionId = some p.positionId

def openPositionsOf (db : Db) (symbol : Symbol) : List PaperPosition :=
  db.positions.filter fun p => p.symbol = symbol ∧ p.status = .open_

variable {w₀ : PaperWalletState} {db : Db} {trades : List Trade}

def tradesOf (trades : List Trade) (i : TradeIntent) : List Trade :=
  trades.filter (·.order.intentId = i.intentId)

theorem ordersOf_eq (h : Represents w₀ db trades) (i : TradeIntent) :
    ordersOf db i = (tradesOf trades i).map (·.order) := by
  rw [ordersOf, h.orders, List.filter_map]
  rfl

theorem positionsOf_eq (h : Represents w₀ db trades) (i : TradeIntent) :
    positionsOf db i = (tradesOf trades i).map (·.position) := by
  rw [positionsOf, h.positions, List.filter_map, tradesOf]
  congr 2
  funext t
  simp only [Function.comp_apply, t.intent_eq]

theorem entry_filter (h : Represents w₀ db trades) (i : TradeIntent) {t : Trade} (ht : t ∈ trades) :
    (t.fills.filter fun f => f.fillKind = .entry ∧
      ∃ o ∈ ordersOf db i, f.paperOrderId = some o.paperOrderId) =
    if t.order.intentId = i.intentId then [t.entry] else [] := by
  have hexit : (t.exit.toList.filter fun f => f.fillKind = .entry ∧
      ∃ o ∈ ordersOf db i, f.paperOrderId = some o.paperOrderId) = [] := by
    simp only [List.filter_eq_nil_iff, Option.mem_toList, decide_eq_true_eq, not_and]
    intro f hf hkind
    rw [(t.ended f hf).2.2.kind] at hkind
    cases hkind
  have hentry : (∃ o ∈ ordersOf db i, t.entry.paperOrderId = some o.paperOrderId) ↔
      t.order.intentId = i.intentId := by
    simp only [ordersOf_eq h, tradesOf, List.mem_map, List.mem_filter, decide_eq_true_eq,
      t.entry_order, Option.some.injEq]
    constructor
    · rintro ⟨o, ⟨t', ⟨ht', hid⟩, rfl⟩, heq⟩
      rw [List.inj_on_of_nodup_map h.orderIds ht ht' heq]
      exact hid
    · exact fun hid => ⟨t.order, ⟨t, ⟨ht, hid⟩, rfl⟩, rfl⟩
  rw [Trade.fills, List.filter_cons, hexit]
  simp only [t.entry_kind, hentry, true_and, decide_eq_true_eq]

theorem entryFillsOf_perm (h : Represents w₀ db trades) (i : TradeIntent) :
    (entryFillsOf db i).Perm ((tradesOf trades i).map (·.entry)) := by
  refine (h.fills.filter _).trans ?_
  rw [List.filter_flatMap, List.flatMap_congr fun t ht => entry_filter h i ht]
  have hselect := Keyed.flatMap_if_nil (fun t : Trade => decide (t.order.intentId = i.intentId))
    (fun t => [t.entry]) trades
  simp only [decide_eq_true_eq] at hselect
  rw [hselect, tradesOf, ← List.map_eq_flatMap]

theorem tradesOf_length_le_one (h : Represents w₀ db trades) (i : TradeIntent) :
    (tradesOf trades i).length ≤ 1 :=
  Keyed.length_filter_key_le_one h.tradeIntents i.intentId

theorem filled_iff (h : Represents w₀ db trades) {i : TradeIntent} (hi : i ∈ db.intents) :
    i.status = .filled ↔ tradesOf trades i ≠ [] := by
  rw [h.filled i hi]
  simp [tradesOf, List.filter_eq_nil_iff]

theorem exit_filter {t : Trade} (p : PaperPosition) :
    (t.fills.filter fun f => f.fillKind = .exit ∧ f.positionId = some p.positionId) =
    if t.position.positionId = p.positionId then t.exit.toList else [] := by
  rw [Trade.fills, List.filter_cons_of_neg (by simp [t.entry_kind])]
  by_cases hid : t.position.positionId = p.positionId
  · rw [if_pos hid, List.filter_eq_self]
    intro f hf
    have hof := (t.ended f (Option.mem_toList.mp hf)).2.2
    simp [hof.kind, hof.position, hid]
  · rw [if_neg hid, List.filter_eq_nil_iff]
    intro f hf
    have hof := (t.ended f (Option.mem_toList.mp hf)).2.2
    simp [hof.position, hid]

theorem exitFillsOf_perm (h : Represents w₀ db trades) {t : Trade} (ht : t ∈ trades) :
    (exitFillsOf db t.position).Perm t.exit.toList := by
  refine (h.fills.filter _).trans ?_
  rw [List.filter_flatMap, List.flatMap_congr fun t' _ => exit_filter t.position]
  have hselect := Keyed.flatMap_if_nil
    (fun t' : Trade => decide (t'.position.positionId = t.position.positionId))
    (fun t' => t'.exit.toList) trades
  have hids : (trades.map (·.position.positionId)).Nodup := by
    have := h.keys.ids
    rwa [h.positions, List.map_map] at this
  simp only [decide_eq_true_eq] at hselect
  rw [hselect, Keyed.filter_key_eq_singleton hids ht, List.flatMap_cons, List.flatMap_nil,
    List.append_nil]

end Counting

section Results

structure FilledAtMostOnce (w₀ : PaperWalletState) (db : Db) : Prop where
  oneOrder : ∀ i ∈ db.intents, (ordersOf db i).length ≤ 1
  oneEntryFill : ∀ i ∈ db.intents, (entryFillsOf db i).length ≤ 1
  onePosition : ∀ i ∈ db.intents, (positionsOf db i).length ≤ 1
  filledIff : ∀ i ∈ db.intents, i.status = .filled ↔ entryFillsOf db i ≠ [] ∧ positionsOf db i ≠ []
  closedIff : ∀ p ∈ db.positions, p.status = .closed ↔ (exitFillsOf db p).length = 1
  oneOpen : ∀ symbol, (openPositionsOf db symbol).length ≤ 1
  settledOnce : db.wallet = some (db.fills.foldl (settle db.positions) w₀)

theorem filledAtMostOnce_of_ledger {w₀ : PaperWalletState} {db : Db} (h : Ledger w₀ db) :
    FilledAtMostOnce w₀ db := by
  obtain ⟨trades, h⟩ := h
  refine ⟨fun i _ => ?_, fun i _ => ?_, fun i _ => ?_, fun i hi => ?_, fun p hp => ?_, fun symbol => ?_,
    h.wallet⟩
  · rw [ordersOf_eq h, List.length_map]
    exact tradesOf_length_le_one h i
  · rw [(entryFillsOf_perm h i).length_eq, List.length_map]
    exact tradesOf_length_le_one h i
  · rw [positionsOf_eq h, List.length_map]
    exact tradesOf_length_le_one h i
  · have hentry : entryFillsOf db i ≠ [] ↔ tradesOf trades i ≠ [] := by
      rw [← List.length_pos_iff, (entryFillsOf_perm h i).length_eq, List.length_map, List.length_pos_iff]
    have hposition : positionsOf db i ≠ [] ↔ tradesOf trades i ≠ [] := by
      rw [positionsOf_eq h, ne_eq, List.map_eq_nil_iff]
    rw [filled_iff h hi, hentry, hposition, and_self]
  · rw [h.positions] at hp
    obtain ⟨t, ht, rfl⟩ := List.mem_map.mp hp
    rw [t.closed_iff, (exitFillsOf_perm h ht).length_eq]
    cases t.exit <;> simp
  · refine le_trans (List.Sublist.length_le ?_) (h.keys.openUnique symbol)
    refine List.monotone_filter_right _ fun p hp => ?_
    simp only [decide_eq_true_eq] at hp
    simp [hp.1, hp.2, isOpen]

end Results

section DirectFills

/-- The calls on the account: the operations, and a fill of one intent outside of a batch, for the candle that its
caller passes. -/
inductive Call
  | operation (work : Operation)
  | directFill (intentId : Id) (ctx : FillProcessingContext) (processedIntentIds : List IntentKey)
      (pendingIntents : List (PendingIntent IntentKey))

def fillAnyIntent (risk : RiskEngine IntentKey) (intentId : Id) (ctx : FillProcessingContext)
    (processedIntentIds : List IntentKey) (pendingIntents : List (PendingIntent IntentKey)) : Query Unit := do
  match ← getIntent intentId with
  | none => pure ()
  | some intent => do
    let _ ← executeScheduledPaperFill risk intent ctx processedIntentIds pendingIntents
    pure ()

def Call.run (config : PaperTradingConfig) (risk : RiskEngine IntentKey) : Call → Query Unit
  | .operation work => work.run config risk
  | .directFill intentId ctx processed pending => scope (fillAnyIntent risk intentId ctx processed pending)

/-- A call with the writes that fail in it, either kept or rolled back as a whole. -/
structure CallAttempt where
  call : Call
  faults : List Bool := []
  kept : Bool := true

def CallAttempt.apply (config : PaperTradingConfig) (risk : RiskEngine IntentKey) (db : Db) (a : CallAttempt) : Db :=
  if a.kept then (a.call.run config risk ⟨db, a.faults⟩).2.db else db

def calledAccount (config : PaperTradingConfig) (risk : RiskEngine IntentKey) (w₀ : PaperWalletState) (base : Db)
    (history : List CallAttempt) : Db :=
  history.foldl (CallAttempt.apply config risk) (emptyAccount w₀ base)

/-- A direct fill is for the candle that the intent is scheduled for. -/
def Call.OnSchedule (db : Db) : Call → Prop
  | .operation _ => True
  | .directFill intentId ctx _ _ => ∀ i ∈ db.intents, i.intentId = intentId → i.scheduledFillTime = ctx.candleOpenTime

instance (db : Db) : (call : Call) → Decidable (call.OnSchedule db)
  | .operation _ => inferInstanceAs (Decidable True)
  | .directFill intentId ctx _ _ => inferInstanceAs
      (Decidable (∀ i ∈ db.intents, i.intentId = intentId → i.scheduledFillTime = ctx.candleOpenTime))

/-- Each call of the history is on schedule in the rows it finds. -/
def OnSchedule (config : PaperTradingConfig) (risk : RiskEngine IntentKey) (db : Db) : List CallAttempt → Prop
  | [] => True
  | a :: history => a.call.OnSchedule db ∧ OnSchedule config risk (a.apply config risk db) history

variable {config : PaperTradingConfig} {risk : RiskEngine IntentKey} {db : Db} {inv : Db → Prop} [Accounted inv]

theorem fillAnyIntent_keeps {intentId : Id} {ctx : FillProcessingContext} {processed : List IntentKey}
    {pending : List (PendingIntent IntentKey)} {s s' : Session Db} {u : Unit} (hs : inv s.db)
    (hschedule : ∀ i ∈ s.db.intents, i.intentId = intentId → i.scheduledFillTime = ctx.candleOpenTime)
    (h : fillAnyIntent risk intentId ctx processed pending s = (.ok u, s')) : inv s'.db := by
  unfold fillAnyIntent getIntent at h
  rw [read_bind] at h
  rcases hfind : s.db.intents.find? (·.intentId = intentId) with _ | intent <;> simp only [hfind] at h
  · cases h
    exact hs
  · have hmem := List.mem_of_find?_eq_some hfind
    have hid : intent.intentId = intentId := by simpa using List.find?_some hfind
    obtain ⟨outcome, t, hfill, hpure⟩ := bind_eq_ok.mp h
    cases hpure
    exact executeScheduledPaperFill_keeps hs ⟨intent, hmem, rfl, hschedule intent hmem hid⟩ hfill

theorem CallAttempt.apply_keeps (h : inv db) (a : CallAttempt) (hschedule : a.call.OnSchedule db) :
    inv (a.apply config risk db) := by
  unfold CallAttempt.apply
  split_ifs
  · cases hcall : a.call with
    | operation work => exact work.run_keeps ⟨db, a.faults⟩ h
    | directFill intentId ctx processed pending =>
      rw [hcall] at hschedule
      exact scope_keeps (s := ⟨db, a.faults⟩) h fun r s' hrun =>
        fillAnyIntent_keeps (s := ⟨db, a.faults⟩) h hschedule hrun
  · exact h

theorem calls_keep (h : inv db) (history : List CallAttempt) (hschedule : OnSchedule config risk db history) :
    inv (history.foldl (CallAttempt.apply config risk) db) := by
  induction history generalizing db with
  | nil => exact h
  | cons a history ih => exact ih (a.apply_keeps h hschedule.1) hschedule.2

omit [Accounted inv] in
theorem onSchedule_append {history later : List CallAttempt} (h : OnSchedule config risk db (history ++ later)) :
    OnSchedule config risk db history ∧
      OnSchedule config risk (history.foldl (CallAttempt.apply config risk) db) later := by
  induction history generalizing db with
  | nil => exact ⟨trivial, h⟩
  | cons a history ih => exact ⟨⟨h.1, (ih h.2).1⟩, (ih h.2).2⟩

omit [Accounted inv] in
theorem calledAccount_ledger {w₀ : PaperWalletState} {base : Db} {history : List CallAttempt}
    (hschedule : OnSchedule config risk (emptyAccount w₀ base) history) :
    Ledger w₀ (calledAccount config risk w₀ base history) :=
  calls_keep (emptyAccount_ledger base) history hschedule

/-- From an empty account, no sequence of operations, direct fills on schedule, replays and rollbacks fills an intent
twice, closes a position twice or settles a fill twice. -/
theorem account_filled_at_most_once (config : PaperTradingConfig) (risk : RiskEngine IntentKey)
    (w₀ : PaperWalletState) (base : Db) (history : List CallAttempt)
    (hschedule : OnSchedule config risk (emptyAccount w₀ base) history) :
    FilledAtMostOnce w₀ (calledAccount config risk w₀ base history) :=
  filledAtMostOnce_of_ledger (calledAccount_ledger hschedule)

end DirectFills

section Sample

def approveOne : RiskEngine IntentKey := fun _ => .ok ⟨true, some 1, [.riskApproved]⟩

def readyBase : Db := { runtimeState := some { status := .ready, heartbeatAt := day } }

def longEntry : Strategy.Models.StrategyEvaluation :=
  { symbol := .BTC
    evaluationTime := day + 5 * second
    strategyVersion := Strategy.Models.strategyVersion
    parameters := {}
    monthlyRegime := { regimeLong := true }
    weeklyTrend := { trendConfirmed := true }
    breakoutResult := { breakoutEntry := true }
    pullbackResult := {}
    indicators := { evaluationIndex := 20 }
    volumeRatio := some 2
    atr := some 10
    selectedEntryType := some .breakout
    signalIntent := { kind := .longEntry, entryType := some .breakout, entryPrice := some 100
                      stopInitial := some 75 }
    reasonCodes := [.entryBreakout20d]
    dataQualityStatus := .ok
    errors := [] }

def longEntryRecord : StrategyEvaluationRecord :=
  { evaluationId := 0
    symbol := .BTC
    evaluationTime := day + 5 * second
    dailyCandleOpenTime := 0
    weeklyCandleKey := 0
    monthlyCandleKey := 0
    strategyVersion := Strategy.Models.strategyVersion
    result := longEntry
    createdAt := day + 5 * second }

def openGates : Lifecycle.EntryGateContext :=
  { entryReady := true, marketDataReady := true, paused := false, killSwitch := false
    openPositionCount := 0, hasSymbolPosition := false, hasNonterminalIntent := false }

def btcConstraints : Constraints.SymbolConstraints :=
  { quantityStep := 1 / 1000, minimumQuantity := 1 / 1000, priceTickSize := 1 / 10 }

def btcFillContext : Execution.FillProcessingContext :=
  { openRef := 100
    atr14 := 10
    candleOpenTime := day
    constraints := btcConstraints
    strategyParams := {}
    executionConfig := Execution.PaperExecutionConfig.fromTradingConfig .defaults
    dayCandles := fun _ => none
    priorCloses := fun _ => none }

def crashCandle : Candle :=
  { symbol := .BTC, timeframe := .daily, openTime := 2 * day, closeTime := 3 * day, openPrice := 60
    high := 61, low := 50, close := 55, volume := 1, isClosed := false }

/-- The entry of a signal, its fill by the batch and the stop that closes it, with a direct fill for some candle at the
end. -/
def refilled (candleOpenTime : Time) : List CallAttempt :=
  [{ call := .operation (.createIntent longEntryRecord longEntry openGates day day true) },
   { call := .operation (.openFill day (BySymbol.single .BTC btcFillContext) fun _ => true) },
   { call := .operation (.stopTriggers (2 * day) (BySymbol.single .BTC crashCandle)
      (BySymbol.single .BTC btcConstraints) true) },
   { call := .directFill 0 { btcFillContext with candleOpenTime } [] [] }]

/-- For its own candle the intent is not filled again. -/
theorem account_filled_at_most_once_refilled :
    (calledAccount .defaults approveOne { cash := 1000 } readyBase (refilled day)).fills.length = 2 ∧
    FilledAtMostOnce { cash := 1000 } (calledAccount .defaults approveOne { cash := 1000 } readyBase (refilled day)) :=
  ⟨by decide +kernel, account_filled_at_most_once _ _ _ _ _ ⟨trivial, trivial, trivial, by decide +kernel, trivial⟩⟩

/-- For a later candle it is. -/
theorem direct_fill_off_schedule_fills_twice :
    ¬ ∀ history : List CallAttempt, FilledAtMostOnce { cash := 1000 }
      (calledAccount .defaults approveOne { cash := 1000 } readyBase history) := by
  intro h
  have hone := (h (refilled (3 * day))).oneEntryFill
  revert hone
  decide +kernel

end Sample

end TradingBot.Paper.FillInvariants
