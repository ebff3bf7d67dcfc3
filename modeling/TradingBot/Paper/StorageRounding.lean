import TradingBot.Library.FixedPoint
import TradingBot.Paper.WalletReconstruction

namespace TradingBot.Paper.StorageRounding

open Market.Models Strategy.Models Constraints Backtester.Lifecycle Library Library.FixedPoint Library.Transaction
open Paper.Models Paper.Repository Paper.Stops Paper.Execution Paper.Lifecycle Paper.PositionTable
open Paper.TradeBook Paper.Account Paper.FillInvariants Paper.AccountingVerification Paper.WalletReconstruction

section Columns

def moneyDigits : ℕ := 18

def money (x : Decimal) : Decimal := store moneyDigits x

def storedWallet (w : PaperWalletState) : PaperWalletState :=
  { w with
    cash := money w.cash
    totalRealizedPnl := money w.totalRealizedPnl
    totalFees := money w.totalFees
    totalFunding := money w.totalFunding
    totalSlippage := money w.totalSlippage }

def storedIntent (i : TradeIntent) : TradeIntent :=
  { i with
    requestedEntry := money i.requestedEntry
    requestedStop := money i.requestedStop
    approvedQuantity := i.approvedQuantity.map money }

def storedOrder (o : PaperOrder) : PaperOrder :=
  { o with
    requestedQuantity := money o.requestedQuantity
    remainingQuantity := money o.remainingQuantity }

def storedFill (f : PaperFill) : PaperFill :=
  { f with
    quantity := money f.quantity
    marketOpenPrice := money f.marketOpenPrice
    slippage := money f.slippage
    fillPrice := money f.fillPrice
    fee := money f.fee }

def storedPosition (p : PaperPosition) : PaperPosition :=
  { p with
    quantity := money p.quantity
    averageEntryPrice := money p.averageEntryPrice
    initialStop := money p.initialStop
    currentStop := money p.currentStop
    highestCloseSinceEntry := money p.highestCloseSinceEntry
    entryAtr14 := money p.entryAtr14
    realizedPnl := money p.realizedPnl
    unrealizedPnl := money p.unrealizedPnl
    marginReserved := money p.marginReserved }

def storedStopEvent (e : PositionStopEvent) : PositionStopEvent :=
  { e with
    previousStop := money e.previousStop
    newStop := money e.newStop
    highestClose := money e.highestClose
    atr := money e.atr }

def storedSnapshot (s : PortfolioSnapshot) : PortfolioSnapshot :=
  { s with
    cash := money s.cash
    marginUsed := money s.marginUsed
    equity := money s.equity
    unrealizedPnl := money s.unrealizedPnl
    realizedPnl := money s.realizedPnl
    totalOpenRisk := money s.totalOpenRisk }

def storedFundingEvent (e : FundingEventRecord) : FundingEventRecord := { e with amount := money e.amount }

/-- The tables as they are read back. -/
def persist (db : Db) : Db :=
  { db with
    wallet := db.wallet.map storedWallet
    intents := db.intents.map storedIntent
    orders := db.orders.map storedOrder
    fills := db.fills.map storedFill
    positions := db.positions.map storedPosition
    stopHistory := db.stopHistory.map storedStopEvent
    snapshots := db.snapshots.map storedSnapshot
    fundingEvents := db.fundingEvents.map storedFundingEvent }

/-- The checks of the tables that rounding can break. -/
def RowsAllowed (db : Db) : Prop :=
  (∀ o ∈ db.orders, 0 < o.requestedQuantity) ∧
  (∀ f ∈ db.fills, 0 < f.quantity ∧ 0 < f.fillPrice) ∧
  ∀ p ∈ db.positions, 0 < p.quantity ∧ 0 < p.averageEntryPrice ∧ 0 < p.entryAtr14

instance (db : Db) : Decidable (RowsAllowed db) := by
  unfold RowsAllowed
  infer_instance

end Columns

section Steps

/-- The transactions on the account, each of one fill or one exit at most. The open phase, the stop phases and
the trailing phase are rows of them. -/
inductive Step
  | createIntent (evaluation : StrategyEvaluationRecord) (eval : StrategyEvaluation)
      (gates : EntryGateContext) (createdAt authorizationAt : Time) (marketDataReady : Bool)
  | processIntent (processTime : Time) (contexts : BySymbol FillProcessingContext)
      (marketDataReady : ℕ → Bool) (symbol : Symbol) (ctx : FillProcessingContext) (b : BatchState) (intentId : Id)
  | closeIfStopped (check : StopCheck) (processTime : Time) (candles : BySymbol Candle)
      (constraints : BySymbol SymbolConstraints) (symbol : Symbol)
  | updateTrailingStop (evaluationTime : Time) (dailyCandles : BySymbol Candle) (atrs : BySymbol Decimal)
      (constraints : BySymbol SymbolConstraints) (params : StrategyParameters) (symbol : Symbol)
  | administration (runtimeState : Option RuntimeState) (evaluations : List StrategyEvaluationRecord)
      (schedulerRuns : List SchedulerRun)

def processDueIntent (config : PaperTradingConfig) (risk : RiskEngine IntentKey) (processTime : Time)
    (contexts : BySymbol FillProcessingContext) (marketDataReady : ℕ → Bool) (symbol : Symbol)
    (ctx : FillProcessingContext) (b : BatchState) (intentId : Id) : Query Unit := do
  match ← read fun db => (db.intents.filter (isDueIntent symbol ctx.candleOpenTime)).find?
      (·.intentId = intentId) with
  | none => pure ()
  | some intent => do
    let _ ← processIntent config risk processTime contexts marketDataReady symbol ctx b intent
    pure ()

def Step.run (config : PaperTradingConfig) (risk : RiskEngine IntentKey) : Step → Query Unit
  | .createIntent evaluation eval gates createdAt authorizationAt ready => do
    let _ ← scope (createIntentFromEvaluation config evaluation eval gates createdAt authorizationAt ready)
    pure ()
  | .processIntent processTime contexts ready symbol ctx b intentId =>
    processDueIntent config risk processTime contexts ready symbol ctx b intentId
  | .closeIfStopped check processTime candles constraints symbol => do
    let _ ← closeSymbolIfStopped config check processTime candles constraints symbol
    pure ()
  | .updateTrailingStop evaluationTime candles atrs constraints params symbol => do
    let _ ← updateTrailingStopForSymbol evaluationTime candles atrs constraints params symbol
    pure ()
  | .administration runtimeState evaluations schedulerRuns =>
    execute fun db => { db with runtimeState, evaluations, schedulerRuns }

/-- A transaction with the writes that fail in it, either committed or rolled back. -/
structure Commit where
  step : Step
  faults : List Bool := []
  kept : Bool := true

variable (config : PaperTradingConfig) (risk : RiskEngine IntentKey)

def Commit.written (db : Db) (c : Commit) : Db :=
  if c.kept then (c.step.run config risk ⟨db, c.faults⟩).2.db else db

/-- What is stored: the written rows rounded, or nothing where the tables refuse them. -/
def Commit.apply (db : Db) (c : Commit) : Db :=
  if RowsAllowed (persist (c.written config risk db)) then persist (c.written config risk db) else db

def storedAccount (w₀ : PaperWalletState) (base : Db) (history : List Commit) : Db :=
  history.foldl (Commit.apply config risk) (persist (emptyAccount w₀ base))

end Steps

section Extension

variable {w₀ : PaperWalletState} {db₀ db : Db}

/-- A book of trades to which nothing but fills and positions was added. -/
structure Extends (w₀ : PaperWalletState) (db₀ db : Db) : Prop where
  ledger : Ledger w₀ db
  fills : db₀.fills <+: db.fills
  prices : ∀ p ∈ db₀.positions, ∃ p' ∈ db.positions,
    p'.positionId = p.positionId ∧ p'.averageEntryPrice = p.averageEntryPrice

theorem Extends.refl (h : Ledger w₀ db) : Extends w₀ db db := ⟨h, List.prefix_rfl, fun p hp => ⟨p, hp, rfl, rfl⟩⟩

theorem prices_modifyPosition {positionId : Id} {f : PaperPosition → PaperPosition}
    (hid : ∀ p, (f p).positionId = p.positionId) (hprice : ∀ p, (f p).averageEntryPrice = p.averageEntryPrice)
    (h : ∀ p ∈ db₀.positions, ∃ p' ∈ db.positions,
      p'.positionId = p.positionId ∧ p'.averageEntryPrice = p.averageEntryPrice) :
    ∀ p ∈ db₀.positions, ∃ p' ∈ (modifyPosition positionId f db).positions,
      p'.positionId = p.positionId ∧ p'.averageEntryPrice = p.averageEntryPrice := by
  intro p hp
  obtain ⟨p', hp', hsame, hpaid⟩ := h p hp
  refine ⟨_, List.mem_map_of_mem hp', ?_⟩
  split_ifs
  · exact ⟨(hid p').trans hsame, (hprice p').trans hpaid⟩
  · exact ⟨hsame, hpaid⟩

instance (w₀ : PaperWalletState) (db₀ : Db) : Accounted (Extends w₀ db₀) where
  ledger := fun h => ⟨w₀, h.ledger⟩
  frame := fun horders hpositions hfills hwallet hintents hfunding hstops hid h =>
    ⟨Accounted.frame horders hpositions hfills hwallet hintents hfunding hstops hid h.ledger,
      hfills ▸ h.fills, hpositions ▸ h.prices⟩
  schedule := fun hid hstatus h => ⟨Accounted.schedule hid hstatus h.ledger, h.fills, h.prices⟩
  mark := fun hu hnone h => ⟨Accounted.mark hu hnone h.ledger, h.fills, h.prices⟩
  fill := by
    intro db db' intent ctx hsource hnone heffect h
    refine ⟨Accounted.fill hsource hnone heffect h.ledger, ?_, ?_⟩
    · cases heffect with
      | rejected reason => exact h.fills
      | entered entry _ _ _ _ => exact h.fills.trans (List.prefix_append _ _)
    · cases heffect with
      | rejected reason => exact h.prices
      | entered entry _ _ _ _ =>
        intro p hp
        obtain ⟨p', hp', hsame⟩ := h.prices p hp
        exact ⟨p', List.mem_append_left _ hp', hsame⟩
  exit := by
    intro db symbol position trigger bps feeRate time hp h
    refine ⟨Accounted.exit trigger bps feeRate time hp h.ledger, h.fills.trans (List.prefix_append _ _), ?_⟩
    exact prices_modifyPosition (fun _ => rfl) (fun _ => rfl) h.prices
  raise := by
    intro db symbol position updated atr time hp hraised hhighest h
    refine ⟨Accounted.raise atr time hp hraised hhighest h.ledger, h.fills, ?_⟩
    exact prices_modifyPosition (fun _ => rfl) (fun _ => rfl) h.prices

variable {config : PaperTradingConfig} {risk : RiskEngine IntentKey} {inv : Db → Prop} [Accounted inv]

theorem Step.run_keeps (step : Step) : Keeps inv (step.run config risk) := by
  cases step with
  | createIntent evaluation eval gates createdAt authorizationAt ready =>
    refine keeps_bind (keeps_scope fun s r s' hs h => ?_) fun _ => keeps_pure _
    exact createIntentFromEvaluation_keeps hs h
  | processIntent processTime contexts ready symbol ctx b intentId =>
    refine keeps_read_bind fun s hs => ?_
    cases hfind : (s.db.intents.filter (isDueIntent symbol ctx.candleOpenTime)).find?
        (·.intentId = intentId) with
    | none => exact hs
    | some intent =>
      obtain ⟨hmem, hdue⟩ := List.mem_filter.mp (List.mem_of_find?_eq_some hfind)
      simp only [isDueIntent, decide_eq_true_eq] at hdue
      have hrest : Due inv ctx.candleOpenTime [intent] s.db := by
        refine ⟨hs, by simp, fun i hi => ?_⟩
        obtain rfl := List.mem_singleton.mp hi
        refine ⟨hmem, fun hfilled => ?_, hdue.2.1⟩
        simp [hfilled] at hdue
      exact bind_keeps (processIntent_due b intent [] s hrest).account fun _ => keeps_pure _
  | closeIfStopped check processTime candles constraints symbol =>
    exact keeps_bind (closeSymbolIfStopped_keeps _ _ _ _ _ symbol) fun _ => keeps_pure _
  | updateTrailingStop evaluationTime candles atrs constraints params symbol =>
    exact keeps_bind (updateTrailingStopForSymbol_keeps _ _ _ _ _ symbol) fun _ => keeps_pure _
  | administration runtimeState evaluations schedulerRuns =>
    refine keeps_write _ fun db hdb => ?_
    have horders : ({ db with runtimeState, evaluations, schedulerRuns } : Db).orders = db.orders := rfl
    exact Accounted.frame horders rfl rfl rfl rfl rfl rfl (le_refl _) hdb

theorem extends_written (h : Ledger w₀ db) (c : Commit) : Extends w₀ db (c.written config risk db) := by
  unfold Commit.written
  split_ifs
  · exact c.step.run_keeps ⟨db, c.faults⟩ (Extends.refl h)
  · exact Extends.refl h

end Extension

section Totals

/-- What several changes of the wallet amount to. -/
def total (ds : List WalletDelta) : WalletDelta :=
  { cash := (ds.map (·.cash)).sum
    realizedPnl := (ds.map (·.realizedPnl)).sum
    fees := (ds.map (·.fees)).sum
    funding := (ds.map (·.funding)).sum
    slippage := (ds.map (·.slippage)).sum }

def added (positions : List PaperPosition) (fills : List PaperFill) : WalletDelta :=
  total (fills.map (settlement positions))

theorem settlement_funding (positions : List PaperPosition) (f : PaperFill) :
    (settlement positions f).funding = 0 := by
  unfold settlement
  cases f.fillKind with
  | entry => rfl
  | exit => cases f.positionId.bind (entryPriceOf positions) <;> rfl

theorem foldl_settle (positions : List PaperPosition) (fills : List PaperFill) (w : PaperWalletState) :
    fills.foldl (settle positions) w =
      { cash := w.cash + (added positions fills).cash
        totalRealizedPnl := w.totalRealizedPnl + (added positions fills).realizedPnl
        totalFees := w.totalFees + (added positions fills).fees
        totalFunding := w.totalFunding
        totalSlippage := w.totalSlippage + (added positions fills).slippage
        version := w.version + fills.length } := by
  induction fills generalizing w with
  | nil => simp [added, total]
  | cons f fills ih =>
    rw [List.foldl_cons, ih]
    simp only [added, total, List.map_cons, List.sum_cons, settle, WalletDelta.apply, settlement_funding,
      List.length_cons, PaperWalletState.mk.injEq]
    refine ⟨?_, ?_, ?_, ?_, ?_, ?_⟩ <;> ring

end Totals

section Wallets

variable {w₀ w : PaperWalletState} {db db' : Db} {trades trades' : List Trade}

/-- The tables are as they are read back. -/
def Stored (db : Db) : Prop := persist db = db

theorem money_money (x : Decimal) : money (money x) = money x := store_eq_self (onGrid_store _ _)

theorem stored_persist (db : Db) : Stored (persist db) := by
  have hintents : storedIntent ∘ storedIntent = storedIntent := by
    funext i
    cases hq : i.approvedQuantity <;> simp [storedIntent, money_money, hq]
  have horders : storedOrder ∘ storedOrder = storedOrder := by
    funext o
    simp [storedOrder, money_money]
  have hfills : storedFill ∘ storedFill = storedFill := by
    funext f
    simp [storedFill, money_money]
  have hpositions : storedPosition ∘ storedPosition = storedPosition := by
    funext p
    simp [storedPosition, money_money]
  have hstops : storedStopEvent ∘ storedStopEvent = storedStopEvent := by
    funext e
    simp [storedStopEvent, money_money]
  have hsnapshots : storedSnapshot ∘ storedSnapshot = storedSnapshot := by
    funext s
    simp [storedSnapshot, money_money]
  have hfunding : storedFundingEvent ∘ storedFundingEvent = storedFundingEvent := by
    funext e
    simp [storedFundingEvent, money_money]
  have hwallet : (db.wallet.map storedWallet).map storedWallet = db.wallet.map storedWallet := by
    cases db.wallet with
    | none => rfl
    | some w => simp [storedWallet, money_money]
  unfold Stored persist
  simp only [List.map_map, hintents, horders, hfills, hpositions, hstops, hsnapshots, hfunding, hwallet]

theorem map_eq_self {α : Type} {f : α → α} {l : List α} (h : l.map f = l) {a : α} (ha : a ∈ l) : f a = a :=
  List.map_inj_left.mp (h.trans (List.map_id l).symm) a ha

theorem Stored.position (h : Stored db) {p : PaperPosition} (hp : p ∈ db.positions) : storedPosition p = p :=
  map_eq_self (congrArg (·.positions) h) hp

theorem Stored.wallet (h : Stored db) (hw : db.wallet = some w) : storedWallet w = w := by
  have hwallet : db.wallet.map storedWallet = db.wallet := congrArg (·.wallet) h
  rw [hw] at hwallet
  exact Option.some.inj hwallet

def newFills (db db' : Db) : List PaperFill := db'.fills.drop db.fills.length

theorem fills_eq (h : Extends w₀ db db') : db'.fills = db.fills ++ newFills db db' := by
  obtain ⟨new, hnew⟩ := h.fills
  rw [newFills, ← hnew, List.drop_left]

theorem entryPriceOf_stored (positions : List PaperPosition) (positionId : Id) :
    entryPriceOf (positions.map storedPosition) positionId = (entryPriceOf positions positionId).map money := by
  unfold entryPriceOf
  rw [List.find?_map, Option.map_map, Option.map_map]
  rfl

/-- What was settled before is settled the same way after a transaction, before its rows are rounded and after. -/
theorem settle_old (h : Extends w₀ db db') (hbook : Represents w₀ db trades) (hstored : Stored db)
    (w : PaperWalletState) :
    db.fills.foldl (settle db'.positions) w = db.fills.foldl (settle db.positions) w ∧
    db.fills.foldl (settle (persist db').positions) w = db.fills.foldl (settle db.positions) w := by
  have hprice : ∀ f ∈ db.fills, f.fillKind = .exit →
      f.positionId.bind (entryPriceOf db'.positions) = f.positionId.bind (entryPriceOf db.positions) ∧
      f.positionId.bind (entryPriceOf (persist db').positions) = f.positionId.bind (entryPriceOf db.positions) := by
    intro f hf hkind
    obtain ⟨t, ht, hexit, hpaid⟩ := hbook.exit_position hf hkind
    have hp : t.position ∈ db.positions := by
      rw [hbook.positions]
      exact List.mem_map_of_mem ht
    obtain ⟨p', hp', hid, hsame⟩ := h.prices t.position hp
    have hafter : f.positionId.bind (entryPriceOf db'.positions) = some t.position.averageEntryPrice := by
      rw [(t.ended f (by simp [hexit])).2.2.position, Option.bind_some, entryPriceOf, ← hid,
        find?_positionId h.ledger.keys hp', Option.map_some, hsame]
    have hmoney : money t.position.averageEntryPrice = t.position.averageEntryPrice :=
      congrArg (·.averageEntryPrice) (hstored.position hp)
    have hbind : f.positionId.bind (entryPriceOf (persist db').positions) =
        (f.positionId.bind (entryPriceOf db'.positions)).map money := by
      cases f.positionId with
      | none => rfl
      | some id => exact entryPriceOf_stored db'.positions id
    rw [hbind, hafter, hpaid, Option.map_some, hmoney]
    exact ⟨rfl, rfl⟩
  exact ⟨settle_congr fun f hf hkind => (hprice f hf hkind).1, settle_congr fun f hf hkind => (hprice f hf hkind).2⟩

theorem wallet_written (h : Extends w₀ db db') (hbook : Represents w₀ db trades) (hstored : Stored db)
    (hw : db.wallet = some w) : db'.wallet = some ((newFills db db').foldl (settle db'.positions) w) := by
  obtain ⟨trades', hbook'⟩ := h.ledger
  have hold : db.fills.foldl (settle db.positions) w₀ = w := by
    rw [hbook.wallet] at hw
    exact Option.some.inj hw
  rw [hbook'.wallet, fills_eq h, List.foldl_append, (settle_old h hbook hstored w₀).1, hold]

theorem settle_stored (h : Extends w₀ db db') (hbook : Represents w₀ db trades) (hstored : Stored db)
    (hw : db.wallet = some w) : (persist db').fills.foldl (settle (persist db').positions) w₀ =
      ((newFills db db').map storedFill).foldl (settle (persist db').positions) w := by
  have hfills : db.fills.map storedFill = db.fills := congrArg (·.fills) hstored
  have hold : db.fills.foldl (settle db.positions) w₀ = w := by
    rw [hbook.wallet] at hw
    exact Option.some.inj hw
  have hsplit : (persist db').fills = db.fills ++ (newFills db db').map storedFill := by
    have hall : (persist db').fills = db'.fills.map storedFill := rfl
    rw [hall, fills_eq h, List.map_append, hfills]
  rw [hsplit, List.foldl_append, (settle_old h hbook hstored w₀).2, hold]

/-- The amounts that the new fills add, and those that their stored rows give, are the same once stored. -/
structure WalletExact (w : PaperWalletState) (d e : WalletDelta) : Prop where
  cash : Settles moneyDigits w.cash d.cash e.cash
  realizedPnl : Settles moneyDigits w.totalRealizedPnl d.realizedPnl e.realizedPnl
  fees : Settles moneyDigits w.totalFees d.fees e.fees
  slippage : Settles moneyDigits w.totalSlippage d.slippage e.slippage

theorem walletExact_iff (hw : storedWallet w = w) (positions positions' : List PaperPosition)
    (fills : List PaperFill) :
    storedWallet (fills.foldl (settle positions) w) = (fills.map storedFill).foldl (settle positions') w ↔
      WalletExact w (added positions fills) (added positions' (fills.map storedFill)) := by
  obtain ⟨hcash, hrealized, hfees, hfunding, hslippage⟩ : money w.cash = w.cash ∧
      money w.totalRealizedPnl = w.totalRealizedPnl ∧ money w.totalFees = w.totalFees ∧
      money w.totalFunding = w.totalFunding ∧ money w.totalSlippage = w.totalSlippage :=
    ⟨congrArg (·.cash) hw, congrArg (·.totalRealizedPnl) hw, congrArg (·.totalFees) hw,
      congrArg (·.totalFunding) hw, congrArg (·.totalSlippage) hw⟩
  rw [foldl_settle, foldl_settle]
  simp only [storedWallet, PaperWalletState.mk.injEq, hfunding, List.length_map, and_true, true_and]
  rw [money, store_add_iff (store_eq_self_iff.mp hcash), money, store_add_iff (store_eq_self_iff.mp hrealized),
    money, store_add_iff (store_eq_self_iff.mp hfees), money, store_add_iff (store_eq_self_iff.mp hslippage)]
  constructor
  · rintro ⟨hcash, hrealized, hfees, hslippage⟩
    exact ⟨hcash, hrealized, hfees, hslippage⟩
  · rintro ⟨hcash, hrealized, hfees, hslippage⟩
    exact ⟨hcash, hrealized, hfees, hslippage⟩

theorem walletExact_of_totals {positions positions' : List PaperPosition} {fills : List PaperFill}
    (hw : storedWallet w = w)
    (hcash : (storedWallet (fills.foldl (settle positions) w)).cash =
      ((fills.map storedFill).foldl (settle positions') w).cash)
    (hrealized : (storedWallet (fills.foldl (settle positions) w)).totalRealizedPnl =
      ((fills.map storedFill).foldl (settle positions') w).totalRealizedPnl)
    (hfees : (storedWallet (fills.foldl (settle positions) w)).totalFees =
      ((fills.map storedFill).foldl (settle positions') w).totalFees)
    (hslippage : (storedWallet (fills.foldl (settle positions) w)).totalSlippage =
      ((fills.map storedFill).foldl (settle positions') w).totalSlippage) :
    WalletExact w (added positions fills) (added positions' (fills.map storedFill)) := by
  have hfunding : money w.totalFunding = w.totalFunding := congrArg (·.totalFunding) hw
  rw [← walletExact_iff hw positions positions' fills]
  rw [foldl_settle, foldl_settle] at hcash hrealized hfees hslippage ⊢
  simp only [storedWallet, PaperWalletState.mk.injEq, List.length_map] at hcash hrealized hfees hslippage ⊢
  exact ⟨hcash, hrealized, hfees, hfunding, hslippage, trivial⟩

end Wallets

section Books

variable {w₀ w : PaperWalletState} {db db' : Db} {trades trades' : List Trade}

/-- What a transaction writes is what the stored rows say: no margin of an open position is rounded to nothing,
and the profit of an exit and the totals of the wallet are those of the stored prices, quantities and fees. -/
structure Exact (db db' : Db) : Prop where
  margin : ∀ p ∈ db'.positions, isOpen p → 1 / 2 / 10 ^ moneyDigits ≤ p.marginReserved
  realized : ∀ p ∈ db'.positions, ∀ f ∈ exitFillsOf db' p,
    Settles moneyDigits 0 p.realizedPnl (netPnl (storedFill f) (storedPosition p))
  wallet : ∀ w, db.wallet = some w → WalletExact w (added db'.positions (newFills db db'))
    (added (persist db').positions ((newFills db db').map storedFill))

structure Storable (t : Trade) : Prop where
  quantity : 0 < money t.position.quantity
  margin : t.exit = none → 0 < money t.position.marginReserved
  realized : ∀ f ∈ t.exit, money t.position.realizedPnl = netPnl (storedFill f) (storedPosition t.position)

theorem money_zero : money 0 = 0 := store_eq_self OnGrid.zero

def storedTrade (t : Trade) (h : Storable t) : Trade where
  order := storedOrder t.order
  entry := storedFill t.entry
  position := storedPosition t.position
  exit := t.exit.map storedFill
  entry_kind := t.entry_kind
  entry_order := t.entry_order
  entry_key := t.entry_key
  intent_eq := t.intent_eq
  quantity_pos := h.quantity
  running := fun hnone => by
    have hexit : t.exit = none := Option.map_eq_none_iff.mp hnone
    exact ⟨(t.running hexit).1, h.margin hexit⟩
  ended := fun f hf => by
    obtain ⟨f, hexit, rfl⟩ := Option.map_eq_some_iff.mp hf
    obtain ⟨hstatus, hmargin, hof⟩ := t.ended f hexit
    refine ⟨hstatus, ?_, hof.kind, hof.position, hof.order, hof.key, h.realized f hexit⟩
    rw [storedPosition, hmargin, money_zero]

theorem map_storedTrade {β : Type} (g g' : Trade → β) (hg : ∀ t h, g (storedTrade t h) = g' t)
    (hstorable : ∀ t ∈ trades, Storable t) : (trades.pmap storedTrade hstorable).map g = trades.map g' := by
  rw [List.map_pmap, ← List.pmap_eq_map hstorable]
  exact List.pmap_congr_left trades fun t _ h _ => hg t h

theorem fills_storedTrade (t : Trade) (h : Storable t) : (storedTrade t h).fills = t.fills.map storedFill := by
  cases hexit : t.exit <;> simp [Trade.fills, storedTrade, hexit]

theorem openOf_persist (db : Db) (symbol : Symbol) :
    openOf (persist db) symbol = (openOf db symbol).map storedPosition := by
  unfold openOf
  exact List.filter_map.trans rfl

theorem represents_persist (h : Represents w₀ db trades) (hstorable : ∀ t ∈ trades, Storable t)
    (hwallet : (persist db).wallet = some ((persist db).fills.foldl (settle (persist db).positions) w₀)) :
    Represents w₀ (persist db) (trades.pmap storedTrade hstorable) where
  orders := by
    rw [map_storedTrade _ (fun t => storedOrder t.order) fun _ _ => rfl, persist, h.orders, List.map_map]
    rfl
  positions := by
    rw [map_storedTrade _ (fun t => storedPosition t.position) fun _ _ => rfl, persist, h.positions, List.map_map]
    rfl
  fills := by
    have hfills : (trades.pmap storedTrade hstorable).flatMap Trade.fills =
        (trades.flatMap Trade.fills).map storedFill := by
      rw [List.flatMap_def, List.map_flatMap, List.flatMap_def,
        map_storedTrade _ (fun t => t.fills.map storedFill) fun t _ => fills_storedTrade t _]
    rw [hfills]
    exact h.fills.map storedFill
  wallet := hwallet
  keys := by
    refine ⟨?_, fun symbol => ?_⟩
    · rw [persist, List.map_map]
      exact h.keys.ids
    · rw [openOf_persist, List.length_map]
      exact h.keys.openUnique symbol
  intentIds := by
    rw [persist, List.map_map]
    exact h.intentIds
  tradeIntents := by
    rw [map_storedTrade _ (·.order.intentId) fun _ _ => rfl]
    exact h.tradeIntents
  orderIds := by
    rw [map_storedTrade _ (·.order.paperOrderId) fun _ _ => rfl]
    exact h.orderIds
  freshIntents := by
    intro i hi
    obtain ⟨j, hj, rfl⟩ := List.mem_map.mp hi
    exact h.freshIntents j hj
  freshTrades := by
    intro t ht
    obtain ⟨u, hu, rfl⟩ := List.mem_pmap.mp ht
    exact h.freshTrades u hu
  sources := by
    intro t ht
    obtain ⟨u, hu, rfl⟩ := List.mem_pmap.mp ht
    obtain ⟨i, hi, hid, htime⟩ := h.sources u hu
    exact ⟨storedIntent i, List.mem_map_of_mem hi, hid, htime⟩
  filled := by
    intro i hi
    obtain ⟨j, hj, rfl⟩ := List.mem_map.mp hi
    refine (h.filled j hj).trans ⟨?_, ?_⟩
    · rintro ⟨t, ht, hid⟩
      exact ⟨storedTrade t (hstorable t ht), List.mem_pmap.mpr ⟨t, ht, rfl⟩, hid⟩
    · rintro ⟨t, ht, hid⟩
      obtain ⟨u, hu, rfl⟩ := List.mem_pmap.mp ht
      exact ⟨u, hu, hid⟩
  unfunded := by
    rw [persist, h.unfunded]
    rfl

theorem settles_zero {d e : Decimal} : Settles moneyDigits 0 d e ↔ money d = e := by
  have hadd : store moneyDigits (0 + d) = 0 + e ↔ Settles moneyDigits 0 d e := store_add_iff OnGrid.zero
  rw [zero_add, zero_add] at hadd
  exact hadd.symm

theorem storable_of_exact (h : Represents w₀ db' trades) (hrows : RowsAllowed (persist db')) (hexact : Exact db db') :
    ∀ t ∈ trades, Storable t := by
  intro t ht
  have hp : t.position ∈ db'.positions := by
    rw [h.positions]
    exact List.mem_map_of_mem ht
  refine ⟨(hrows.2.2 _ (List.mem_map_of_mem hp)).1, fun hnone => ?_, fun f hf => ?_⟩
  · exact store_pos_iff.mpr (hexact.margin t.position hp (t.exit_eq_none_iff.mp hnone))
  · refine settles_zero.mp (hexact.realized t.position hp f ?_)
    rw [(exitFillsOf_perm h ht).mem_iff]
    exact Option.mem_toList.mpr hf

theorem ledger_persist (h : Extends w₀ db db') (hledger : Ledger w₀ db) (hstored : Stored db)
    (hrows : RowsAllowed (persist db')) (hexact : Exact db db') : Ledger w₀ (persist db') := by
  obtain ⟨trades, hbook⟩ := hledger
  obtain ⟨trades', hbook'⟩ := h.ledger
  refine ⟨_, represents_persist hbook' (storable_of_exact hbook' hrows hexact) ?_⟩
  have hwallet := wallet_written h hbook hstored hbook.wallet
  have hsame := (walletExact_iff (hstored.wallet hbook.wallet) db'.positions (persist db').positions _).mpr
    (hexact.wallet _ hbook.wallet)
  rw [settle_stored h hbook hstored hbook.wallet, ← hsame]
  exact congrArg (Option.map storedWallet) hwallet

end Books

section Verification

variable {cash : Decimal} {version : ℕ} {w sw : PaperWalletState} {db db' : Db} {trades : List Trade}

theorem listPositions_stored (h : Represents { cash, version } db trades)
    (hlimit : db.positions.length ≤ positionLimit) : ∃ positions : List PaperPosition,
      (∀ faults, listPositions positionLimit ⟨persist db, faults⟩ = (.ok positions, ⟨persist db, faults⟩)) ∧
      positions.Perm (persist db).positions ∧
      ∀ id, positions.find? (·.positionId = id) = (persist db).positions.find? (·.positionId = id) := by
  have hlength : (persist db).positions.length ≤ positionLimit := by rwa [persist, List.length_map]
  obtain ⟨positions, hlist, hperm⟩ := listPositions_perm hlength
  have hids : ((persist db).positions.map (·.positionId)).Nodup := by
    rw [persist, List.map_map]
    exact h.keys.ids
  exact ⟨positions, hlist, hperm, fun id => (Keyed.find?_key_perm hids hperm.symm id).symm⟩

theorem unfunded_stored (h : Represents { cash, version } db trades) : (persist db).fundingEvents = [] := by
  rw [persist, h.unfunded]
  rfl

theorem reconstruct_stored (h : Represents { cash, version } db trades)
    (hlimit : db.positions.length ≤ positionLimit) (faults : List Bool) : ∃ r,
      SameTotals r ((persist db).fills.foldl (settle (persist db).positions) { cash, version }) ∧
      reconstructWallet cash ⟨persist db, faults⟩ = (.ok r, ⟨persist db, faults⟩) := by
  obtain ⟨positions, hlist, _, hlookup⟩ := listPositions_stored h hlimit
  have htotals := reconstructFill_foldl hlookup (persist db).fills
    (r := { cash }) (w := { cash, version }) ⟨rfl, rfl, rfl, rfl⟩
  unfold reconstructWallet
  rw [bind_of_ok (hlist faults)]
  simp only [listAllFills, listFundingEvents, getOpenPositions, read_bind, unfunded_stored h]
  refine ⟨_, ?_, rfl⟩
  exact ⟨by simpa using htotals.cash, htotals.fees, htotals.slippage, htotals.realized⟩

theorem verify_stored (h : Represents { cash, version } db trades) (hlimit : db.positions.length ≤ positionLimit)
    (hwallet : (persist db).wallet = some sw) (faults : List Bool) :
    ∃ (positions : List PaperPosition) (r : ReconstructedWallet),
      positions.Perm (persist db).positions ∧
      SameTotals r ((persist db).fills.foldl (settle (persist db).positions) { cash, version }) ∧
      verifyAccountingIndependent cash ⟨persist db, faults⟩ = (.ok (walletIssues sw r ++
        (repeated (([] : List FundingEventRecord).map (·.deterministicKey))).map .duplicateFundingKey ++
        exitIssues (persist db).fills ++ positions.flatMap (positionIssues (persist db).fills)),
        ⟨persist db, faults⟩) := by
  obtain ⟨positions, hlist, hperm, _⟩ := listPositions_stored h hlimit
  obtain ⟨r, htotals, hrebuilt⟩ := reconstruct_stored h hlimit faults
  refine ⟨positions, r, hperm, htotals, ?_⟩
  unfold verifyAccountingIndependent getWallet
  rw [read_bind]
  simp only [hwallet]
  rw [bind_of_ok hrebuilt]
  simp only [listAllFills, listFundingEvents, read_bind]
  rw [bind_of_ok (hlist faults), unfunded_stored h]
  rfl

theorem totals_of_walletIssues {r : ReconstructedWallet} (h : walletIssues w r = []) :
    w.cash = r.cash ∧ w.totalRealizedPnl = r.totalRealizedPnl ∧ w.totalFees = r.totalFees ∧
      w.totalSlippage = r.totalSlippage := by
  simp only [walletIssues, List.append_eq_nil_iff, issueIf_eq_nil, decide_eq_false_iff_not, not_not] at h
  obtain ⟨⟨⟨⟨⟨hcash, hfees⟩, hslippage⟩, hrealized⟩, _⟩, _⟩ := h
  exact ⟨hcash, hrealized, hfees, hslippage⟩

theorem margin_of_positionIssues {fills : List PaperFill} {p : PaperPosition} (hopen : p.status ≠ .closed)
    (h : positionIssues fills p = []) : 0 < p.marginReserved := by
  rw [positionIssues, if_neg hopen, issueIf_eq_nil, decide_eq_false_iff_not, not_le] at h
  exact h

theorem realized_of_positionIssues {fills : List PaperFill} {p : PaperPosition} {f : PaperFill}
    (hclosed : p.status = .closed) (hfind : (exitFills fills).find? (·.positionId = some p.positionId) = some f)
    (h : positionIssues fills p = []) : p.realizedPnl = netPnl f p := by
  rw [positionIssues, if_pos hclosed] at h
  simp only [hfind, List.append_eq_nil_iff, issueIf_eq_nil, decide_eq_false_iff_not, not_not] at h
  exact h.2

theorem find?_exitFills_stored (h : Represents { cash, version } db trades) {t : Trade} (ht : t ∈ trades)
    {f : PaperFill} (hexit : t.exit = some f) :
    (exitFills (persist db).fills).find? (·.positionId = some t.position.positionId) = some (storedFill f) := by
  have hfills : exitFills (persist db).fills = (exitFills db.fills).map storedFill := by
    unfold exitFills
    exact List.filter_map.trans rfl
  have hmem : f ∈ exitFillsOf db t.position := by
    rw [(exitFillsOf_perm h ht).mem_iff, hexit, Option.mem_toList]
  simp only [exitFillsOf, List.mem_filter, decide_eq_true_eq] at hmem
  obtain ⟨g, hg⟩ : ∃ g, (exitFills db.fills).find? (·.positionId = some t.position.positionId) = some g := by
    rw [← Option.isSome_iff_exists, List.find?_isSome]
    exact ⟨f, List.mem_filter.mpr ⟨hmem.1, decide_eq_true hmem.2.1⟩, decide_eq_true hmem.2.2⟩
  have hof : g ∈ exitFillsOf db t.position := by
    have hfound := List.mem_filter.mp (List.mem_of_find?_eq_some hg)
    have hid := List.find?_some hg
    simp only [decide_eq_true_eq] at hfound hid
    exact List.mem_filter.mpr ⟨hfound.1, decide_eq_true ⟨hfound.2, hid⟩⟩
  rw [(exitFillsOf_perm h ht).mem_iff, hexit, Option.mem_toList] at hof
  obtain rfl : f = g := Option.some.inj hof
  rw [hfills, List.find?_map]
  exact congrArg (Option.map storedFill) hg

theorem exact_of_verified (h : Extends { cash, version } db db') (hbook : Represents { cash, version } db trades)
    (hstored : Stored db) (hlimit : db'.positions.length ≤ positionLimit) {faults : List Bool}
    (hverified : verifyAccountingIndependent cash ⟨persist db', faults⟩ = (.ok [], ⟨persist db', faults⟩)) :
    Exact db db' := by
  obtain ⟨trades', hbook'⟩ := h.ledger
  have hwallet : (persist db').wallet = some (storedWallet _) :=
    congrArg (Option.map storedWallet) (wallet_written h hbook hstored hbook.wallet)
  obtain ⟨positions, r, hperm, htotals, hreport⟩ := verify_stored hbook' hlimit hwallet faults
  rw [hreport] at hverified
  obtain ⟨⟨⟨hwalletIssues, _⟩, _⟩, hpositionIssues⟩ : ((_ = [] ∧ _) ∧ _) ∧ _ := by
    simpa only [Prod.mk.injEq, Except.ok.injEq, List.append_eq_nil_iff, and_true] using hverified
  have hposition : ∀ p ∈ db'.positions, positionIssues (persist db').fills (storedPosition p) = [] := fun p hp =>
    List.flatMap_eq_nil_iff.mp hpositionIssues _ (hperm.mem_iff.mpr (List.mem_map_of_mem hp))
  refine ⟨fun p hp hopen => ?_, fun p hp f hf => ?_, fun w hw => ?_⟩
  · have hstatus : (storedPosition p).status ≠ .closed := by
      intro hclosed
      have hclosed : p.status = .closed := hclosed
      simp [isOpen, hclosed] at hopen
    exact store_pos_iff.mp (margin_of_positionIssues hstatus (hposition p hp))
  · have hrow := hp
    rw [hbook'.positions] at hrow
    obtain ⟨t, ht, rfl⟩ := List.mem_map.mp hrow
    have hexit : t.exit = some f := by
      rwa [(exitFillsOf_perm hbook' ht).mem_iff, Option.mem_toList] at hf
    have hstatus : (storedPosition t.position).status = .closed := (t.ended f (by simp [hexit])).1
    refine settles_zero.mpr ?_
    exact realized_of_positionIssues hstatus (find?_exitFills_stored hbook' ht hexit) (hposition _ hp)
  · obtain ⟨hcash, hrealized, hfees, hslippage⟩ := totals_of_walletIssues hwalletIssues
    rw [settle_stored h hbook hstored hw] at htotals
    have hold : db.fills.foldl (settle db.positions) { cash, version } = w := by
      rw [hbook.wallet] at hw
      exact Option.some.inj hw
    rw [hold] at hcash hrealized hfees hslippage
    exact walletExact_of_totals (hstored.wallet hw) (hcash.trans htotals.cash)
      (hrealized.trans htotals.realized) (hfees.trans htotals.fees) (hslippage.trans htotals.slippage)

end Verification

section Runs

variable {config : PaperTradingConfig} {risk : RiskEngine IntentKey} {cash : Decimal} {version : ℕ} {db : Db}

/-- The verification reports nothing, whatever fails after it. -/
def Verified (cash : Decimal) (db : Db) : Prop :=
  ∀ faults, verifyAccountingIndependent cash ⟨db, faults⟩ = (.ok [], ⟨db, faults⟩)

def EachCommit (config : PaperTradingConfig) (risk : RiskEngine IntentKey) (condition : Db → Db → Prop) :
    Db → List Commit → Prop
  | _, [] => True
  | db, c :: history => condition db (c.written config risk db) ∧
    EachCommit config risk condition (c.apply config risk db) history

def ExactIfAllowed (db db' : Db) : Prop := RowsAllowed (persist db') → Exact db db'

theorem stored_apply (h : Stored db) (c : Commit) : Stored (c.apply config risk db) := by
  unfold Commit.apply
  split_ifs
  · exact stored_persist _
  · exact h

theorem ledger_apply (h : Ledger { cash, version } db) (hstored : Stored db) (c : Commit)
    (hexact : ExactIfAllowed db (c.written config risk db)) :
    Ledger { cash, version } (c.apply config risk db) := by
  unfold Commit.apply
  split_ifs with hrows
  · exact ledger_persist (extends_written h c) h hstored hrows (hexact hrows)
  · exact h

theorem exact_of_apply (h : Ledger { cash, version } db) (hstored : Stored db) (c : Commit)
    (hlimit : (c.apply config risk db).positions.length ≤ positionLimit)
    (hverified : Verified cash (c.apply config risk db)) : ExactIfAllowed db (c.written config risk db) := by
  intro hrows
  obtain ⟨trades, hbook⟩ := h
  rw [Commit.apply, if_pos hrows] at hverified hlimit
  refine exact_of_verified (extends_written ⟨trades, hbook⟩ c) hbook hstored ?_ (hverified [])
  rwa [persist, List.length_map] at hlimit

theorem commits_verified_iff {history : List Commit} (h : Ledger { cash, version } db) (hstored : Stored db)
    (hlimit : ∀ earlier, earlier <+: history →
      (earlier.foldl (Commit.apply config risk) db).positions.length ≤ positionLimit) :
    (∀ earlier, earlier <+: history → Verified cash (earlier.foldl (Commit.apply config risk) db)) ↔
      EachCommit config risk ExactIfAllowed db history := by
  induction history generalizing db with
  | nil =>
    refine ⟨fun _ => trivial, fun _ earlier hearlier faults => ?_⟩
    rw [List.prefix_nil.mp hearlier]
    obtain ⟨trades, hbook⟩ := h
    exact verifyAccountingIndependent_eq hbook (hlimit [] List.nil_prefix) faults
  | cons c history ih =>
    have hnext : ∀ earlier, earlier <+: history → (c :: earlier) <+: (c :: history) := fun earlier hearlier =>
      (List.prefix_cons_inj c).mpr hearlier
    have hfirst : [c] <+: (c :: history) := hnext [] List.nil_prefix
    have hrest : ExactIfAllowed db (c.written config risk db) →
        ((∀ earlier, earlier <+: history →
          Verified cash (earlier.foldl (Commit.apply config risk) (c.apply config risk db))) ↔
        EachCommit config risk ExactIfAllowed (c.apply config risk db) history) := fun hexact =>
      ih (ledger_apply h hstored c hexact) (stored_apply hstored c) fun earlier hearlier =>
        hlimit (c :: earlier) (hnext earlier hearlier)
    constructor
    · intro hverified
      have hexact := exact_of_apply h hstored c (hlimit [c] hfirst) (hverified [c] hfirst)
      exact ⟨hexact, (hrest hexact).mp fun earlier hearlier => hverified (c :: earlier) (hnext earlier hearlier)⟩
    · rintro ⟨hexact, hothers⟩ earlier hearlier
      rcases List.prefix_cons_iff.mp hearlier with rfl | ⟨later, rfl, hlater⟩
      · obtain ⟨trades, hbook⟩ := h
        exact verifyAccountingIndependent_eq hbook (hlimit [] List.nil_prefix)
      · exact (hrest hexact).mpr hothers later hlater

theorem start_stored (w₀ : PaperWalletState) (base : Db) :
    persist (emptyAccount w₀ base) = emptyAccount (storedWallet w₀) (persist base) := rfl

theorem storedWallet_start (h : OnGrid moneyDigits cash) :
    storedWallet { cash, version } = { cash, version } := by
  have hcash : money cash = cash := store_eq_self h
  simp [storedWallet, money_zero, hcash]

theorem onGrid_of_start {base : Db} (h : Verified cash (persist (emptyAccount { cash, version } base))) :
    OnGrid moneyDigits cash := by
  obtain ⟨trades, hbook⟩ : Ledger { cash, version } (emptyAccount { cash, version } base) :=
    emptyAccount_ledger base
  have hwallet : (persist (emptyAccount { cash, version } base)).wallet = some (storedWallet { cash, version }) := rfl
  obtain ⟨positions, r, _, htotals, hreport⟩ := verify_stored hbook (Nat.zero_le _) hwallet []
  have hempty := h []
  rw [hreport] at hempty
  obtain ⟨⟨⟨hwalletIssues, _⟩, _⟩, _⟩ : ((_ = [] ∧ _) ∧ _) ∧ _ := by
    simpa only [Prod.mk.injEq, Except.ok.injEq, List.append_eq_nil_iff, and_true] using hempty
  exact store_eq_self_iff.mp ((totals_of_walletIssues hwalletIssues).1.trans htotals.cash)

end Runs

section Results

end Results

section Samples

def entryAndGap (constraints : SymbolConstraints) (crash : Candle) : List Commit :=
  [{ step := .createIntent longEntryRecord longEntry openGates day day true },
   { step := .processIntent day (BySymbol.single .BTC { btcFillContext with constraints }) (fun _ => true) .BTC
       { btcFillContext with constraints } { result := { symbol := .BTC } } 0 },
   { step := .closeIfStopped .atOpen (2 * day) (BySymbol.single .BTC crash) (BySymbol.single .BTC constraints)
       .BTC }]

def approveFine : RiskEngine IntentKey := fun _ => .ok ⟨true, some (100000001 / 100000000), [.riskApproved]⟩

def fineConstraints : SymbolConstraints := { btcConstraints with quantityStep := 1 / 100000000 }

def fineCrash : Candle := { crashCandle with openPrice := 6012345678 / 100000000 }

end Samples

end TradingBot.Paper.StorageRounding
