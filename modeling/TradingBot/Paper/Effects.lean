import TradingBot.Paper.Execution
import TradingBot.Paper.PositionTable

namespace TradingBot.Paper.Effects

open Library.Outcome
open Market.Models Exceptions Backtester.Lifecycle Library.Transaction Paper.Models
open Paper.Repository Paper.Stops Paper.PositionTable Paper.Execution

section Rows

variable {s s' : Session Db}

theorem newId_bind_eq_ok {α : Type} {f : Id → Query α} {a : α} :
    (newId >>= f) s = (.ok a, s') ↔
      f s.db.nextId { s with db := { s.db with nextId := s.db.nextId + 1 } } = (.ok a, s') := Iff.rfl

theorem require_bind_eq_ok {α : Type} {condition : Bool} {e : Exc} {f : Unit → Query α} {a : α} :
    (require condition e >>= f) s = (.ok a, s') ↔ condition ∧ f () s = (.ok a, s') := by
  cases condition
  · simp [require]
  · exact ⟨fun h => ⟨rfl, h⟩, fun h => h.2⟩

theorem scalarOneOrNone_eq_ok {α : Type} {rows : List α} {r : Option α} :
    scalarOneOrNone rows s = (.ok r, s') ↔ rows = r.toList ∧ s = s' := by
  match rows with
  | [] => cases r <;> simp [scalarOneOrNone]
  | [a] => cases r <;> simp [scalarOneOrNone]
  | _ :: _ :: _ => cases r <;> simp [scalarOneOrNone]

theorem updateWallet_ok {d : WalletDelta} {u : Unit} (h : updateWallet d s = (.ok u, s')) :
    s'.db = { s.db with wallet := s.db.wallet.map d.apply } := by
  unfold updateWallet getWallet at h
  rw [read_bind] at h
  rcases hw : s.db.wallet with _ | wallet <;> simp only [hw] at h
  · cases h
  · rw [write_ok_db h, hw]

def modifyIntent (intentId : Id) (u : IntentUpdate) (db : Db) : Db :=
  { db with intents := db.intents.map fun i => if i.intentId = intentId then u.apply i else i }

theorem updateIntentStatus_ok {intentId : Id} {u : IntentUpdate} {row : TradeIntent}
    (h : updateIntentStatus intentId u s = (.ok row, s')) : s'.db = modifyIntent intentId u s.db := by
  obtain ⟨_, t, hwrite, hget⟩ := bind_eq_ok.mp h
  have hdb := write_ok_db hwrite
  unfold getIntent at hget
  rw [read_bind] at hget
  rcases hrow : t.db.intents.find? (·.intentId = intentId) with _ | row' <;> simp only [hrow] at hget
  · cases hget
  · cases hget
    exact hdb

theorem intentColumns_eq_some {row stored : TradeIntent} (h : intentColumns row = some stored) :
    ∃ entry stop, numericMoney row.requestedEntry = some entry ∧ numericMoney row.requestedStop = some stop ∧
      stored = { row with requestedEntry := entry, requestedStop := stop } := by
  obtain ⟨entry, hentry, h⟩ := Option.bind_eq_some_iff.mp h
  obtain ⟨stop, hstop, h⟩ := Option.bind_eq_some_iff.mp h
  cases h
  exact ⟨entry, stop, hentry, hstop, rfl⟩

theorem insertOrGetTradeIntent_ok {row : TradeIntent} {r : TradeIntent × Bool}
    (h : insertOrGetTradeIntent row s = (.ok r, s')) :
    ∃ stored, intentColumns row = some stored ∧ ((r.2 = false ∧ s'.db = s.db) ∨
      (r = (stored, true) ∧ s'.db = { s.db with intents := s.db.intents ++ [stored] })) := by
  unfold insertOrGetTradeIntent at h
  rcases hcolumns : intentColumns row with _ | stored <;> simp only [hcolumns] at h
  · cases h
  refine ⟨stored, rfl, ?_⟩
  rw [read_bind] at h
  rcases hfind : s.db.intents.find? (sameSignal stored) with _ | existing <;> simp only [hfind] at h
  · rw [read_bind] at h
    obtain ⟨_, h⟩ := require_bind_eq_ok.mp h
    obtain ⟨_, t, hwrite, hpure⟩ := bind_eq_ok.mp h
    cases hpure
    exact .inr ⟨rfl, write_ok_db hwrite⟩
  · obtain ⟨_, t, hflush, hpure⟩ := bind_eq_ok.mp h
    cases hpure
    exact .inl ⟨rfl, flush_ok_db hflush⟩

theorem insertOrGetStrategyEvaluation_ok {row : StrategyEvaluationRecord} {r : StrategyEvaluationRecord × Bool}
    (h : insertOrGetStrategyEvaluation row s = (.ok r, s')) :
    (s.db.evaluations.find? (sameEvaluation row) = some r.1 ∧ s'.db = s.db) ∨
    (s.db.evaluations.find? (sameEvaluation row) = none ∧ r = (row, true) ∧
      s'.db = { s.db with evaluations := s.db.evaluations ++ [row] }) := by
  unfold insertOrGetStrategyEvaluation at h
  rw [read_bind] at h
  rcases hfind : s.db.evaluations.find? (sameEvaluation row) with _ | existing <;> simp only [hfind] at h
  · obtain ⟨_, t, hwrite, hpure⟩ := bind_eq_ok.mp h
    cases hpure
    exact .inr ⟨rfl, rfl, write_ok_db hwrite⟩
  · obtain ⟨_, t, hflush, hpure⟩ := bind_eq_ok.mp h
    cases hpure
    exact .inl ⟨rfl, flush_ok_db hflush⟩

theorem insertOrGetPaperOrder_ok {row : PaperOrder} {r : PaperOrder × Bool}
    (hnone : ∀ o ∈ s.db.orders, o.intentId ≠ row.intentId)
    (h : insertOrGetPaperOrder row s = (.ok r, s')) :
    r = (row, true) ∧ s'.db = { s.db with orders := s.db.orders ++ [row] } := by
  have hfind : s.db.orders.find? (·.intentId = row.intentId) = none := by
    simpa [List.find?_eq_none] using hnone
  unfold insertOrGetPaperOrder at h
  rw [read_bind] at h
  simp only [hfind, require_bind_eq_ok] at h
  obtain ⟨_, _, h⟩ := h
  obtain ⟨_, t, hwrite, hpure⟩ := bind_eq_ok.mp h
  cases hpure
  exact ⟨rfl, write_ok_db hwrite⟩

def FillAbsent (db : Db) (row : PaperFill) : Prop :=
  ∀ f ∈ db.fills, ¬ sameOrderCandle row f ∧ ¬ sameExitCandle row f ∧
    f.deterministicFillKey ≠ row.deterministicFillKey

/-- A fill is stored when nothing stands in its way, else the stored one is returned. -/
theorem insertOrGetPaperFill_ok {row : PaperFill} {r : PaperFill × Bool}
    (h : insertOrGetPaperFill row s = (.ok r, s')) :
    (r.2 = false ∧ ¬ FillAbsent s.db row ∧ s'.db = s.db) ∨
    (r = (row, true) ∧ 0 < row.quantity ∧ 0 < row.fillPrice ∧
      s'.db = { s.db with fills := s.db.fills ++ [row] }) := by
  unfold insertOrGetPaperFill at h
  rw [read_bind] at h
  obtain ⟨found, t, hscalar, h⟩ := bind_eq_ok.mp h
  obtain ⟨hrows, rfl⟩ := scalarOneOrNone_eq_ok.mp hscalar
  rcases found with _ | existing
  · simp only at h
    rw [read_bind] at h
    rcases hkey : s.db.fills.find? (·.deterministicFillKey = row.deterministicFillKey) with
      _ | existing <;> simp only [hkey] at h
    · simp only [require_bind_eq_ok] at h
      obtain ⟨hqty, hprice, _, h⟩ := h
      obtain ⟨_, t, hwrite, h⟩ := bind_eq_ok.mp h
      obtain ⟨_, hpure⟩ := require_bind_eq_ok.mp h
      cases hpure
      exact .inr ⟨rfl, of_decide_eq_true hqty, of_decide_eq_true hprice, write_ok_db hwrite⟩
    · obtain ⟨_, t, hflush, hpure⟩ := bind_eq_ok.mp h
      cases hpure
      refine .inl ⟨rfl, fun habsent => ?_, flush_ok_db hflush⟩
      exact (habsent existing (List.mem_of_find?_eq_some hkey)).2.2 (by simpa using List.find?_some hkey)
  · cases h
    refine .inl ⟨rfl, fun habsent => ?_, rfl⟩
    have hmem : existing ∈ s.db.fills.filter fun f => sameOrderCandle row f || sameExitCandle row f := by
      rw [hrows]
      exact List.mem_singleton_self existing
    obtain ⟨hmem, hsame⟩ := List.mem_filter.mp hmem
    obtain ⟨horder, hexit, _⟩ := habsent existing hmem
    simp_all

theorem createPosition_ok {row r : PaperPosition} (h : createPosition row s = (.ok r, s')) :
    (isOpen row → openOf s.db row.symbol = []) ∧ 0 < row.quantity ∧
      s'.db = { s.db with positions := s.db.positions ++ [row] } := by
  unfold createPosition at h
  rw [read_bind] at h
  simp only [require_bind_eq_ok] at h
  obtain ⟨hqty, _, _, _, hopen, h⟩ := h
  obtain ⟨_, t, hwrite, h⟩ := bind_eq_ok.mp h
  obtain ⟨_, hpure⟩ := require_bind_eq_ok.mp h
  cases hpure
  refine ⟨fun hrow => ?_, of_decide_eq_true hqty, write_ok_db hwrite⟩
  simpa [hrow, openOf] using hopen

theorem updatePosition_ok {positionId : Id} {f : PaperPosition → PaperPosition} {u : Unit}
    (h : updatePosition positionId f s = (.ok u, s')) : s'.db = modifyPosition positionId f s.db :=
  write_ok_db h

end Rows

section Entry

variable {s s' : Session Db}

def entered (intent : TradeIntent) (entry : EntryExecutionApproved) (openRef : Decimal)
    (candleOpenTime : Time) (atr14 : Decimal) (db : Db) : Db :=
  { db with
    orders := db.orders ++ [entryOrder db.nextId intent entry candleOpenTime]
    fills := db.fills ++ [entryFill (db.nextId + 1) db.nextId intent entry openRef candleOpenTime]
    wallet := db.wallet.map (entryDelta entry).apply
    positions := db.positions ++ [entryPosition (db.nextId + 2) intent entry atr14 candleOpenTime]
    intents := db.intents.map fun i => if i.intentId = intent.intentId
      then IntentUpdate.apply { status := .filled, approvedQuantity := some entry.quantity } i else i
    nextId := db.nextId + 3 }

theorem persistSuccessfulFill_ok {intent : TradeIntent} {entry : EntryExecutionApproved}
    {openRef atr14 : Decimal} {candleOpenTime : Time} {r : TransactionalFillResult}
    (hnone : ∀ o ∈ s.db.orders, o.intentId ≠ intent.intentId)
    (habsent : FillAbsent s.db
      (entryFill (s.db.nextId + 1) s.db.nextId intent entry openRef candleOpenTime))
    (h : persistSuccessfulFill intent entry openRef candleOpenTime atr14 s = (.ok r, s')) :
    openOf s.db intent.symbol = [] ∧ 0 < entry.quantity ∧ 0 < entry.fillPrices.fillPrice ∧
      s'.db = entered intent entry openRef candleOpenTime atr14 s.db := by
  have h := newId_bind_eq_ok.mp h
  obtain ⟨order, t₁, horder, h⟩ := bind_eq_ok.mp h
  obtain ⟨rfl, hdb₁⟩ := insertOrGetPaperOrder_ok hnone horder
  have h := newId_bind_eq_ok.mp h
  obtain ⟨fill, t₃, hfill, h⟩ := bind_eq_ok.mp h
  simp only [hdb₁] at hfill
  rcases insertOrGetPaperFill_ok hfill with ⟨_, hnot, _⟩ | ⟨rfl, hqty, hprice, hdb₃⟩
  · exact absurd habsent hnot
  · simp only [↓reduceIte] at h
    obtain ⟨_, t₄, hwallet, h⟩ := bind_eq_ok.mp h
    have hdb₄ := updateWallet_ok hwallet
    have h := newId_bind_eq_ok.mp h
    obtain ⟨position, t₆, hposition, h⟩ := bind_eq_ok.mp h
    obtain ⟨hopen, _, hdb₆⟩ := createPosition_ok hposition
    obtain ⟨updated, t₇, hintent, hpure⟩ := bind_eq_ok.mp h
    have hdb₇ := updateIntentStatus_ok hintent
    cases hpure
    refine ⟨?_, hqty, hprice, ?_⟩
    · simpa [openOf, hdb₄, hdb₃, entryPosition] using hopen rfl
    · rw [hdb₇, hdb₆]
      simp only [modifyIntent, entered, hdb₄, hdb₃, entryOrder]

end Entry

section Fill

variable {s s' : Session Db} {intent : TradeIntent}

theorem ofExcept_eq_ok {α : Type} {r : Except Exc α} {a : α} :
    Repository.ofExcept r s = (.ok a, s') ↔ r = .ok a ∧ s = s' := by
  cases r <;> simp [Repository.ofExcept]

theorem computeEntryExecution_accounting {risk : RiskEngine IntentKey} {ctx : FillProcessingContext}
    {cash : Decimal} {openPositions : List PaperPosition} {pending : List (PendingIntent IntentKey)}
    {processed : List IntentKey} {entry : EntryExecutionApproved}
    (h : computeEntryExecution risk intent ctx cash openPositions pending processed =
      .ok (.inr entry)) :
    ∃ tickSize, computeEntryAccounting entry.fillPrices.fillPrice ctx.openRef entry.quantity
      entry.fillPrices.stopInitial ctx.executionConfig.feeRate ctx.executionConfig.maxLeverage
      ctx.strategyParams tickSize ctx.atr14 = .ok entry.accounting := by
  unfold computeEntryExecution at h
  obtain ⟨constraints, _, h⟩ := except_bind_eq_ok.mp h
  by_cases hopen : ctx.openRef ≤ 0
  · rw [if_pos hopen] at h
    cases h
  · rw [if_neg hopen] at h
    obtain ⟨fillPrices, _, h⟩ := except_bind_eq_ok.mp h
    obtain ⟨decision, _, h⟩ := except_bind_eq_ok.mp h
    split at h
    · obtain ⟨accounting, haccounting, h⟩ := except_bind_eq_ok.mp h
      split_ifs at h
      · cases h
      · cases h
        exact ⟨_, haccounting⟩
    · cases h

structure EntryStops (entry : EntryExecutionApproved) : Prop where
  stop : entry.accounting.trailState.stopInitial ≤ entry.accounting.trailState.effectiveStop
  highest : entry.accounting.trailState.highestClose = entry.fillPrices.fillPrice

theorem computeEntryAccounting_ok {fillPrice openRef quantity stopInitial feeRate maxLeverage : Decimal}
    {params : Strategy.Models.StrategyParameters} {tickSize atr14 : Decimal} {accounting : EntryAccounting}
    (h : computeEntryAccounting fillPrice openRef quantity stopInitial feeRate maxLeverage params tickSize
      atr14 = .ok accounting) :
    accounting.marginReserved = positionMargin (fillPrice * quantity) maxLeverage ∧
      accounting.trailState.highestClose = fillPrice ∧
      accounting.trailState.stopInitial ≤ accounting.trailState.effectiveStop := by
  obtain ⟨trailState, htrail, haccounting⟩ := except_bind_eq_ok.mp h
  cases haccounting
  exact ⟨rfl, Strategy.Stops.initializeTrailingStop_ok htrail⟩

theorem loadExistingFill_ok {candleOpenTime : Time} {r : Option TransactionalFillResult}
    (h : loadExistingFill intent candleOpenTime s = (.ok r, s')) :
    s = s' ∧ (r = none → ∀ o ∈ s.db.orders, o.intentId = intent.intentId → ∀ f ∈ s.db.fills,
      f.deterministicFillKey ≠ .entry o.paperOrderId (wholeSeconds candleOpenTime) 0) ∧
    (r ≠ none → ∃ o ∈ s.db.orders, o.intentId = intent.intentId) := by
  unfold loadExistingFill getOrderForIntent at h
  obtain ⟨found, t, hfound, h⟩ := bind_eq_ok.mp h
  rw [read_bind] at hfound
  obtain ⟨hrows, rfl⟩ := scalarOneOrNone_eq_ok.mp hfound
  rcases found with _ | order
  · cases h
    refine ⟨rfl, fun _ o ho hid => ?_, fun hsome => absurd rfl hsome⟩
    simp only [Option.toList_none, List.filter_eq_nil_iff, decide_eq_true_eq] at hrows
    exact absurd hid (hrows o ho)
  · simp only at h
    rw [read_bind] at h
    rcases hkey : s.db.fills.find? (·.deterministicFillKey =
      FillKey.entry order.paperOrderId (wholeSeconds candleOpenTime) 0) with _ | fill <;>
      simp only [hkey] at h
    · cases h
      refine ⟨rfl, fun _ o ho hid f hf => ?_, fun hsome => absurd rfl hsome⟩
      have hmem : o ∈ s.db.orders.filter (·.intentId = intent.intentId) := by
        simpa using ⟨ho, hid⟩
      rw [hrows] at hmem
      rw [List.mem_singleton.mp hmem]
      simpa using List.find?_eq_none.mp hkey f hf
    · unfold getIntent getPositionForIntent at h
      rw [read_bind] at h
      obtain ⟨position, t, hposition, hpure⟩ := bind_eq_ok.mp h
      rw [read_bind] at hposition
      obtain ⟨_, rfl⟩ := scalarOneOrNone_eq_ok.mp hposition
      cases hpure
      have hmem : order ∈ s.db.orders.filter (·.intentId = intent.intentId) := by
        rw [hrows]
        exact List.mem_singleton_self order
      refine ⟨rfl, ?_, ?_⟩
      · intro hnone
        cases hnone
      · intro _
        exact ⟨order, by simpa using hmem⟩

/-- What filling an intent without an order leaves behind: a rejection or the whole entry. -/
inductive FillEffect (intent : TradeIntent) (ctx : FillProcessingContext) (db : Db) : Db → Prop
  | rejected (reason : RejectionReason) :
    FillEffect intent ctx db (modifyIntent intent.intentId
      { status := .rejected, rejectionReason := some reason } db)
  | entered (entry : EntryExecutionApproved) (hfree : openOf db intent.symbol = [])
      (hqty : 0 < entry.quantity) (hmargin : 0 < entry.accounting.marginReserved)
      (hstops : EntryStops entry) :
    FillEffect intent ctx db (entered intent entry ctx.openRef ctx.candleOpenTime ctx.atr14 db)

def Occupied (db : Db) (symbol : Symbol) : Prop := ((db.positions.filter isOpen).any (·.symbol = symbol)) = true

theorem executeScheduledPaperFill_cases {risk : RiskEngine IntentKey} {ctx : FillProcessingContext}
    {processed : List IntentKey} {pending : List (PendingIntent IntentKey)} {r}
    (hfound : ∀ o ∈ s.db.orders, o.intentId = intent.intentId → ∃ f ∈ s.db.fills,
      f.deterministicFillKey = .entry o.paperOrderId (wholeSeconds ctx.candleOpenTime) 0)
    (habsent : ∀ entry, FillAbsent s.db
      (entryFill (s.db.nextId + 1) s.db.nextId intent entry ctx.openRef ctx.candleOpenTime))
    (h : executeScheduledPaperFill risk intent ctx processed pending s = (.ok r, s')) :
    ((∃ o ∈ s.db.orders, o.intentId = intent.intentId) ∨ Occupied s.db intent.symbol) ∧ s'.db = s.db ∨
      ¬Occupied s.db intent.symbol ∧ (∀ o ∈ s.db.orders, o.intentId ≠ intent.intentId) ∧
        FillEffect intent ctx s.db s'.db := by
  unfold executeScheduledPaperFill at h
  obtain ⟨_, t, hconstraints, h⟩ := bind_eq_ok.mp h
  obtain ⟨_, rfl⟩ := ofExcept_eq_ok.mp hconstraints
  obtain ⟨existing, t, hload, h⟩ := bind_eq_ok.mp h
  obtain ⟨rfl, hnone, hsome⟩ := loadExistingFill_ok hload
  rcases existing with _ | result
  · have hno : ∀ o ∈ s.db.orders, o.intentId ≠ intent.intentId := by
      intro o ho hid
      obtain ⟨f, hf, hkey⟩ := hfound o ho hid
      exact hnone rfl o ho hid f hf hkey
    simp only [getOpenPositions] at h
    rw [read_bind] at h
    by_cases htaken : (s.db.positions.filter isOpen).any (·.symbol = intent.symbol)
    · rw [if_pos htaken] at h
      cases h
      exact .inl ⟨.inr htaken, rfl⟩
    · rw [if_neg htaken, getWallet, read_bind] at h
      rcases hwallet : s.db.wallet with _ | wallet <;> simp only [hwallet] at h
      · cases h
      · obtain ⟨entry, t, hcompute, h⟩ := bind_eq_ok.mp h
        obtain ⟨hentry, rfl⟩ := ofExcept_eq_ok.mp hcompute
        rcases entry with rejected | approved
        · obtain ⟨_, t, hreject, hpure⟩ := bind_eq_ok.mp h
          obtain ⟨_, t', hupdate, hunit⟩ := bind_eq_ok.mp (scope_eq_ok.mp hreject)
          cases hpure
          cases hunit
          rw [updateIntentStatus_ok hupdate]
          exact .inr ⟨htaken, hno, .rejected _⟩
        · obtain ⟨result, t, hpersist, hpure⟩ := bind_eq_ok.mp h
          cases hpure
          obtain ⟨hfree, hqty, hprice, hdb⟩ :=
            persistSuccessfulFill_ok hno (habsent approved) (scope_eq_ok.mp hpersist)
          obtain ⟨_, haccounting⟩ := computeEntryExecution_accounting hentry
          obtain ⟨hreserved, hhighest, hstop⟩ := computeEntryAccounting_ok haccounting
          have hmargin : 0 < approved.accounting.marginReserved := by
            rw [hreserved]
            exact positionMargin_pos (mul_pos hprice hqty)
          rw [hdb]
          exact .inr ⟨htaken, hno, .entered approved hfree hqty hmargin ⟨hstop, hhighest⟩⟩
  · cases h
    exact .inl ⟨.inl (hsome (Option.some_ne_none result)), rfl⟩

theorem executeScheduledPaperFill_ok {risk : RiskEngine IntentKey} {ctx : FillProcessingContext}
    {processed : List IntentKey} {pending : List (PendingIntent IntentKey)} {r}
    (hfound : ∀ o ∈ s.db.orders, o.intentId = intent.intentId → ∃ f ∈ s.db.fills,
      f.deterministicFillKey = .entry o.paperOrderId (wholeSeconds ctx.candleOpenTime) 0)
    (habsent : ∀ entry, FillAbsent s.db
      (entryFill (s.db.nextId + 1) s.db.nextId intent entry ctx.openRef ctx.candleOpenTime))
    (h : executeScheduledPaperFill risk intent ctx processed pending s = (.ok r, s')) :
    s'.db = s.db ∨ (∀ o ∈ s.db.orders, o.intentId ≠ intent.intentId) ∧
      FillEffect intent ctx s.db s'.db := by
  rcases executeScheduledPaperFill_cases hfound habsent h with ⟨-, hsame⟩ | ⟨-, heffect⟩
  · exact .inl hsame
  · exact .inr heffect

end Fill

section Exit

variable {s s' : Session Db}

def exited (position : PaperPosition) (trigger : StopTriggerResult) (exit : ExitAccounting)
    (processTime : Time) (db : Db) : Db :=
  { modifyPosition position.positionId (closePosition exit processTime) db with
    fills := db.fills ++ [exitFill db.nextId position trigger exit processTime]
    wallet := db.wallet.map (exitDelta exit).apply
    nextId := db.nextId + 1 }

theorem modifyPosition_closing_closed (positionId : Id) (exit : ExitAccounting) (processTime : Time)
    (db : Db) :
    modifyPosition positionId (closePosition exit processTime)
      (modifyPosition positionId (fun p => { p with status := .closing }) db) =
    modifyPosition positionId (closePosition exit processTime) db := by
  simp only [modifyPosition, List.map_map]
  congr 1
  refine List.map_congr_left fun p _ => ?_
  by_cases hp : p.positionId = positionId <;> simp [hp, closePosition]

theorem persistExit_ok {position : PaperPosition} {trigger : StopTriggerResult}
    {exit : ExitAccounting} {processTime : Time} {closed : Bool}
    (h : persistExit position trigger exit processTime s = (.ok closed, s')) :
    (closed = false ∧ ∃ n, s.db.nextId ≤ n ∧ s'.db = { s.db with nextId := n }) ∨
    (closed = true ∧ (∃ row ∈ s.db.positions, row.positionId = position.positionId ∧
        row.status ≠ .closed) ∧ 0 < position.quantity ∧
      s'.db = exited position trigger exit processTime s.db) := by
  unfold persistExit getPosition at h
  rw [read_bind] at h
  rcases hrow : s.db.positions.find? (·.positionId = position.positionId) with _ | row <;>
    simp only [hrow] at h
  · cases h
    exact .inl ⟨rfl, s.db.nextId, le_refl _, rfl⟩
  · by_cases hclosed : row.status = .closed
    · rw [if_pos hclosed] at h
      cases h
      exact .inl ⟨rfl, s.db.nextId, le_refl _, rfl⟩
    · rw [if_neg hclosed] at h
      have h := newId_bind_eq_ok.mp h
      obtain ⟨r, t₁, hfill, h⟩ := bind_eq_ok.mp h
      rcases insertOrGetPaperFill_ok hfill with ⟨hr, _, hdb⟩ | ⟨rfl, hqty, _, hdb₁⟩
      · simp only [hr] at h
        cases h
        exact .inl ⟨rfl, _, Nat.le_succ _, hdb⟩
      · simp only [↓reduceIte] at h
        obtain ⟨_, t₂, hclosing, h⟩ := bind_eq_ok.mp h
        have hdb₂ := updatePosition_ok hclosing
        obtain ⟨_, t₃, hwallet, h⟩ := bind_eq_ok.mp h
        have hdb₃ := updateWallet_ok hwallet
        obtain ⟨_, t₄, hclose, hpure⟩ := bind_eq_ok.mp h
        have hdb₄ := updatePosition_ok hclose
        cases hpure
        refine .inr ⟨rfl, ⟨row, List.mem_of_find?_eq_some hrow, ?_, hclosed⟩, hqty, ?_⟩
        · simpa using List.find?_some hrow
        · have htwice := modifyPosition_closing_closed position.positionId exit processTime t₁.db
          rw [hdb₄, hdb₃, hdb₂]
          simp only [exited, modifyPosition, hdb₁, Db.mk.injEq] at htwice ⊢
          simpa using htwice

end Exit

section Trailing

variable {s s' : Session Db}

theorem insertOrGetStopEvent_ok {row : PositionStopEvent} {created : Bool}
    (h : insertOrGetStopEvent row s = (.ok created, s')) :
    (created = false ∧ s'.db = s.db) ∨ (created = true ∧ row.previousStop ≤ row.newStop ∧
      s'.db = { s.db with stopHistory := s.db.stopHistory ++ [row] }) := by
  unfold insertOrGetStopEvent at h
  rw [read_bind] at h
  rcases hfind : s.db.stopHistory.find? (sameStopEvent row) with _ | existing <;>
    simp only [hfind] at h
  · obtain ⟨hle, h⟩ := require_bind_eq_ok.mp h
    obtain ⟨_, t, hwrite, hpure⟩ := bind_eq_ok.mp h
    cases hpure
    exact .inr ⟨rfl, by simpa using hle, write_ok_db hwrite⟩
  · obtain ⟨_, t, hflush, hpure⟩ := bind_eq_ok.mp h
    cases hpure
    exact .inl ⟨rfl, flush_ok_db hflush⟩

def stopEvent (stopEventId : Id) (position : PaperPosition) (updated : Strategy.Models.TrailingStopState)
    (atr : Decimal) (evaluationTime : Time) : PositionStopEvent :=
  { stopEventId
    positionId := position.positionId
    previousStop := position.currentStop
    newStop := updated.effectiveStop
    highestClose := updated.highestClose
    atr
    evaluationTime }

/-- What a raised stop leaves behind: the event and the changed row. -/
def raised (position : PaperPosition) (updated : Strategy.Models.TrailingStopState) (atr : Decimal)
    (evaluationTime : Time) (db : Db) : Db :=
  { modifyPosition position.positionId (raiseStop updated) db with
    stopHistory := db.stopHistory ++ [stopEvent db.nextId position updated atr evaluationTime]
    nextId := db.nextId + 1 }

theorem persistRaisedStop_ok {position : PaperPosition} {updated : Strategy.Models.TrailingStopState}
    {atr : Decimal} {time : Time} {created : Bool}
    (h : persistRaisedStop position updated atr time s = (.ok created, s')) :
    s'.db = { s.db with nextId := s.db.nextId + 1 } ∨ s'.db = raised position updated atr time s.db := by
  have h := newId_bind_eq_ok.mp h
  obtain ⟨inserted, t, hevent, h⟩ := bind_eq_ok.mp h
  rcases insertOrGetStopEvent_ok hevent with ⟨rfl, hdb⟩ | ⟨rfl, _, hdb⟩
  · cases h
    exact .inl hdb
  · simp only [↓reduceIte, getPosition] at h
    rw [read_bind] at h
    rcases hrow : t.db.positions.find? (·.positionId = position.positionId) with _ | row <;>
      simp only [hrow] at h
    · cases h
    · obtain ⟨_, t', hupdate, hpure⟩ := bind_eq_ok.mp h
      cases hpure
      rw [updatePosition_ok hupdate, hdb]
      exact .inr rfl

end Trailing

end TradingBot.Paper.Effects
