import TradingBot.Paper.EventEffects
import TradingBot.Paper.EventRules

namespace TradingBot.Paper.SnapshotMarks

open Market.Models Strategy.Models Exceptions Backtester.Lifecycle Library.Transaction Paper.Models
open Paper.Repository Paper.Stops Paper.PositionTable Paper.MarketEvents Paper.SchedulerContext Paper.Scheduler
open Paper.Bridge Paper.Polls Paper.EventRules
open Paper.Bookkeeping (Undisturbed Recording snapshotRow keeps_handler)

section Definitions

/-- What the backtester's daily snapshot makes of the positions at these closes. -/
def pnlAtCloses (positions : List PaperPosition) (closes : BySymbol Decimal) : Decimal :=
  computeUnrealizedPnl (positions.map paperPositionToSimulated) closes

/-- The stored values are those of the backtester's daily snapshot. -/
def MarkedToMarket (row : PortfolioSnapshot) (positions : List PaperPosition) (closes : BySymbol Decimal) : Prop :=
  row.unrealizedPnl = pnlAtCloses positions closes ∧ row.equity = row.cash + pnlAtCloses positions closes

/-- The stored values are those of positions that are worth what they cost. -/
def AtCost (row : PortfolioSnapshot) : Prop := row.unrealizedPnl = 0 ∧ row.equity = row.cash

/-- Each symbol has one open position at most, and every snapshot was taken at cost. -/
structure Booked (db : Db) : Prop where
  openUnique : ∀ symbol, (openOf db symbol).length ≤ 1
  atCost : ∀ row ∈ db.snapshots, AtCost row

end Definitions

section Marks

variable {db : Db}

theorem eq_of_symbol (hunique : ∀ symbol, (openOf db symbol).length ≤ 1) {p q : PaperPosition}
    (hp : p ∈ db.positions.filter isOpen) (hq : q ∈ db.positions.filter isOpen) (h : q.symbol = p.symbol) :
    q = p := by
  rw [List.mem_filter] at hp hq
  have hp : p ∈ openOf db p.symbol := mem_openOf.mpr ⟨hp.1, rfl, hp.2⟩
  have hq : q ∈ openOf db p.symbol := mem_openOf.mpr ⟨hq.1, h, hq.2⟩
  have hlen := hunique p.symbol
  match hlist : openOf db p.symbol with
  | [] => simp [hlist] at hp
  | [r] =>
    rw [hlist, List.mem_singleton] at hp hq
    rw [hp, hq]
  | _ :: _ :: _ => simp [hlist] at hlen

theorem mark_without_prices (hunique : ∀ symbol, (openOf db symbol).length ≤ 1) {p : PaperPosition}
    (hp : p ∈ db.positions.filter isOpen) :
    resolveMarksAtOpen ((db.positions.filter isOpen).map paperPositionToSimulated) (fun _ => none)
      (fun _ => none) p.symbol = some p.averageEntryPrice := by
  unfold resolveMarksAtOpen
  rw [List.findRev?_eq_find?_reverse, ← List.map_reverse, List.find?_map]
  cases hfind : (db.positions.filter isOpen).reverse.find?
      ((fun q => decide (q.symbol = p.symbol)) ∘ paperPositionToSimulated) with
  | none =>
    have hne := List.find?_eq_none.mp hfind p (List.mem_reverse.mpr hp)
    exact absurd (decide_eq_true rfl) hne
  | some q =>
    have hq : q ∈ db.positions.filter isOpen := List.mem_reverse.mp (List.mem_of_find?_eq_some hfind)
    have hfound := List.find?_some hfind
    have hsymbol : q.symbol = p.symbol := of_decide_eq_true hfound
    rw [eq_of_symbol hunique hp hq hsymbol]
    rfl

theorem atCost_snapshotRow (hunique : ∀ symbol, (openOf db symbol).length ≤ 1) (wallet : PaperWalletState)
    (id : Id) (time : Time) (event : String) :
    AtCost (snapshotRow wallet (db.positions.filter isOpen) id time event) := by
  have hzero : computeUnrealizedPnl ((db.positions.filter isOpen).map paperPositionToSimulated)
      (resolveMarksAtOpen ((db.positions.filter isOpen).map paperPositionToSimulated) (fun _ => none)
        (fun _ => none)) = 0 := by
    unfold computeUnrealizedPnl
    refine List.sum_eq_zero fun x hx => ?_
    obtain ⟨simulated, hmem, rfl⟩ := List.mem_map.mp hx
    obtain ⟨p, hp, rfl⟩ := List.mem_map.mp hmem
    have hmark := mark_without_prices hunique hp
    show p.quantity * ((resolveMarksAtOpen _ _ _ p.symbol).getD p.averageEntryPrice - p.averageEntryPrice) = 0
    rw [hmark, Option.getD_some, sub_self, mul_zero]
  refine ⟨hzero, ?_⟩
  show wallet.cash + computeUnrealizedPnl _ _ = wallet.cash
  rw [hzero, add_zero]

theorem AtCost.markedToMarket_iff {row : PortfolioSnapshot} (h : AtCost row) (positions : List PaperPosition)
    (closes : BySymbol Decimal) : MarkedToMarket row positions closes ↔ pnlAtCloses positions closes = 0 := by
  constructor
  · intro hmarked
    rw [← hmarked.1, h.1]
  · intro hzero
    refine ⟨?_, ?_⟩
    · rw [hzero, h.1]
    · rw [hzero, h.2, add_zero]

end Marks

section Runs

theorem openOf_modifyPosition_length {db : Db} {positionId : Id} {f : PaperPosition → PaperPosition}
    (hsymbol : ∀ p, (f p).symbol = p.symbol) (hclosed : ∀ p, isOpen (f p) → isOpen p) (symbol : Symbol) :
    (openOf (modifyPosition positionId f db) symbol).length ≤ (openOf db symbol).length := by
  unfold openOf modifyPosition
  rw [List.filter_map, List.length_map, ← List.countP_eq_length_filter, ← List.countP_eq_length_filter]
  refine List.countP_mono_left fun p _ hp => ?_
  simp only [Function.comp_apply, Bool.and_eq_true, decide_eq_true_eq] at hp ⊢
  by_cases hid : p.positionId = positionId
  · rw [if_pos hid, hsymbol] at hp
    exact ⟨hp.1, hclosed p hp.2⟩
  · rw [if_neg hid] at hp
    exact hp

instance : Recording Booked where
  frame := by
    intro db db' _ _ hpositions hsnapshots _ h
    refine ⟨fun symbol => ?_, ?_⟩
    · rw [openOf, hpositions]
      exact h.openUnique symbol
    · rw [hsnapshots]
      exact h.atCost
  modify := by
    intro db positionId f hsymbol hclosed h
    refine ⟨fun symbol => ?_, h.atCost⟩
    exact (openOf_modifyPosition_length hsymbol hclosed symbol).trans (h.openUnique symbol)
  enter := by
    intro db row hfree h
    refine ⟨fun symbol => ?_, h.atCost⟩
    unfold openOf
    rw [List.filter_append, List.length_append]
    have hbefore := h.openUnique symbol
    by_cases hrow : row.symbol = symbol ∧ isOpen row
    · obtain ⟨rfl, hopen⟩ := hrow
      have hnone : db.positions.filter (fun p => decide (p.symbol = row.symbol) && isOpen p) = [] := hfree hopen
      rw [hnone, List.length_nil, Nat.zero_add]
      exact List.length_filter_le _ [row]
    · have hnew : [row].filter (fun p => decide (p.symbol = symbol) && isOpen p) = [] := by
        simpa using hrow
      rw [hnew]
      exact hbefore
  capture := by
    intro db wallet id time event _ h
    refine ⟨h.openUnique, fun row hrow => ?_⟩
    rcases List.mem_append.mp hrow with hrow | hrow
    · exact h.atCost row hrow
    · rw [List.mem_singleton.mp hrow]
      exact atCost_snapshotRow h.openUnique wallet id time event
  records := fun _ h => ⟨h.openUnique, h.atCost⟩

theorem Booked.same {db db' : Db} (h : Booked db) (hpositions : db'.positions = db.positions)
    (hsnapshots : db'.snapshots = db.snapshots) : Booked db' := by
  refine ⟨fun symbol => ?_, ?_⟩
  · rw [openOf, hpositions]
    exact h.openUnique symbol
  · rw [hsnapshots]
    exact h.atCost

theorem rules (b : MarketEventBridge) (e : MarketEvent) : Rules b e (fun _ => True) Booked where
  toRunRules := .of_same fun _ _ _ h _ => h.same rfl rfl
  pending := fun _ _ => trivial
  found := fun _ _ _ _ _ _ => trivial
  resolve := fun _ _ h _ => h.same rfl rfl
  handler := fun _ _ job _ => keeps_handler job

theorem runPolls_booked {db : Db} (h : Booked db) (polls : List Poll) : Booked (runPolls db polls).2 :=
  runPolls_keeps (fun _ _ turn _ => ⟨_, rules turn.1 turn.2⟩) h

/-- In every run from a database without snapshots, a stored snapshot, and so the one at the evaluation time of
any acknowledged close, agrees with the backtester's at given closes exactly when the positions have neither won
nor lost at them. -/
theorem snapshot_marked_iff {db : Db} (hunique : ∀ symbol, (openOf db symbol).length ≤ 1)
    (hnone : db.snapshots = []) (polls : List Poll) {row : PortfolioSnapshot}
    (hrow : row ∈ (runPolls db polls).2.snapshots) (positions : List PaperPosition) (closes : BySymbol Decimal) :
    MarkedToMarket row positions closes ↔ pnlAtCloses positions closes = 0 := by
  have hstart : Booked db := ⟨hunique, fun row hrow => by simp [hnone] at hrow⟩
  exact ((runPolls_booked hstart polls).atCost row hrow).markedToMarket_iff positions closes

end Runs

section Samples

open EventEffects (morningScheduler morningBuilder startingDb)

def eveningBridge : MarketEventBridge :=
  { scheduler := { morningScheduler with now := fun _ => 19744 * day + 5 * second }
    builder := { morningBuilder with candles := SignalParity.threeWeeks }
    lowDigest := fun _ => 0 }

def closeEvent : MarketEvent :=
  { eventType := .dailyClosed, symbol := .BTC, candleOpenTime := 19743 * day
    providerReceivedAt := 19744 * day + 5 * second }

def heldBtc : PaperPosition :=
  { positionId := 0, symbol := .BTC, status := .open_, quantity := 2, averageEntryPrice := 90, initialStop := 80
    currentStop := 80, highestCloseSinceEntry := 100, entryAtr14 := 10, marginReserved := 90, entryIntentId := 0
    openedAt := 19740 * day }

def eveningDb : Db := { startingDb with positions := [heldBtc], nextId := 1 }

def evening : List Poll := [⟨[(eveningBridge, closeEvent)], [], true⟩]

def latestCloses (b : MarketEventBridge) : BySymbol Decimal := fun symbol => (b.latestDaily symbol).map (·.close)

theorem eveningDb_openUnique (symbol : Symbol) : (openOf eveningDb symbol).length ≤ 1 :=
  List.length_filter_le _ [heldBtc]

theorem evening_snapshots_marked_iff : ∃ row ∈ (runPolls eveningDb evening).2.snapshots,
    MarkedToMarket row [heldBtc] (latestCloses eveningBridge) ↔
      pnlAtCloses [heldBtc] (latestCloses eveningBridge) = 0 := by
  have hstored : (runPolls eveningDb evening).2.snapshots ≠ [] := by decide +kernel
  obtain ⟨row, hrow⟩ := List.exists_mem_of_ne_nil _ hstored
  exact ⟨row, hrow, snapshot_marked_iff eveningDb_openUnique rfl evening hrow _ _⟩

/-- The close of BTC is acknowledged, and the snapshot at its evaluation time leaves out the gain of 20. -/
theorem held_btc_not_marked : ¬ ∀ (db : Db) (polls : List Poll), (∀ symbol, (openOf db symbol).length ≤ 1) →
    db.snapshots = [] → ∀ turn ∈ polls.flatMap (·.turns), turn.2 ∈ (runPolls db polls).1 →
    turn.2.eventType = .dailyClosed → ∀ row ∈ (runPolls db polls).2.snapshots, row.event = "scheduled_snapshot" →
    (turn.1.latestDaily turn.2.symbol).any (fun candle => candle.openTime = turn.2.candleOpenTime ∧
      row.evaluationTime = turn.1.scheduler.evaluationTimeFor candle.closeTime) →
    MarkedToMarket row ((runPolls db polls).2.positions.filter isOpen) (latestCloses turn.1) := by
  intro h
  have hacked : closeEvent ∈ (runPolls eveningDb evening).1 := by decide +kernel
  have hstored : (runPolls eveningDb evening).2.snapshots.any fun row => row.event = "scheduled_snapshot" ∧
      (eveningBridge.latestDaily .BTC).any fun candle => candle.openTime = closeEvent.candleOpenTime ∧
        row.evaluationTime = eveningBridge.scheduler.evaluationTimeFor candle.closeTime := by
    decide +kernel
  have hpnl : pnlAtCloses ((runPolls eveningDb evening).2.positions.filter isOpen) (latestCloses eveningBridge) ≠ 0 := by
    decide +kernel
  obtain ⟨row, hrow, hfor⟩ := List.any_eq_true.mp hstored
  obtain ⟨hevent, htime⟩ := of_decide_eq_true hfor
  have hmarked := h eveningDb evening eveningDb_openUnique rfl (eveningBridge, closeEvent) (by simp [evening])
    hacked rfl row hrow hevent htime
  have hbooked : Booked eveningDb := ⟨eveningDb_openUnique, fun row hrow => by cases hrow⟩
  have hatCost := (runPolls_booked hbooked evening).atCost row hrow
  exact hpnl ((hatCost.markedToMarket_iff _ _).mp hmarked)

end Samples

end TradingBot.Paper.SnapshotMarks
