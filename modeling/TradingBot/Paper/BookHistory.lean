import TradingBot.Paper.FillInvariants

namespace TradingBot.Paper.BookHistory

open Market.Models Backtester.Lifecycle Paper.Models Paper.Repository Paper.PositionTable
open Paper.Effects Paper.TradeBook Paper.Account Paper.FillInvariants

section Growth

def opening (p : PaperPosition) :=
  (p.positionId, p.symbol, p.quantity, p.averageEntryPrice, p.initialStop, p.entryAtr14, p.entryIntentId, p.openedAt)

/-- A row and the row of the same position later on. -/
structure Ages (p q : PaperPosition) : Prop where
  opening : opening q = opening p
  stop : p.currentStop ≤ q.currentStop
  highest : p.highestCloseSinceEntry ≤ q.highestCloseSinceEntry
  version : p.version ≤ q.version
  closed : p.status = .closed → q = p

/-- The tables and the tables later on: orders, fills and stop events are appended, a filled intent and a closed
position stay as they are. -/
structure Grows (db₀ db : Db) : Prop where
  orders : db₀.orders <+: db.orders
  fills : db₀.fills <+: db.fills
  stopHistory : db₀.stopHistory <+: db.stopHistory
  filled : ∀ i ∈ db₀.intents, i.status = .filled → i ∈ db.intents
  positions : ∀ p ∈ db₀.positions, ∃ q ∈ db.positions, Ages p q

theorem Ages.refl (p : PaperPosition) : Ages p p := ⟨rfl, le_rfl, le_rfl, le_rfl, fun _ => rfl⟩

theorem Ages.trans {p q r : PaperPosition} (h : Ages p q) (h' : Ages q r) : Ages p r where
  opening := h'.opening.trans h.opening
  stop := h.stop.trans h'.stop
  highest := h.highest.trans h'.highest
  version := h.version.trans h'.version
  closed := by
    intro hp
    obtain rfl := h.closed hp
    exact h'.closed hp

theorem Grows.refl (db : Db) : Grows db db :=
  ⟨List.prefix_rfl, List.prefix_rfl, List.prefix_rfl, fun _ hi _ => hi, fun p hp => ⟨p, hp, Ages.refl p⟩⟩

end Growth

section Commits

variable {w₀ : PaperWalletState} {db₀ db : Db}

theorem filled_modifyIntent {intentId : Id} (hs : Ledger w₀ db) (h : Grows db₀ db) (hnone : Unordered intentId db)
    (u : IntentUpdate) : ∀ i ∈ db₀.intents, i.status = .filled → i ∈ (modifyIntent intentId u db).intents := by
  intro i hi hfilled
  have hkept := h.filled i hi hfilled
  obtain ⟨trades, hbook⟩ := hs
  have hne : i.intentId ≠ intentId := by
    rintro rfl
    refine (filled_iff hbook hkept).mp hfilled (List.filter_eq_nil_iff.mpr fun t ht => ?_)
    simpa using no_trade_of_unordered hbook hnone t ht
  exact mem_modifyIntent.mpr ⟨i, hkept, if_neg hne⟩

theorem ages_modifyPosition {symbol : Symbol} {position : PaperPosition} {f : PaperPosition → PaperPosition}
    (hs : Ledger w₀ db) (h : Grows db₀ db) (hp : position ∈ openOf db symbol)
    (hf : opening (f position) = opening position) (hstop : position.currentStop ≤ (f position).currentStop)
    (hhighest : position.highestCloseSinceEntry ≤ (f position).highestCloseSinceEntry)
    (hversion : position.version ≤ (f position).version) :
    ∀ p ∈ db₀.positions, ∃ q ∈ (modifyPosition position.positionId f db).positions, Ages p q := by
  intro p hmem
  obtain ⟨q, hq, hages⟩ := h.positions p hmem
  refine ⟨_, List.mem_map_of_mem hq, ?_⟩
  split_ifs with hid
  · obtain ⟨hrow, _, hopen⟩ := mem_openOf.mp hp
    obtain rfl := eq_of_positionId_eq hs.keys hq hrow hid
    refine hages.trans ⟨hf, hstop, hhighest, hversion, fun hclosed => ?_⟩
    simp [isOpen, hclosed] at hopen
  · exact hages

def GrownBook (w₀ : PaperWalletState) (db₀ db : Db) : Prop := Ledger w₀ db ∧ Grows db₀ db

instance accounted_grownBook (w₀ : PaperWalletState) (db₀ : Db) : Accounted (GrownBook w₀ db₀) where
  ledger := fun h => ⟨w₀, h.1⟩
  frame := by
    intro db db' horders hpositions hfills hwallet hintents hfunding hstops hid h
    refine ⟨h.1.frame horders hpositions hfills hwallet hintents hfunding hid, ?_⟩
    obtain ⟨ho, hf, hh, hi, hp⟩ := h.2
    exact ⟨horders ▸ ho, hfills ▸ hf, hstops ▸ hh, hintents ▸ hi, hpositions ▸ hp⟩
  schedule := by
    intro db row hid hstatus h
    refine ⟨Accounted.schedule hid hstatus h.1, { h.2 with filled := fun i hi hfilled => ?_ }⟩
    exact List.mem_append_left _ (h.2.filled i hi hfilled)
  mark := fun hu hnone h =>
    ⟨Accounted.mark hu hnone h.1, { h.2 with filled := filled_modifyIntent h.1 h.2 hnone _ }⟩
  fill := by
    intro db db' intent ctx hsource hnone heffect h
    refine ⟨Accounted.fill hsource hnone heffect h.1, ?_⟩
    have hfilled := filled_modifyIntent h.1 h.2 hnone
    cases heffect with
    | rejected reason => exact { h.2 with filled := hfilled _ }
    | entered entry _ _ _ _ =>
      refine ⟨h.2.orders.trans (List.prefix_append _ _), h.2.fills.trans (List.prefix_append _ _),
        h.2.stopHistory, hfilled _, fun p hp => ?_⟩
      obtain ⟨q, hq, hages⟩ := h.2.positions p hp
      exact ⟨q, List.mem_append_left _ hq, hages⟩
  exit := by
    intro db symbol position trigger bps feeRate time hp h
    refine ⟨Accounted.exit trigger bps feeRate time hp h.1, h.2.orders, h.2.fills.trans (List.prefix_append _ _),
      h.2.stopHistory, h.2.filled, ?_⟩
    exact ages_modifyPosition h.1 h.2 hp rfl le_rfl le_rfl (Nat.le_succ _)
  raise := by
    intro db symbol position updated atr time hp hraised hhighest h
    refine ⟨Accounted.raise atr time hp hraised hhighest h.1, h.2.orders, h.2.fills,
      h.2.stopHistory.trans (List.prefix_append _ _), h.2.filled, ?_⟩
    exact ages_modifyPosition h.1 h.2 hp rfl hraised.le hhighest (Nat.le_succ _)

end Commits

theorem books_only_grow (config : PaperTradingConfig) (risk : RiskEngine IntentKey) (w₀ : PaperWalletState) (base : Db)
    (history later : List CallAttempt) (hschedule : OnSchedule config risk (emptyAccount w₀ base) (history ++ later)) :
    Grows (calledAccount config risk w₀ base history) (calledAccount config risk w₀ base (history ++ later)) := by
  obtain ⟨hhistory, hcontinued⟩ := onSchedule_append hschedule
  have hbook : GrownBook w₀ (calledAccount config risk w₀ base history) (calledAccount config risk w₀ base history) :=
    ⟨calledAccount_ledger hhistory, Grows.refl _⟩
  have hlater : GrownBook w₀ (calledAccount config risk w₀ base history)
      (later.foldl (CallAttempt.apply config risk) (calledAccount config risk w₀ base history)) :=
    calls_keep hbook later hcontinued
  rw [calledAccount, calledAccount, List.foldl_append]
  exact hlater.2

/-- The books of an entry and its stop, and those after a direct fill for the candle of the entry. -/
theorem books_only_grow_refilled :
    (calledAccount .defaults approveOne { cash := 1000 } readyBase ((refilled day).take 3)).fills.length = 2 ∧
      Grows (calledAccount .defaults approveOne { cash := 1000 } readyBase ((refilled day).take 3))
        (calledAccount .defaults approveOne { cash := 1000 } readyBase ((refilled day).take 3 ++ (refilled day).drop 3)) :=
  ⟨by decide +kernel, books_only_grow _ _ _ _ _ _ ⟨trivial, trivial, trivial, by decide +kernel, trivial⟩⟩

end TradingBot.Paper.BookHistory
