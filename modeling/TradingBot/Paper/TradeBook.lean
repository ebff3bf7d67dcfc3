import TradingBot.Paper.Effects

namespace TradingBot.Paper.TradeBook

open Market.Models Backtester.Lifecycle Library.Transaction Paper.Models Paper.Repository
open Paper.Stops Paper.PositionTable Paper.Execution Paper.Effects

section Settlement

/-- The entry price a fill's profit is counted from. -/
def entryPriceOf (positions : List PaperPosition) (positionId : Id) : Option Decimal :=
  (positions.find? (·.positionId = positionId)).map (·.averageEntryPrice)

def settlement (positions : List PaperPosition) (f : PaperFill) : WalletDelta :=
  match f.fillKind with
  | .entry => { cash := -f.fee, fees := f.fee, slippage := f.slippage }
  | .exit =>
    match f.positionId.bind (entryPriceOf positions) with
    | none => { fees := f.fee, slippage := f.slippage }
    | some price =>
      let net := (f.fillPrice - price) * f.quantity - f.fee
      { cash := net, realizedPnl := net, fees := f.fee, slippage := f.slippage }

def settle (positions : List PaperPosition) (w : PaperWalletState) (f : PaperFill) :
    PaperWalletState :=
  (settlement positions f).apply w

theorem entryPriceOf_modify {positions : List PaperPosition} {positionId : Id}
    (f : PaperPosition → PaperPosition) (hid : ∀ p, (f p).positionId = p.positionId)
    (hprice : ∀ p, (f p).averageEntryPrice = p.averageEntryPrice) :
    entryPriceOf (positions.map fun p => if p.positionId = positionId then f p else p) =
      entryPriceOf positions := by
  funext wanted
  simp only [entryPriceOf, List.find?_map, Option.map_map]
  have hkey : ((fun p : PaperPosition => decide (p.positionId = wanted)) ∘
      fun p => if p.positionId = positionId then f p else p) =
      fun p => decide (p.positionId = wanted) := by
    funext p
    by_cases h : p.positionId = positionId <;> simp [h, hid]
  rw [hkey]
  congr 1
  funext p
  by_cases h : p.positionId = positionId <;> simp [h, hprice]

theorem settle_congr {positions positions' : List PaperPosition} {fills : List PaperFill}
    {w : PaperWalletState}
    (h : ∀ f ∈ fills, f.fillKind = .exit →
      f.positionId.bind (entryPriceOf positions) = f.positionId.bind (entryPriceOf positions')) :
    fills.foldl (settle positions) w = fills.foldl (settle positions') w := by
  refine List.foldl_ext _ _ _ fun w f hf => ?_
  unfold settle settlement
  cases hkind : f.fillKind with
  | entry => rfl
  | exit => simp only [h f hf hkind]

theorem settle_modify {positions : List PaperPosition} {positionId : Id}
    (f : PaperPosition → PaperPosition) (hid : ∀ p, (f p).positionId = p.positionId)
    (hprice : ∀ p, (f p).averageEntryPrice = p.averageEntryPrice) (fills : List PaperFill)
    (w : PaperWalletState) :
    fills.foldl (settle (positions.map fun p => if p.positionId = positionId then f p else p)) w =
      fills.foldl (settle positions) w :=
  settle_congr fun _ _ _ => by rw [entryPriceOf_modify f hid hprice]

end Settlement

section Trades

structure ExitOf (p : PaperPosition) (f : PaperFill) : Prop where
  kind : f.fillKind = .exit
  position : f.positionId = some p.positionId
  order : f.paperOrderId = none
  key : ∃ seconds, f.deterministicFillKey = .exit p.positionId seconds
  realized : p.realizedPnl = (f.fillPrice - p.averageEntryPrice) * f.quantity - f.fee

structure Trade where
  order : PaperOrder
  entry : PaperFill
  position : PaperPosition
  exit : Option PaperFill
  entry_kind : entry.fillKind = .entry
  entry_order : entry.paperOrderId = some order.paperOrderId
  entry_key : entry.deterministicFillKey =
    .entry order.paperOrderId (wholeSeconds order.expectedFillTime) 0
  intent_eq : position.entryIntentId = order.intentId
  quantity_pos : 0 < position.quantity
  running : exit = none → position.status = .open_ ∧ 0 < position.marginReserved
  ended : ∀ f ∈ exit, position.status = .closed ∧ position.marginReserved = 0 ∧ ExitOf position f

def Trade.fills (t : Trade) : List PaperFill := t.entry :: t.exit.toList

theorem Trade.exit_eq_none_iff (t : Trade) : t.exit = none ↔ isOpen t.position := by
  cases h : t.exit with
  | none => simp [isOpen, (t.running h).1]
  | some f => simp [isOpen, (t.ended f (by simp [h])).1]

theorem Trade.closed_iff (t : Trade) : t.position.status = .closed ↔ t.exit.isSome := by
  cases h : t.exit with
  | none => simp [(t.running h).1]
  | some f => simp [(t.ended f (by simp [h])).1]

/-- The tables hold exactly these trades, and the wallet has settled every fill once. -/
structure Represents (w₀ : PaperWalletState) (db : Db) (trades : List Trade) : Prop where
  orders : db.orders = trades.map (·.order)
  positions : db.positions = trades.map (·.position)
  fills : db.fills.Perm (trades.flatMap Trade.fills)
  wallet : db.wallet = some (db.fills.foldl (settle db.positions) w₀)
  keys : PositionKeys db
  intentIds : (db.intents.map (·.intentId)).Nodup
  tradeIntents : (trades.map (·.order.intentId)).Nodup
  orderIds : (trades.map (·.order.paperOrderId)).Nodup
  freshIntents : ∀ i ∈ db.intents, i.intentId < db.nextId
  freshTrades : ∀ t ∈ trades, t.order.paperOrderId < db.nextId ∧ t.position.positionId < db.nextId
  sources : ∀ t ∈ trades, ∃ i ∈ db.intents, i.intentId = t.order.intentId ∧
    i.scheduledFillTime = t.order.expectedFillTime
  filled : ∀ i ∈ db.intents, i.status = .filled ↔ ∃ t ∈ trades, t.order.intentId = i.intentId
  unfunded : db.fundingEvents = []

def Ledger (w₀ : PaperWalletState) (db : Db) : Prop := ∃ trades, Represents w₀ db trades

end Trades

section Lookups

variable {w₀ : PaperWalletState} {db : Db} {trades : List Trade}

theorem Ledger.keys (h : Ledger w₀ db) : PositionKeys db := h.choose_spec.keys

theorem Represents.mem_fills (h : Represents w₀ db trades) {f : PaperFill} :
    f ∈ db.fills ↔ ∃ t ∈ trades, f = t.entry ∨ t.exit = some f := by
  rw [h.fills.mem_iff, List.mem_flatMap]
  simp [Trade.fills]

theorem Represents.exit_position (h : Represents w₀ db trades) {f : PaperFill} (hf : f ∈ db.fills)
    (hkind : f.fillKind = .exit) :
    ∃ t ∈ trades, t.exit = some f ∧ f.positionId.bind (entryPriceOf db.positions) =
      some t.position.averageEntryPrice := by
  obtain ⟨t, ht, rfl | hexit⟩ := h.mem_fills.mp hf
  · rw [t.entry_kind] at hkind
    cases hkind
  · have hof := (t.ended f (by simp [hexit])).2.2
    have hp : t.position ∈ db.positions := by
      rw [h.positions]
      exact List.mem_map_of_mem ht
    refine ⟨t, ht, hexit, ?_⟩
    rw [hof.position, Option.bind_some, entryPriceOf, find?_positionId h.keys hp]
    rfl

theorem Represents.intent_ext (h : Represents w₀ db trades) {i j : TradeIntent} (hi : i ∈ db.intents)
    (hj : j ∈ db.intents) (hid : i.intentId = j.intentId) : i = j :=
  List.inj_on_of_nodup_map h.intentIds hi hj hid

end Lookups

section Steps

variable {w₀ : PaperWalletState} {db db' : Db} {trades : List Trade}

theorem Represents.frame (h : Represents w₀ db trades) (horders : db'.orders = db.orders)
    (hpositions : db'.positions = db.positions) (hfills : db'.fills = db.fills)
    (hwallet : db'.wallet = db.wallet) (hintents : db'.intents = db.intents)
    (hfunding : db'.fundingEvents = db.fundingEvents) (hid : db.nextId ≤ db'.nextId) :
    Represents w₀ db' trades where
  orders := horders ▸ h.orders
  positions := hpositions ▸ h.positions
  fills := hfills ▸ h.fills
  wallet := by rw [hwallet, hfills, hpositions, h.wallet]
  keys := ⟨hpositions ▸ h.keys.ids, fun symbol => by
    unfold openOf
    rw [hpositions]
    exact h.keys.openUnique symbol⟩
  intentIds := hintents ▸ h.intentIds
  tradeIntents := h.tradeIntents
  orderIds := h.orderIds
  freshIntents := fun i hi => (h.freshIntents i (hintents ▸ hi)).trans_le hid
  freshTrades := fun t ht =>
    ⟨(h.freshTrades t ht).1.trans_le hid, (h.freshTrades t ht).2.trans_le hid⟩
  sources := hintents ▸ h.sources
  filled := hintents ▸ h.filled
  unfunded := hfunding.trans h.unfunded

theorem Ledger.frame (h : Ledger w₀ db) (horders : db'.orders = db.orders)
    (hpositions : db'.positions = db.positions) (hfills : db'.fills = db.fills)
    (hwallet : db'.wallet = db.wallet) (hintents : db'.intents = db.intents)
    (hfunding : db'.fundingEvents = db.fundingEvents) (hid : db.nextId ≤ db'.nextId) :
    Ledger w₀ db' := by
  obtain ⟨trades, hbook⟩ := h
  exact ⟨trades, hbook.frame horders hpositions hfills hwallet hintents hfunding hid⟩

theorem modifyIntent_ids (intentId : Id) (u : IntentUpdate) (db : Db) :
    (modifyIntent intentId u db).intents.map (·.intentId) = db.intents.map (·.intentId) := by
  simp only [modifyIntent, List.map_map]
  refine List.map_congr_left fun i _ => ?_
  by_cases h : i.intentId = intentId <;> simp [h, IntentUpdate.apply]

theorem mem_modifyIntent {intentId : Id} {u : IntentUpdate} {i : TradeIntent} :
    i ∈ (modifyIntent intentId u db).intents ↔ ∃ j ∈ db.intents,
      (if j.intentId = intentId then u.apply j else j) = i := by
  simp [modifyIntent]

theorem Represents.modifyIntent (h : Represents w₀ db trades) {intentId : Id} {u : IntentUpdate}
    (hu : u.status ≠ .filled) (hnone : ∀ t ∈ trades, t.order.intentId ≠ intentId) :
    Represents w₀ (modifyIntent intentId u db) trades where
  orders := h.orders
  positions := h.positions
  fills := h.fills
  wallet := h.wallet
  keys := ⟨h.keys.ids, h.keys.openUnique⟩
  intentIds := by
    rw [modifyIntent_ids]
    exact h.intentIds
  tradeIntents := h.tradeIntents
  orderIds := h.orderIds
  freshIntents := by
    intro i hi
    obtain ⟨j, hj, rfl⟩ := mem_modifyIntent.mp hi
    have hlt := h.freshIntents j hj
    by_cases hid : j.intentId = intentId
    · rw [if_pos hid]
      exact hlt
    · rw [if_neg hid]
      exact hlt
  freshTrades := h.freshTrades
  sources := by
    intro t ht
    obtain ⟨i, hi, hid, htime⟩ := h.sources t ht
    refine ⟨i, mem_modifyIntent.mpr ⟨i, hi, if_neg ?_⟩, hid, htime⟩
    rw [hid]
    exact hnone t ht
  filled := by
    intro i hi
    obtain ⟨j, hj, rfl⟩ := mem_modifyIntent.mp hi
    by_cases hid : j.intentId = intentId
    · simp only [hid, ↓reduceIte, IntentUpdate.apply, hu, false_iff, not_exists, not_and]
      exact hnone
    · simp only [hid, ↓reduceIte]
      exact h.filled j hj
  unfunded := h.unfunded

theorem Represents.insertIntent (h : Represents w₀ db trades) {row : TradeIntent}
    (hid : row.intentId = db.nextId) (hstatus : row.status ≠ .filled) :
    Represents w₀ { db with intents := db.intents ++ [row], nextId := db.nextId + 1 } trades where
  orders := h.orders
  positions := h.positions
  fills := h.fills
  wallet := h.wallet
  keys := ⟨h.keys.ids, h.keys.openUnique⟩
  intentIds := by
    rw [List.map_append, List.map_singleton]
    refine List.Nodup.append h.intentIds (List.nodup_singleton _) ?_
    simp only [List.disjoint_singleton, List.mem_map, not_exists, not_and, hid]
    exact fun i hi => (h.freshIntents i hi).ne
  tradeIntents := h.tradeIntents
  orderIds := h.orderIds
  freshIntents := by
    intro i hi
    rcases List.mem_append.mp hi with hi | hi
    · exact (h.freshIntents i hi).trans (Nat.lt_succ_self _)
    · rw [List.mem_singleton.mp hi, hid]
      exact Nat.lt_succ_self _
  freshTrades := fun t ht =>
    ⟨(h.freshTrades t ht).1.trans (Nat.lt_succ_self _),
      (h.freshTrades t ht).2.trans (Nat.lt_succ_self _)⟩
  sources := by
    intro t ht
    obtain ⟨i, hi, hsource⟩ := h.sources t ht
    exact ⟨i, List.mem_append_left _ hi, hsource⟩
  filled := by
    intro i hi
    rcases List.mem_append.mp hi with hi | hi
    · exact h.filled i hi
    · rw [List.mem_singleton.mp hi]
      simp only [hstatus, false_iff, not_exists, not_and, hid]
      intro t ht heq
      obtain ⟨j, hj, hjid, _⟩ := h.sources t ht
      exact (h.freshIntents j hj).ne (hjid.trans heq)
  unfunded := h.unfunded

end Steps

section Entry

variable {w₀ : PaperWalletState} {db : Db} {trades : List Trade} {intent : TradeIntent}
  {entry : EntryExecutionApproved} {openRef atr14 : Decimal}

def enteredTrade (n : Id) (intent : TradeIntent) (entry : EntryExecutionApproved)
    (openRef atr14 : Decimal) (candleOpenTime : Time) (hqty : 0 < entry.quantity)
    (hmargin : 0 < entry.accounting.marginReserved) : Trade where
  order := entryOrder n intent entry candleOpenTime
  entry := entryFill (n + 1) n intent entry openRef candleOpenTime
  position := entryPosition (n + 2) intent entry atr14 candleOpenTime
  exit := none
  entry_kind := rfl
  entry_order := rfl
  entry_key := rfl
  intent_eq := rfl
  quantity_pos := hqty
  running := fun _ => ⟨rfl, hmargin⟩
  ended := by simp

theorem Represents.entryFill_absent (h : Represents w₀ db trades) (candleOpenTime : Time) :
    FillAbsent db (entryFill (db.nextId + 1) db.nextId intent entry openRef candleOpenTime) := by
  intro f hf
  obtain ⟨t, ht, rfl | hexit⟩ := h.mem_fills.mp hf
  · have hne : t.order.paperOrderId ≠ db.nextId := (h.freshTrades t ht).1.ne
    simp [sameOrderCandle, sameExitCandle, entryFill, t.entry_order, t.entry_key, hne]
  · have hof := (t.ended f (by simp [hexit])).2.2
    obtain ⟨seconds, hkey⟩ := hof.key
    simp [sameOrderCandle, sameExitCandle, entryFill, hof.order, hkey]

theorem openOf_append (db : Db) (row : PaperPosition) (symbol : Symbol) :
    openOf { db with positions := db.positions ++ [row] } symbol =
      openOf db symbol ++ if row.symbol = symbol ∧ isOpen row then [row] else [] := by
  simp only [openOf, List.filter_append]
  by_cases hsym : row.symbol = symbol <;> by_cases hrow : isOpen row <;> simp [hsym, hrow]

theorem Represents.enter {candleOpenTime : Time} (h : Represents w₀ db trades)
    (hsource : ∃ i ∈ db.intents, i.intentId = intent.intentId ∧ i.scheduledFillTime = candleOpenTime)
    (hnone : ∀ t ∈ trades, t.order.intentId ≠ intent.intentId)
    (hfree : openOf db intent.symbol = []) (hqty : 0 < entry.quantity)
    (hmargin : 0 < entry.accounting.marginReserved) :
    Represents w₀ (entered intent entry openRef candleOpenTime atr14 db)
      (trades ++ [enteredTrade db.nextId intent entry openRef atr14 candleOpenTime hqty hmargin]) where
  orders := by
    rw [List.map_append, ← h.orders]
    rfl
  positions := by
    rw [List.map_append, ← h.positions]
    rfl
  fills := by
    rw [List.flatMap_append]
    exact h.fills.append_right _
  wallet := by
    have hold : db.fills.foldl
        (settle (db.positions ++ [entryPosition (db.nextId + 2) intent entry atr14 candleOpenTime])) w₀ =
          db.fills.foldl (settle db.positions) w₀ := by
      refine settle_congr fun f hf hkind => ?_
      obtain ⟨t, ht, hexit, hprice⟩ := h.exit_position hf hkind
      rw [hprice]
      rw [(t.ended f (by simp [hexit])).2.2.position, Option.bind_some] at hprice ⊢
      unfold entryPriceOf at hprice ⊢
      rw [List.find?_append, Option.map_or, hprice]
      rfl
    simp only [entered, h.wallet, List.foldl_append, List.foldl_cons, List.foldl_nil, hold]
    rfl
  keys := by
    refine ⟨?_, fun symbol => ?_⟩
    · simp only [entered, List.map_append, List.map_singleton]
      refine List.Nodup.append h.keys.ids (List.nodup_singleton _) ?_
      simp only [List.disjoint_singleton, h.positions, List.map_map, List.mem_map, not_exists,
        not_and]
      exact fun t ht => ((h.freshTrades t ht).2.trans (Nat.lt_add_of_pos_right two_pos)).ne
    · have happend := openOf_append db (entryPosition (db.nextId + 2) intent entry atr14
        candleOpenTime) symbol
      have hopen : openOf (entered intent entry openRef candleOpenTime atr14 db) symbol =
        openOf { db with positions := db.positions ++ [entryPosition (db.nextId + 2) intent entry
          atr14 candleOpenTime] } symbol := rfl
      rw [hopen, happend]
      by_cases hsym : intent.symbol = symbol
      · subst hsym
        simp [hfree, entryPosition]
        split_ifs <;> simp
      · have := h.keys.openUnique symbol
        simpa [entryPosition, hsym] using this
  intentIds := by
    have := modifyIntent_ids intent.intentId
      { status := .filled, approvedQuantity := some entry.quantity } db
    exact this ▸ h.intentIds
  tradeIntents := by
    rw [List.map_append, List.map_singleton]
    refine List.Nodup.append h.tradeIntents (List.nodup_singleton _) ?_
    simpa [enteredTrade, entryOrder] using hnone
  orderIds := by
    rw [List.map_append, List.map_singleton]
    refine List.Nodup.append h.orderIds (List.nodup_singleton _) ?_
    simp only [List.disjoint_singleton, List.mem_map, not_exists, not_and]
    exact fun t ht => (h.freshTrades t ht).1.ne
  freshIntents := by
    intro i hi
    obtain ⟨j, hj, rfl⟩ := List.mem_map.mp hi
    have hlt : j.intentId < db.nextId + 3 := (h.freshIntents j hj).trans_le (Nat.le_add_right _ 3)
    by_cases hid : j.intentId = intent.intentId
    · rw [if_pos hid]
      exact hlt
    · rw [if_neg hid]
      exact hlt
  freshTrades := by
    intro t ht
    rcases List.mem_append.mp ht with ht | ht
    · have hle : db.nextId ≤ db.nextId + 3 := Nat.le_add_right _ 3
      exact ⟨(h.freshTrades t ht).1.trans_le hle, (h.freshTrades t ht).2.trans_le hle⟩
    · rw [List.mem_singleton.mp ht]
      simp [entered, enteredTrade, entryOrder, entryPosition]
  sources := by
    intro t ht
    rcases List.mem_append.mp ht with ht | ht
    · obtain ⟨i, hi, hid, htime⟩ := h.sources t ht
      refine ⟨i, List.mem_map.mpr ⟨i, hi, if_neg ?_⟩, hid, htime⟩
      rw [hid]
      exact hnone t ht
    · rw [List.mem_singleton.mp ht]
      obtain ⟨i, hi, hid, htime⟩ := hsource
      exact ⟨_, List.mem_map.mpr ⟨i, hi, if_pos hid⟩, hid, htime⟩
  filled := by
    intro i hi
    obtain ⟨j, hj, rfl⟩ := List.mem_map.mp hi
    by_cases hid : j.intentId = intent.intentId
    · simp only [hid, ↓reduceIte, IntentUpdate.apply, true_iff]
      exact ⟨_, List.mem_append_right _ (List.mem_singleton_self _), rfl⟩
    · rw [if_neg hid, h.filled j hj]
      simp only [List.mem_append, List.mem_singleton, or_and_right, exists_or, exists_eq_left]
      refine ⟨.inl, fun hcases => hcases.resolve_right fun heq => hid heq.symm⟩
  unfunded := h.unfunded

end Entry

section Rework

variable {w₀ : PaperWalletState} {db db' : Db} {trades trades' : List Trade}

theorem Represents.rework (h : Represents w₀ db trades)
    (hsame : trades'.map (·.order) = trades.map (·.order))
    (hids : trades'.map (·.position.positionId) = trades.map (·.position.positionId))
    (horders : db'.orders = db.orders) (hintents : db'.intents = db.intents)
    (hfunding : db'.fundingEvents = db.fundingEvents) (hnext : db.nextId ≤ db'.nextId)
    (hpositions : db'.positions = trades'.map (·.position)) (hfills : db'.fills.Perm (trades'.flatMap Trade.fills))
    (hwallet : db'.wallet = some (db'.fills.foldl (settle db'.positions) w₀))
    (hopen : ∀ symbol, (openOf db' symbol).length ≤ 1) : Represents w₀ db' trades' := by
  have horderMap : ∀ g : PaperOrder → Id,
      trades'.map (fun t => g t.order) = trades.map (fun t => g t.order) := by
    intro g
    simpa [Function.comp_def] using congrArg (List.map g) hsame
  have hback : ∀ t' ∈ trades', ∃ t ∈ trades, t.order = t'.order := by
    intro t' ht'
    have hmem : t'.order ∈ trades.map (·.order) := hsame ▸ List.mem_map_of_mem ht'
    simpa using hmem
  have hforth : ∀ t ∈ trades, ∃ t' ∈ trades', t'.order = t.order := by
    intro t ht
    have hmem : t.order ∈ trades'.map (·.order) := hsame ▸ List.mem_map_of_mem ht
    simpa using hmem
  have hposition : ∀ t' ∈ trades', t'.position.positionId < db.nextId := by
    intro t' ht'
    have hmem : t'.position.positionId ∈ trades.map (·.position.positionId) :=
      hids ▸ List.mem_map_of_mem ht'
    obtain ⟨t, ht, heq⟩ := List.mem_map.mp hmem
    exact heq ▸ (h.freshTrades t ht).2
  refine ⟨?_, hpositions, hfills, hwallet, ⟨?_, hopen⟩, ?_, ?_, ?_, ?_, ?_, ?_, ?_,
    hfunding.trans h.unfunded⟩
  · rw [horders, h.orders, hsame]
  · have := h.keys.ids
    rw [h.positions, List.map_map] at this
    rw [hpositions, List.map_map]
    exact hids ▸ this
  · rw [hintents]
    exact h.intentIds
  · rw [horderMap PaperOrder.intentId]
    exact h.tradeIntents
  · rw [horderMap PaperOrder.paperOrderId]
    exact h.orderIds
  · intro i hi
    exact (h.freshIntents i (hintents ▸ hi)).trans_le hnext
  · intro t' ht'
    obtain ⟨t, ht, heq⟩ := hback t' ht'
    exact ⟨heq ▸ (h.freshTrades t ht).1.trans_le hnext, (hposition t' ht').trans_le hnext⟩
  · intro t' ht'
    obtain ⟨t, ht, heq⟩ := hback t' ht'
    rw [hintents, ← heq]
    exact h.sources t ht
  · intro i hi
    rw [h.filled i (hintents ▸ hi)]
    constructor
    · rintro ⟨t, ht, hid⟩
      obtain ⟨t', ht', heq⟩ := hforth t ht
      exact ⟨t', ht', heq ▸ hid⟩
    · rintro ⟨t', ht', hid⟩
      obtain ⟨t, ht, heq⟩ := hback t' ht'
      exact ⟨t, ht, heq ▸ hid⟩

theorem Represents.positions_replace {l₁ l₂ : List Trade} {t t' : Trade}
    {f : PaperPosition → PaperPosition} (h : Represents w₀ db (l₁ ++ t :: l₂))
    (hf : f t.position = t'.position) :
    (modifyPosition t.position.positionId f db).positions =
      (l₁ ++ t' :: l₂).map (·.position) := by
  have hids := h.keys.ids
  rw [h.positions, List.map_map, List.map_append, List.map_cons, List.nodup_middle,
    List.nodup_cons, ← List.map_append] at hids
  have hother : ∀ u ∈ l₁ ++ l₂, u.position.positionId ≠ t.position.positionId := by
    exact fun u hu heq => hids.1 (List.mem_map.mpr ⟨u, hu, heq⟩)
  have hkeep : ∀ l : List Trade, (∀ u ∈ l, u ∈ l₁ ++ l₂) → (l.map (·.position)).map
      (fun p => if p.positionId = t.position.positionId then f p else p) = l.map (·.position) := by
    intro l hl
    rw [List.map_map]
    exact List.map_congr_left fun u hu => if_neg (hother u (hl u hu))
  simp only [modifyPosition, h.positions, List.map_append, List.map_cons, ↓reduceIte, hf]
  rw [hkeep l₁ fun u hu => List.mem_append_left _ hu, hkeep l₂ fun u hu => List.mem_append_right _ hu]

theorem flatMap_fills_replace (l₁ l₂ : List Trade) {t t' : Trade} {extra : List PaperFill}
    (h : t'.fills = t.fills ++ extra) :
    ((l₁ ++ t :: l₂).flatMap Trade.fills ++ extra).Perm ((l₁ ++ t' :: l₂).flatMap Trade.fills) := by
  simp only [List.flatMap_append, List.flatMap_cons, h, List.append_assoc]
  exact (List.perm_append_comm.append_left _).append_left _

end Rework

section Exit

variable {w₀ : PaperWalletState} {db : Db} {trades : List Trade} {t : Trade}

def Trade.close (t : Trade) (n : Id) (trigger : StopTriggerResult)
    (bps feeRate : Decimal) (processTime : Time) : Trade :=
  let exit := computeExitAccounting trigger.exitReference t.position.quantity
    t.position.averageEntryPrice bps feeRate
  { t with
    position := closePosition exit processTime t.position
    exit := some (exitFill n t.position trigger exit processTime)
    running := by simp
    ended := by
      rintro f hf
      cases hf
      exact ⟨rfl, rfl, rfl, rfl, rfl, ⟨_, rfl⟩, rfl⟩ }

theorem openOf_length_closePosition (hopen : ∀ symbol, (openOf db symbol).length ≤ 1)
    (positionId : Id) (exit : ExitAccounting) (processTime : Time) (symbol : Symbol) :
    (openOf (modifyPosition positionId (closePosition exit processTime) db) symbol).length ≤ 1 := by
  refine le_trans ?_ (hopen symbol)
  simp only [openOf, modifyPosition, List.filter_map, List.length_map]
  refine (List.monotone_filter_right _ fun p hp => ?_).length_le
  by_cases hid : p.positionId = positionId
  · simp [hid, closePosition, isOpen] at hp
  · simpa [hid] using hp

theorem Represents.exit (h : Represents w₀ db trades) (ht : t ∈ trades) (hrunning : t.exit = none)
    (trigger : StopTriggerResult) (bps feeRate : Decimal) (processTime : Time) :
    Ledger w₀ (exited t.position trigger (computeExitAccounting trigger.exitReference
      t.position.quantity t.position.averageEntryPrice bps feeRate) processTime db) := by
  obtain ⟨l₁, l₂, rfl⟩ := List.append_of_mem ht
  refine ⟨l₁ ++ t.close db.nextId trigger bps feeRate processTime :: l₂, ?_⟩
  have hprice : entryPriceOf db.positions t.position.positionId =
      some t.position.averageEntryPrice := by
    have hp : t.position ∈ db.positions := by
      rw [h.positions]
      exact List.mem_map_of_mem ht
    rw [entryPriceOf, find?_positionId h.keys hp]
    rfl
  refine h.rework ?_ ?_ rfl rfl rfl (Nat.le_succ _) ?_ ?_ ?_ ?_
  · simp [Trade.close]
  · simp [Trade.close, closePosition]
  · exact h.positions_replace rfl
  · have hfills : (t.close db.nextId trigger bps feeRate processTime).fills = t.fills ++
        (t.close db.nextId trigger bps feeRate processTime).exit.toList := by
      simp [Trade.fills, hrunning, Trade.close]
    exact (h.fills.append_right _).trans (flatMap_fills_replace l₁ l₂ hfills)
  · simp only [exited, modifyPosition, h.wallet, List.foldl_append, List.foldl_cons, List.foldl_nil,
      Option.map_some]
    rw [settle_modify (closePosition _ _) (fun _ => rfl) (fun _ => rfl), settle, settlement]
    simp only [exitFill, Option.bind_some]
    rw [entryPriceOf_modify (closePosition _ _) (fun _ => rfl) (fun _ => rfl), hprice]
    rfl
  · exact openOf_length_closePosition h.keys.openUnique _ _ _

end Exit

section Raise

variable {w₀ : PaperWalletState} {db : Db} {trades : List Trade} {t : Trade}

def Trade.raise (t : Trade) (updated : Strategy.Models.TrailingStopState) : Trade :=
  { t with
    position := raiseStop updated t.position
    running := t.running
    ended := fun f hf =>
      have h := t.ended f hf
      ⟨h.1, h.2.1, ⟨h.2.2.kind, h.2.2.position, h.2.2.order, h.2.2.key, h.2.2.realized⟩⟩ }

theorem Represents.raise (h : Represents w₀ db trades) (ht : t ∈ trades)
    (updated : Strategy.Models.TrailingStopState) :
    Ledger w₀ (modifyPosition t.position.positionId (raiseStop updated) db) := by
  obtain ⟨l₁, l₂, rfl⟩ := List.append_of_mem ht
  refine ⟨l₁ ++ t.raise updated :: l₂, ?_⟩
  refine h.rework ?_ ?_ rfl rfl rfl (le_refl _) ?_ ?_ ?_ ?_
  · simp [Trade.raise]
  · simp [Trade.raise, raiseStop]
  · exact h.positions_replace rfl
  · have hfills : (t.raise updated).fills = t.fills ++ [] := by simp [Trade.fills, Trade.raise]
    have hperm := flatMap_fills_replace l₁ l₂ hfills
    rw [List.append_nil] at hperm
    exact h.fills.trans hperm
  · simp only [modifyPosition, h.wallet]
    rw [settle_modify (raiseStop updated) (fun _ => rfl) (fun _ => rfl)]
  · have hkeys : PositionKeys (modifyPosition t.position.positionId (raiseStop updated) db) :=
      modifyPosition_keys h.keys (fun _ => rfl) (fun _ => rfl) (fun _ => rfl)
    exact hkeys.openUnique

end Raise

end TradingBot.Paper.TradeBook
