import TradingBot.Paper.AccountingVerification
import TradingBot.Paper.FillInvariants

namespace TradingBot.Paper.WalletReconstruction

open Market.Models Backtester.Lifecycle Library Library.Transaction Paper.Models Paper.Repository
open Paper.PositionTable Paper.TradeBook Paper.AccountingVerification Paper.FillInvariants

variable {w₀ : PaperWalletState} {db : Db} {trades : List Trade}

section Totals

/-- The totals that both the stored and the rebuilt wallet keep. -/
structure SameTotals (r : ReconstructedWallet) (w : PaperWalletState) : Prop where
  cash : r.cash = w.cash
  fees : r.totalFees = w.totalFees
  slippage : r.totalSlippage = w.totalSlippage
  realized : r.totalRealizedPnl = w.totalRealizedPnl

theorem reconstructFill_settle {positions positions' : List PaperPosition}
    (hlookup : ∀ id, positions.find? (·.positionId = id) = positions'.find? (·.positionId = id))
    {r : ReconstructedWallet} {w : PaperWalletState} (h : SameTotals r w) (f : PaperFill) :
    SameTotals (reconstructFill positions r f) (settle positions' w f) := by
  unfold reconstructFill settle settlement
  cases f.fillKind with
  | entry =>
    refine ⟨?_, ?_, ?_, ?_⟩ <;> simp [WalletDelta.apply, h.cash, h.fees, h.slippage, h.realized]
    ring
  | exit =>
    cases hid : f.positionId with
    | none => refine ⟨?_, ?_, ?_, ?_⟩ <;> simp [WalletDelta.apply, h.cash, h.fees, h.slippage, h.realized]
    | some id =>
      simp only [Option.bind_some, entryPriceOf, hlookup id]
      cases positions'.find? (·.positionId = id) with
      | none =>
        refine ⟨?_, ?_, ?_, ?_⟩ <;>
          simp [WalletDelta.apply, h.cash, h.fees, h.slippage, h.realized]
      | some p =>
        refine ⟨?_, ?_, ?_, ?_⟩ <;>
          simp [WalletDelta.apply, h.cash, h.fees, h.slippage, h.realized, netPnl]

theorem reconstructFill_foldl {positions positions' : List PaperPosition}
    (hlookup : ∀ id, positions.find? (·.positionId = id) = positions'.find? (·.positionId = id))
    (fills : List PaperFill) {r : ReconstructedWallet} {w : PaperWalletState} (h : SameTotals r w) :
    SameTotals (fills.foldl (reconstructFill positions) r) (fills.foldl (settle positions') w) := by
  induction fills generalizing r w with
  | nil => exact h
  | cons f fills ih => exact ih (reconstructFill_settle hlookup h f)

theorem reconstructFill_untouched (positions : List PaperPosition) (fills : List PaperFill)
    (r : ReconstructedWallet) :
    (fills.foldl (reconstructFill positions) r).totalFunding = r.totalFunding ∧
      (fills.foldl (reconstructFill positions) r).openMargin = r.openMargin := by
  induction fills generalizing r with
  | nil => exact ⟨rfl, rfl⟩
  | cons f fills ih =>
    have hstep : (reconstructFill positions r f).totalFunding = r.totalFunding ∧
        (reconstructFill positions r f).openMargin = r.openMargin := by
      unfold reconstructFill
      cases f.fillKind with
      | entry => exact ⟨rfl, rfl⟩
      | exit =>
        cases f.positionId.bind fun id => positions.find? (·.positionId = id) <;> exact ⟨rfl, rfl⟩
    obtain ⟨hfunding, hmargin⟩ := ih (reconstructFill positions r f)
    exact ⟨hfunding.trans hstep.1, hmargin.trans hstep.2⟩

theorem settle_totalFunding (positions : List PaperPosition) (fills : List PaperFill)
    (w : PaperWalletState) : (fills.foldl (settle positions) w).totalFunding = w.totalFunding := by
  induction fills generalizing w with
  | nil => rfl
  | cons f fills ih =>
    have hstep : (settle positions w f).totalFunding = w.totalFunding := by
      have hzero : (settlement positions f).funding = 0 := by
        unfold settlement
        cases f.fillKind with
        | entry => rfl
        | exit => cases f.positionId.bind (entryPriceOf positions) <;> rfl
      rw [settle, WalletDelta.apply, hzero, add_zero]
    exact (ih _).trans hstep

end Totals

section Reconstruction

theorem listPositions_perm (hlimit : db.positions.length ≤ positionLimit) :
    ∃ positions, (∀ faults, listPositions positionLimit ⟨db, faults⟩ = (.ok positions, ⟨db, faults⟩)) ∧
      positions.Perm db.positions := by
  refine ⟨(db.positions.insertionSort fun a b => b.openedAt < a.openedAt ∨
    (b.openedAt = a.openedAt ∧ b.positionId ≤ a.positionId)).take positionLimit, fun _ => rfl, ?_⟩
  rw [List.take_of_length_le (by rwa [List.length_insertionSort])]
  exact List.perm_insertionSort _ _

def rebuilt (wallet : PaperWalletState) (db : Db) : ReconstructedWallet :=
  { cash := wallet.cash
    totalFees := wallet.totalFees
    totalSlippage := wallet.totalSlippage
    totalRealizedPnl := wallet.totalRealizedPnl
    openMargin := ((db.positions.filter isOpen).map (·.marginReserved)).sum
    totalFunding := wallet.totalFunding }

theorem reconstructWallet_eq {cash : Decimal} {version : ℕ} {wallet : PaperWalletState}
    (h : Represents { cash, version } db trades) (hwallet : db.wallet = some wallet)
    (hlimit : db.positions.length ≤ positionLimit) (faults : List Bool) :
    reconstructWallet cash ⟨db, faults⟩ = (.ok (rebuilt wallet db), ⟨db, faults⟩) := by
  obtain ⟨positions, hlist, hperm⟩ := listPositions_perm hlimit
  have hlookup : ∀ id, positions.find? (·.positionId = id) =
      db.positions.find? (·.positionId = id) := fun id =>
    (Keyed.find?_key_perm h.keys.ids hperm.symm id).symm
  have htotals := reconstructFill_foldl hlookup db.fills
    (r := { cash }) (w := { cash, version }) ⟨rfl, rfl, rfl, rfl⟩
  obtain ⟨hfunding, hmargin⟩ := reconstructFill_untouched positions db.fills { cash }
  have hsettled : db.fills.foldl (settle db.positions) { cash, version } = wallet := by
    rw [h.wallet] at hwallet
    exact Option.some.inj hwallet
  have hzero : wallet.totalFunding = 0 := by
    rw [← hsettled]
    exact settle_totalFunding _ _ _
  unfold reconstructWallet
  rw [bind_of_ok (hlist faults)]
  simp only [listAllFills, listFundingEvents, getOpenPositions, read_bind, h.unfunded, pure_run]
  rw [hsettled] at htotals
  simp only [rebuilt, ← htotals.cash, ← htotals.fees, ← htotals.slippage, ← htotals.realized, hzero,
    List.map_nil, List.sum_nil, add_zero]

end Reconstruction

section Verification

theorem issueIf_eq_nil {condition : Bool} {issue : AccountingIssue} :
    issueIf condition issue = [] ↔ condition = false := by
  cases condition <;> simp [issueIf]

theorem walletIssues_rebuilt (wallet : PaperWalletState) (db : Db) :
    walletIssues wallet (rebuilt wallet db) = [] := by
  simp [walletIssues, rebuilt, issueIf_eq_nil]

theorem repeated_eq_nil {κ : Type} [DecidableEq κ] {keys : List κ} (h : keys.Nodup) :
    repeated keys = [] := by
  simp only [repeated, List.filter_eq_nil_iff, decide_eq_true_eq, not_lt]
  exact fun k _ => List.nodup_iff_count_le_one.mp h k

theorem exitFills_perm (h : Represents w₀ db trades) :
    (exitFills db.fills).Perm (trades.flatMap fun t => t.exit.toList) := by
  refine (h.fills.filter _).trans ?_
  rw [List.filter_flatMap, List.flatMap_congr fun t _ => ?_]
  rw [Trade.fills, List.filter_cons_of_neg (by simp [t.entry_kind]), List.filter_eq_self]
  intro f hf
  simp [(t.ended f (Option.mem_toList.mp hf)).2.2.kind]

theorem exit_positionIds (h : Represents w₀ db trades) :
    ((exitFills db.fills).filterMap (·.positionId)).Perm
      ((trades.filter (·.exit.isSome)).map (·.position.positionId)) := by
  refine ((exitFills_perm h).filterMap _).trans ?_
  clear h
  induction trades with
  | nil => exact .nil
  | cons t trades ih =>
    rw [List.flatMap_cons, List.filterMap_append]
    cases hexit : t.exit with
    | none => simpa [hexit] using ih
    | some f =>
      have hof := (t.ended f (by simp [hexit])).2.2
      simpa [hexit, hof.position] using ih

theorem exitIssues_eq_nil (h : Represents w₀ db trades) : exitIssues db.fills = [] := by
  have hids : (trades.map (·.position.positionId)).Nodup := by
    have := h.keys.ids
    rwa [h.positions, List.map_map] at this
  have hnodup : ((exitFills db.fills).filterMap (·.positionId)).Nodup :=
    (exit_positionIds h).nodup_iff.mpr (hids.sublist (List.filter_sublist.map _))
  have hnamed : (exitFills db.fills).filter (·.positionId.isNone) = [] := by
    rw [List.filter_eq_nil_iff]
    intro f hf
    rw [(exitFills_perm h).mem_iff, List.mem_flatMap] at hf
    obtain ⟨t, _, hf⟩ := hf
    simp [(t.ended f (Option.mem_toList.mp hf)).2.2.position]
  rw [exitIssues, hnamed, repeated_eq_nil hnodup]
  rfl

theorem positionIssues_eq_nil (h : Represents w₀ db trades) {t : Trade} (ht : t ∈ trades) :
    positionIssues db.fills t.position = [] := by
  unfold positionIssues
  cases hexit : t.exit with
  | none =>
    obtain ⟨hstatus, hmargin⟩ := t.running hexit
    simp [hstatus, issueIf_eq_nil, hmargin]
  | some f =>
    obtain ⟨hstatus, hmargin, hof⟩ := t.ended f (by simp [hexit])
    have hcount : ((exitFills db.fills).filterMap (·.positionId)).count t.position.positionId ≠ 0 := by
      rw [(exit_positionIds h).count_eq, ← Nat.pos_iff_ne_zero, List.count_pos_iff]
      exact List.mem_map.mpr ⟨t, List.mem_filter.mpr ⟨ht, by simp [hexit]⟩, rfl⟩
    have hfind : ∀ g, (exitFills db.fills).find? (·.positionId = some t.position.positionId) = some g →
        netPnl g t.position = t.position.realizedPnl := by
      intro g hg
      have hmem : g ∈ exitFillsOf db t.position := by
        have hmem := List.mem_of_find?_eq_some hg
        have hid := List.find?_some hg
        simp only [exitFills, List.mem_filter, decide_eq_true_eq] at hmem hid
        simp [exitFillsOf, hmem.1, hmem.2, hid]
      rw [(exitFillsOf_perm h ht).mem_iff, hexit, Option.toList_some, List.mem_singleton] at hmem
      rw [hmem, hof.realized, netPnl]
    rw [if_pos hstatus]
    simp only [hmargin, ne_eq, not_true_eq_false, decide_false, not_le.mpr t.quantity_pos, hcount]
    cases hg : (exitFills db.fills).find? (·.positionId = some t.position.positionId) with
    | none => simp [issueIf]
    | some g => simp [issueIf, hfind g hg]

theorem verifyAccountingIndependent_eq {cash : Decimal} {version : ℕ}
    (h : Represents { cash, version } db trades) (hlimit : db.positions.length ≤ positionLimit)
    (faults : List Bool) :
    verifyAccountingIndependent cash ⟨db, faults⟩ = (.ok [], ⟨db, faults⟩) := by
  obtain ⟨positions, hlist, hperm⟩ := listPositions_perm hlimit
  have hpositions : positions.flatMap (positionIssues db.fills) = [] := by
    rw [List.flatMap_eq_nil_iff]
    intro p hp
    rw [hperm.mem_iff, h.positions] at hp
    obtain ⟨t, ht, rfl⟩ := List.mem_map.mp hp
    exact positionIssues_eq_nil h ht
  unfold verifyAccountingIndependent getWallet
  rw [read_bind]
  simp only [h.wallet]
  rw [bind_of_ok (reconstructWallet_eq h h.wallet hlimit faults)]
  simp only [listAllFills, listFundingEvents, read_bind]
  rw [bind_of_ok (hlist faults), walletIssues_rebuilt, h.unfunded, exitIssues_eq_nil h, hpositions]
  rfl

end Verification

section Cash

theorem settle_cash (positions : List PaperPosition) (fills : List PaperFill) (w : PaperWalletState) :
    (fills.foldl (settle positions) w).cash =
      w.cash + (fills.map fun f => (settlement positions f).cash).sum := by
  induction fills generalizing w with
  | nil => simp
  | cons f fills ih =>
    rw [List.foldl_cons, ih, List.map_cons, List.sum_cons]
    simp only [settle, WalletDelta.apply]
    ring

theorem sum_fills (h : Represents w₀ db trades) (value : PaperFill → Decimal) :
    (db.fills.map value).sum =
      (trades.map fun t => value t.entry + (t.exit.toList.map value).sum).sum := by
  rw [(h.fills.map value).sum_eq]
  clear h
  induction trades with
  | nil => rfl
  | cons t trades ih => simp [Trade.fills, ih, add_assoc]

def entryFees (db : Db) : Decimal := ((db.fills.filter (·.fillKind = .entry)).map (·.fee)).sum

def closedProfit (db : Db) : Decimal :=
  ((db.positions.filter (·.status = .closed)).map fun p =>
    ((exitFillsOf db p).map fun f => netPnl f p).sum).sum

theorem entryFees_eq (h : Represents w₀ db trades) :
    entryFees db = (trades.map (·.entry.fee)).sum := by
  have hperm : (db.fills.filter (·.fillKind = .entry)).Perm (trades.map (·.entry)) := by
    refine (h.fills.filter _).trans ?_
    rw [List.filter_flatMap, List.map_eq_flatMap, List.flatMap_congr fun t _ => ?_]
    have hnone : t.exit.toList.filter (·.fillKind = .entry) = [] := by
      rw [List.filter_eq_nil_iff]
      intro f hf
      simp [(t.ended f (Option.mem_toList.mp hf)).2.2.kind]
    rw [Trade.fills, List.filter_cons_of_pos (by simp [t.entry_kind]), hnone]
  rw [entryFees, (hperm.map _).sum_eq, List.map_map]
  rfl

theorem closedProfit_eq (h : Represents w₀ db trades) :
    closedProfit db =
      (trades.map fun t => (t.exit.toList.map fun f => netPnl f t.position).sum).sum := by
  have hexits : ∀ t ∈ trades, ((exitFillsOf db t.position).map fun f => netPnl f t.position).sum =
      (t.exit.toList.map fun f => netPnl f t.position).sum := fun t ht =>
    ((exitFillsOf_perm h ht).map _).sum_eq
  have hclosed : db.positions.filter (·.status = .closed) =
      (trades.filter (·.exit.isSome)).map (·.position) := by
    rw [h.positions, List.filter_map]
    congr 2
    funext t
    simp only [Function.comp_apply, t.closed_iff, Bool.decide_eq_true]
  rw [closedProfit, hclosed, List.map_map]
  clear hclosed h
  induction trades with
  | nil => rfl
  | cons t trades ih =>
    have hrest := ih fun t' ht' => hexits t' (List.mem_cons_of_mem _ ht')
    have hhead := hexits t List.mem_cons_self
    cases hexit : t.exit with
    | none => simpa [hexit] using hrest
    | some f =>
      rw [List.filter_cons_of_pos (by simp [hexit]), List.map_cons, List.map_cons, List.sum_cons,
        List.sum_cons, hrest, Function.comp_apply, hhead]

theorem cash_eq (h : Represents w₀ db trades) {wallet : PaperWalletState}
    (hwallet : db.wallet = some wallet) :
    wallet.cash = w₀.cash - entryFees db + closedProfit db := by
  have hsettled : db.fills.foldl (settle db.positions) w₀ = wallet := by
    rw [h.wallet] at hwallet
    exact Option.some.inj hwallet
  have hentry : ∀ t : Trade, (settlement db.positions t.entry).cash = -t.entry.fee := by
    intro t
    rw [settlement, t.entry_kind]
  have hexit : ∀ t ∈ trades, (t.exit.toList.map fun f => (settlement db.positions f).cash) =
      t.exit.toList.map fun f => netPnl f t.position := by
    intro t ht
    refine List.map_congr_left fun f hf => ?_
    have hf : t.exit = some f := Option.mem_toList.mp hf
    have hof := (t.ended f (by simp [hf])).2.2
    have hp : t.position ∈ db.positions := by
      rw [h.positions]
      exact List.mem_map_of_mem ht
    simp only [settlement, hof.kind, hof.position, Option.bind_some, entryPriceOf,
      find?_positionId h.keys hp, Option.map_some, netPnl]
  rw [← hsettled, settle_cash, sum_fills h, entryFees_eq h, closedProfit_eq h]
  rw [List.map_congr_left fun t ht => by rw [hentry t, hexit t ht]]
  clear hentry hexit hsettled hwallet h
  induction trades with
  | nil => simp
  | cons t trades ih =>
    simp only [List.map_cons, List.sum_cons]
    linarith

end Cash

section Results

/-- The stored wallet is the one the fills give, nothing is reported, and cash has its closed form. -/
structure Reconciles (initialCash : Decimal) (db : Db) (wallet : PaperWalletState) : Prop where
  stored : db.wallet = some wallet
  reconstructed : ∀ faults,
    reconstructWallet initialCash ⟨db, faults⟩ = (.ok (rebuilt wallet db), ⟨db, faults⟩)
  verified : ∀ faults, verifyAccountingIndependent initialCash ⟨db, faults⟩ = (.ok [], ⟨db, faults⟩)
  cash : wallet.cash = initialCash - entryFees db + closedProfit db

/-- Every reachable account with a readable number of positions reconciles with its fills. -/
theorem account_reconciles (config : PaperTradingConfig) (risk : RiskEngine IntentKey)
    (cash : Decimal) (version : ℕ) (base : Db) (history : List Attempt)
    (hlimit : (account config risk { cash, version } base history).positions.length ≤ positionLimit) :
    ∃ wallet, Reconciles cash (account config risk { cash, version } base history) wallet := by
  have hledger : Ledger { cash, version } (account config risk { cash, version } base history) :=
    account_ledger base history
  obtain ⟨trades, h⟩ := hledger
  exact ⟨_, h.wallet, reconstructWallet_eq h h.wallet hlimit, verifyAccountingIndependent_eq h hlimit,
    cash_eq h h.wallet⟩

end Results

section Example

def entryAndStop : List Attempt :=
  [{ operation := .createIntent longEntryRecord longEntry openGates day day true },
   { operation := .openFill day (BySymbol.single .BTC btcFillContext) fun _ => true
     faults := [false, false, false, true] },
   { operation := .openFill day (BySymbol.single .BTC btcFillContext) fun _ => true, kept := false },
   { operation := .openFill day (BySymbol.single .BTC btcFillContext) fun _ => true },
   { operation := .openFill day (BySymbol.single .BTC btcFillContext) fun _ => true },
   { operation := .stopTriggers (2 * day) (BySymbol.single .BTC crashCandle)
       (BySymbol.single .BTC btcConstraints) true },
   { operation := .intradayStop (2 * day) (BySymbol.single .BTC crashCandle)
       (BySymbol.single .BTC btcConstraints) }]

/-- The account after the sample history holds one closed position with its two fills. -/
theorem account_reconciles_entry_and_stop :
    (account {} approveOne { cash := 1000 } readyBase entryAndStop).fills.length = 2 ∧
    ∃ wallet, Reconciles 1000 (account {} approveOne { cash := 1000 } readyBase entryAndStop) wallet :=
  ⟨by decide +kernel, account_reconciles _ _ _ _ _ _ (by decide +kernel)⟩

end Example

end TradingBot.Paper.WalletReconstruction
