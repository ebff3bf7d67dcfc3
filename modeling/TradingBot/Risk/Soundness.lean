import TradingBot.Library.Outcome
import TradingBot.Risk.Engine

namespace TradingBot.Risk.Soundness

open Market.Models Strategy.Models Exceptions Constraints Library.Outcome Library.Truncation
open Risk.Models Risk.Sizing Risk.Engine

section Quantities

variable {step qty quantity result distance equity budget minimum limit : Decimal}

theorem floorToStep_eq_ok {value : Decimal} (h : floorToStep value step = .ok result) :
    0 < step ∧ result = toStep step value := by
  unfold floorToStep at h
  split_ifs at h with hstep
  exact ⟨not_le.mp hstep, (Except.ok.inj h).symm⟩

theorem reduceToBudget_eq_some {fuel : ℕ} (hqty : OnStep step qty)
    (h : reduceToBudget distance equity budget step minimum limit fuel qty = .ok (some result)) :
    OnStep step result ∧ minimum ≤ result ∧ result * distance ≤ budget := by
  induction fuel generalizing qty with
  | zero => cases h
  | succ fuel ih =>
    unfold reduceToBudget at h
    split_ifs at h with hmin hequity hfits
    · cases h
    · cases h
      exact ⟨hqty, not_lt.mp hmin, hfits.1⟩
    · obtain ⟨next, hnext, h⟩ := except_bind_eq_ok.mp h
      obtain ⟨_, rfl⟩ := floorToStep_eq_ok hnext
      split_ifs at h
      · cases h
      · exact ih (onStep_toStep _ _) h

theorem computePositionSizing_eq_some {entry stop : Decimal} {p : RiskParameters}
    {sizing : PositionSizingResult}
    (h : computePositionSizing equity entry stop step minimum p = .ok (some sizing)) :
    sizing.stopDistanceUsd = entry - stop ∧ OnStep step sizing.roundedQuantity := by
  unfold computePositionSizing at h
  dsimp only at h
  split_ifs at h with hdistance
  · cases h
  · obtain ⟨rounded, hrounded, h⟩ := except_bind_eq_ok.mp h
    obtain ⟨_, rfl⟩ := floorToStep_eq_ok hrounded
    split_ifs at h
    · cases h
      exact ⟨rfl, onStep_zero _⟩
    · obtain ⟨final, hfinal, h⟩ := except_bind_eq_ok.mp h
      cases h
      refine ⟨rfl, ?_⟩
      cases final with
      | none => exact onStep_zero _
      | some q => exact (reduceToBudget_eq_some (onStep_toStep _ _) hfinal).1

theorem capQuantityForLeverage_onStep {entry notional leverage : Decimal} (hqty : OnStep step quantity)
    (h : capQuantityForLeverage quantity entry equity notional step leverage = .ok result) :
    OnStep step result := by
  unfold capQuantityForLeverage at h
  dsimp only at h
  split_ifs at h
  · cases h
    exact hqty
  · cases h
    exact onStep_zero _
  · obtain ⟨capped, hcapped, h⟩ := except_bind_eq_ok.mp h
    obtain ⟨_, rfl⟩ := floorToStep_eq_ok hcapped
    cases h
    exact hqty.min (onStep_toStep _ _)

theorem capQuantityForMargin_onStep {entry margin leverage : Decimal} (hqty : OnStep step quantity)
    (h : capQuantityForMargin quantity entry margin leverage step = .ok result) : OnStep step result := by
  unfold capQuantityForMargin at h
  dsimp only at h
  split_ifs at h
  · cases h
    exact onStep_zero _
  · cases h
    exact hqty
  · cases h
    exact onStep_zero _
  · obtain ⟨capped, hcapped, h⟩ := except_bind_eq_ok.mp h
    obtain ⟨_, rfl⟩ := floorToStep_eq_ok hcapped
    cases h
    exact hqty.min (onStep_toStep _ _)

end Quantities

section Checks

variable {κ : Type} [DecidableEq κ]

theorem orRaise_eq_ok {α : Type} {x : Except Exc α} {a : α} : orRaise x = .ok a ↔ x = .ok a := by
  cases x <;> simp [orRaise]

theorem rejectIf_eq_ok {condition : Bool} {e : RiskError} {current : Option Decimal} {u : Unit} :
    rejectIf condition e current = .ok u ↔ condition = false := by
  cases condition <;> simp [rejectIf]

theorem rejectOn_eq_ok {error : Option RiskError} {u : Unit} : rejectOn error = .ok u ↔ error = none := by
  cases error <;> simp [rejectOn]

theorem rejectAll_eq_ok {errors : List RiskError} {u : Unit} : rejectAll errors = .ok u ↔ errors = [] := by
  cases errors <;> simp [rejectAll]

/-- A loss limit that is switched on is configured and not exceeded. -/
def LossWithin (enabled : Bool) (maxLossPct : Option Decimal) (realizedPnlUsd equityUsd : Decimal) : Prop :=
  enabled → ∃ limit, maxLossPct = some limit ∧ (realizedPnlUsd < 0 → |realizedPnlUsd| / equityUsd ≤ limit)

def DrawdownWithin (enabled : Bool) (maxDrawdownPct peakEquityUsd : Option Decimal)
    (equityUsd : Decimal) : Prop :=
  enabled → ∃ limit peak, maxDrawdownPct = some limit ∧ peakEquityUsd = some peak ∧
    (peak - equityUsd) / peak ≤ limit

theorem lossWithin_of_none {label : String} {enabled : Bool} {maxLossPct : Option Decimal}
    {pnl equity : Decimal} (h : lossLimitError label enabled maxLossPct pnl equity = none) :
    LossWithin enabled maxLossPct pnl equity := by
  intro henabled
  unfold lossLimitError at h
  rw [henabled] at h
  cases maxLossPct with
  | none => simp at h
  | some limit =>
    simp only [Bool.not_true, Bool.false_eq_true, if_false] at h
    split_ifs at h with hinvalid hreached
    exact ⟨limit, rfl, fun hneg => not_lt.mp fun hlt => hreached ⟨hneg, hlt⟩⟩

theorem drawdownWithin_of_none {enabled : Bool} {maxDrawdownPct peak : Option Decimal} {equity : Decimal}
    (h : drawdownError enabled maxDrawdownPct peak equity = none) :
    DrawdownWithin enabled maxDrawdownPct peak equity := by
  intro henabled
  unfold drawdownError at h
  rw [henabled] at h
  simp only [Bool.not_true, Bool.false_eq_true, if_false] at h
  split at h
  · split_ifs at h with hinvalid hreached
    exact ⟨_, _, rfl, rfl, not_lt.mp hreached⟩
  · cases h

structure Approvable (proposal : TradeProposal κ) (account : AccountState) (constraints : SymbolConstraints)
    (openPositions : List PositionState) (openOrders : List (OpenOrderState κ))
    (processedIntentIds : List κ) (p : RiskParameters) (stop q : Decimal) : Prop where
  stop_on_tick : roundToTick proposal.stopPrice constraints.priceTickSize = .ok stop
  stop_below_entry : stop < proposal.entryPrice
  quantity_pos : 0 < q
  quantity_on_step : OnStep constraints.quantityStep q
  minimum_quantity : constraints.minimumQuantity ≤ q
  minimum_notional : constraints.minimumNotional ≤ q * proposal.entryPrice
  trade_risk : q * (proposal.entryPrice - stop) ≤ account.equityUsd * p.riskPerTradePct
  portfolio_risk : currentOpenRiskUsd openPositions + q * (proposal.entryPrice - stop) ≤
    account.equityUsd * p.maxPortfolioRiskPct
  leverage : (totalNotionalUsd openPositions + q * proposal.entryPrice) / account.equityUsd ≤ p.maxLeverage
  margin : q * proposal.entryPrice / p.maxLeverage ≤ account.availableMarginUsd
  open_positions : (openPositions.length : ℤ) < p.maxOpenPositions
  no_open_position : ∀ position ∈ openPositions, position.symbol ≠ proposal.symbol
  no_entry_order : ∀ order ∈ openOrders, order.isEntry → order.symbol ≠ proposal.symbol
  not_processed : proposal.clientIntentId ∉ processedIntentIds
  daily_loss : LossWithin p.lossLimits.dailyLossLimitEnabled p.lossLimits.maxDailyLossPct
    account.dailyRealizedPnlUsd account.equityUsd
  weekly_loss : LossWithin p.lossLimits.weeklyLossLimitEnabled p.lossLimits.maxWeeklyLossPct
    account.weeklyRealizedPnlUsd account.equityUsd
  drawdown : DrawdownWithin p.lossLimits.drawdownLimitEnabled p.lossLimits.maxDrawdownPct
    account.peakEquityUsd account.equityUsd

variable {proposal : TradeProposal κ} {account : AccountState} {constraints : SymbolConstraints}
  {openPositions : List PositionState} {openOrders : List (OpenOrderState κ)}
  {processedIntentIds : List κ} {p : RiskParameters} {stop q : Decimal} {d : RiskDecision}

theorem equity_pos_of_validateAccount (h : validateAccount account = none) : 0 < account.equityUsd := by
  unfold validateAccount at h
  split_ifs at h with _ hequity
  exact not_le.mp hequity

theorem validateLongStop_eq_none {entry : Decimal} (h : validateLongStop entry stop = none) :
    stop < entry := by
  unfold validateLongStop at h
  split_ifs at h with hstop
  exact not_le.mp hstop

omit [DecidableEq κ] in
theorem entryPrice_pos_of_validateProposal (h : validateProposal proposal = []) :
    0 < proposal.entryPrice := by
  simp only [validateProposal, List.append_eq_nil_iff] at h
  have hprice : priceError "entry_price" proposal.entryPrice = [] := h.1.1.1.1.1.1.2
  by_contra hle
  simp [priceError, errorIf, not_lt.mp hle] at hprice

omit [DecidableEq κ] in
theorem stopPrice_pos_of_validateProposal (h : validateProposal proposal = []) : 0 < proposal.stopPrice := by
  simp only [validateProposal, List.append_eq_nil_iff] at h
  have hprice : priceError "stop_price" proposal.stopPrice = [] := h.1.1.1.1.1.2
  by_contra hle
  simp [priceError, errorIf, not_lt.mp hle] at hprice

theorem admissibleStop_eq_ok (h : admissibleStop proposal account constraints openPositions openOrders
      processedIntentIds p = .ok stop) :
    0 < account.equityUsd ∧ 0 < proposal.entryPrice ∧
    roundToTick proposal.stopPrice constraints.priceTickSize = .ok stop ∧ stop < proposal.entryPrice ∧
    checkLossLimits account p = none ∧ proposal.clientIntentId ∉ processedIntentIds ∧
    (∀ position ∈ openPositions, position.symbol ≠ proposal.symbol) ∧
    (∀ order ∈ openOrders, order.isEntry → order.symbol ≠ proposal.symbol) ∧
    (openPositions.length : ℤ) < p.maxOpenPositions := by
  obtain ⟨_, _, h⟩ := except_bind_eq_ok.mp h
  obtain ⟨_, haccount, h⟩ := except_bind_eq_ok.mp h
  obtain ⟨_, _, h⟩ := except_bind_eq_ok.mp h
  obtain ⟨_, hproposal, h⟩ := except_bind_eq_ok.mp h
  obtain ⟨_, _, h⟩ := except_bind_eq_ok.mp h
  obtain ⟨_, hloss, h⟩ := except_bind_eq_ok.mp h
  obtain ⟨_, htick, h⟩ := except_bind_eq_ok.mp h
  obtain ⟨_, hlong, h⟩ := except_bind_eq_ok.mp h
  obtain ⟨_, hprocessed, h⟩ := except_bind_eq_ok.mp h
  obtain ⟨_, hposition, h⟩ := except_bind_eq_ok.mp h
  obtain ⟨_, horder, h⟩ := except_bind_eq_ok.mp h
  obtain ⟨_, hcount, h⟩ := except_bind_eq_ok.mp h
  cases h
  rw [rejectIf_eq_ok] at hprocessed hposition horder hcount
  refine ⟨equity_pos_of_validateAccount (rejectOn_eq_ok.mp haccount),
    entryPrice_pos_of_validateProposal (rejectAll_eq_ok.mp hproposal), orRaise_eq_ok.mp htick,
    validateLongStop_eq_none (rejectOn_eq_ok.mp hlong), rejectOn_eq_ok.mp hloss, by simpa using hprocessed,
    by simpa using hposition, ?_, by simpa using hcount⟩
  intro order hmem hentry hsymbol
  have hnone := List.any_eq_false.mp horder order hmem
  simp [hentry, hsymbol] at hnone

omit [DecidableEq κ] in
theorem cappedQuantity_eq_ok {sizing : PositionSizingResult}
    (h : cappedQuantity proposal.entryPrice stop account constraints openPositions p = .ok (sizing, q)) :
    sizing.stopDistanceUsd = proposal.entryPrice - stop ∧ 0 < q ∧ OnStep constraints.quantityStep q ∧
      q * (proposal.entryPrice - stop) ≤ account.equityUsd * p.riskPerTradePct := by
  obtain ⟨found, hfound, h⟩ := except_bind_eq_ok.mp h
  cases found with
  | none => cases h
  | some found =>
    obtain ⟨hdistance, hrounded⟩ := computePositionSizing_eq_some (orRaise_eq_ok.mp hfound)
    obtain ⟨_, _, h⟩ := except_bind_eq_ok.mp h
    obtain ⟨first, hfirst, h⟩ := except_bind_eq_ok.mp h
    obtain ⟨second, hsecond, h⟩ := except_bind_eq_ok.mp h
    obtain ⟨capped, hcapped, h⟩ := except_bind_eq_ok.mp h
    have honStep := capQuantityForMargin_onStep
      (capQuantityForLeverage_onStep hrounded (orRaise_eq_ok.mp hfirst)) (orRaise_eq_ok.mp hsecond)
    cases capped with
    | none => cases h
    | some capped =>
      obtain ⟨hstep, _, hbudget⟩ := reduceToBudget_eq_some honStep (orRaise_eq_ok.mp hcapped)
      obtain ⟨_, hpositive, h⟩ := except_bind_eq_ok.mp h
      cases h
      rw [hdistance] at hbudget
      exact ⟨hdistance, by simpa using rejectIf_eq_ok.mp hpositive, hstep, hbudget⟩

omit [DecidableEq κ] in
theorem decideQuantity_eq_ok {sizing : PositionSizingResult} (hequity : 0 < account.equityUsd)
    (h : decideQuantity proposal stop account constraints openPositions p sizing q = .ok d) :
    d.roundedQuantity = some q ∧ d.requestedStopPrice = stop ∧ constraints.minimumQuantity ≤ q ∧
      constraints.minimumNotional ≤ q * proposal.entryPrice ∧
      currentOpenRiskUsd openPositions + q * sizing.stopDistanceUsd ≤
        account.equityUsd * p.maxPortfolioRiskPct ∧
      (totalNotionalUsd openPositions + q * proposal.entryPrice) / account.equityUsd ≤ p.maxLeverage ∧
      q * proposal.entryPrice / p.maxLeverage ≤ account.availableMarginUsd := by
  obtain ⟨_, hquantity, h⟩ := except_bind_eq_ok.mp h
  obtain ⟨_, hnotional, h⟩ := except_bind_eq_ok.mp h
  obtain ⟨_, hportfolio, h⟩ := except_bind_eq_ok.mp h
  obtain ⟨_, hleverage, h⟩ := except_bind_eq_ok.mp h
  obtain ⟨_, hmargin, h⟩ := except_bind_eq_ok.mp h
  cases h
  rw [rejectIf_eq_ok, decide_eq_false_iff_not, not_lt] at hquantity hnotional hportfolio hleverage hmargin
  simp only [buildPortfolioSnapshot, if_pos hequity] at hportfolio hleverage
  exact ⟨rfl, rfl, hquantity, hnotional, hportfolio, hleverage, hmargin⟩

theorem stopPrice_pos_of_admissibleStop (h : admissibleStop proposal account constraints openPositions openOrders
      processedIntentIds p = .ok stop) : 0 < proposal.stopPrice := by
  obtain ⟨_, _, h⟩ := except_bind_eq_ok.mp h
  obtain ⟨_, _, h⟩ := except_bind_eq_ok.mp h
  obtain ⟨_, _, h⟩ := except_bind_eq_ok.mp h
  obtain ⟨_, hproposal, _⟩ := except_bind_eq_ok.mp h
  exact stopPrice_pos_of_validateProposal (rejectAll_eq_ok.mp hproposal)

theorem evaluate_approved (h : evaluate proposal account constraints openPositions openOrders
      processedIntentIds p = .ok d) (happroved : d.approved = true) :
    ∃ stop sizing q,
      admissibleStop proposal account constraints openPositions openOrders processedIntentIds p = .ok stop ∧
      cappedQuantity proposal.entryPrice stop account constraints openPositions p = .ok (sizing, q) ∧
      decideQuantity proposal stop account constraints openPositions p sizing q = .ok d := by
  unfold evaluate at h
  dsimp only at h
  split at h
  · rename_i decision hdecision
    cases h
    obtain ⟨stop, hstop, hdecision⟩ := except_bind_eq_ok.mp hdecision
    obtain ⟨⟨sizing, q⟩, hquantity, hdecision⟩ := except_bind_eq_ok.mp hdecision
    exact ⟨stop, sizing, q, hstop, hquantity, hdecision⟩
  · cases h
  · cases h
    cases happroved

/-- Whatever the engine approves may be approved: after all caps and roundings, every limit holds. -/
theorem approved_quantity_sound (h : evaluate proposal account constraints openPositions openOrders
      processedIntentIds p = .ok d) (happroved : d.approved = true) :
    ∃ q, d.roundedQuantity = some q ∧ Approvable proposal account constraints openPositions openOrders
      processedIntentIds p d.requestedStopPrice q := by
  obtain ⟨stop, sizing, q, hstop, hquantity, hdecision⟩ := evaluate_approved h happroved
  obtain ⟨hequity, _, htick, hbelow, hloss, hprocessed, hposition, horder, hcount⟩ :=
    admissibleStop_eq_ok hstop
  obtain ⟨hdistance, hpositive, hstep, hrisk⟩ := cappedQuantity_eq_ok hquantity
  obtain ⟨hq, hstopPrice, hmin, hnotional, hportfolio, hleverage, hmargin⟩ :=
    decideQuantity_eq_ok hequity hdecision
  rw [hdistance] at hportfolio
  obtain ⟨hdaily, hrest⟩ := Option.or_eq_none_iff.mp hloss
  obtain ⟨hweekly, hdrawdown⟩ := Option.or_eq_none_iff.mp hrest
  rw [hstopPrice]
  exact ⟨q, hq, htick, hbelow, hpositive, hstep, hmin, hnotional, hrisk, hportfolio, hleverage, hmargin,
    hcount, hposition, horder, hprocessed, lossWithin_of_none hdaily, lossWithin_of_none hweekly,
    drawdownWithin_of_none hdrawdown⟩

end Checks

section Sample

def sampleProposal : TradeProposal ℕ :=
  { symbol := "BTC", entryPrice := 100, stopPrice := 75, clientIntentId := 0
    signalIntentKind := .longEntry, strategyApproved := true }

def sampleAccount : AccountState := { equityUsd := 10000, availableMarginUsd := 10000 }

def sampleConstraints : SymbolConstraints :=
  { quantityStep := 1 / 1000, minimumQuantity := 1 / 1000, priceTickSize := 1 / 10 }

theorem approved_quantity_sample : ∃ d,
    evaluate sampleProposal sampleAccount sampleConstraints [] [] [] {} = .ok d ∧
    ∃ q, d.roundedQuantity = some q ∧ Approvable sampleProposal sampleAccount sampleConstraints [] [] [] {}
      d.requestedStopPrice q := by
  have happroved : (evaluate sampleProposal sampleAccount sampleConstraints [] [] [] {}).toOption.any
      (·.approved) = true := by decide +kernel
  obtain ⟨d, h, hd⟩ := exists_of_any happroved
  exact ⟨d, h, approved_quantity_sound h hd⟩

end Sample

end TradingBot.Risk.Soundness
