import TradingBot.Risk.CapLoop
import TradingBot.Risk.Soundness

namespace TradingBot.Risk.Maximality

open Market.Models Strategy.Models Exceptions Constraints Library.Outcome Library.Truncation
open Risk.Models Risk.Sizing Risk.CapLoop Risk.Engine Risk.Soundness

section Caps

variable {step qty entry equity notional leverage margin : Decimal}

theorem capQuantityForLeverage_eq (hstep : 0 < step) (hentry : 0 < entry) (hequity : 0 < equity)
    (hqty : OnStep step qty) (hpos : 0 ≤ qty) :
    capQuantityForLeverage qty entry equity notional step leverage =
      .ok (max 0 (min qty (floorStep step ((leverage * equity - notional) / entry)))) := by
  unfold capQuantityForLeverage
  dsimp only
  split_ifs with hfits hnone
  · have hle : qty ≤ (leverage * equity - notional) / entry := by
      rw [le_div_iff₀ hentry]
      linarith [(div_le_iff₀ hequity).mp hfits]
    rw [min_eq_left (le_floorStep hstep hqty hle), max_eq_right hpos]
  · have hle : floorStep step ((leverage * equity - notional) / entry) ≤ 0 :=
      (floorStep_le hstep _).trans (div_nonpos_of_nonpos_of_nonneg hnone hentry.le)
    rw [max_eq_left ((min_le_right _ _).trans hle)]
  · have hroom : 0 ≤ (leverage * equity - notional) / entry := div_nonneg (not_le.mp hnone).le hentry.le
    rw [floorToStep_of_pos hstep, toStep_eq_floorStep hstep hroom,
      max_eq_right (le_min hpos (floorStep_nonneg hstep hroom))]
    rfl

theorem capQuantityForMargin_eq (hstep : 0 < step) (hentry : 0 < entry) (hleverage : 0 < leverage)
    (hmargin : 0 ≤ margin) (hqty : OnStep step qty) (hpos : 0 ≤ qty) :
    capQuantityForMargin qty entry margin leverage step =
      .ok (max 0 (min qty (floorStep step (margin * leverage / entry)))) := by
  unfold capQuantityForMargin
  rw [if_neg (not_lt.mpr hmargin)]
  dsimp only
  split_ifs with hfits hnone
  · have hle : qty ≤ margin * leverage / entry := by
      rw [le_div_iff₀ hentry]
      exact (div_le_iff₀ hleverage).mp hfits
    rw [min_eq_left (le_floorStep hstep hqty hle), max_eq_right hpos]
  · have hle : floorStep step (margin * leverage / entry) ≤ 0 :=
      (floorStep_le hstep _).trans (div_nonpos_of_nonpos_of_nonneg hnone hentry.le)
    rw [max_eq_left ((min_le_right _ _).trans hle)]
  · have hroom : 0 ≤ margin * leverage / entry := div_nonneg (not_le.mp hnone).le hentry.le
    rw [floorToStep_of_pos hstep, toStep_eq_floorStep hstep hroom,
      max_eq_right (le_min hpos (floorStep_nonneg hstep hroom))]
    rfl

theorem applyRiskCapAfterRounding_eq (hstep : 0 < step) (minimum : Decimal) {distance : Decimal} {p : RiskParameters}
    (hequity : 0 < equity)
    (hpct : 0 ≤ p.riskPerTradePct) (htolerance : 0 ≤ p.riskRoundingTolerance)
    (hbudget : qty * distance ≤ equity * p.riskPerTradePct) :
    applyRiskCapAfterRounding qty distance equity (computeRiskBudget equity p) step minimum p =
      .ok (if minimum ≤ qty then some qty else none) := by
  have hlimit : qty * distance / equity ≤ p.riskPerTradePct * (1 + p.riskRoundingTolerance) := by
    rw [div_le_iff₀ hequity]
    have hextra : 0 ≤ p.riskPerTradePct * p.riskRoundingTolerance * equity :=
      mul_nonneg (mul_nonneg hpct htolerance) hequity.le
    linarith
  unfold applyRiskCapAfterRounding
  by_cases hle : minimum ≤ qty
  · obtain ⟨fuel, hturns, _⟩ := turnsFor_pos hstep hle
    have hwithin : WithinCaps distance equity (computeRiskBudget equity p)
        (p.riskPerTradePct * (1 + p.riskRoundingTolerance)) qty := ⟨hbudget, hlimit⟩
    rw [hturns, reduceToBudget_of_within hequity.ne' hle hwithin, if_pos hle]
  · rw [reduceToBudget_of_lt (not_le.mp hle), if_neg hle]

end Caps

section Greatest

variable {κ : Type} [DecidableEq κ]

structure Fits (entryPrice stop : Decimal) (account : AccountState) (constraints : SymbolConstraints)
    (openPositions : List PositionState) (p : RiskParameters) (q : Decimal) : Prop where
  on_step : OnStep constraints.quantityStep q
  trade_risk : q * (entryPrice - stop) ≤ computeRiskBudget account.equityUsd p
  leverage : (totalNotionalUsd openPositions + q * entryPrice) / account.equityUsd ≤ p.maxLeverage
  margin : q * entryPrice / p.maxLeverage ≤ account.availableMarginUsd

/-- What the checks before sizing promise about the numbers it uses. -/
structure SizingInput (entryPrice stop : Decimal) (account : AccountState) (constraints : SymbolConstraints)
    (p : RiskParameters) : Prop where
  entry_pos : 0 < entryPrice
  stop_below : stop < entryPrice
  equity_pos : 0 < account.equityUsd
  margin_nonneg : 0 ≤ account.availableMarginUsd
  step_pos : 0 < constraints.quantityStep
  minimum_pos : 0 < constraints.minimumQuantity
  risk_pos : 0 < p.riskPerTradePct
  leverage_pos : 0 < p.maxLeverage
  tolerance_nonneg : 0 ≤ p.riskRoundingTolerance

/-- The largest real quantity within the budget and the caps. -/
def room (entryPrice stop : Decimal) (account : AccountState) (openPositions : List PositionState)
    (p : RiskParameters) : Decimal :=
  min (min (computeRiskBudget account.equityUsd p / (entryPrice - stop))
      ((p.maxLeverage * account.equityUsd - totalNotionalUsd openPositions) / entryPrice))
    (account.availableMarginUsd * p.maxLeverage / entryPrice)

variable {entryPrice stop : Decimal} {account : AccountState} {constraints : SymbolConstraints}
  {openPositions : List PositionState} {p : RiskParameters}

theorem fits_iff (h : SizingInput entryPrice stop account constraints p) {q : Decimal} :
    Fits entryPrice stop account constraints openPositions p q ↔
      OnStep constraints.quantityStep q ∧ q ≤ room entryPrice stop account openPositions p := by
  have hdistance : 0 < entryPrice - stop := sub_pos.mpr h.stop_below
  rw [room, le_min_iff, le_min_iff, le_div_iff₀ hdistance, le_div_iff₀ h.entry_pos, le_div_iff₀ h.entry_pos]
  constructor
  · rintro ⟨hstep, hrisk, hleverage, hmargin⟩
    refine ⟨hstep, ⟨hrisk, ?_⟩, (div_le_iff₀ h.leverage_pos).mp hmargin⟩
    linarith [(div_le_iff₀ h.equity_pos).mp hleverage]
  · rintro ⟨hstep, ⟨hrisk, hleverage⟩, hmargin⟩
    refine ⟨hstep, hrisk, (div_le_iff₀ h.equity_pos).mpr ?_, (div_le_iff₀ h.leverage_pos).mpr hmargin⟩
    linarith

def greatestQuantity (entryPrice stop : Decimal) (account : AccountState) (constraints : SymbolConstraints)
    (openPositions : List PositionState) (p : RiskParameters) : Decimal :=
  floorStep constraints.quantityStep (room entryPrice stop account openPositions p)

theorem isGreatest_greatestQuantity (openPositions : List PositionState)
    (h : SizingInput entryPrice stop account constraints p) :
    IsGreatest {q | Fits entryPrice stop account constraints openPositions p q}
      (greatestQuantity entryPrice stop account constraints openPositions p) := by
  have hset : {q | Fits entryPrice stop account constraints openPositions p q} =
      {q | OnStep constraints.quantityStep q ∧ q ≤ room entryPrice stop account openPositions p} :=
    Set.ext fun q => fits_iff h
  rw [hset]
  exact isGreatest_floorStep h.step_pos _

def budgetQuantity (entryPrice stop : Decimal) (account : AccountState) (constraints : SymbolConstraints)
    (p : RiskParameters) : Decimal :=
  floorStep constraints.quantityStep (computeRiskBudget account.equityUsd p / (entryPrice - stop))

theorem budgetQuantity_within (h : SizingInput entryPrice stop account constraints p) {q : Decimal}
    (hq : q ≤ budgetQuantity entryPrice stop account constraints p) :
    q * (entryPrice - stop) ≤ account.equityUsd * p.riskPerTradePct :=
  (le_div_iff₀ (sub_pos.mpr h.stop_below)).mp (hq.trans (floorStep_le h.step_pos _))

/-- Capping one after the other, with rounding in between, is capping once. -/
theorem caps_eq (openPositions : List PositionState) (h : SizingInput entryPrice stop account constraints p)
    (hpos : 0 ≤ budgetQuantity entryPrice stop account constraints p) : ∃ first,
    capQuantityForLeverage (budgetQuantity entryPrice stop account constraints p) entryPrice account.equityUsd
        (totalNotionalUsd openPositions) constraints.quantityStep p.maxLeverage = .ok first ∧
      capQuantityForMargin first entryPrice account.availableMarginUsd p.maxLeverage constraints.quantityStep =
        .ok (max 0 (greatestQuantity entryPrice stop account constraints openPositions p)) := by
  have hbudget : OnStep constraints.quantityStep (budgetQuantity entryPrice stop account constraints p) :=
    onStep_floorStep _ _
  have hfirst : OnStep constraints.quantityStep (max 0 (min (budgetQuantity entryPrice stop account constraints p)
      (floorStep constraints.quantityStep
        ((p.maxLeverage * account.equityUsd - totalNotionalUsd openPositions) / entryPrice)))) :=
    (onStep_zero _).max (hbudget.min (onStep_floorStep _ _))
  refine ⟨_, capQuantityForLeverage_eq h.step_pos h.entry_pos h.equity_pos hbudget hpos, ?_⟩
  have hmax : ∀ a b : Decimal, max 0 (min (max 0 a) b) = max 0 (min a b) := by
    intro a b
    rw [max_min_distrib_left, ← max_assoc, max_self, ← max_min_distrib_left]
  rw [capQuantityForMargin_eq h.step_pos h.entry_pos h.leverage_pos h.margin_nonneg hfirst (le_max_left _ _), hmax,
    greatestQuantity, room, floorStep_min h.step_pos, floorStep_min h.step_pos]
  rfl

theorem greatestQuantity_le_budgetQuantity (h : SizingInput entryPrice stop account constraints p) :
    greatestQuantity entryPrice stop account constraints openPositions p ≤
      budgetQuantity entryPrice stop account constraints p :=
  floorStep_mono h.step_pos ((min_le_left _ _).trans (min_le_left _ _))

theorem computePositionSizing_eq (h : SizingInput entryPrice stop account constraints p) :
    let q := budgetQuantity entryPrice stop account constraints p
    ∃ sizing, computePositionSizing account.equityUsd entryPrice stop constraints.quantityStep
        constraints.minimumQuantity p = .ok (some sizing) ∧
      sizing.stopDistanceUsd = entryPrice - stop ∧
      sizing.roundedQuantity = if constraints.minimumQuantity ≤ q then q else 0 := by
  intro q
  have hdistance : ¬ computeStopDistance entryPrice stop ≤ 0 := not_le.mpr (sub_pos.mpr h.stop_below)
  have hraw : 0 ≤ computeRiskBudget account.equityUsd p / (entryPrice - stop) :=
    div_nonneg (mul_nonneg h.equity_pos.le h.risk_pos.le) (sub_pos.mpr h.stop_below).le
  have hfloor : floorToStep (computeRawQuantity (computeRiskBudget account.equityUsd p)
      (computeStopDistance entryPrice stop)) constraints.quantityStep = .ok q := by
    rw [floorToStep_of_pos h.step_pos, computeRawQuantity, computeStopDistance, toStep_eq_floorStep h.step_pos hraw]
    rfl
  have hcap := applyRiskCapAfterRounding_eq h.step_pos constraints.minimumQuantity h.equity_pos
    h.risk_pos.le h.tolerance_nonneg (budgetQuantity_within h (le_refl q))
  simp only [computePositionSizing, if_neg hdistance, hfloor, bind, Except.bind, pure, Except.pure]
  rcases le_or_gt constraints.minimumQuantity q with hle | hlt
  · rw [if_neg (not_le.mpr (h.minimum_pos.trans_le hle)), computeStopDistance, hcap, if_pos hle, if_pos hle]
    exact ⟨_, rfl, rfl, rfl⟩
  · rw [computeStopDistance, hcap, if_neg (not_le.mpr hlt), if_neg (not_le.mpr hlt)]
    split_ifs
    · exact ⟨_, rfl, rfl, rfl⟩
    · exact ⟨_, rfl, rfl, rfl⟩

theorem cappedQuantity_cases (openPositions : List PositionState)
    (h : SizingInput entryPrice stop account constraints p) :
    let q := greatestQuantity entryPrice stop account constraints openPositions p
    (constraints.minimumQuantity ≤ q ∧ ∃ sizing : PositionSizingResult,
      sizing.stopDistanceUsd = entryPrice - stop ∧
        cappedQuantity entryPrice stop account constraints openPositions p = .ok (sizing, q)) ∨
    (q < constraints.minimumQuantity ∧ ∃ e : RiskError,
      cappedQuantity entryPrice stop account constraints openPositions p = .error (.rejected [e] none) ∧
        (e.message = "Quantity zero after rounding" ∨
          e.message = "Quantity insufficient after leverage/margin reduction")) := by
  intro q
  have hqBudget : q ≤ budgetQuantity entryPrice stop account constraints p := greatestQuantity_le_budgetQuantity h
  obtain ⟨sizing, hsizing, hdistance, hrounded⟩ := computePositionSizing_eq h
  rcases lt_or_ge (budgetQuantity entryPrice stop account constraints p) constraints.minimumQuantity with hlt | hle
  · refine .inr ⟨hqBudget.trans_lt hlt, { code := .rejectRiskTrade, message := "Quantity zero after rounding" }, ?_,
      .inl rfl⟩
    rw [if_neg (not_le.mpr hlt)] at hrounded
    simp only [cappedQuantity, hsizing, orRaise, bind, Except.bind, hrounded, le_refl, decide_true, rejectIf,
      ↓reduceIte]
  · rw [if_pos hle] at hrounded
    have hbudget : 0 < budgetQuantity entryPrice stop account constraints p := h.minimum_pos.trans_le hle
    obtain ⟨first, hleverage, hmargin⟩ := caps_eq openPositions h hbudget.le
    have hcap := applyRiskCapAfterRounding_eq h.step_pos constraints.minimumQuantity h.equity_pos
      h.risk_pos.le h.tolerance_nonneg (budgetQuantity_within h (max_le hbudget.le hqBudget))
    have hpositive : rejectIf (sizing.roundedQuantity ≤ 0)
        { code := .rejectRiskTrade, message := "Quantity zero after rounding" } = .ok () := by
      rw [rejectIf_eq_ok, hrounded]
      simpa using hbudget
    have hq : greatestQuantity entryPrice stop account constraints openPositions p = q := rfl
    rw [hq] at hmargin
    rw [← hrounded] at hleverage
    rw [← hdistance] at hcap
    simp only [cappedQuantity, hsizing, orRaise, bind, Except.bind, hpositive, hleverage, hmargin, hcap]
    rcases lt_or_ge q constraints.minimumQuantity with hsmall | hlarge
    · have hmax : ¬ constraints.minimumQuantity ≤ max 0 q := not_le.mpr (max_lt h.minimum_pos hsmall)
      rw [if_neg hmax]
      exact .inr ⟨hsmall, _, rfl, .inr rfl⟩
    · have hqpos : 0 < q := h.minimum_pos.trans_le hlarge
      rw [max_eq_right hqpos.le, if_pos hlarge]
      refine .inl ⟨hlarge, sizing, hdistance, ?_⟩
      have hkeep : rejectIf (q ≤ 0) { code := .rejectLeverage
                                      message := "Quantity insufficient after leverage/margin reduction" } =
          .ok () := by
        rw [rejectIf_eq_ok]
        simpa using hqpos
      simp only [hkeep]
      rfl

end Greatest

section Validation

variable {κ : Type} [DecidableEq κ] {proposal : TradeProposal κ} {account : AccountState}
  {constraints : SymbolConstraints} {openPositions : List PositionState} {openOrders : List (OpenOrderState κ)}
  {processedIntentIds : List κ} {p : RiskParameters} {stop : Decimal}

theorem limitError_eq_none {name : String} {value maximum : Decimal} (h : limitError name value maximum = none) :
    0 < value := by
  by_contra hle
  simp [limitError, not_lt.mp hle] at h

theorem positiveFieldError_eq_none {field : String} {value : Decimal} {code : ConstraintCode}
    (h : positiveFieldError field value code = none) : 0 < value := by
  unfold positiveFieldError at h
  split_ifs at h with _ hle
  exact not_le.mp hle

theorem validateParameters_eq_none (h : validateParameters p = none) :
    0 < p.riskPerTradePct ∧ 0 < p.maxLeverage ∧ 0 ≤ p.riskRoundingTolerance := by
  obtain ⟨hrisk, h⟩ := Option.or_eq_none_iff.mp h
  obtain ⟨_, h⟩ := Option.or_eq_none_iff.mp h
  obtain ⟨hleverage, h⟩ := Option.or_eq_none_iff.mp h
  refine ⟨limitError_eq_none hrisk, limitError_eq_none hleverage, ?_⟩
  by_contra hneg
  split_ifs at h with _ htolerance
  simp [not_le.mp hneg] at htolerance

theorem validateConstraints_eq_none (h : validateConstraints constraints = none) :
    0 < constraints.quantityStep ∧ 0 < constraints.minimumQuantity := by
  have hcore : validateSymbolConstraintsCore constraints = none := Option.map_eq_none_iff.mp h
  obtain ⟨_, hcore⟩ := Option.or_eq_none_iff.mp hcore
  obtain ⟨hstep, hcore⟩ := Option.or_eq_none_iff.mp hcore
  obtain ⟨hminimum, _⟩ := Option.or_eq_none_iff.mp hcore
  exact ⟨positiveFieldError_eq_none hstep, positiveFieldError_eq_none hminimum⟩

theorem margin_nonneg_of_validateAccount (h : validateAccount account = none) : 0 ≤ account.availableMarginUsd := by
  unfold validateAccount at h
  split_ifs at h with _ _ hmargin
  exact not_lt.mp hmargin

theorem sizingInput_of_admissibleStop (h : admissibleStop proposal account constraints openPositions openOrders
      processedIntentIds p = .ok stop) : SizingInput proposal.entryPrice stop account constraints p := by
  obtain ⟨hequity, hentry, _, hstop, _⟩ := admissibleStop_eq_ok h
  obtain ⟨_, hparams, h⟩ := except_bind_eq_ok.mp h
  obtain ⟨_, haccount, h⟩ := except_bind_eq_ok.mp h
  obtain ⟨_, hconstraints, h⟩ := except_bind_eq_ok.mp h
  obtain ⟨hrisk, hleverage, htolerance⟩ := validateParameters_eq_none (rejectOn_eq_ok.mp hparams)
  obtain ⟨hstep, hminimum⟩ := validateConstraints_eq_none (rejectOn_eq_ok.mp hconstraints)
  exact
    { entry_pos := hentry
      stop_below := hstop
      equity_pos := hequity
      margin_nonneg := margin_nonneg_of_validateAccount (rejectOn_eq_ok.mp haccount)
      step_pos := hstep
      minimum_pos := hminimum
      risk_pos := hrisk
      leverage_pos := hleverage
      tolerance_nonneg := htolerance }

end Validation

section Decision

variable {κ : Type} [DecidableEq κ] {proposal : TradeProposal κ} {account : AccountState}
  {constraints : SymbolConstraints} {openPositions : List PositionState} {openOrders : List (OpenOrderState κ)}
  {processedIntentIds : List κ} {p : RiskParameters} {stop q : Decimal}

/-- What decides about a quantity apart from its size. -/
def Acceptable (proposal : TradeProposal κ) (stop : Decimal) (account : AccountState)
    (constraints : SymbolConstraints) (openPositions : List PositionState) (p : RiskParameters) (q : Decimal) : Prop :=
  constraints.minimumNotional ≤ q * proposal.entryPrice ∧
    currentOpenRiskUsd openPositions + q * (proposal.entryPrice - stop) ≤ account.equityUsd * p.maxPortfolioRiskPct

/-- The rejections that a quantity within the caps never meets. -/
def afterSizingMessages : List String :=
  ["Effective leverage exceeds max_leverage", "Insufficient available margin"]

omit [DecidableEq κ] in
/-- A quantity that fits passes the last two checks whatever the ones before them say. -/
theorem decideQuantity_cases {sizing : PositionSizingResult} (hequity : 0 < account.equityUsd)
    (hfits : Fits proposal.entryPrice stop account constraints openPositions p q)
    (hminimum : constraints.minimumQuantity ≤ q) (hdistance : sizing.stopDistanceUsd = proposal.entryPrice - stop) :
    (Acceptable proposal stop account constraints openPositions p q ∧ ∃ d,
      decideQuantity proposal stop account constraints openPositions p sizing q = .ok d ∧
        d.approved = true ∧ d.roundedQuantity = some q ∧ d.errors = []) ∨
    (¬ Acceptable proposal stop account constraints openPositions p q ∧ ∃ e current,
      decideQuantity proposal stop account constraints openPositions p sizing q = .error (.rejected [e] current) ∧
        e.message ∉ afterSizingMessages) := by
  have hsize : ¬ q < constraints.minimumQuantity := not_lt.mpr hminimum
  by_cases hnotional : q * proposal.entryPrice < constraints.minimumNotional
  · refine .inr ⟨fun h => absurd h.1 (not_le.mpr hnotional),
      { code := .rejectRiskTrade, message := "Minimum notional not met" }, none, ?_, by decide⟩
    simp only [decideQuantity, hsize, bind, Except.bind, rejectIf, hnotional, decide_true, decide_false,
      ↓reduceIte, Bool.false_eq_true]
  · by_cases hrisk : account.equityUsd * p.maxPortfolioRiskPct <
        currentOpenRiskUsd openPositions + q * (proposal.entryPrice - stop)
    · refine .inr ⟨fun h => absurd h.2 (not_le.mpr hrisk),
        { code := .rejectRiskPortfolio, message := "Projected portfolio risk exceeds limit" },
        some (currentOpenRiskUsd openPositions), ?_, by decide⟩
      simp only [decideQuantity, hsize, bind, Except.bind, rejectIf, hnotional, buildPortfolioSnapshot, hdistance,
        hrisk, decide_true, decide_false, ↓reduceIte, Bool.false_eq_true]
    · refine .inl ⟨⟨not_lt.mp hnotional, not_lt.mp hrisk⟩, ?_⟩
      have hleverage := not_lt.mpr hfits.leverage
      have hmargin := not_lt.mpr hfits.margin
      simp only [decideQuantity, hsize, bind, Except.bind, rejectIf, hnotional, buildPortfolioSnapshot, hdistance,
        hrisk, if_pos hequity, hleverage, hmargin, decide_false, ↓reduceIte, Bool.false_eq_true]
      refine ⟨_, rfl, ?_⟩
      exact ⟨rfl, rfl, rfl⟩

theorem evaluate_decided {sizing : PositionSizingResult} {d : RiskDecision}
    (h : admissibleStop proposal account constraints openPositions openOrders processedIntentIds p = .ok stop)
    (hcapped : cappedQuantity proposal.entryPrice stop account constraints openPositions p = .ok (sizing, q))
    (hd : decideQuantity proposal stop account constraints openPositions p sizing q = .ok d) :
    evaluate proposal account constraints openPositions openOrders processedIntentIds p = .ok d := by
  unfold evaluate
  rw [h]
  dsimp only [bind, Except.bind]
  rw [hcapped]
  dsimp only
  rw [hd]

theorem evaluate_rejected {sizing : PositionSizingResult} {e : RiskError} {current : Option Decimal}
    (h : admissibleStop proposal account constraints openPositions openOrders processedIntentIds p = .ok stop)
    (hcapped : cappedQuantity proposal.entryPrice stop account constraints openPositions p = .ok (sizing, q))
    (hd : decideQuantity proposal stop account constraints openPositions p sizing q =
      .error (.rejected [e] current)) :
    evaluate proposal account constraints openPositions openOrders processedIntentIds p =
      .ok (reject proposal p [e] current) := by
  unfold evaluate
  rw [h]
  dsimp only [bind, Except.bind]
  rw [hcapped]
  dsimp only
  rw [hd]

theorem evaluate_not_capped {e : RiskError}
    (h : admissibleStop proposal account constraints openPositions openOrders processedIntentIds p = .ok stop)
    (hcapped : cappedQuantity proposal.entryPrice stop account constraints openPositions p =
      .error (.rejected [e] none)) :
    evaluate proposal account constraints openPositions openOrders processedIntentIds p =
      .ok (reject proposal p [e] none) := by
  unfold evaluate
  rw [h]
  dsimp only [bind, Except.bind]
  rw [hcapped]

/-- Sizing approves the greatest quantity on the step that fits the budget and the caps, whenever it is large
enough and acceptable; the last leverage and margin checks never reject. -/
theorem sizing_maximal (h : admissibleStop proposal account constraints openPositions openOrders
      processedIntentIds p = .ok stop) :
    ∃ q d, IsGreatest {q | Fits proposal.entryPrice stop account constraints openPositions p q} q ∧
      evaluate proposal account constraints openPositions openOrders processedIntentIds p = .ok d ∧
      (d.approved = true ↔ constraints.minimumQuantity ≤ q ∧
        Acceptable proposal stop account constraints openPositions p q) ∧
      (d.approved = true → d.roundedQuantity = some q) ∧ ∀ e ∈ d.errors, e.message ∉ afterSizingMessages := by
  have hinput := sizingInput_of_admissibleStop h
  have hgreatest := isGreatest_greatestQuantity openPositions hinput
  refine ⟨greatestQuantity proposal.entryPrice stop account constraints openPositions p, ?_⟩
  rcases cappedQuantity_cases openPositions hinput with
    ⟨hminimum, sizing, hdistance, hcapped⟩ | ⟨hsmall, e, hcapped, hmessage⟩
  · rcases decideQuantity_cases hinput.equity_pos hgreatest.1 hminimum hdistance with
      ⟨hacceptable, d, hd, happroved, hq, herrors⟩ | ⟨hnot, e, current, hd, hmessage⟩
    · refine ⟨d, hgreatest, evaluate_decided h hcapped hd, ?_, fun _ => hq, ?_⟩
      · exact ⟨fun _ => ⟨hminimum, hacceptable⟩, fun _ => happroved⟩
      · rw [herrors]
        simp
    · refine ⟨reject proposal p [e] current, hgreatest, evaluate_rejected h hcapped hd, ?_, ?_, ?_⟩
      · exact ⟨fun happroved => (by cases happroved), fun ⟨_, hacceptable⟩ => absurd hacceptable hnot⟩
      · intro happroved
        cases happroved
      · exact List.forall_mem_singleton.mpr hmessage
  · refine ⟨reject proposal p [e] none, hgreatest, evaluate_not_capped h hcapped, ?_, ?_, ?_⟩
    · exact ⟨fun happroved => (by cases happroved), fun ⟨hminimum, _⟩ => absurd hminimum (not_le.mpr hsmall)⟩
    · intro happroved
      cases happroved
    · refine List.forall_mem_singleton.mpr ?_
      rcases hmessage with hmessage | hmessage
      · rw [hmessage]
        decide
      · rw [hmessage]
        decide

theorem sizing_maximal_sample : ∃ q d,
    IsGreatest {q | Fits sampleProposal.entryPrice 75 sampleAccount sampleConstraints [] {} q} q ∧
      evaluate sampleProposal sampleAccount sampleConstraints [] [] [] {} = .ok d ∧
      (d.approved = true ↔ sampleConstraints.minimumQuantity ≤ q ∧
        Acceptable sampleProposal 75 sampleAccount sampleConstraints [] {} q) := by
  have hstop : (match admissibleStop sampleProposal sampleAccount sampleConstraints [] [] [] {} with
      | .ok stop => decide (stop = 75)
      | .error _ => false) = true := by decide +kernel
  have hok : admissibleStop sampleProposal sampleAccount sampleConstraints [] [] [] {} = .ok 75 := by
    split at hstop
    · rename_i stop heq
      rw [heq, of_decide_eq_true hstop]
    · cases hstop
  obtain ⟨q, d, hgreatest, hd, happroved, _⟩ := sizing_maximal hok
  exact ⟨q, d, hgreatest, hd, happroved⟩

end Decision

end TradingBot.Risk.Maximality
