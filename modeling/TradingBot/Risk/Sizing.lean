import TradingBot.Library.Truncation
import TradingBot.Risk.Models

namespace TradingBot.Risk.Sizing

open Market.Models Exceptions Library.Truncation Risk.Models

section Rounding

def floorToStep (value step : Decimal) : Except Exc Decimal :=
  if step ≤ 0 then .error (.valueError "step must be positive") else .ok (toStep step value)

def roundToTick (price tickSize : Decimal) : Except Exc Decimal :=
  if tickSize ≤ 0 then .error (.valueError "tick_size must be positive") else .ok (toStep tickSize price)

end Rounding

section Quantity

def computeStopDistance (entryPrice stopPrice : Decimal) : Decimal := entryPrice - stopPrice

def computeRiskBudget (equityUsd : Decimal) (params : RiskParameters) : Decimal :=
  equityUsd * params.riskPerTradePct

def computeRawQuantity (riskBudgetUsd stopDistanceUsd : Decimal) : Decimal := riskBudgetUsd / stopDistanceUsd

/-- The loop goes down step by step; the whole number of steps down to the minimum bounds its turns. -/
def reduceToBudget (stopDistanceUsd equityUsd riskBudgetUsd quantityStep minimumQuantity tradeLimit : Decimal) :
    ℕ → Decimal → Except Exc (Option Decimal)
  | 0, _ => .ok none
  | fuel + 1, qty =>
    if qty < minimumQuantity then .ok none
    else if equityUsd = 0 then .error .divisionByZero
    else if qty * stopDistanceUsd ≤ riskBudgetUsd ∧ qty * stopDistanceUsd / equityUsd ≤ tradeLimit then
      .ok (some qty)
    else do
      let next ← floorToStep (qty - quantityStep) quantityStep
      if next = qty then pure none
      else
        reduceToBudget stopDistanceUsd equityUsd riskBudgetUsd quantityStep minimumQuantity tradeLimit
          fuel next

def turnsFor (quantity quantityStep minimumQuantity : Decimal) : ℕ :=
  (⌊(quantity - minimumQuantity) / quantityStep⌋ + 2).toNat

def applyRiskCapAfterRounding (quantity stopDistanceUsd equityUsd riskBudgetUsd quantityStep
    minimumQuantity : Decimal) (params : RiskParameters) : Except Exc (Option Decimal) :=
  reduceToBudget stopDistanceUsd equityUsd riskBudgetUsd quantityStep minimumQuantity
    (params.riskPerTradePct * (1 + params.riskRoundingTolerance)) (turnsFor quantity quantityStep minimumQuantity)
    quantity

def sizingResult (riskBudgetUsd stopDistanceUsd rawQuantity quantity equityUsd : Decimal) :
    PositionSizingResult :=
  { riskBudgetUsd, stopDistanceUsd, rawQuantity
    roundedQuantity := quantity
    actualTradeRiskUsd := quantity * stopDistanceUsd
    actualTradeRiskPct := quantity * stopDistanceUsd / equityUsd }

def computePositionSizing (equityUsd entryPrice stopPrice quantityStep minimumQuantity : Decimal)
    (params : RiskParameters) : Except Exc (Option PositionSizingResult) :=
  let stopDistance := computeStopDistance entryPrice stopPrice
  if stopDistance ≤ 0 then .ok none
  else do
    let riskBudget := computeRiskBudget equityUsd params
    let rawQty := computeRawQuantity riskBudget stopDistance
    let rounded ← floorToStep rawQty quantityStep
    if rounded ≤ 0 then pure (some (sizingResult riskBudget stopDistance rawQty 0 equityUsd))
    else do
      let final ← applyRiskCapAfterRounding rounded stopDistance equityUsd riskBudget quantityStep
        minimumQuantity params
      pure (some (sizingResult riskBudget stopDistance rawQty (final.getD 0) equityUsd))

def capQuantityForLeverage (quantity entryPrice equityUsd totalNotionalUsd quantityStep
    maxLeverage : Decimal) : Except Exc Decimal :=
  if (totalNotionalUsd + quantity * entryPrice) / equityUsd ≤ maxLeverage then .ok quantity
  else
    let maxNewNotional := maxLeverage * equityUsd - totalNotionalUsd
    if maxNewNotional ≤ 0 then .ok 0
    else do
      let capped ← floorToStep (maxNewNotional / entryPrice) quantityStep
      pure (min quantity capped)

def capQuantityForMargin (quantity entryPrice availableMarginUsd maxLeverage quantityStep : Decimal) :
    Except Exc Decimal :=
  if availableMarginUsd < 0 then .ok 0
  else if quantity * entryPrice / maxLeverage ≤ availableMarginUsd then .ok quantity
  else
    let maxNotional := availableMarginUsd * maxLeverage
    if maxNotional ≤ 0 then .ok 0
    else do
      let capped ← floorToStep (maxNotional / entryPrice) quantityStep
      pure (min quantity capped)

end Quantity

section Portfolio

def effectiveStop (stopInitial trailStop : Decimal) : Decimal := max stopInitial trailStop

def openRiskUsd (p : PositionState) : Decimal :=
  p.positionSize * max 0 (p.entryPrice - effectiveStop p.stopInitial p.trailStop)

def currentOpenRiskUsd (positions : List PositionState) : Decimal := (positions.map openRiskUsd).sum

def totalNotionalUsd (positions : List PositionState) : Decimal :=
  (positions.map fun p => p.positionSize * p.markPrice).sum

def buildPortfolioSnapshot (equityUsd : Decimal) (positions : List PositionState)
    (newEntryPrice newQuantity newStopDistance : Decimal) : PortfolioRiskSnapshot :=
  let current := currentOpenRiskUsd positions
  let projected := current + newQuantity * newStopDistance
  let totalNotional := totalNotionalUsd positions
  let projectedNotional := totalNotional + newQuantity * newEntryPrice
  let equity := if 0 < equityUsd then equityUsd else 1
  { currentOpenRiskUsd := current
    currentOpenRiskPct := current / equity
    projectedPortfolioRiskUsd := projected
    projectedPortfolioRiskPct := projected / equity
    totalNotionalUsd := totalNotional
    projectedNotionalUsd := projectedNotional
    effectiveLeverage := projectedNotional / equity }

end Portfolio

end TradingBot.Risk.Sizing
