import TradingBot.Risk.Sizing

namespace TradingBot.Risk.Engine

open Market.Models Strategy.Models Exceptions Constraints Risk.Models Risk.Sizing

section Validation

def validateAccount (account : AccountState) : Option RiskError :=
  if !isFiniteFloat account.equityUsd || !isFiniteFloat account.availableMarginUsd then
    some { code := .rejectData, message := "Account values must be finite" }
  else if account.equityUsd ≤ 0 then
    some { code := .rejectData, message := "Equity must be greater than zero" }
  else if account.availableMarginUsd < 0 then
    some { code := .rejectData, message := "Available margin must not be negative" }
  else none

def constraintCodeValue : ConstraintCode → String
  | .invalidTickSize => "INVALID_TICK_SIZE"
  | .invalidQuantityStep => "INVALID_QUANTITY_STEP"
  | .invalidMinQuantity => "INVALID_MIN_QUANTITY"
  | .invalidMinNotional => "INVALID_MIN_NOTIONAL"
  | .precisionMismatch => "PRECISION_MISMATCH"

def validateConstraints (constraints : SymbolConstraints) : Option RiskError :=
  (validateSymbolConstraintsCore constraints).map fun violation =>
    { code := .rejectData
      message := violation.message
      details := [("field", .text violation.field), ("code", .text (constraintCodeValue violation.code))] }

/-- The check made of each parameter with a frozen maximum. -/
def limitError (name : String) (value maximum : Decimal) : Option RiskError :=
  if !isFiniteFloat value || decide (value ≤ 0 ∨ maximum < value) then
    some { code := .rejectData
           message := "Invalid " ++ name ++ " for Specification Freeze 1.0"
           details := [(name, .decimal value), ("maximum", .decimal maximum)] }
  else none

def validateParameters (params : RiskParameters) : Option RiskError :=
  (limitError "risk_per_trade_pct" params.riskPerTradePct defaultRiskPerTradePct).or <|
  (limitError "max_portfolio_risk_pct" params.maxPortfolioRiskPct defaultMaxPortfolioRiskPct).or <|
  (limitError "max_leverage" params.maxLeverage defaultMaxLeverage).or <|
  if params.maxOpenPositions ≤ 0 ∨ defaultMaxOpenPositions < params.maxOpenPositions then
    some { code := .rejectData, message := "Invalid max_open_positions for Specification Freeze 1.0" }
  else if !isFiniteFloat params.riskRoundingTolerance || decide (params.riskRoundingTolerance < 0) then
    some { code := .rejectData, message := "Invalid risk_rounding_tolerance" }
  else none

/-- The check made of each number of an open position. -/
def positionFieldError (p : PositionState) (name : String) (value : Decimal) : Option RiskError :=
  if !isFiniteFloat value || decide (value ≤ 0) then
    some { code := .rejectData
           message := "Invalid open-position " ++ name
           details := [("symbol", .text p.symbol), (name, .decimal value)] }
  else none

def openPositionError (p : PositionState) : Option RiskError :=
  (positionFieldError p "entry_price" p.entryPrice).or <|
  (positionFieldError p "position_size" p.positionSize).or <|
  (positionFieldError p "stop_initial" p.stopInitial).or <|
  (positionFieldError p "trail_stop" p.trailStop).or <|
  (positionFieldError p "mark_price" p.markPrice).or <|
  if p.entryPrice ≤ p.stopInitial then
    some { code := .rejectData
           message := "Open-position initial stop must be below entry price"
           details := [("symbol", .text p.symbol)] }
  else none

def validateOpenPositions (seenSymbols : List String) : List PositionState → Option RiskError
  | [] => none
  | p :: positions =>
    if p.symbol = "" ∨ p.symbol ∈ seenSymbols then
      some { code := .rejectData, message := "Invalid or duplicate symbol in open positions" }
    else (openPositionError p).or (validateOpenPositions (p.symbol :: seenSymbols) positions)

def errorIf (condition : Bool) (e : RiskError) : List RiskError := if condition then [e] else []

def priceError (name : String) (value : Decimal) : List RiskError :=
  errorIf (!isFiniteFloat value || decide (value ≤ 0))
    { code := .rejectData, message := "Invalid " ++ name }

def validateProposal {κ : Type} (p : TradeProposal κ) : List RiskError :=
  errorIf (p.side ≠ .long)
    { code := .rejectData, message := "V1 is long-only; short proposals rejected" } ++
  priceError "entry_price" p.entryPrice ++ priceError "stop_price" p.stopPrice ++
  errorIf (p.atr14.any fun atr => !isFiniteFloat atr || decide (atr ≤ 0))
    { code := .rejectData, message := "Invalid ATR14" } ++
  errorIf (p.signalIntentKind ≠ .longEntry)
    { code := .rejectNoSignal, message := "Signal intent must be LONG_ENTRY" } ++
  errorIf (!p.strategyApproved) { code := .rejectNoSignal, message := "Strategy approval missing" } ++
  errorIf (p.marketDataStatus ≠ .ok)
    { code := .rejectData, message := "Market data not OK"
      details := [("status", .text p.marketDataStatus.value)] } ++
  errorIf (p.botSystemState ≠ .active)
    { code := .rejectData, message := "Bot system state does not allow entries"
      details := [("state", .text p.botSystemState.value)] }

def validateLongStop (entryPrice stopPrice : Decimal) : Option RiskError :=
  if entryPrice ≤ stopPrice then
    some { code := .rejectData, message := "Long stop must be below entry price" }
  else if entryPrice - stopPrice ≤ 0 then
    some { code := .rejectData, message := "Stop distance must be positive" }
  else none

def lossLimitError (label : String) (enabled : Bool) (maxLossPct : Option Decimal)
    (realizedPnlUsd equityUsd : Decimal) : Option RiskError :=
  if !enabled then none
  else match maxLossPct with
  | none => some { code := .rejectData
                   message := label ++ " loss limit configuration or account value invalid" }
  | some limit =>
    if !isFiniteFloat limit || decide (limit < 0) || !isFiniteFloat realizedPnlUsd then
      some { code := .rejectData, message := label ++ " loss limit configuration or account value invalid" }
    else if realizedPnlUsd < 0 ∧ limit < |realizedPnlUsd| / equityUsd then
      some { code := .rejectData, message := label ++ " loss limit reached" }
    else none

def drawdownError (enabled : Bool) (maxDrawdownPct peakEquityUsd : Option Decimal) (equityUsd : Decimal) :
    Option RiskError :=
  if !enabled then none
  else match maxDrawdownPct, peakEquityUsd with
  | some limit, some peak =>
    if !isFiniteFloat limit || decide (limit < 0) || !isFiniteFloat peak || decide (peak ≤ 0) then
      some { code := .rejectData, message := "Drawdown limit enabled but configuration incomplete" }
    else if limit < (peak - equityUsd) / peak then
      some { code := .rejectData, message := "Drawdown limit reached" }
    else none
  | _, _ => some { code := .rejectData, message := "Drawdown limit enabled but configuration incomplete" }

def checkLossLimits (account : AccountState) (params : RiskParameters) : Option RiskError :=
  let cfg := params.lossLimits
  (lossLimitError "Daily" cfg.dailyLossLimitEnabled cfg.maxDailyLossPct account.dailyRealizedPnlUsd
    account.equityUsd).or <|
  (lossLimitError "Weekly" cfg.weeklyLossLimitEnabled cfg.maxWeeklyLossPct account.weeklyRealizedPnlUsd
    account.equityUsd).or <|
  drawdownError cfg.drawdownLimitEnabled cfg.maxDrawdownPct account.peakEquityUsd account.equityUsd

end Validation

section Evaluation

/-- Why an evaluation ends early: it raises, or it rejects with its errors. -/
inductive Stop
  | raised (e : Exc)
  | rejected (errors : List RiskError) (currentOpenRiskUsd : Option Decimal)

def orRaise {α : Type} : Except Exc α → Except Stop α
  | .ok a => .ok a
  | .error e => .error (.raised e)

def rejectIf (condition : Bool) (e : RiskError) (currentOpenRiskUsd : Option Decimal := none) :
    Except Stop Unit :=
  if condition then .error (.rejected [e] currentOpenRiskUsd) else .ok ()

def rejectOn : Option RiskError → Except Stop Unit
  | some e => .error (.rejected [e] none)
  | none => .ok ()

def rejectAll : List RiskError → Except Stop Unit
  | [] => .ok ()
  | errors => .error (.rejected errors none)

variable {κ : Type} [DecidableEq κ]

def admissibleStop (proposal : TradeProposal κ) (account : AccountState) (constraints : SymbolConstraints)
    (openPositions : List PositionState) (openOrders : List (OpenOrderState κ))
    (processedIntentIds : List κ) (p : RiskParameters) : Except Stop Decimal := do
  rejectOn (validateParameters p)
  rejectOn (validateAccount account)
  rejectOn (validateConstraints constraints)
  rejectAll (validateProposal proposal)
  rejectOn (validateOpenPositions [] openPositions)
  rejectOn (checkLossLimits account p)
  let stopPrice ← orRaise (roundToTick proposal.stopPrice constraints.priceTickSize)
  rejectOn (validateLongStop proposal.entryPrice stopPrice)
  rejectIf (proposal.clientIntentId ∈ processedIntentIds)
    { code := .rejectData, message := "Duplicate client_intent_id already processed" }
  rejectIf (openPositions.any (·.symbol = proposal.symbol))
    { code := .rejectDuplicateSymbol, message := "Position already open for symbol" }
  rejectIf (openOrders.any fun o => decide (o.symbol = proposal.symbol) && o.isEntry)
    { code := .rejectDuplicateSymbol, message := "Conflicting open entry order for symbol" }
  rejectIf (p.maxOpenPositions ≤ openPositions.length)
    { code := .rejectMaxPositions, message := "Maximum open positions reached" }
  pure stopPrice

def cappedQuantity (entryPrice stopPrice : Decimal) (account : AccountState)
    (constraints : SymbolConstraints) (openPositions : List PositionState) (p : RiskParameters) :
    Except Stop (PositionSizingResult × Decimal) := do
  let sizing ← orRaise (computePositionSizing account.equityUsd entryPrice stopPrice
    constraints.quantityStep constraints.minimumQuantity p)
  match sizing with
  | none => .error (.rejected [{ code := .rejectData, message := "Invalid stop distance" }] none)
  | some sizing => do
    rejectIf (sizing.roundedQuantity ≤ 0)
      { code := .rejectRiskTrade, message := "Quantity zero after rounding" }
    let quantity ← orRaise (capQuantityForLeverage sizing.roundedQuantity entryPrice account.equityUsd
      (totalNotionalUsd openPositions) constraints.quantityStep p.maxLeverage)
    let quantity ← orRaise (capQuantityForMargin quantity entryPrice account.availableMarginUsd
      p.maxLeverage constraints.quantityStep)
    let capped ← orRaise (applyRiskCapAfterRounding quantity sizing.stopDistanceUsd account.equityUsd
      (computeRiskBudget account.equityUsd p) constraints.quantityStep constraints.minimumQuantity p)
    match capped with
    | none => .error (.rejected [{ code := .rejectLeverage
                                   message := "Quantity insufficient after leverage/margin reduction" }] none)
    | some quantity => do
      rejectIf (quantity ≤ 0)
        { code := .rejectLeverage, message := "Quantity insufficient after leverage/margin reduction" }
      pure (sizing, quantity)

/-- The last checks, made with the quantity that is to be approved. -/
def decideQuantity (proposal : TradeProposal κ) (stopPrice : Decimal) (account : AccountState)
    (constraints : SymbolConstraints) (openPositions : List PositionState) (p : RiskParameters)
    (sizing : PositionSizingResult) (quantity : Decimal) : Except Stop RiskDecision := do
  rejectIf (quantity < constraints.minimumQuantity)
    { code := .rejectRiskTrade, message := "Minimum quantity not met" }
  let notional := quantity * proposal.entryPrice
  rejectIf (notional < constraints.minimumNotional)
    { code := .rejectRiskTrade, message := "Minimum notional not met" }
  let portfolio := buildPortfolioSnapshot account.equityUsd openPositions proposal.entryPrice quantity
    sizing.stopDistanceUsd
  let current := some portfolio.currentOpenRiskUsd
  rejectIf (account.equityUsd * p.maxPortfolioRiskPct < portfolio.projectedPortfolioRiskUsd)
    { code := .rejectRiskPortfolio, message := "Projected portfolio risk exceeds limit" } current
  rejectIf (p.maxLeverage < portfolio.effectiveLeverage)
    { code := .rejectLeverage, message := "Effective leverage exceeds max_leverage" } current
  let requiredMargin := notional / p.maxLeverage
  rejectIf (account.availableMarginUsd < requiredMargin)
    { code := .rejectLeverage, message := "Insufficient available margin" } current
  let actualRisk := quantity * sizing.stopDistanceUsd
  pure
    { approved := true
      symbol := proposal.symbol
      requestedEntryPrice := proposal.entryPrice
      requestedStopPrice := stopPrice
      rawQuantity := some sizing.rawQuantity
      roundedQuantity := some quantity
      actualTradeRiskUsd := some actualRisk
      actualTradeRiskPct := some (actualRisk / account.equityUsd)
      currentOpenRiskUsd := some portfolio.currentOpenRiskUsd
      projectedPortfolioRiskUsd := some portfolio.projectedPortfolioRiskUsd
      projectedPortfolioRiskPct := some portfolio.projectedPortfolioRiskPct
      requiredMarginUsd := some requiredMargin
      effectiveLeverage := some portfolio.effectiveLeverage
      reasonCodes := [.riskApproved]
      strategyVersion := p.strategyVersion
      riskSpecificationVersion := p.riskSpecificationVersion
      errors := [] }

def reject (proposal : TradeProposal κ) (p : RiskParameters) (errors : List RiskError)
    (currentOpenRiskUsd : Option Decimal) : RiskDecision :=
  { approved := false
    symbol := proposal.symbol
    requestedEntryPrice := proposal.entryPrice
    requestedStopPrice := proposal.stopPrice
    currentOpenRiskUsd
    reasonCodes := errors.map (·.code)
    strategyVersion := p.strategyVersion
    riskSpecificationVersion := p.riskSpecificationVersion
    errors }

def evaluate (proposal : TradeProposal κ) (account : AccountState) (constraints : SymbolConstraints)
    (openPositions : List PositionState) (openOrders : List (OpenOrderState κ))
    (processedIntentIds : List κ) (p : RiskParameters) : Except Exc RiskDecision :=
  let decision : Except Stop RiskDecision := do
    let stopPrice ← admissibleStop proposal account constraints openPositions openOrders
      processedIntentIds p
    let (sizing, quantity) ← cappedQuantity proposal.entryPrice stopPrice account constraints openPositions p
    decideQuantity proposal stopPrice account constraints openPositions p sizing quantity
  match decision with
  | .ok d => .ok d
  | .error (.raised e) => .error e
  | .error (.rejected errors current) => .ok (reject proposal p errors current)

end Evaluation

end TradingBot.Risk.Engine
