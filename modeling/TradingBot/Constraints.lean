import TradingBot.Exceptions

namespace TradingBot.Constraints

open Market.Models Exceptions

structure SymbolConstraints where
  quantityStep : Decimal
  minimumQuantity : Decimal
  minimumNotional : Decimal := 0
  priceTickSize : Decimal
deriving DecidableEq, Repr

inductive ConstraintCode
  | invalidTickSize | invalidQuantityStep | invalidMinQuantity | invalidMinNotional
  | precisionMismatch
deriving DecidableEq, Repr

structure ConstraintValidationError where
  field : String
  code : ConstraintCode
  message : String
deriving DecidableEq, Repr

def positiveFieldError (field : String) (value : Decimal) (code : ConstraintCode) :
    Option ConstraintValidationError :=
  if !isFiniteFloat value then some ⟨field, code, field ++ " must be finite"⟩
  else if value ≤ 0 then some ⟨field, code, field ++ " must be > 0"⟩
  else none

def isStepAligned (value step : Decimal) : Bool :=
  if step ≤ 0 then false else (value / step).den = 1

def validateSymbolConstraintsCore (c : SymbolConstraints) : Option ConstraintValidationError :=
  (positiveFieldError "price_tick_size" c.priceTickSize .invalidTickSize).or <|
  (positiveFieldError "quantity_step" c.quantityStep .invalidQuantityStep).or <|
  (positiveFieldError "minimum_quantity" c.minimumQuantity .invalidMinQuantity).or <|
  if !isFiniteFloat c.minimumNotional then
    some ⟨"minimum_notional", .invalidMinNotional, "minimum_notional must be finite"⟩
  else if c.minimumNotional < 0 then
    some ⟨"minimum_notional", .invalidMinNotional, "minimum_notional must be >= 0"⟩
  else if c.minimumQuantity < c.quantityStep then
    some ⟨"minimum_quantity", .precisionMismatch, "minimum_quantity below quantity_step"⟩
  else if !isStepAligned c.minimumQuantity c.quantityStep then
    some ⟨"minimum_quantity", .precisionMismatch, "minimum_quantity not aligned to quantity_step"⟩
  else none

def validateSymbolConstraints : Option SymbolConstraints → Except Exc SymbolConstraints
  | none => .error (.missingSymbolConstraints "SymbolConstraints must be explicitly provided")
  | some c => match validateSymbolConstraintsCore c with
    | some violation =>
      .error (.missingSymbolConstraints ("Invalid SymbolConstraints: " ++ violation.message))
    | none => .ok c

def productionErrorCode : ConstraintCode → String
  | .invalidTickSize => "PERMANENT_CONFIGURATION_INVALID_TICK_SIZE"
  | .invalidQuantityStep => "PERMANENT_CONFIGURATION_INVALID_QUANTITY_STEP"
  | .invalidMinQuantity => "PERMANENT_CONFIGURATION_INVALID_MIN_QUANTITY"
  | .invalidMinNotional => "PERMANENT_CONFIGURATION_INVALID_MIN_NOTIONAL"
  | .precisionMismatch => "PERMANENT_CONFIGURATION_PRECISION_MISMATCH"

def requireValidProductionConstraints (symbol : Symbol) :
    Option SymbolConstraints → Except Exc SymbolConstraints
  | none => .error (.permanentConfigurationFailure "PERMANENT_CONFIGURATION_FAILURE"
      ("missing symbol constraints for " ++ symbol.value))
  | some c => match validateSymbolConstraintsCore c with
    | some violation => .error (.permanentConfigurationFailure (productionErrorCode violation.code)
        ("invalid " ++ violation.field ++ " for " ++ symbol.value ++ ": " ++ violation.message))
    | none => .ok c

end TradingBot.Constraints
