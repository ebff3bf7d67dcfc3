import TradingBot.Market.Models

namespace TradingBot.Exceptions

open Market.Models

inductive SchedulerJobName
  | readinessCheck | dailySignalEvaluation | nextOpenFillProcessing | dailyStopUpdate
  | stopTriggerProcessing | intradayStopProcessing | fundingProcessing | portfolioSnapshot
  | runtimeHeartbeat
deriving DecidableEq, Repr

inductive MarketEventType
  | dailyOpenAvailable | dailyLiveUpdate | dailyClosed | weeklyClosed | monthlyClosed
deriving DecidableEq, Repr

/-- The names under which scheduler runs are stored. The bridge's names carry the symbol and the
candle's open time to the second; a live update also carries a digest of the observed low. -/
inductive JobName
  | scheduler (job : SchedulerJobName)
  | marketEvent (type : MarketEventType) (symbol : Symbol) (seconds : ℤ)
  | dailyLive (symbol : Symbol) (seconds : ℤ) (lowDigest : ℕ)
  | dailyOpenGap (symbol : Symbol) (seconds : ℤ)
  | dailyOpenFill (symbol : Symbol) (seconds : ℤ)
  | dailyOpenSnapshot (symbol : Symbol) (seconds : ℤ)
  | recovery (type : MarketEventType) (symbol : Symbol) (seconds : ℤ) (generation : ℕ)
deriving DecidableEq, Repr

def JobName.isRecovery : JobName → Bool
  | .recovery .. => true
  | _ => false

/-- The exceptions the program raises, with the text each carries. -/
inductive Exc
  | valueError (message : String)
  | lookupError (message : String)
  | indexError (message : String)
  | typeError (message : String)
  | runtimeError (message : String)
  | assertionError
  | divisionByZero
  | invalidTransition (message : String)
  | missingSymbolConstraints (message : String)
  | multipleResultsFound
  | noResultFound
  | integrityError (constraint : String)
  | databaseError
  | retryableContextNotReady (message : String)
  | retryableSchedulerDeferred (message : String)
  | fillNotDue
  | dailyEvaluationNotDue
  | permanentConfigurationFailure (code message : String)
  | dailyOpenSequenceFailure (subjobName : JobName) (message : String)
deriving DecidableEq, Repr

def Exc.str : Exc → String
  | .valueError m | .lookupError m | .indexError m | .typeError m | .runtimeError m => m
  | .assertionError => ""
  | .divisionByZero => "division by zero"
  | .invalidTransition m | .missingSymbolConstraints m => m
  | .multipleResultsFound => "Multiple rows were found when one or none was required"
  | .noResultFound => "No row was found when one was required"
  | .integrityError c => c
  | .databaseError => "database error"
  | .retryableContextNotReady m | .retryableSchedulerDeferred m => m
  | .fillNotDue => "entry fill not yet due"
  | .dailyEvaluationNotDue => "daily evaluation not yet due"
  | .permanentConfigurationFailure _ m => m
  | .dailyOpenSequenceFailure _ m => m

def permanentConfigurationErrorCodes : List String :=
  ["PERMANENT_CONFIGURATION_FAILURE",
   "PERMANENT_CONFIGURATION_INVALID_TICK_SIZE",
   "PERMANENT_CONFIGURATION_INVALID_QUANTITY_STEP",
   "PERMANENT_CONFIGURATION_INVALID_MIN_QUANTITY",
   "PERMANENT_CONFIGURATION_INVALID_MIN_NOTIONAL",
   "PERMANENT_CONFIGURATION_SYMBOL_MISMATCH",
   "PERMANENT_CONFIGURATION_PRECISION_MISMATCH"]

def isPermanentConfigurationError : Option String → Bool
  | none => false
  | some error => error ∈ permanentConfigurationErrorCodes

/-- `DAILY_EVALUATION_NOT_DUE` is a deferral too, but it is not in this list. -/
def retryableMarketEventErrorCodes : List String :=
  ["RETRYABLE_CONTEXT_NOT_READY", "FILL_NOT_DUE", "RETRYABLE_SCHEDULER_DEFERRED"]

def isRetryableMarketEventError : Option String → Bool
  | none => false
  | some error => error ∈ retryableMarketEventErrorCodes

end TradingBot.Exceptions
