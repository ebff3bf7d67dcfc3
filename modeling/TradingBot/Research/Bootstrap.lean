import TradingBot.Library.OrderStatistics
import TradingBot.Research.GateEvaluator
import TradingBot.Research.WalkForward

namespace TradingBot.Research.Bootstrap

open Market.Models Library.Dictionary Library.OverlayLog Library.OrderStatistics
open Research.Artifacts Research.Registry Research.Robustness Research.GateEvaluator
open Research.WalkForward (twoDigits ofDigitChars_twoDigits isDigit_of_mem_twoDigits)
open Library.Outcome (except_bind_eq_ok mapError_eq_ok_iff)

section Quantiles

def quantile (sortedVals : List Decimal) (q : Decimal) : Except ResearchError Decimal :=
  if sortedVals = [] then .error (.valueError "empty")
  else if q ≤ 0 then .ok (sortedVals.getD 0 0)
  else if 1 ≤ q then .ok (sortedVals.getD (sortedVals.length - 1) 0)
  else
    let pos := ((sortedVals.length : Decimal) - 1) * q
    let lo := ⌊pos⌋₊
    let hi := ⌈pos⌉₊
    if lo = hi then .ok (sortedVals.getD lo 0)
    else
      let weight := pos - lo
      .ok (sortedVals.getD lo 0 * (1 - weight) + sortedVals.getD hi 0 * weight)

/-- `int(q * 100)`, which drops the fraction. -/
def percent (q : Decimal) : ℤ := if 0 ≤ q then ⌊q * 100⌋ else ⌈q * 100⌉

/-- A whole number in the format `02d`. -/
def padded (n : ℤ) : String := if n < 0 then "-" ++ toString n.natAbs else twoDigits n.natAbs

def quantileLabel (q : Decimal) : String := "q" ++ padded (percent q)

/-- `_qmap`. -/
def quantileMap (values quantiles : List Decimal) : Except ResearchError (Dict String Decimal) :=
  let ordered := values.insertionSort (· ≤ ·)
  quantiles.foldlM (fun d q => do
    let value ← quantile ordered q
    pure (d.set (quantileLabel q) value)) {}

end Quantiles

section Paths

/-- `random.Random(seed)` by its results: the whole number that the call of this number of `randint(0, bound)` gives. -/
structure RandomStarts where
  randint : ℤ → ℕ → ℕ → ℕ
  randint_le : ∀ seed call bound, randint seed call bound ≤ bound

def validateBootstrapSample (values : List Decimal) (blockLength : ℤ) : Except ResearchError Unit :=
  if values.length < 2 then
    .error (.valueError ("series too short for block bootstrap (need >= 2 points); " ++
      "document N/A rather than false confidence"))
  else if (values.length : ℤ) ≤ blockLength then
    .error (.valueError ("block_length must be < len(series) for meaningful block bootstrap; " ++
      "document N/A rather than false confidence"))
  else .ok ()

def blockCount (n blockLength : ℕ) : ℕ := (n + blockLength - 1) / blockLength

def resamplePath (values : List Decimal) (blockLength : ℕ) (start : ℕ → ℕ) : List Decimal :=
  ((List.range (blockCount values.length blockLength)).flatMap fun block =>
    (values.drop (start block)).take blockLength).take values.length

def pathNetPnl (periodReturns : List Decimal) : Decimal := periodReturns.sum

def drawdownStep (state : Decimal × Decimal × Decimal) (r : Decimal) : Decimal × Decimal × Decimal :=
  let equity := state.1 + r
  let peak := if state.2.1 < equity then equity else state.2.1
  (equity, peak, if equity - peak < state.2.2 then equity - peak else state.2.2)

def pathMaxDrawdown (periodReturns : List Decimal) : Decimal := (periodReturns.foldl drawdownStep (0, 0, 0)).2.2

structure PathBootstrapResult where
  nSimulations : ℤ
  blockLength : ℤ
  seed : ℤ
  netPnlQuantiles : Dict String Decimal
  maxDrawdownQuantiles : Dict String Decimal
  meanNetPnl : Decimal
  meanMaxDrawdown : Decimal

variable (starts : RandomStarts)

def simulatedPaths (values : List Decimal) (blockLength nSimulations : ℕ) (seed : ℤ) : List (List Decimal) :=
  let maxStart := values.length - blockLength
  (List.range nSimulations).map fun simulation =>
    resamplePath values blockLength fun block =>
      if 0 < maxStart then
        starts.randint seed (simulation * blockCount values.length blockLength + block) maxStart
      else 0

def mean (values : List Decimal) : Decimal := values.sum / values.length

def blockBootstrapPaths (series : List Decimal) (blockLength nSimulations seed : ℤ) (quantiles : List Decimal) :
    Except ResearchError PathBootstrapResult := do
  if blockLength < 1 then
    throw (.valueError "block_length must be >= 1")
  if nSimulations < 1 then
    throw (.valueError "n_simulations must be >= 1")
  if series = [] then
    throw (.valueError "series must be non-empty")
  validateBootstrapSample series blockLength
  let paths := simulatedPaths starts series blockLength.toNat nSimulations.toNat seed
  let netPnls := paths.map pathNetPnl
  let maxDds := paths.map pathMaxDrawdown
  let netPnlQuantiles ← quantileMap netPnls quantiles
  let maxDrawdownQuantiles ← quantileMap maxDds quantiles
  pure
    { nSimulations, blockLength, seed, netPnlQuantiles, maxDrawdownQuantiles, meanNetPnl := mean netPnls
      meanMaxDrawdown := mean maxDds }

end Paths

section Equity

/-- An entry of `equity.json`; a time that is missing is the empty text. -/
inductive EquityRow
  | object (time : String) (equity : Option Decimal)
  | other
deriving DecidableEq, Repr

def differences (equities : List Decimal) : List Decimal := List.zipWith (fun a b => b - a) equities equities.tail

def EquityRow.point : EquityRow → Option (String × Decimal)
  | .object time (some equity) => some (time, equity)
  | _ => none

def periodPnlSeriesFromEquity (equityPoints : List EquityRow) : List Decimal :=
  let rows := (equityPoints.filterMap EquityRow.point).insertionSort fun a b => a.1 ≤ b.1
  differences (rows.map (·.2))

/-- What the files and texts of a run hold: the rows that a file is read as, and the number of a text. Every
equity curve can be written. -/
structure Reader where
  equityRows : Content → Except ResearchError (List EquityRow)
  number : String → Decimal
  writable : ∀ rows, ∃ content, equityRows content = .ok rows

variable (reader : Reader) (starts : RandomStarts)

def computeBootstrapFromEquityArtifact (file : Option Content) (blockLength nSimulations seed : ℤ)
    (quantiles : List Decimal) : Except ResearchError PathBootstrapResult :=
  match file with
  | none => .error (.fileNotFoundError "equity.json missing for bootstrap source run")
  | some content => do
    let equityPoints ← reader.equityRows content
    blockBootstrapPaths starts (periodPnlSeriesFromEquity equityPoints) blockLength nSimulations seed quantiles

def bootstrapQ05 (file : Option Content) (blockLength nSimulations seed : ℤ) (quantiles : List String) :
    Except ResearchError (Option Decimal) := do
  let stats ← computeBootstrapFromEquityArtifact reader starts file blockLength nSimulations seed
    (quantiles.map reader.number)
  pure (stats.netPnlQuantiles.get? "q05")

end Equity

section Config

structure ConfigError where
  message : String
  field : String
  reason : String
deriving DecidableEq, Repr

/-- The `config` of a request for a bootstrap; a field that is missing is `none`, one that is no number (or no
list of numbers) is `some none`. -/
structure RawBootstrapConfig where
  blockLength : Option (Option ℤ) := none
  nSimulations : Option (Option ℤ) := none
  seed : Option (Option ℤ) := none
  quantiles : Option (Option (List String)) := none
deriving DecidableEq, Repr

def readField {α : Type} (default : α) : Option (Option α) → Except ConfigError α
  | none => .ok default
  | some (some value) => .ok value
  | some none => .error ⟨"config ungültig", "config", "could not convert"⟩

/-- An empty list of quantiles stands for the default one. -/
def readQuantiles (raw : Option (Option (List String))) : Except ConfigError (List String) := do
  let quantiles ← readField [] raw
  pure (if quantiles = [] then ["0.05", "0.5", "0.95"] else quantiles)

def normalizeConfig (raw : RawBootstrapConfig) : Except ConfigError RobustnessConfig := do
  let blockLength ← readField 5 raw.blockLength
  let nSimulations ← readField 1000 raw.nSimulations
  let seed ← readField 42 raw.seed
  let quantiles ← readQuantiles raw.quantiles
  if blockLength < 1 then
    throw ⟨"block_length muss >= 1 sein", "config.block_length", "muss >= 1 sein"⟩
  if nSimulations < 1 then
    throw ⟨"n_simulations muss >= 1 sein", "config.n_simulations", "muss >= 1 sein"⟩
  pure
    { blockLength := some blockLength, nSimulations := some nSimulations, seed := some seed
      quantiles := some quantiles }

end Config

end TradingBot.Research.Bootstrap
