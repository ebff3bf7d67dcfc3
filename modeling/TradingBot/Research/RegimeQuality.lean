import Mathlib
import TradingBot.Library.Dictionary
import TradingBot.Library.Digests
import TradingBot.Library.Outcome

namespace TradingBot.Research.RegimeQuality

open Library.Dictionary

section Values

/-- A field of a file: a scalar, or a list or an object by its text. A missing field is null. -/
inductive Value
  | null
  | bool (b : Bool)
  | number (text : String)
  | string (text : String)
  | compound (text : String)
deriving DecidableEq, Repr, Countable

def Value.str : Value → String
  | .null => "None"
  | .bool true => "True"
  | .bool false => "False"
  | .number text | .string text | .compound text => text

def Value.truthy : Value → Bool
  | .null => false
  | .bool b => b
  | .number text => text ∉ ["0", "0.0", "-0.0"]
  | .string text => text ≠ ""
  | .compound text => text ∉ ["[]", "\x7b\x7d"]

def Value.strOr (value : Value) (default : String) : String := if value.truthy then value.str else default

inductive EvidenceError
  | regimeQualityError (message : String)
  | behaviourProfileError (message : String)
  | behaviourPolicyError (message : String)
  | keyError (message : String)
  | valueError (message : String)
  | invalidOperation (text : String)
deriving DecidableEq, Repr

/-- What the evaluators take from the language: decimals in their context, ISO dates in UTC by their number, and
whole numbers. -/
structure Language (D : Type) where
  decimal : String → Option D
  fromIsoFormat : String → Option ℤ
  int : Value → Option ℤ
  ofInt : ℤ → D
  text : D → String
  add : D → D → D
  sub : D → D → D
  mul : D → D → D
  div : D → D → D
  abs : D → D
  pow : D → ℕ → D
  sqrt : D → D
  quantize : D → D → D
  lt : D → D → Bool

namespace Language

variable {D : Type} (lang : Language D)

def zero : D := lang.ofInt 0

def one : D := lang.ofInt 1

def le (a b : D) : Bool := !lang.lt b a

def eq (a b : D) : Bool := !lang.lt a b && !lang.lt b a

def max (a b : D) : D := if lang.lt a b then b else a

def min (a b : D) : D := if lang.lt b a then b else a

def sum (values : List D) : D := values.foldl lang.add lang.zero

def mean (values : List D) : D := lang.div (lang.sum values) (lang.ofInt values.length)

def parse (text : String) : Except EvidenceError D :=
  match lang.decimal text with
  | none => .error (.invalidOperation text)
  | some d => .ok d

def asUtcDate (value : Value) : Except EvidenceError ℤ :=
  let chars := value.str.toList
  let text := if chars.getLast? = some 'Z' then String.ofList chars.dropLast ++ "+00:00" else value.str
  match lang.fromIsoFormat text with
  | none => .error (.valueError ("Invalid isoformat string: '" ++ text ++ "'"))
  | some day => .ok day

end Language

end Values

section Join

structure DayRow where
  asOf : Value := .null
  periodId : Value := .null
  trend : Value := .null
  vol : Value := .null
  status : Value := .null
deriving DecidableEq, Repr

structure PeriodRow where
  trend : Value := .null
  vol : Value := .null
  status : Value := .null
deriving DecidableEq, Repr

/-- A row of `trades.json`, with the older names of two of its fields. -/
structure TradeRow where
  symbol : Value := .null
  exitTime : Value := .null
  netPnl : Value := .null
  fees : Value := .null
  slippageCost : Value := .null
  funding : Value := .null
  quantity : Value := .null
  qty : Value := .null
  entryFillPrice : Value := .null
  entryPrice : Value := .null
deriving DecidableEq, Repr, Countable

structure EquityRow where
  time : Value := .null
  equity : Value := .null
  openPositions : Value := .null
deriving DecidableEq, Repr

structure DayRegimeKey where
  asOf : ℤ
  periodId : String
  trend : String
  vol : String
  status : String
deriving DecidableEq, Repr

def DayRegimeKey.cellId (key : DayRegimeKey) : String := key.trend ++ "|" ++ key.vol

abbrev DayIndex := Dict ℤ DayRegimeKey

variable {D : Type} (lang : Language D)

/-- Rows that are no objects are skipped; a later row of a date replaces an earlier one. -/
def indexDayLabels (rows : List (Option DayRow)) : Except EvidenceError DayIndex :=
  rows.reduceOption.foldlM (fun out row => do
    let asOf ← lang.asUtcDate row.asOf
    pure (out.set asOf
      { asOf
        periodId := row.periodId.strOr ""
        trend := row.trend.strOr "INSUFFICIENT"
        vol := row.vol.strOr "INSUFFICIENT"
        status := row.status.strOr "INSUFFICIENT" })) {}

/-- Where the records of a day go. -/
inductive Bucket
  | unlabeled
  | insufficient
  | cell (cellId : String)
deriving DecidableEq, Repr

def bucketOf (index : DayIndex) (day : ℤ) : Bucket :=
  match index.get? day with
  | none => .unlabeled
  | some key => if key.status ≠ "OK" then .insufficient else .cell key.cellId

def push {α : Type} (buckets : Dict String (List α)) (key : String) (row : α) : Dict String (List α) :=
  buckets.set key ((buckets.get? key).getD [] ++ [row])

structure TradeAttribution where
  byCell : Dict String (List TradeRow) := {}
  unlabeled : List TradeRow := []
  insufficient : List TradeRow := []
  openOrMissingExit : List TradeRow := []
deriving DecidableEq

namespace TradeAttribution

variable (attribution : TradeAttribution)

def closedLabeled : ℕ := (attribution.byCell.values.map List.length).sum

def closedTotal : ℕ := attribution.closedLabeled + attribution.unlabeled.length + attribution.insufficient.length

def netPnlOf (trades : List TradeRow) : Except EvidenceError D :=
  trades.foldlM (fun total trade =>
    if trade.netPnl = .null then .ok total else do pure (lang.add total (← lang.parse trade.netPnl.str))) lang.zero

def sourceNetPnl : Except EvidenceError D :=
  netPnlOf lang (attribution.byCell.values.flatten ++ attribution.unlabeled ++ attribution.insufficient)

def excludedNetPnl : Except EvidenceError D := netPnlOf lang (attribution.unlabeled ++ attribution.insufficient)

def attributedNetPnl : Except EvidenceError D := netPnlOf lang attribution.byCell.values.flatten

end TradeAttribution

def attributeTrade (index : DayIndex) (result : TradeAttribution) (trade : TradeRow) :
    Except EvidenceError TradeAttribution :=
  if trade.exitTime = .null then .ok { result with openOrMissingExit := result.openOrMissingExit ++ [trade] }
  else do
    let day ← lang.asUtcDate trade.exitTime
    match bucketOf index day with
    | .unlabeled => pure { result with unlabeled := result.unlabeled ++ [trade] }
    | .insufficient => pure { result with insufficient := result.insufficient ++ [trade] }
    | .cell cellId => pure { result with byCell := push result.byCell cellId trade }

def attributeTrades (trades : List TradeRow) (index : DayIndex) : Except EvidenceError TradeAttribution :=
  trades.foldlM (attributeTrade lang index) {}

structure TaggedPoint where
  day : ℤ
  cell : Option String
  snap : EquityRow
deriving DecidableEq, Repr

structure EquityAttribution where
  byCell : Dict String (List EquityRow) := {}
  timeline : List TaggedPoint := []
  unlabeledPoints : ℕ := 0
  insufficientPoints : ℕ := 0
deriving DecidableEq

def attributePoint (index : DayIndex) (result : EquityAttribution) (snap : EquityRow) :
    Except EvidenceError EquityAttribution :=
  if snap.time = .null then .ok result
  else do
    let day ← lang.asUtcDate snap.time
    match bucketOf index day with
    | .unlabeled =>
      pure { result with
        unlabeledPoints := result.unlabeledPoints + 1
        timeline := result.timeline ++ [⟨day, none, snap⟩] }
    | .insufficient =>
      pure { result with
        insufficientPoints := result.insufficientPoints + 1
        timeline := result.timeline ++ [⟨day, none, snap⟩] }
    | .cell cellId =>
      pure { result with
        byCell := push result.byCell cellId snap
        timeline := result.timeline ++ [⟨day, some cellId, snap⟩] }

def TaggedPoint.before (p q : TaggedPoint) : Prop :=
  p.day < q.day ∨ p.day = q.day ∧ p.snap.time.strOr "" ≤ q.snap.time.strOr ""

instance : DecidableRel TaggedPoint.before := fun p q =>
  inferInstanceAs (Decidable (p.day < q.day ∨ p.day = q.day ∧ p.snap.time.strOr "" ≤ q.snap.time.strOr ""))

def attributeEquity (equity : List EquityRow) (index : DayIndex) : Except EvidenceError EquityAttribution := do
  let result ← equity.foldlM (attributePoint lang index) {}
  pure { result with timeline := result.timeline.insertionSort TaggedPoint.before }

/-- `_d`. -/
def decimalOrZero (value : Value) : Except EvidenceError D :=
  if value = .null then .ok lang.zero else lang.parse value.str

def tradeCostComponents (trade : TradeRow) : Except EvidenceError (D × D × D) := do
  let fees ← decimalOrZero lang trade.fees
  let slippage ← decimalOrZero lang trade.slippageCost
  let funding ← decimalOrZero lang trade.funding
  pure (fees, slippage, funding)

def tradeNotional (trade : TradeRow) : Except EvidenceError (Option D) :=
  let qty := if trade.quantity = .null then trade.qty else trade.quantity
  let px := if trade.entryFillPrice = .null then trade.entryPrice else trade.entryFillPrice
  if qty = .null ∨ px = .null then .ok none
  else do
    let quantity ← lang.parse qty.str
    let price ← lang.parse px.str
    pure (some (lang.abs (lang.mul quantity price)))

end Join

section Metrics

inductive SliceStatus
  | ok | zeroActivity | insufficientEvidence
deriving DecidableEq, Repr

structure RegimeSliceRaw (D : Type) where
  cellId : String
  trend : String
  vol : String
  closedTrades : ℕ
  zeroActivity : Bool
  netPnl : D
  grossPnl : D
  fees : D
  slippageCosts : D
  fundingCosts : D
  maxDrawdown : Option D
  downsideDeviation : Option D
  tailLoss : Option D
  subperiodStability : Option D
  winRate : Option D
  expectancy : Option D
  profitFactor : Option D
  largestLosingStreak : Option ℕ
  pnlConcentration : Option D
  timeInMarket : Option D
  exposure : Option D
  turnover : Option D
  symbolNetPnl : Dict String D
  benchmarkDelta : Option String
  status : SliceStatus

structure CostTexts where
  fees : String
  slippageCosts : String
  fundingCosts : String
deriving DecidableEq, Repr

/-- A row of `regimes`; an optional text that is none is written as `NOT_AVAILABLE`. -/
structure RegimeRow where
  cellId : String
  trend : String
  vol : String
  status : SliceStatus
  zeroActivity : Bool
  closedTrades : ℕ
  netPnl : String
  grossPnl : String
  costs : CostTexts
  maxDrawdown : Option String
  downsideDeviation : Option String
  tailLoss : Option String
  subperiodStability : Option String
  winRate : Option String
  expectancy : Option String
  profitFactor : Option String
  largestLosingStreak : Option ℕ
  pnlConcentration : Option String
  timeInMarket : Option String
  exposure : Option String
  turnover : Option String
  benchmarkDelta : Option String
  symbolNetPnl : List (String × String)
deriving DecidableEq, Repr

variable {D : Type} (lang : Language D)

/-- The items of an object in the order of its keys, as texts. -/
def sortedTexts (items : Dict String D) : List (String × String) :=
  (items.entries.insertionSort fun a b => a.1 ≤ b.1).map fun item => (item.1, lang.text item.2)

def RegimeSliceRaw.toDict (raw : RegimeSliceRaw D) : RegimeRow where
  cellId := raw.cellId
  trend := raw.trend
  vol := raw.vol
  status := raw.status
  zeroActivity := raw.zeroActivity
  closedTrades := raw.closedTrades
  netPnl := lang.text raw.netPnl
  grossPnl := lang.text raw.grossPnl
  costs := ⟨lang.text raw.fees, lang.text raw.slippageCosts, lang.text raw.fundingCosts⟩
  maxDrawdown := raw.maxDrawdown.map lang.text
  downsideDeviation := raw.downsideDeviation.map lang.text
  tailLoss := raw.tailLoss.map lang.text
  subperiodStability := raw.subperiodStability.map lang.text
  winRate := raw.winRate.map lang.text
  expectancy := raw.expectancy.map lang.text
  profitFactor := raw.profitFactor.map lang.text
  largestLosingStreak := raw.largestLosingStreak
  pnlConcentration := raw.pnlConcentration.map lang.text
  timeInMarket := raw.timeInMarket.map lang.text
  exposure := raw.exposure.map lang.text
  turnover := raw.turnover.map lang.text
  benchmarkDelta := raw.benchmarkDelta
  symbolNetPnl := sortedTexts lang raw.symbolNetPnl

def safeDiv (num den : D) : Option D := if lang.eq den lang.zero then none else some (lang.div num den)

/-- The longest run of losses, behind one that is open. -/
def losingStreakFrom : ℕ → ℕ → List D → ℕ
  | best, _, [] => best
  | best, cur, pnl :: rest =>
    if lang.lt pnl lang.zero then losingStreakFrom (Nat.max best (cur + 1)) (cur + 1) rest
    else losingStreakFrom best 0 rest

def largestLosingStreak (netPnls : List D) : ℕ := losingStreakFrom lang 0 0 netPnls

def episodesFrom (cellId : String) : List EquityRow → List TaggedPoint → List (List EquityRow)
  | [], [] => []
  | current, [] => [current]
  | current, point :: rest =>
    if point.cell = some cellId then episodesFrom cellId (current ++ [point.snap]) rest
    else if current.isEmpty then episodesFrom cellId [] rest
    else current :: episodesFrom cellId [] rest

def contiguousEpisodes (timeline : List TaggedPoint) (cellId : String) : List (List EquityRow) :=
  episodesFrom cellId [] timeline

structure RebasedCurve (D : Type) where
  level : D
  peak : D
  drawdown : D
  prev : D

def rebase (curve : RebasedCurve D) (snap : EquityRow) : Except EvidenceError (RebasedCurve D) := do
  let cur ← lang.parse snap.equity.str
  if lang.le curve.prev lang.zero then pure { curve with prev := cur }
  else
    let ret := lang.sub (lang.div cur curve.prev) lang.one
    let level := lang.mul curve.level (lang.add lang.one ret)
    let peak := lang.max curve.peak level
    let dd := lang.div (lang.sub peak level) peak
    let drawdown := if lang.lt lang.zero peak && lang.lt curve.drawdown dd then dd else curve.drawdown
    pure { level, peak, drawdown, prev := cur }

/-- An episode of one point, or one that starts at nothing, has no drawdown. -/
def episodeDrawdown : List EquityRow → Except EvidenceError (Option D)
  | first :: second :: rest => do
    let prev ← lang.parse first.equity.str
    if lang.le prev lang.zero then pure none
    else
      let curve ← (second :: rest).foldlM (rebase lang)
        { level := lang.one, peak := lang.one, drawdown := lang.zero, prev }
      pure (some curve.drawdown)
  | _ => .ok none

def maxDrawdownFromEpisodes (timeline : List TaggedPoint) (cellId : String) : Except EvidenceError (Option D) := do
  let drawdowns ← (contiguousEpisodes timeline cellId).mapM (episodeDrawdown lang)
  pure (drawdowns.reduceOption.foldl (fun worst dd =>
    match worst with
    | none => some dd
    | some worst => some (lang.max worst dd)) none)

def episodeReturn (state : List D × D) (snap : EquityRow) : Except EvidenceError (List D × D) := do
  let cur ← lang.parse snap.equity.str
  if lang.lt lang.zero state.2 then pure (state.1 ++ [lang.sub (lang.div cur state.2) lang.one], cur)
  else pure (state.1, cur)

def episodeReturns (timeline : List TaggedPoint) (cellId : String) : Except EvidenceError (List D) := do
  let returns ← (contiguousEpisodes timeline cellId).mapM fun
    | first :: second :: rest => do
      let prev ← lang.parse first.equity.str
      let state ← (second :: rest).foldlM (episodeReturn lang) ([], prev)
      pure state.1
    | _ => .ok []
  pure returns.flatten

def downsideDeviation (returns : List D) : Option D :=
  if returns.length < 2 then none
  else
    let downs := returns.filter (lang.lt · lang.zero)
    if downs.isEmpty then some lang.zero
    else
      let mean := lang.mean downs
      some (lang.sqrt (lang.mean (downs.map fun r => lang.pow (lang.sub r mean) 2)))

/-- The worst return, as a positive number. -/
def tailLoss : List D → Option D
  | [] => none
  | first :: rest =>
    let worst := rest.foldl lang.min first
    if lang.le lang.zero worst then some lang.zero else some (lang.abs worst)

def subperiodStability (returns : List D) : Option D :=
  if returns.length < 4 then none
  else
    let mid := returns.length / 2
    let m1 := lang.mean (returns.take mid)
    let m2 := lang.mean (returns.drop mid)
    let scale := lang.add lang.one (lang.div (lang.add (lang.abs m1) (lang.abs m2)) (lang.ofInt 2))
    some (lang.max lang.zero (lang.sub lang.one (lang.div (lang.abs (lang.sub m1 m2)) scale)))

def hasOpenPositions (row : EquityRow) : Except EvidenceError Bool :=
  if !row.openPositions.truthy then .ok false
  else
    match lang.int row.openPositions with
    | none => .error (.valueError ("invalid literal for int() with base 10: '" ++ row.openPositions.str ++ "'"))
    | some n => .ok (decide (0 < n))

def timeInMarket (equity : List EquityRow) : Except EvidenceError (Option D) := do
  if equity.isEmpty then pure none
  else
    let open_ ← equity.mapM (hasOpenPositions lang)
    pure (some (lang.div (lang.ofInt (open_.count true)) (lang.ofInt equity.length)))

def cellDays (cellId : String) (timeline : List TaggedPoint) : List ℤ :=
  (((timeline.filter (·.cell = some cellId)).map (·.day)).dedup).insertionSort (· ≤ ·)

def buyAndHold (closes : Dict ℤ D) (first last : ℤ) : Option D :=
  match closes.get? first, closes.get? last with
  | some firstPx, some lastPx =>
    if lang.le firstPx lang.zero then none else some (lang.sub (lang.div lastPx firstPx) lang.one)
  | _, _ => none

def computeBenchmarkDelta (cellId : String) (timeline : List TaggedPoint) (trades : List TradeRow)
    (benchmarkCloses : Option (Dict ℤ D)) : Except EvidenceError (Option String) :=
  match benchmarkCloses with
  | none => .ok none
  | some closes =>
    if closes.entries.isEmpty then .ok none
    else
      let days := cellDays cellId timeline
      if days.length < 2 then .ok none
      else
        match days.head?, days.getLast? with
        | some first, some last =>
          match buyAndHold lang closes first last with
          | none => .ok none
          | some bh => do
            let net ← TradeAttribution.netPnlOf lang trades
            match (timeline.filter (·.cell = some cellId)).head? with
            | none => pure none
            | some point =>
              let start ← lang.parse point.snap.equity.str
              if lang.le start lang.zero then pure none
              else pure (some (lang.text (lang.sub (lang.div net start) bh)))
        | _, _ => .ok none

/-- The cell's two names: before the first bar, and behind it. -/
def partitionCell (cellId : String) : String × String :=
  (String.ofList (cellId.toList.takeWhile (· ≠ '|')), String.ofList ((cellId.toList.dropWhile (· ≠ '|')).drop 1))

def inactiveSlice (cellId : String) : RegimeSliceRaw D where
  cellId := cellId
  trend := (partitionCell cellId).1
  vol := (partitionCell cellId).2
  closedTrades := 0
  zeroActivity := true
  netPnl := lang.zero
  grossPnl := lang.zero
  fees := lang.zero
  slippageCosts := lang.zero
  fundingCosts := lang.zero
  maxDrawdown := none
  downsideDeviation := none
  tailLoss := none
  subperiodStability := none
  winRate := none
  expectancy := none
  profitFactor := none
  largestLosingStreak := some 0
  pnlConcentration := none
  timeInMarket := none
  exposure := none
  turnover := none
  symbolNetPnl := {}
  benchmarkDelta := none
  status := .zeroActivity

/-- `compute_gross_pnl`. -/
def grossPnlOf (net fees slippage funding : D) : D := lang.add (lang.add (lang.add net fees) slippage) funding

/-- The largest result's share of all. -/
def pnlConcentration (pnls : List D) : Option D :=
  match pnls.map lang.abs with
  | [] => none
  | first :: rest =>
    let totalAbs := lang.sum (first :: rest)
    if lang.lt lang.zero totalAbs then safeDiv lang (rest.foldl lang.max first) totalAbs else none

/-- The net results by symbol, in the order in which the symbols first appear. -/
def netBySymbol (rows : List (TradeRow × D)) : Dict String D :=
  rows.foldl (fun totals row =>
    let symbol := row.1.symbol.strOr "UNKNOWN"
    totals.set symbol (lang.add ((totals.get? symbol).getD lang.zero) row.2)) {}

def computeSliceMetrics (cellId : String) (trades : List TradeRow) (equity : List EquityRow)
    (timeline : List TaggedPoint) (benchmarkCloses : Option (Dict ℤ D)) :
    Except EvidenceError (RegimeSliceRaw D) :=
  let closed := trades.filter (·.netPnl ≠ .null)
  if closed.isEmpty && equity.isEmpty then .ok (inactiveSlice lang cellId)
  else do
    let pnls ← closed.mapM fun trade => lang.parse trade.netPnl.str
    let costs ← closed.mapM (tradeCostComponents lang)
    let net := lang.sum pnls
    let fees := lang.sum (costs.map (·.1))
    let slip := lang.sum (costs.map (·.2.1))
    let fund := lang.sum (costs.map (·.2.2))
    let winners := pnls.filter (lang.lt lang.zero)
    let losers := pnls.filter (lang.le · lang.zero)
    let grossLoss := lang.abs (lang.sum losers)
    let notionals := (← closed.mapM (tradeNotional lang)).reduceOption
    let returns ← episodeReturns lang timeline cellId
    let maxDd ← maxDrawdownFromEpisodes lang timeline cellId
    let tim ← timeInMarket lang equity
    let bench ← computeBenchmarkDelta lang cellId timeline closed benchmarkCloses
    let tradeCount := closed.length
    pure
      { cellId
        trend := (partitionCell cellId).1
        vol := (partitionCell cellId).2
        closedTrades := tradeCount
        zeroActivity := tradeCount = 0
        netPnl := net
        grossPnl := grossPnlOf lang net fees slip fund
        fees
        slippageCosts := slip
        fundingCosts := fund
        maxDrawdown := maxDd
        downsideDeviation := downsideDeviation lang returns
        tailLoss := tailLoss lang returns
        subperiodStability := subperiodStability lang returns
        winRate := if tradeCount = 0 then none else safeDiv lang (lang.ofInt winners.length) (lang.ofInt tradeCount)
        expectancy := if tradeCount = 0 then none else safeDiv lang net (lang.ofInt tradeCount)
        profitFactor := if lang.lt lang.zero grossLoss then safeDiv lang (lang.sum winners) grossLoss else none
        largestLosingStreak := some (largestLosingStreak lang pnls)
        pnlConcentration := pnlConcentration lang pnls
        timeInMarket := tim
        exposure := tim
        turnover := if notionals.isEmpty then none else some (lang.sum notionals)
        symbolNetPnl := netBySymbol lang (closed.zip pnls)
        benchmarkDelta := bench
        status := if tradeCount = 0 then .zeroActivity else .ok }

end Metrics
section Scoring

structure QualityScorePolicy where
  version : String
  description : String
  weightNetPnl : String
  weightDrawdown : String
  weightTradeCount : String
deriving DecidableEq, Repr, Countable

def scorePolicyRegistry : Dict String QualityScorePolicy :=
  Dict.set {} "1.0"
    { version := "1.0"
      description := "Generic illustrative quality summary weights for P4.9. " ++
        "Not private Strategy V1 thresholds; never sole decision input."
      weightNetPnl := "0.5"
      weightDrawdown := "0.3"
      weightTradeCount := "0.2" }

def getScorePolicy (version : String) : Except EvidenceError QualityScorePolicy :=
  match scorePolicyRegistry.get? version with
  | none => .error (.keyError ("unknown quality score policy version: '" ++ version ++ "'"))
  | some policy => .ok policy

inductive ScoreReason
  | insufficientEvidence | zeroActivity | maxDrawdownMissing | ok
deriving DecidableEq, Repr

structure QualitySummary where
  scorePolicyVersion : String
  scorePolicyContentHash : String
  decisionBinding : Bool := false
  note : String := "summary_only_raw_metrics_required"
  score : Option String
  reason : ScoreReason
deriving DecidableEq, Repr

variable {D : Type} (lang : Language D)

def summarizeSliceScore (raw : RegimeSliceRaw D) (policy : QualityScorePolicy) (policyHash : String) :
    Except EvidenceError QualitySummary := do
  let unscored := fun reason : ScoreReason =>
    { scorePolicyVersion := policy.version, scorePolicyContentHash := policyHash, score := none, reason
      : QualitySummary }
  if raw.status = .insufficientEvidence then pure (unscored .insufficientEvidence)
  else if raw.zeroActivity then pure (unscored .zeroActivity)
  else
    let wPnl ← lang.parse policy.weightNetPnl
    let wDd ← lang.parse policy.weightDrawdown
    let wN ← lang.parse policy.weightTradeCount
    let five := lang.ofInt 5
    let ten := lang.ofInt 10
    let pnlTerm := lang.min ten (lang.max lang.zero
      (lang.add (lang.mul (lang.div raw.netPnl (lang.ofInt 1000)) five) five))
    match raw.maxDrawdown with
    | none => pure (unscored .maxDrawdownMissing)
    | some drawdown =>
      let ddTerm := lang.max lang.zero (lang.mul ten (lang.sub lang.one drawdown))
      let nTerm := lang.min ten (lang.ofInt raw.closedTrades)
      let weighted := lang.add (lang.add (lang.mul wPnl pnlTerm) (lang.mul wDd ddTerm)) (lang.mul wN nTerm)
      let score := lang.div weighted (lang.add (lang.add wPnl wDd) wN)
      let cents ← lang.parse "0.01"
      pure { unscored .ok with score := some (lang.text (lang.quantize score cents)) }

end Scoring

section Evaluator

structure TransitionRow where
  transitionId : Value := .null
  others : List (String × Value) := []
deriving DecidableEq, Repr, Countable

structure DayEventRow where
  asOf : Value := .null
  event : Value := .null
  others : List (String × Value) := []
deriving DecidableEq, Repr, Countable

/-- `regime_labels.json`; rows of its lists that are no objects are none. -/
structure RegimeLabels where
  pointInTimeSafe : Value := .null
  datasetId : Value := .null
  datasetContentHash : Value := .null
  classificationId : Value := .null
  classifierContentHash : Value := .null
  classifierVersion : Value := .null
  labelingMode : Value := .null
  dayLabels : List (Option DayRow) := []
  periodLabels : List (Option PeriodRow) := []
  transitions : List TransitionRow := []
  dayEvents : List DayEventRow := []

structure SealedRun where
  labels : RegimeLabels
  trades : List TradeRow
  equity : List EquityRow
  runId : String
  experimentId : String

structure QualityArguments (D : Type) where
  datasetId : Option String := none
  datasetContentHash : Option String := none
  scorePolicyVersion : String := "1.0"
  benchmarkCloses : Option (Dict ℤ D) := none

structure QualityPins where
  runId : String
  datasetId : String
  datasetContentHash : String
  classificationId : String
  classifierContentHash : String
  scorePolicyVersion : String
  scorePolicyContentHash : String
deriving DecidableEq, Repr, Countable

structure QualityDigests where
  scorePolicy : QualityScorePolicy → String
  quality : QualityPins → String

def computeQualityId (digests : QualityDigests) (pins : QualityPins) : String := "rq_" ++ digests.quality pins

inductive EvidenceStatus
  | ok | inconclusive
deriving DecidableEq, Repr

/-- The worst or the strongest regime, or why there is none. -/
inductive RegimeExtreme
  | notAvailable (reason : String)
  | regime (cellId trend vol netPnl grossPnl : String) (closedTrades : ℕ)
deriving DecidableEq, Repr

structure Coverage where
  closedTradesTotal : ℕ
  closedTradesLabeled : ℕ
  closedTradesUnlabeled : ℕ
  closedTradesInsufficient : ℕ
  openOrMissingExit : ℕ
  coverageRatio : ℚ
  equityPointsUnlabeled : ℕ
  equityPointsInsufficient : ℕ
deriving DecidableEq, Repr

structure Reconciliation where
  sourceNetPnl : String
  attributedNetPnl : String
  excludedNetPnl : String
  balanced : Bool
deriving DecidableEq, Repr

structure Portfolio where
  closedTradesAttributed : ℕ
  closedTradesSource : ℕ
  netPnlAttributed : String
  netPnlSource : String
  netPnlExcluded : String
  grossPnlAttributed : String
  costsAttributed : CostTexts
deriving DecidableEq, Repr

/-- `regime_metrics.json`. -/
structure RegimeMetrics where
  schemaVersion : String := "1.0"
  qualityId : String
  experimentId : String
  runId : String
  datasetId : String
  datasetContentHash : String
  classificationId : String
  classifierVersion : Value
  classifierContentHash : String
  labelingMode : Value
  pointInTimeSafe : Bool := false
  evidenceStatus : EvidenceStatus
  attributionRule : List (String × String) :=
    [("trades", "exit_time_utc_date"), ("equity", "time_utc_date"), ("drawdown", "contiguous_episode_rebased")]
  coverage : Coverage
  reconciliation : Reconciliation
  scorePolicyVersion : String
  scorePolicyContentHash : String
  decisionBinding : Bool := false
  autoPromotion : Bool := false
  regimes : List (RegimeRow × QualitySummary)
  portfolio : Portfolio
  symbols : List (String × String)
  worstRegime : RegimeExtreme
  strongestRegime : RegimeExtreme
deriving DecidableEq, Repr

structure RegimeQualityResult (D : Type) where
  artifact : RegimeMetrics
  qualityId : String
  slices : List (RegimeSliceRaw D)

def resolveDatasetPins (labels : RegimeLabels) (datasetId datasetContentHash : Option String) :
    Except EvidenceError (String × String) :=
  let labelId := labels.datasetId.strOr ""
  let labelHash := labels.datasetContentHash.strOr ""
  if labelId = "" ∨ labelHash = "" then
    .error (.regimeQualityError "regime_labels.json missing dataset_id / dataset_content_hash pins")
  else if datasetId.any (· ≠ labelId) then
    .error (.regimeQualityError ("dataset_id pin mismatch: caller='" ++ datasetId.getD "" ++ "' labels='" ++ labelId ++
      "'"))
  else if datasetContentHash.any (· ≠ labelHash) then
    .error (.regimeQualityError ("dataset_content_hash pin mismatch: caller='" ++ datasetContentHash.getD "" ++
      "' labels='" ++ labelHash ++ "'"))
  else .ok (labelId, labelHash)

inductive ExtremeMode
  | worst | strongest
deriving DecidableEq, Repr

variable {D : Type} (lang : Language D) (digests : QualityDigests)

def firstExtreme (mode : ExtremeMode) : List (RegimeSliceRaw D) → Option (RegimeSliceRaw D)
  | [] => none
  | first :: rest => some (rest.foldl (fun chosen raw =>
    let ahead := match mode with
      | .worst => lang.lt raw.netPnl chosen.netPnl
      | .strongest => lang.lt chosen.netPnl raw.netPnl
    if ahead then raw else chosen) first)

def pickExtreme (slices : List (RegimeSliceRaw D)) (mode : ExtremeMode) (evidenceStatus : EvidenceStatus) :
    RegimeExtreme :=
  if evidenceStatus = .inconclusive then .notAvailable "inconclusive_coverage"
  else
    match firstExtreme lang mode (slices.filter fun raw => !raw.zeroActivity && raw.status = .ok) with
    | none => .notAvailable "no_active_regimes"
    | some chosen => .regime chosen.cellId chosen.trend chosen.vol (lang.text chosen.netPnl)
        (lang.text chosen.grossPnl) chosen.closedTrades

def cellIds (labels : RegimeLabels) (trades : TradeAttribution) (equity : EquityAttribution) : List String :=
  let periods := labels.periodLabels.reduceOption.filter (·.status = .string "OK")
  ((trades.byCell.keys ++ equity.byCell.keys ++ periods.map fun period => period.trend.str ++ "|" ++ period.vol.str).dedup
    ).insertionSort (· ≤ ·)

def symbolTotals (slices : List (RegimeSliceRaw D)) : Dict String D :=
  (slices.flatMap (·.symbolNetPnl.entries)).foldl (fun totals item =>
    totals.set item.1 (lang.add ((totals.get? item.1).getD lang.zero) item.2)) {}

def buildRegimeMetrics (run : SealedRun) (dsId dsHash : String) (tradeAttr : TradeAttribution)
    (equityAttr : EquityAttribution) (policy : QualityScorePolicy) (slices : List (RegimeSliceRaw D)) :
    Except EvidenceError RegimeMetrics := do
  let closedTotal := tradeAttr.closedTotal
  let closedLabeled := tradeAttr.closedLabeled
  let evidenceStatus : EvidenceStatus :=
    if 0 < closedTotal ∧ closedLabeled < closedTotal then .inconclusive else .ok
  let policyHash := digests.scorePolicy policy
  let classificationId := run.labels.classificationId.strOr ""
  let clfHash := run.labels.classifierContentHash.strOr ""
  let regimes ← slices.mapM fun raw => do
    pure (raw.toDict lang, ← summarizeSliceScore lang raw policy policyHash)
  let attributedNet ← tradeAttr.attributedNetPnl lang
  let sourceNet ← tradeAttr.sourceNetPnl lang
  let excludedNet ← tradeAttr.excludedNetPnl lang
  pure
    { qualityId := computeQualityId digests
        { runId := run.runId
          datasetId := dsId
          datasetContentHash := dsHash
          classificationId
          classifierContentHash := clfHash
          scorePolicyVersion := policy.version
          scorePolicyContentHash := policyHash }
      experimentId := run.experimentId
      runId := run.runId
      datasetId := dsId
      datasetContentHash := dsHash
      classificationId
      classifierVersion := run.labels.classifierVersion
      classifierContentHash := clfHash
      labelingMode := run.labels.labelingMode
      evidenceStatus
      coverage :=
        { closedTradesTotal := closedTotal
          closedTradesLabeled := closedLabeled
          closedTradesUnlabeled := tradeAttr.unlabeled.length
          closedTradesInsufficient := tradeAttr.insufficient.length
          openOrMissingExit := tradeAttr.openOrMissingExit.length
          coverageRatio := if closedTotal = 0 then 1 else closedLabeled / closedTotal
          equityPointsUnlabeled := equityAttr.unlabeledPoints
          equityPointsInsufficient := equityAttr.insufficientPoints }
      reconciliation :=
        { sourceNetPnl := lang.text sourceNet
          attributedNetPnl := lang.text attributedNet
          excludedNetPnl := lang.text excludedNet
          balanced := lang.eq sourceNet (lang.add attributedNet excludedNet) }
      scorePolicyVersion := policy.version
      scorePolicyContentHash := policyHash
      regimes
      portfolio :=
        { closedTradesAttributed := closedLabeled
          closedTradesSource := closedTotal
          netPnlAttributed := lang.text attributedNet
          netPnlSource := lang.text sourceNet
          netPnlExcluded := lang.text excludedNet
          grossPnlAttributed := lang.text (lang.sum (slices.map (·.grossPnl)))
          costsAttributed := ⟨lang.text (lang.sum (slices.map (·.fees))),
            lang.text (lang.sum (slices.map (·.slippageCosts))), lang.text (lang.sum (slices.map (·.fundingCosts)))⟩ }
      symbols := sortedTexts lang (symbolTotals lang slices)
      worstRegime := pickExtreme lang slices .worst evidenceStatus
      strongestRegime := pickExtreme lang slices .strongest evidenceStatus }

def evaluateRegimeQuality (run : SealedRun) (arguments : QualityArguments D) :
    Except EvidenceError (RegimeQualityResult D) :=
  if run.labels.pointInTimeSafe = .bool true then
    .error (.regimeQualityError "refusing point_in_time_safe=true labels for ex-post quality join")
  else do
    let pins ← resolveDatasetPins run.labels arguments.datasetId arguments.datasetContentHash
    let dayIndex ← indexDayLabels lang run.labels.dayLabels
    let tradeAttr ← attributeTrades lang run.trades dayIndex
    let equityAttr ← attributeEquity lang run.equity dayIndex
    let slices ← (cellIds run.labels tradeAttr equityAttr).mapM fun cellId =>
      computeSliceMetrics lang cellId ((tradeAttr.byCell.get? cellId).getD []) ((equityAttr.byCell.get? cellId).getD [])
        equityAttr.timeline arguments.benchmarkCloses
    let policy ← getScorePolicy arguments.scorePolicyVersion
    let artifact ← buildRegimeMetrics lang digests run pins.1 pins.2 tradeAttr equityAttr policy slices
    pure { artifact, qualityId := artifact.qualityId, slices }

end Evaluator

end TradingBot.Research.RegimeQuality
