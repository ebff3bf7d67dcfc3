import TradingBot.Research.Models
import TradingBot.Market.Timeframes

namespace TradingBot.Research.Regime

open Market.Models Market.Timeframes Exceptions Library.Dictionary Backtester.Models Research.Models

section Classifier

inductive TrendLabel
  | bull | bear | sideways | insufficient
deriving DecidableEq, Repr

inductive VolLabel
  | lowVol | normalVol | highVol | insufficient
deriving DecidableEq, Repr

inductive LabelStatus
  | ok | insufficient
deriving DecidableEq, Repr

structure RegimeClassifier where
  trendBullMin : Decimal := 5 / 100
  trendBearMax : Decimal := -5 / 100
  volLowMax : Decimal := 15 / 1000
  volHighMin : Decimal := 35 / 1000
  minBarsPerPeriod : ℕ := 5
  transitionWindowBars : ℤ := 5
  requireCalendarAdjacency : Bool := true
deriving DecidableEq, Repr

/-- A daily close under its date, which is the number of its day. -/
structure PriceBar where
  asOf : ℤ
  close : Decimal
deriving DecidableEq, Repr

structure PeriodId where
  year : ℤ
  month : ℤ
deriving DecidableEq, Repr

def periodId (date : ℤ) : PeriodId := ⟨(civilDate date).year, (civilDate date).month⟩

structure PeriodLabel where
  periodId : PeriodId
  trend : TrendLabel
  vol : VolLabel
  barCount : ℕ
  periodReturn : Option Decimal
  realizedVariance : Option Decimal
  status : LabelStatus
deriving DecidableEq, Repr

structure DayLabel where
  asOf : ℤ
  periodId : PeriodId
  trend : TrendLabel
  vol : VolLabel
  status : LabelStatus
deriving DecidableEq, Repr

def populationVariance (values : List Decimal) : Option Decimal :=
  if values.length < 2 then none
  else
    let mean := values.sum / values.length
    some ((values.map fun v => (v - mean) ^ 2).sum / values.length)

def classifyTrend (classifier : RegimeClassifier) (periodReturn : Decimal) : TrendLabel :=
  if classifier.trendBullMin ≤ periodReturn then .bull
  else if periodReturn ≤ classifier.trendBearMax then .bear
  else .sideways

/-- The bounds on the deviation are positive, so its square is compared with theirs. -/
def classifyVol (classifier : RegimeClassifier) (variance : Decimal) : VolLabel :=
  if variance < classifier.volLowMax ^ 2 then .lowVol
  else if classifier.volHighMin ^ 2 ≤ variance then .highVol
  else .normalVol

def dailyReturns (closes : List Decimal) : List Decimal :=
  (closes.zip closes.tail).filterMap fun (prev, cur) => if prev = 0 then none else some (cur / prev - 1)

def insufficientPeriod (pid : PeriodId) (barCount : ℕ) (periodReturn : Option Decimal) : PeriodLabel :=
  { periodId := pid, trend := .insufficient, vol := .insufficient, barCount, periodReturn
    realizedVariance := none, status := .insufficient }

def labelPeriod (classifier : RegimeClassifier) (pid : PeriodId) (bars : List PriceBar) : PeriodLabel :=
  if bars.length < classifier.minBarsPerPeriod then insufficientPeriod pid bars.length none
  else match bars.head?, bars.getLast? with
    | some first, some last =>
      if first.close = 0 then insufficientPeriod pid bars.length none
      else
        let periodReturn := last.close / first.close - 1
        match populationVariance (dailyReturns (bars.map (·.close))) with
        | none => insufficientPeriod pid bars.length (some periodReturn)
        | some variance =>
          { periodId := pid
            trend := classifyTrend classifier periodReturn
            vol := classifyVol classifier variance
            barCount := bars.length
            periodReturn := some periodReturn
            realizedVariance := some variance
            status := .ok }
    | _, _ => insufficientPeriod pid bars.length none

/-- Each bar inherits the label of its whole month. -/
def labelDays (classifier : RegimeClassifier) (bars : List PriceBar) : List DayLabel :=
  bars.map fun bar =>
    let pid := periodId bar.asOf
    let period := labelPeriod classifier pid (bars.filter fun b => periodId b.asOf = pid)
    { asOf := bar.asOf, periodId := pid, trend := period.trend, vol := period.vol, status := period.status }

def classifyRegimeSeries (classifier : RegimeClassifier) (bars : List PriceBar) : Except Exc (List DayLabel) :=
  if bars = [] then .error (.runtimeError "empty price series: fail-closed (no regime labels)")
  else .ok (labelDays classifier (bars.insertionSort fun a b => a.asOf ≤ b.asOf))

def regimeClassifierSymbol (spec : ExperimentSpec) : Except Exc String :=
  if "BTC" ∈ spec.symbolNames then .ok "BTC"
  else match spec.symbolNames with
    | [] => .error (.valueError "experiment Spec has no symbols for regime classification")
    | symbol :: _ => .ok symbol

def regimeBars (bundle : HistoricalDataBundle) (symbol : String) : List PriceBar :=
  ((bundle.daily symbol).filter (·.isClosed)).map fun c => ⟨dayNumber c.closeTime, c.close⟩

def regimeLabelsPayload (spec : ExperimentSpec) (bundle : HistoricalDataBundle) :
    Except Exc (List DayLabel) := do
  let symbol ← regimeClassifierSymbol spec
  classifyRegimeSeries {} (regimeBars bundle symbol)

end Classifier

section Join

structure CellId where
  trend : TrendLabel
  vol : VolLabel
deriving DecidableEq, Repr

structure DayRegimeKey where
  asOf : ℤ
  periodId : PeriodId
  trend : TrendLabel
  vol : VolLabel
  status : LabelStatus
deriving DecidableEq, Repr

def DayRegimeKey.cellId (key : DayRegimeKey) : CellId := ⟨key.trend, key.vol⟩

def asUtcDate (t : Time) : ℤ := dayNumber t

abbrev DayIndex := Dict ℤ DayRegimeKey

def DayLabel.key (label : DayLabel) : DayRegimeKey :=
  ⟨label.asOf, label.periodId, label.trend, label.vol, label.status⟩

/-- A later label of a date replaces an earlier one. -/
def indexDayLabels (labels : List DayLabel) : DayIndex :=
  labels.foldl (fun index label => index.set label.asOf label.key) {}

/-- Where the join puts a record that is dated by an instant. -/
inductive Attribution
  | unlabeled
  | insufficient (key : DayRegimeKey)
  | cell (key : DayRegimeKey)
deriving DecidableEq, Repr

/-- Where the records of a date go. -/
def attributedDate (index : DayIndex) (date : ℤ) : Attribution :=
  match index.get? date with
  | none => .unlabeled
  | some key => if key.status = .ok then .cell key else .insufficient key

def attributed (index : DayIndex) (t : Time) : Attribution := attributedDate index (asUtcDate t)

def Attribution.cellId : Attribution → Option CellId
  | .cell key => some key.cellId
  | _ => none

structure TradeAttribution where
  byCell : CellId → List BacktestTrade
  unlabeled : List BacktestTrade
  insufficient : List BacktestTrade
  openOrMissingExit : List BacktestTrade

/-- Closed trades go by the date of their exit. -/
def attributeTrades (index : DayIndex) (trades : List BacktestTrade) : TradeAttribution :=
  let tagged := trades.filterMap fun t => t.exitTime.map fun exit => (attributed index exit, t)
  { byCell := fun cell => (tagged.filter fun r => r.1.cellId = some cell).map Prod.snd
    unlabeled := (tagged.filter fun r => r.1 = .unlabeled).map Prod.snd
    insufficient := (tagged.filter fun r => r.1 ≠ .unlabeled ∧ r.1.cellId = none).map Prod.snd
    openOrMissingExit := trades.filter (·.exitTime.isNone) }

structure EquityAttribution where
  byCell : CellId → List EquitySnapshot
  timeline : List (ℤ × Option CellId × EquitySnapshot)
  unlabeledPoints : ℕ
  insufficientPoints : ℕ

def attributeEquity (index : DayIndex) (equity : List EquitySnapshot) : EquityAttribution :=
  let tagged := equity.map fun s => (attributed index s.time, s)
  { byCell := fun cell => (tagged.filter fun r => r.1.cellId = some cell).map Prod.snd
    timeline := (tagged.map fun r => (asUtcDate r.2.time, r.1.cellId, r.2)).insertionSort fun a b =>
      a.1 < b.1 ∨ a.1 = b.1 ∧ a.2.2.time ≤ b.2.2.time
    unlabeledPoints := tagged.countP fun r => r.1 = .unlabeled
    insufficientPoints := tagged.countP fun r => r.1 ≠ .unlabeled ∧ r.1.cellId = none }

theorem get?_indexDayLabels_isSome {labels : List DayLabel} {date : ℤ} :
    ((indexDayLabels labels).get? date).isSome ↔ ∃ label ∈ labels, label.asOf = date := by
  unfold indexDayLabels
  induction labels using List.reverseRecOn with
  | nil => simp [Dict.get?]
  | append_singleton labels label ih =>
    rw [List.foldl_append, List.foldl_cons, List.foldl_nil]
    by_cases hdate : label.asOf = date
    · subst hdate
      simp [Dict.get?_set_self]
    · rw [Dict.get?_set_of_ne (Ne.symm hdate), ih]
      simp [hdate]

/-- Two dates whose records go to the same place have the same label, or none. -/
theorem attributedDate_eq_iff {index : DayIndex} {date date' : ℤ} :
    attributedDate index date = attributedDate index date' ↔ index.get? date = index.get? date' := by
  unfold attributedDate
  constructor
  · intro h
    cases hkey : index.get? date with
    | none =>
      cases hkey' : index.get? date' with
      | none => rfl
      | some key' =>
        simp only [hkey, hkey'] at h
        split_ifs at h
    | some key =>
      cases hkey' : index.get? date' with
      | none =>
        simp only [hkey, hkey'] at h
        split_ifs at h
      | some key' =>
        simp only [hkey, hkey'] at h
        split_ifs at h
        · rw [Attribution.cell.inj h]
        · rw [Attribution.insufficient.inj h]
  · intro h
    rw [h]

theorem asOf_of_get? {labels : List DayLabel} {date : ℤ} {key : DayRegimeKey}
    (h : (indexDayLabels labels).get? date = some key) : key.asOf = date := by
  unfold indexDayLabels at h
  induction labels using List.reverseRecOn with
  | nil => simp [Dict.get?] at h
  | append_singleton labels label ih =>
    rw [List.foldl_append, List.foldl_cons, List.foldl_nil] at h
    by_cases hdate : label.asOf = date
    · subst hdate
      rw [Dict.get?_set_self] at h
      cases h
      rfl
    · rw [Dict.get?_set_of_ne (Ne.symm hdate)] at h
      exact ih h

theorem labelled_iff {spec : ExperimentSpec} {bundle : HistoricalDataBundle} {labels : List DayLabel}
    {symbol : String} (hsymbol : regimeClassifierSymbol spec = .ok symbol)
    (h : regimeLabelsPayload spec bundle = .ok labels) {date : ℤ} :
    ((indexDayLabels labels).get? date).isSome ↔
      ∃ c ∈ bundle.daily symbol, c.isClosed = true ∧ dayNumber c.closeTime = date := by
  rw [get?_indexDayLabels_isSome]
  unfold regimeLabelsPayload at h
  simp only [hsymbol, bind, Except.bind, classifyRegimeSeries] at h
  split_ifs at h
  cases h
  simp [labelDays, regimeBars, and_assoc]

end Join

end TradingBot.Research.Regime
