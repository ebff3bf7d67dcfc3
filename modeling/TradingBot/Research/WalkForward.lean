import TradingBot.Library.WhileLoops
import TradingBot.Market.CalendarFacts

namespace TradingBot.Research.WalkForward

open Market.Timeframes
open Library.WhileLoops

section Dates

def twoDigits (n : ℕ) : String := if n < 10 then "0" ++ toString n else toString n

theorem ofDigitChars_twoDigits (n : ℕ) : Nat.ofDigitChars 10 (twoDigits n).toList 0 = n := by
  unfold twoDigits
  split_ifs
  · simp [Nat.repr_eq_ofList_toDigits, Nat.ofDigitChars_cons]
  · simp [Nat.repr_eq_ofList_toDigits]

theorem twoDigits_injective : Function.Injective twoDigits := by
  intro n m h
  rw [← ofDigitChars_twoDigits n, h, ofDigitChars_twoDigits]

theorem isDigit_of_mem_twoDigits {n : ℕ} {c : Char} (h : c ∈ (twoDigits n).toList) : c.isDigit = true := by
  have hdigits : ∀ c ∈ (toString n).toList, c.isDigit = true := by
    intro c hc
    rw [Nat.toString_eq_repr, Nat.repr_eq_ofList_toDigits, String.toList_ofList] at hc
    exact Nat.isDigit_of_mem_toDigits (by decide) (by decide) hc
  unfold twoDigits at h
  split_ifs at h
  · rw [String.toList_append, List.mem_append] at h
    cases h with
    | inl hzero =>
      obtain rfl : c = '0' := by simpa using hzero
      decide
    | inr hc => exact hdigits c hc
  · exact hdigits c h

def minDate : ℤ := -719162

def maxDate : ℤ := 2932896

def addDays (date days : ℤ) : Except String ℤ :=
  if minDate ≤ date + days ∧ date + days ≤ maxDate then .ok (date + days) else .error "date value out of range"

def isoformat (date : ℤ) : String :=
  let civil := civilDate date
  twoDigits (civil.year.toNat / 100) ++ twoDigits (civil.year.toNat % 100) ++ "-" ++ twoDigits civil.month.toNat ++
    "-" ++ twoDigits civil.dayOfMonth.toNat

structure Month where
  year : ℤ
  month : ℤ
  valid : 1 ≤ month ∧ month ≤ 12
deriving DecidableEq, Repr

def nextMonth (m : Month) : Month :=
  if hlast : m.month = 12 then ⟨m.year + 1, 1, by decide⟩ else ⟨m.year, m.month + 1, by have := m.valid; omega⟩

def dateIn (m : Month) (date : ℤ) : Except String ℤ :=
  if 1 ≤ m.year ∧ m.year ≤ 9999 then .ok date else .error ("year " ++ toString m.year ++ " is out of range")

def monthStart (m : Month) : Except String ℤ := dateIn m (firstOfMonth m.year m.month)

def monthEnd (m : Month) : Except String ℤ := dateIn m (firstOfMonth (nextMonth m).year (nextMonth m).month - 1)

def firstMonthFrom (date : ℤ) : Month :=
  let m : Month := ⟨(civilDate date).year, (civilDate date).month, Market.CalendarFacts.civilDate_month date⟩
  if (civilDate date).dayOfMonth = 1 then m else nextMonth m

/-- The place of a month in the row of all months, where March of the year 0 is at 0. -/
def Month.index (m : Month) : ℤ := 12 * m.year + m.month - 3

@[simp] theorem index_nextMonth (m : Month) : (nextMonth m).index = m.index + 1 := by
  unfold nextMonth Month.index
  split_ifs with hlast
  · dsimp only
    omega
  · dsimp only
    omega

theorem firstOfMonth_index (m : Month) : firstOfMonth m.year m.month = Market.CalendarFacts.monthStart m.index :=
  Market.CalendarFacts.firstOfMonth_eq m.valid.1 m.valid.2

theorem dateIn_eq_ok {m : Month} {date d : ℤ} (h : dateIn m date = .ok d) : m.year ≤ 9999 ∧ d = date := by
  unfold dateIn at h
  split_ifs at h with hyear
  cases h
  exact ⟨hyear.2, rfl⟩

theorem monthStart_eq_ok {m : Month} {d : ℤ} (h : monthStart m = .ok d) :
    d = Market.CalendarFacts.monthStart m.index := by
  rw [← firstOfMonth_index]
  exact (dateIn_eq_ok h).2

theorem monthEnd_eq_ok {m : Month} {d : ℤ} (h : monthEnd m = .ok d) :
    d + 1 = Market.CalendarFacts.monthStart (m.index + 1) := by
  rw [← index_nextMonth, ← firstOfMonth_index, (dateIn_eq_ok h).2, sub_add_cancel]

end Dates

section Warmup

def countTurn (contextStart contextEnd : ℤ) : Month × ℕ → (Month × ℕ) ⊕ Except String ℕ
  | (m, count) =>
    match monthStart m, monthEnd m with
    | .ok startM, .ok endM =>
      if contextEnd < startM then .inr (.ok count)
      else if contextEnd < endM then .inr (.ok count)
      else .inl (nextMonth m, if contextStart ≤ startM then count + 1 else count)
    | .error e, _ => .inr (.error e)
    | .ok _, .error e => .inr (.error e)

theorem countTurn_inl {contextStart contextEnd : ℤ} {s s' : Month × ℕ}
    (h : countTurn contextStart contextEnd s = .inl s') :
    Market.CalendarFacts.monthStart (s.1.index + 1) ≤ contextEnd + 1 ∧ s'.1 = nextMonth s.1 ∧
      s'.2 = if contextStart ≤ Market.CalendarFacts.monthStart s.1.index then s.2 + 1 else s.2 := by
  obtain ⟨m, count⟩ := s
  unfold countTurn at h
  cases hstart : monthStart m with
  | error e => simp [hstart] at h
  | ok startM =>
    cases hend : monthEnd m with
    | error e => simp [hstart, hend] at h
    | ok endM =>
      simp only [hstart, hend] at h
      rw [← monthStart_eq_ok hstart, ← monthEnd_eq_ok hend]
      split_ifs at h ⊢ with hbefore hinside hwhole
      · cases h
        exact ⟨by omega, rfl, rfl⟩
      · cases h
        exact ⟨by omega, rfl, rfl⟩

def countLoop (contextStart contextEnd : ℤ) : WhileLoop (Month × ℕ) (Except String ℕ) where
  turn := countTurn contextStart contextEnd
  measure s := (contextEnd + 1 - Market.CalendarFacts.monthStart s.1.index).toNat
  decreases s s' h := by
    obtain ⟨hend, hnext, _⟩ := countTurn_inl h
    have hmono := (Market.CalendarFacts.monthStart_succ s.1.index).1
    rw [hnext, index_nextMonth]
    omega

def countCompletedMonthlyCandles (contextStart contextEnd : ℤ) : Except String ℕ :=
  if contextEnd < contextStart then .ok 0
  else (countLoop contextStart contextEnd).run (firstMonthFrom contextStart, 0)

def warmupTurn (rangeStart monthlyBars : ℤ) : Month × ℤ → (Month × ℤ) ⊕ Except String ℤ
  | (m, completed) =>
    if monthlyBars ≤ completed then .inr (.error "monthly warmup search failed")
    else
      match monthStart m, monthEnd m with
      | .ok startM, .ok endM =>
        if rangeStart ≤ startM then
          if completed + 1 = monthlyBars then .inr (addDays endM 1) else .inl (nextMonth m, completed + 1)
        else .inl (nextMonth m, completed)
      | .error e, _ => .inr (.error e)
      | .ok _, .error e => .inr (.error e)

theorem warmupTurn_inl {rangeStart monthlyBars : ℤ} {s s' : Month × ℤ}
    (h : warmupTurn rangeStart monthlyBars s = .inl s') :
    s.1.year ≤ 9999 ∧ s.2 < monthlyBars ∧ s'.1 = nextMonth s.1 ∧
      (if rangeStart ≤ Market.CalendarFacts.monthStart s.1.index then
        s.2 + 1 ≠ monthlyBars ∧ s'.2 = s.2 + 1 else s'.2 = s.2) := by
  obtain ⟨m, completed⟩ := s
  unfold warmupTurn at h
  by_cases hdone : monthlyBars ≤ completed
  · simp [hdone] at h
  · cases hstart : monthStart m with
    | error e => simp [hdone, hstart] at h
    | ok startM =>
      cases hend : monthEnd m with
      | error e => simp [hdone, hstart, hend] at h
      | ok endM =>
        simp only [hdone, hstart, hend, if_false] at h
        rw [← monthStart_eq_ok hstart]
        split_ifs at h ⊢ with hwhole hlast
        · cases h
          exact ⟨(dateIn_eq_ok hstart).1, not_le.mp hdone, rfl, hlast, rfl⟩
        · cases h
          exact ⟨(dateIn_eq_ok hstart).1, not_le.mp hdone, rfl, rfl⟩

/-- The search comes nearer to the last year that `date` knows. -/
def warmupLoop (rangeStart monthlyBars : ℤ) : WhileLoop (Month × ℤ) (Except String ℤ) where
  turn := warmupTurn rangeStart monthlyBars
  measure s := (12 * 10000 - s.1.index).toNat
  decreases s s' h := by
    obtain ⟨hyear, _, hnext, _⟩ := warmupTurn_inl h
    have hmonth := s.1.valid
    have hindex : s.1.index = 12 * s.1.year + s.1.month - 3 := rfl
    rw [hnext, index_nextMonth]
    omega

def earliestEvalStartForMonthlyWarmup (rangeStart monthlyBars : ℤ) : Except String ℤ :=
  if monthlyBars < 1 then .error "monthly_bars must be >= 1"
  else (warmupLoop rangeStart monthlyBars).run (firstMonthFrom rangeStart, 0)

end Warmup

section Folds

structure WalkForwardFold where
  foldId : String
  featureContextStart : ℤ
  featureContextEnd : ℤ
  labelContextStart : ℤ
  labelContextEnd : ℤ
  embargoStart : ℤ
  embargoEnd : ℤ
  evalStart : ℤ
  evalEnd : ℤ
deriving DecidableEq, Repr

/-- The arguments of `plan_walk_forward_folds`, with the dates as day numbers. -/
structure PlanRequest where
  rangeStart : ℤ
  rangeEnd : ℤ
  nFolds : ℤ
  embargoDays : ℤ
  featureWarmupMonthlyBars : ℤ
  featureWarmupDays : Option ℤ := none
deriving DecidableEq, Repr

variable (request : PlanRequest)

def ensure (holds : Bool) (message : String) : Except String Unit := if holds then .ok () else .error message

/-- The days before the evaluation on which labels are not used, by their first, and the last day on which they
are. -/
def embargoWindow (evalStart featureContextEnd : ℤ) : Except String (ℤ × ℤ) :=
  if request.embargoDays = 0 then .ok (evalStart, featureContextEnd)
  else do
    let embargoStart ← addDays evalStart (-request.embargoDays)
    let labelContextEnd ← addDays embargoStart (-1)
    pure (embargoStart, labelContextEnd)

/-- One turn of the loop over the folds. -/
def planFold (i : ℕ) (cursor length : ℤ) : Except String WalkForwardFold := do
  let start := request.rangeStart
  let evalEnd ← addDays cursor (length - 1)
  let featureContextEnd ← addDays cursor (-1)
  let completed ← countCompletedMonthlyCandles start featureContextEnd
  ensure (request.featureWarmupMonthlyBars ≤ completed)
    ("fold " ++ toString (i + 1) ++ ": completed monthly candles " ++ toString completed ++
      " < feature_warmup_monthly_bars=" ++ toString request.featureWarmupMonthlyBars)
  let span := featureContextEnd - start + 1
  ensure (request.featureWarmupDays.all (· ≤ span))
    ("fold " ++ toString (i + 1) ++ ": feature context span " ++ toString span ++ "d < feature_warmup_days=" ++
      toString (request.featureWarmupDays.getD 0))
  let (embargoStart, labelContextEnd) ← embargoWindow request cursor featureContextEnd
  ensure (start ≤ labelContextEnd)
    ("fold " ++ toString (i + 1) ++ ": embargo_days=" ++ toString request.embargoDays ++
      " leaves no label context before eval; widen range or reduce embargo")
  pure
    { foldId := "fold_" ++ twoDigits (i + 1)
      featureContextStart := start
      featureContextEnd
      labelContextStart := start
      labelContextEnd
      embargoStart
      embargoEnd := featureContextEnd
      evalStart := cursor
      evalEnd }

def planFolds (totalDays : ℤ) : ℕ → ℕ → ℤ → Except String (List WalkForwardFold)
  | 0, _, _ => .ok []
  | left + 1, i, cursor => do
    let length := totalDays / request.nFolds + (if i < totalDays % request.nFolds then 1 else 0)
    let fold ← planFold request i cursor length
    let next ← addDays fold.evalEnd 1
    let folds ← planFolds totalDays left (i + 1) next
    pure (fold :: folds)

def firstEvalStart : Except String ℤ := do
  let first ← earliestEvalStartForMonthlyWarmup request.rangeStart request.featureWarmupMonthlyBars
  match request.featureWarmupDays with
  | none => pure first
  | some days => do
    let floor ← addDays request.rangeStart days
    pure (max first floor)

def planWalkForwardFolds : Except String (List WalkForwardFold) := do
  ensure (request.rangeStart ≤ request.rangeEnd) "range_end must be >= range_start"
  ensure (1 ≤ request.nFolds) "n_folds must be >= 1"
  ensure (0 ≤ request.embargoDays) "embargo_days must be >= 0"
  ensure (1 ≤ request.featureWarmupMonthlyBars) "feature_warmup_monthly_bars must be >= 1"
  ensure (request.featureWarmupDays.all (1 ≤ ·)) "feature_warmup_days must be >= 1 when set"
  let first ← firstEvalStart request
  ensure (first ≤ request.rangeEnd)
    ("range too short for feature warmup before first eval (need history through " ++ isoformat first ++
      "; monthly_bars=" ++ toString request.featureWarmupMonthlyBars ++ ")")
  let totalDays := request.rangeEnd - first + 1
  ensure (request.nFolds ≤ totalDays) "evaluable range shorter than n_folds after warmup"
  planFolds request totalDays request.nFolds.toNat 0 first

end Folds

end TradingBot.Research.WalkForward
