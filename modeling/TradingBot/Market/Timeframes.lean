import TradingBot.Exceptions

namespace TradingBot.Market.Timeframes

open Market.Models Exceptions

section Calendar

def dayNumber (t : Time) : ℤ := t / day

def timeOfDay (t : Time) : Time := t % day

/-- Monday is 0, as in `datetime.weekday`; 1970-01-01 was a Thursday. -/
def weekday (t : Time) : ℤ := (dayNumber t + 3) % 7

structure CivilDate where
  year : ℤ
  month : ℤ
  dayOfMonth : ℤ
deriving DecidableEq, Repr

/-- The proleptic Gregorian date of a day number, counting years from March. -/
def civilDate (days : ℤ) : CivilDate :=
  let z := days + 719468
  let era := z / 146097
  let dayOfEra := z % 146097
  let yearOfEra := (dayOfEra - dayOfEra / 1460 + dayOfEra / 36524 - dayOfEra / 146096) / 365
  let dayOfYear := dayOfEra - (365 * yearOfEra + yearOfEra / 4 - yearOfEra / 100)
  let shifted := (5 * dayOfYear + 2) / 153
  let month := if shifted < 10 then shifted + 3 else shifted - 9
  { year := yearOfEra + era * 400 + (if month ≤ 2 then 1 else 0)
    month
    dayOfMonth := dayOfYear - (153 * shifted + 2) / 5 + 1 }

def firstOfMonth (year month : ℤ) : ℤ :=
  let y := if month ≤ 2 then year - 1 else year
  let era := y / 400
  let yearOfEra := y % 400
  let shifted := if month ≤ 2 then month + 9 else month - 3
  let dayOfYear := (153 * shifted + 2) / 5
  era * 146097 + (yearOfEra * 365 + yearOfEra / 4 - yearOfEra / 100 + dayOfYear) - 719468

def firstOfNextMonth (t : Time) : Time :=
  let date := civilDate (dayNumber t)
  day * (if date.month = 12 then firstOfMonth (date.year + 1) 1
    else firstOfMonth date.year (date.month + 1))

end Calendar

def dailyOpen (t : Time) : Time := dayNumber t * day

def dailyClose (openTime : Time) : Time := dayNumber openTime * day + 86399 * second

def weeklyOpenContaining (t : Time) : Time := dailyOpen t - weekday (dailyOpen t) * day

def monthlyOpen (year month : ℤ) : Time := day * firstOfMonth year month

def weeklyClose (openTime : Time) : Except Exc Time :=
  if weekday openTime ≠ 0 then .error (.valueError "weekly open_time must be Monday 00:00 UTC")
  else .ok (openTime + 6 * day + 86399 * second)

def monthlyClose (openTime : Time) : Except Exc Time :=
  if (civilDate (dayNumber openTime)).dayOfMonth ≠ 1 ∨ 3600 * second ≤ timeOfDay openTime then
    .error (.valueError "monthly open_time must be first day 00:00 UTC")
  else .ok (firstOfNextMonth openTime - second)

def expectedCloseTime (openTime : Time) : Timeframe → Except Exc Time
  | .daily => .ok (dailyClose openTime)
  | .weekly => weeklyClose openTime
  | .monthly => monthlyClose openTime

def nextOpenTime (openTime : Time) : Timeframe → Time
  | .daily => openTime + day
  | .weekly => openTime + 7 * day
  | .monthly => firstOfNextMonth openTime

def isValidTimeframeDuration (openTime closeTime : Time) (timeframe : Timeframe) : Except Exc Bool := do
  let expected ← expectedCloseTime openTime timeframe
  pure (decide (closeTime = expected))

example : civilDate 19782 = ⟨2024, 2, 29⟩ := by decide

example : firstOfNextMonth (19782 * day) = 19783 * day := by decide

end TradingBot.Market.Timeframes
