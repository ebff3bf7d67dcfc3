import TradingBot.Market.Quality

namespace TradingBot.Market.Aggregation

open Market.Models Market.Repository Market.Timeframes Market.Quality Exceptions

def aggregateBucket (dailies : List Candle) (symbol : Symbol) (timeframe : Timeframe)
    (bucketOpen bucketClose evaluationTime : Time) (requiredDays : List Time) : Option Candle :=
  if !isCandleClosed bucketClose evaluationTime then none
  else
    let members := dailies.filter fun d => bucketOpen ≤ d.openTime ∧ d.openTime ≤ bucketClose
    let present := members.map fun d => dailyOpen d.openTime
    match sortCandles members with
    | [] => none
    | first :: rest =>
      if ¬ (present ⊆ requiredDays ∧ requiredDays ⊆ present) then none
      else some {
        symbol
        timeframe
        openTime := bucketOpen
        closeTime := bucketClose
        openPrice := first.openPrice
        high := rest.foldl (fun highest d => max highest d.high) first.high
        low := rest.foldl (fun lowest d => min lowest d.low) first.low
        close := (rest.getLast?.getD first).close
        volume := ((first :: rest).map (·.volume)).sum
        isClosed := true }

def dayRange (start : Time) (count : ℕ) : List Time := (List.range count).map fun i : ℕ => start + i * day

def weekStarts (firstDay lastDay : Time) : List Time :=
  let start := weeklyOpenContaining firstDay
  if lastDay < start then []
  else (List.range (((lastDay - start) / (7 * day)).toNat + 1)).map fun i : ℕ => start + i * (7 * day)

def aggregateWeek (dailies : List Candle) (symbol : Symbol) (evaluationTime weekStart : Time) :
    Except Exc (Option Candle) := do
  let weekClose ← weeklyClose weekStart
  pure (aggregateBucket dailies symbol .weekly weekStart weekClose evaluationTime (dayRange weekStart 7))

def aggregateWeeklyFromDaily (dailies : List Candle) (symbol : Symbol) (evaluationTime : Time) :
    Except Exc (List Candle) :=
  let dailies := sortCandles (dailies.filter (·.symbol = symbol))
  match dailies.head?, dailies.getLast? with
  | some first, some last => do
    let weeks ← (weekStarts (dailyOpen first.openTime) (dailyOpen last.openTime)).mapM
      (aggregateWeek dailies symbol evaluationTime)
    pure weeks.reduceOption
  | _, _ => .ok []

def monthDayRange (monthStart : Time) : Except Exc (List Time) := do
  let close ← monthlyClose monthStart
  pure (dayRange monthStart (dayNumber close - dayNumber monthStart + 1).toNat)

def monthStarts (lastDay : Time) : ℕ → Time → List Time
  | 0, _ => []
  | fuel + 1, cursor =>
    if lastDay < cursor then [] else cursor :: monthStarts lastDay fuel (firstOfNextMonth cursor)

def aggregateMonth (dailies : List Candle) (symbol : Symbol) (evaluationTime monthStart : Time) :
    Except Exc (Option Candle) := do
  let monthEnd ← monthlyClose monthStart
  let requiredDays ← monthDayRange monthStart
  pure (aggregateBucket dailies symbol .monthly monthStart monthEnd evaluationTime requiredDays)

def aggregateMonthlyFromDaily (dailies : List Candle) (symbol : Symbol) (evaluationTime : Time) :
    Except Exc (List Candle) :=
  let dailies := sortCandles (dailies.filter (·.symbol = symbol))
  match dailies.head?, dailies.getLast? with
  | some first, some last => do
    let date := civilDate (dayNumber first.openTime)
    let start := monthlyOpen date.year date.month
    let lastDay := dailyOpen last.openTime
    let months ← (monthStarts lastDay (stepsUntil start lastDay) start).mapM
      (aggregateMonth dailies symbol evaluationTime)
    pure months.reduceOption
  | _, _ => .ok []

end TradingBot.Market.Aggregation
