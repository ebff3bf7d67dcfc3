import TradingBot.Market.IngestFacts

namespace TradingBot.Market.Periods

open Market.Models Market.Timeframes Market.CalendarFacts Market.IngestFacts Exceptions

/-- The first day of a period: days count from 1970, weeks from the Monday before, months from the year 0. -/
def firstDay : Timeframe → ℤ → ℤ
  | .daily, k => k
  | .weekly, k => 7 * k - 3
  | .monthly, k => monthStart k

def periodStart (timeframe : Timeframe) (k : ℤ) : Time := day * firstDay timeframe k

def periodOf : Timeframe → Time → ℤ
  | .daily, t => dayNumber t
  | .weekly, t => (dayNumber t + 3) / 7
  | .monthly, t => monthOf (dayNumber t)

variable {timeframe : Timeframe} {k j : ℤ} {t : Time}

theorem day_pos : 0 < day := by decide

theorem le_dayNumber_iff {n : ℤ} : n ≤ dayNumber t ↔ day * n ≤ t := by
  unfold dayNumber
  rw [Int.le_ediv_iff_mul_le day_pos, mul_comm]

theorem dayNumber_lt_iff {n : ℤ} : dayNumber t < n ↔ t < day * n := by
  rw [← not_le, le_dayNumber_iff, not_le]

@[simp] theorem dayNumber_mul (n : ℤ) : dayNumber (day * n) = n := Int.mul_ediv_cancel_left n day_pos.ne'

@[simp] theorem timeOfDay_mul (n : ℤ) : timeOfDay (day * n) = 0 := Int.mul_emod_right day n

theorem strictMono_firstDay (timeframe : Timeframe) : StrictMono (firstDay timeframe) := by
  cases timeframe with
  | daily => exact strictMono_id
  | weekly =>
    intro a b hab
    unfold firstDay
    dsimp only
    omega
  | monthly => exact strictMono_monthStart

theorem periodStart_succ (timeframe : Timeframe) (k : ℤ) :
    periodStart timeframe k + day ≤ periodStart timeframe (k + 1) := by
  have hstep : firstDay timeframe k + 1 ≤ firstDay timeframe (k + 1) :=
    strictMono_firstDay timeframe (by omega)
  have hle := Int.mul_le_mul_of_nonneg_left hstep day_pos.le
  rwa [mul_add, mul_one] at hle

theorem strictMono_periodStart (timeframe : Timeframe) : StrictMono (periodStart timeframe) :=
  strictMono_int_of_lt_succ fun k => (lt_add_of_pos_right _ day_pos).trans_le (periodStart_succ timeframe k)

theorem le_periodOf_iff : k ≤ periodOf timeframe t ↔ periodStart timeframe k ≤ t := by
  unfold periodStart
  rw [← le_dayNumber_iff]
  unfold periodOf firstDay
  cases timeframe with
  | daily => rfl
  | weekly =>
    dsimp only
    omega
  | monthly =>
    dsimp only
    obtain ⟨hle, hlt, _⟩ := monthOf_bounds (dayNumber t)
    constructor
    · exact fun h => (strictMono_monthStart.monotone h).trans hle
    · intro h
      have hk := strictMono_monthStart.lt_iff_lt.mp (h.trans_lt hlt)
      omega

theorem periodOf_lt_iff : periodOf timeframe t < k ↔ t < periodStart timeframe k := by
  rw [← not_le, le_periodOf_iff, not_le]

@[simp] theorem periodOf_periodStart (timeframe : Timeframe) (k : ℤ) :
    periodOf timeframe (periodStart timeframe k) = k := by
  refine le_antisymm ?_ (le_periodOf_iff.mpr le_rfl)
  exact Int.lt_add_one_iff.mp (periodOf_lt_iff.mpr (strictMono_periodStart timeframe (by omega)))

theorem canonicalOpen_eq (timeframe : Timeframe) (t : Time) :
    canonicalOpen timeframe t = periodStart timeframe (periodOf timeframe t) := by
  cases timeframe with
  | daily => exact mul_comm _ _
  | weekly =>
    unfold canonicalOpen periodStart firstDay periodOf weeklyOpenContaining weekday
    dsimp only
    have hopen : dailyOpen t = day * dayNumber t := mul_comm _ _
    have hweek : ∀ n : ℤ, n - (n + 3) % 7 = 7 * ((n + 3) / 7) - 3 := fun n => by omega
    rw [hopen, dayNumber_mul, mul_comm _ day, ← mul_sub, hweek]
  | monthly =>
    unfold canonicalOpen periodStart firstDay periodOf monthlyOpen
    dsimp only
    rw [firstOfMonth_civilDate]

theorem canonicalOpen_periodStart (timeframe : Timeframe) (k : ℤ) :
    canonicalOpen timeframe (periodStart timeframe k) = periodStart timeframe k := by
  rw [canonicalOpen_eq, periodOf_periodStart]

theorem nextOpenTime_periodStart (timeframe : Timeframe) (k : ℤ) :
    nextOpenTime (periodStart timeframe k) timeframe = periodStart timeframe (k + 1) := by
  unfold nextOpenTime periodStart firstDay
  cases timeframe with
  | daily =>
    dsimp only
    ring
  | weekly =>
    dsimp only
    ring
  | monthly =>
    dsimp only
    rw [firstOfNextMonth_eq, dayNumber_mul, monthOf_monthStart]

theorem canonicalClose_periodStart (timeframe : Timeframe) (k : ℤ) :
    canonicalClose timeframe (periodStart timeframe k) = periodStart timeframe (k + 1) - second := by
  have hday : day = 86399 * second + second := by decide
  have hnext := nextOpenTime_periodStart timeframe k
  rw [← hnext]
  cases timeframe with
  | daily =>
    unfold canonicalClose periodStart dailyClose nextOpenTime
    dsimp only
    rw [dayNumber_mul, mul_comm]
    linarith
  | weekly =>
    unfold canonicalClose nextOpenTime
    dsimp only
    linarith
  | monthly => rfl

theorem expectedCloseTime_periodStart (timeframe : Timeframe) (k : ℤ) :
    expectedCloseTime (periodStart timeframe k) timeframe = .ok (periodStart timeframe (k + 1) - second) := by
  have hclose := expectedCloseTime_canonicalOpen timeframe (periodStart timeframe k)
  rwa [canonicalOpen_periodStart, canonicalClose_periodStart] at hclose

end TradingBot.Market.Periods
