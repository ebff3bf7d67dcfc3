import Mathlib
import TradingBot.Market.Timeframes

namespace TradingBot.Market.CalendarFacts

open Market.Models Market.Timeframes

section Eras

/-- The year that `civilDate` finds for a day of an era of 400 years. -/
def yearIndex (d : ℤ) : ℤ := (d - d / 1460 + d / 36524 - d / 146096) / 365

def yearStart (y : ℤ) : ℤ := 365 * y + y / 4 - y / 100

theorem yearIndex_mono {a b : ℤ} (hab : a ≤ b) : yearIndex a ≤ yearIndex b := by
  unfold yearIndex
  apply Int.ediv_le_ediv (by omega)
  omega

theorem yearIndex_ends : ∀ y < 399, yearIndex (yearStart (y : ℕ)) = y ∧
    yearIndex (yearStart ((y : ℕ) + 1) - 1) = y := by
  decide +kernel

theorem dayOfYear_bounds {d : ℤ} (h0 : 0 ≤ d) (h1 : d < 146097) :
    yearStart (yearIndex d) ≤ d ∧ d ≤ yearStart (yearIndex d) + 365 := by
  have hlow : 0 ≤ yearIndex d := yearIndex_mono h0
  have hhigh : yearIndex d ≤ 399 := yearIndex_mono (by omega : d ≤ 146096)
  obtain ⟨y, hy⟩ := Int.eq_ofNat_of_zero_le hlow
  rw [hy] at hhigh ⊢
  constructor
  · by_contra hlt
    cases y with
    | zero => simp [yearStart] at hlt; omega
    | succ n =>
      have hn : n < 399 := by omega
      have hle : yearIndex d ≤ yearIndex (yearStart ((n : ℕ) + 1) - 1) := by
        apply yearIndex_mono
        push_cast at hlt
        omega
      rw [(yearIndex_ends n hn).2, hy] at hle
      push_cast at hle
      omega
  · by_contra hlt
    by_cases hlast : y < 398
    · have hle : yearIndex (yearStart ((y + 1 : ℕ) : ℤ)) ≤ yearIndex d := by
        apply yearIndex_mono
        unfold yearStart at hlt ⊢
        push_cast
        omega
      rw [(yearIndex_ends (y + 1) (by omega)).1, hy] at hle
      push_cast at hle
      omega
    · unfold yearStart at hlt
      have hcases : y = 398 ∨ y = 399 := by omega
      rcases hcases with rfl | rfl
      · have hle : yearIndex 145731 ≤ yearIndex d := by
          apply yearIndex_mono
          norm_num at hlt
          omega
        have hyear : yearIndex 145731 = 399 := by decide
        rw [hyear, hy] at hle
        omega
      · norm_num at hlt
        omega

end Eras

section Months

/-- The days before the first of March of a year. -/
def yearDays (y : ℤ) : ℤ := 365 * y + y / 4 - y / 100 + y / 400

def monthStart (k : ℤ) : ℤ := yearDays (k / 12) + (153 * (k % 12) + 2) / 5 - 719468

theorem yearDays_succ (y : ℤ) :
    yearDays y + 365 ≤ yearDays (y + 1) ∧ yearDays (y + 1) ≤ yearDays y + 366 := by
  unfold yearDays
  omega

theorem yearDays_era (y era : ℤ) : yearDays (y + era * 400) = yearDays y + era * 146097 := by
  unfold yearDays
  omega

theorem yearDays_eq {y : ℤ} (h0 : 0 ≤ y) (h1 : y < 400) : yearDays y = yearStart y := by
  unfold yearDays yearStart
  omega

theorem monthStart_succ (k : ℤ) :
    monthStart k + 28 ≤ monthStart (k + 1) ∧ monthStart (k + 1) ≤ monthStart k + 31 := by
  have hyear := yearDays_succ (k / 12)
  unfold monthStart
  by_cases hlast : k % 12 = 11
  · have hk : (k + 1) / 12 = k / 12 + 1 := by omega
    rw [hk]
    omega
  · have hk : (k + 1) / 12 = k / 12 := by omega
    rw [hk]
    omega

theorem firstOfMonth_eq {year month : ℤ} (h0 : 1 ≤ month) (h1 : month ≤ 12) :
    firstOfMonth year month = monthStart (12 * year + month - 3) := by
  unfold monthStart firstOfMonth yearDays
  by_cases hmonth : month ≤ 2
  · have hy : (12 * year + month - 3) / 12 = year - 1 := by omega
    simp only [hmonth, if_true, hy]
    omega
  · have hy : (12 * year + month - 3) / 12 = year := by omega
    simp only [hmonth, if_false, hy]
    omega

def monthOf (n : ℤ) : ℤ := 12 * (civilDate n).year + (civilDate n).month - 3

theorem lt_yearDays_succ {d : ℤ} (h0 : 0 ≤ d) (h1 : d < 146097) : d < yearDays (yearIndex d + 1) := by
  have hhigh : yearIndex d ≤ 399 := yearIndex_mono (by omega : d ≤ 146096)
  have hlow : 0 ≤ yearIndex d := yearIndex_mono h0
  by_contra hle
  by_cases hlast : yearIndex d = 399
  · rw [hlast] at hle
    norm_num [yearDays] at hle
    omega
  · obtain ⟨y, hy⟩ := Int.eq_ofNat_of_zero_le hlow
    have hy' : y + 1 < 399 ∨ y + 1 = 399 := by omega
    have hd : yearStart ((y + 1 : ℕ) : ℤ) ≤ d := by
      rw [hy] at hle
      rw [← yearDays_eq (by omega) (by omega)]
      push_cast
      omega
    have hnext : ((y + 1 : ℕ) : ℤ) ≤ yearIndex d := by
      rcases hy' with hlt | heq
      · rw [← (yearIndex_ends (y + 1) hlt).1]
        exact yearIndex_mono hd
      · rw [heq] at hd ⊢
        have hyear : yearIndex (yearStart ((399 : ℕ) : ℤ)) = 399 := by decide
        have := yearIndex_mono hd
        rw [hyear] at this
        exact this
    rw [hy] at hnext
    push_cast at hnext
    omega

theorem monthStart_of_march (y s : ℤ) (h0 : 0 ≤ s) (h1 : s < 12) :
    monthStart (12 * y + s) = yearDays y + (153 * s + 2) / 5 - 719468 := by
  have hy : (12 * y + s) / 12 = y := by omega
  have hs : (12 * y + s) % 12 = s := by omega
  rw [monthStart, hy, hs]

def marchYear (n : ℤ) : ℤ := yearIndex ((n + 719468) % 146097) + (n + 719468) / 146097 * 400

def dayOfYear (n : ℤ) : ℤ := n + 719468 - yearDays (marchYear n)

def marchMonth (n : ℤ) : ℤ := (5 * dayOfYear n + 2) / 153

theorem yearDays_marchYear (n : ℤ) : yearDays (marchYear n) =
    yearStart (yearIndex ((n + 719468) % 146097)) + (n + 719468) / 146097 * 146097 := by
  have hlow : 0 ≤ yearIndex ((n + 719468) % 146097) :=
    yearIndex_mono (by omega : 0 ≤ (n + 719468) % 146097)
  have hhigh : yearIndex ((n + 719468) % 146097) ≤ 399 :=
    yearIndex_mono (by omega : (n + 719468) % 146097 ≤ 146096)
  unfold marchYear
  rw [yearDays_era, yearDays_eq hlow (by omega)]

theorem dayOfYear_nonneg (n : ℤ) : 0 ≤ dayOfYear n := by
  have hlow := (dayOfYear_bounds (by omega : 0 ≤ (n + 719468) % 146097) (by omega)).1
  unfold dayOfYear
  rw [yearDays_marchYear]
  omega

theorem dayOfYear_lt (n : ℤ) : n + 719468 < yearDays (marchYear n + 1) := by
  have hhigh := lt_yearDays_succ (by omega : 0 ≤ (n + 719468) % 146097) (by omega)
  have hnext : marchYear n + 1 = yearIndex ((n + 719468) % 146097) + 1 + (n + 719468) / 146097 * 400 := by
    unfold marchYear
    ring
  rw [hnext, yearDays_era]
  omega

theorem marchMonth_bounds (n : ℤ) : 0 ≤ marchMonth n ∧ marchMonth n < 12 := by
  have h0 := dayOfYear_nonneg n
  have h1 := dayOfYear_lt n
  have h2 := yearDays_succ (marchYear n)
  unfold marchMonth
  unfold dayOfYear at *
  omega

theorem civilDate_eq (n : ℤ) : civilDate n =
    { year := marchYear n + (if (if marchMonth n < 10 then marchMonth n + 3 else marchMonth n - 9) ≤ 2 then 1 else 0)
      month := if marchMonth n < 10 then marchMonth n + 3 else marchMonth n - 9
      dayOfMonth := dayOfYear n - (153 * marchMonth n + 2) / 5 + 1 } := by
  have hday : (n + 719468) % 146097 - yearStart (yearIndex ((n + 719468) % 146097)) = dayOfYear n := by
    unfold dayOfYear
    rw [yearDays_marchYear]
    omega
  unfold marchMonth
  rw [← hday]
  rfl

theorem monthOf_eq (n : ℤ) : monthOf n = 12 * marchYear n + marchMonth n := by
  have hmonth := marchMonth_bounds n
  unfold monthOf
  rw [civilDate_eq]
  dsimp only
  split_ifs
  all_goals omega

theorem monthOf_bounds (n : ℤ) : monthStart (monthOf n) ≤ n ∧ n < monthStart (monthOf n + 1) ∧
    (civilDate n).dayOfMonth = n - monthStart (monthOf n) + 1 := by
  obtain ⟨h0, h1⟩ := marchMonth_bounds n
  have hnonneg := dayOfYear_nonneg n
  have hlt := dayOfYear_lt n
  have hday : dayOfYear n = n + 719468 - yearDays (marchYear n) := rfl
  have hs : marchMonth n = (5 * dayOfYear n + 2) / 153 := rfl
  have hstart : monthStart (monthOf n) = yearDays (marchYear n) + (153 * marchMonth n + 2) / 5 - 719468 := by
    rw [monthOf_eq, monthStart_of_march _ _ h0 h1]
  refine ⟨by omega, ?_, ?_⟩
  · by_cases hlast : marchMonth n = 11
    · have hnext : monthOf n + 1 = 12 * (marchYear n + 1) + 0 := by
        rw [monthOf_eq]
        omega
      rw [hnext, monthStart_of_march _ _ le_rfl (by omega)]
      omega
    · rw [monthOf_eq, add_assoc, monthStart_of_march _ _ (by omega) (by omega)]
      omega
  · rw [civilDate_eq]
    dsimp only
    omega

theorem civilDate_month (days : ℤ) : 1 ≤ (civilDate days).month ∧ (civilDate days).month ≤ 12 := by
  have hmonth := marchMonth_bounds days
  rw [civilDate_eq]
  dsimp only
  split_ifs
  all_goals omega

theorem strictMono_monthStart : StrictMono monthStart :=
  strictMono_int_of_lt_succ fun k => by have hstep := (monthStart_succ k).1; omega

theorem monthOf_eq_iff {n k : ℤ} : monthOf n = k ↔ monthStart k ≤ n ∧ n < monthStart (k + 1) := by
  obtain ⟨hle, hlt, _⟩ := monthOf_bounds n
  constructor
  · rintro rfl
    exact ⟨hle, hlt⟩
  · rintro ⟨hle', hlt'⟩
    have h₁ := strictMono_monthStart.lt_iff_lt.mp (hle'.trans_lt hlt)
    have h₂ := strictMono_monthStart.lt_iff_lt.mp (hle.trans_lt hlt')
    omega

@[simp] theorem monthOf_monthStart (k : ℤ) : monthOf (monthStart k) = k :=
  monthOf_eq_iff.mpr ⟨le_rfl, strictMono_monthStart (by omega)⟩

theorem dayOfMonth_eq_one_iff {n : ℤ} : (civilDate n).dayOfMonth = 1 ↔ monthStart (monthOf n) = n := by
  have hday := (monthOf_bounds n).2.2
  omega

theorem dayOfMonth_firstOfMonth {year month : ℤ} (h0 : 1 ≤ month) (h1 : month ≤ 12) :
    (civilDate (firstOfMonth year month)).dayOfMonth = 1 := by
  rw [dayOfMonth_eq_one_iff, firstOfMonth_eq h0 h1, monthOf_monthStart]

theorem firstOfMonth_civilDate (n : ℤ) :
    firstOfMonth (civilDate n).year (civilDate n).month = monthStart (monthOf n) := by
  obtain ⟨h0, h1⟩ := civilDate_month n
  exact firstOfMonth_eq h0 h1

theorem dayNumber_date (n : ℤ) :
    firstOfMonth (civilDate n).year (civilDate n).month + (civilDate n).dayOfMonth - 1 = n := by
  have hday := (monthOf_bounds n).2.2
  rw [firstOfMonth_civilDate]
  omega

theorem dayOfMonth_bounds (n : ℤ) : 1 ≤ (civilDate n).dayOfMonth ∧ (civilDate n).dayOfMonth ≤ 31 := by
  obtain ⟨hle, hlt, hday⟩ := monthOf_bounds n
  have hmonth := (monthStart_succ (monthOf n)).2
  omega

theorem firstOfNextMonth_eq (t : Time) : firstOfNextMonth t = day * monthStart (monthOf (dayNumber t) + 1) := by
  obtain ⟨h0, h1⟩ := civilDate_month (dayNumber t)
  unfold firstOfNextMonth
  dsimp only
  split_ifs with hlast
  · rw [firstOfMonth_eq le_rfl (by omega)]
    congr 2
    unfold monthOf
    omega
  · rw [firstOfMonth_eq (by omega) (by omega)]
    congr 2
    unfold monthOf
    omega

end Months

end TradingBot.Market.CalendarFacts
