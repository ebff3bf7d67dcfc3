import Mathlib.Algebra.Order.Floor.Ring
import Mathlib.Tactic.FieldSimp
import Mathlib.Tactic.Linarith
import Mathlib.Tactic.Positivity
import Mathlib.Tactic.Ring

namespace TradingBot.Library.FixedPoint

section Grid

variable {α : Type} [Field α] {x y : α} {digits : ℕ}

/-- A number with so many fractional digits at most. -/
def OnGrid (digits : ℕ) (x : α) : Prop := ∃ n : ℤ, x = n / 10 ^ digits

theorem OnGrid.zero : OnGrid digits (0 : α) := ⟨0, by simp⟩

theorem OnGrid.add (hx : OnGrid digits x) (hy : OnGrid digits y) : OnGrid digits (x + y) := by
  obtain ⟨m, rfl⟩ := hx
  obtain ⟨n, rfl⟩ := hy
  refine ⟨m + n, ?_⟩
  rw [Int.cast_add]
  ring

theorem OnGrid.neg (hx : OnGrid digits x) : OnGrid digits (-x) := by
  obtain ⟨m, rfl⟩ := hx
  refine ⟨-m, ?_⟩
  rw [Int.cast_neg]
  ring

theorem OnGrid.add_iff (hx : OnGrid digits x) : OnGrid digits (x + y) ↔ OnGrid digits y := by
  constructor
  · intro h
    have hy := hx.neg.add h
    rwa [neg_add_cancel_left] at hy
  · exact hx.add

end Grid

variable {α : Type} [Field α] [LinearOrder α] [IsStrictOrderedRing α] [FloorRing α] {x w d e : α} {digits : ℕ}

section Integers

/-- The nearest integer, and of two the one farther from zero. -/
def roundHalfAway (x : α) : ℤ := if 0 ≤ x then ⌊x + 1 / 2⌋ else ⌈x - 1 / 2⌉

theorem roundHalfAway_eq_iff {n : ℤ} :
    roundHalfAway x = n ↔ |x - n| < 1 / 2 ∨ |x - n| = 1 / 2 ∧ (n : α) * (x - n) < 0 := by
  unfold roundHalfAway
  by_cases hx : 0 ≤ x
  · rw [if_pos hx, Int.floor_eq_iff]
    constructor
    · rintro ⟨hlow, hhigh⟩
      by_cases htie : x - n = -(1 / 2)
      · refine .inr ⟨by rw [htie, abs_neg, abs_of_pos one_half_pos], ?_⟩
        rw [htie]
        exact mul_neg_of_pos_of_neg (by linarith) (by linarith)
      · exact .inl (abs_lt.mpr ⟨lt_of_le_of_ne (by linarith) (Ne.symm htie), by linarith⟩)
    · rintro (hnear | ⟨htie, hside⟩)
      · obtain ⟨hlow, hhigh⟩ := abs_lt.mp hnear
        exact ⟨by linarith, by linarith⟩
      · rcases (abs_eq one_half_pos.le).mp htie with htie | htie
        · rw [htie] at hside
          have hn : (n : α) < 0 := by linarith
          have hle : (n : α) ≤ -1 := by
            have hint : n < 0 := by exact_mod_cast hn
            exact_mod_cast (show n ≤ -1 by omega)
          linarith
        · exact ⟨by linarith, by linarith⟩
  · rw [if_neg hx, Int.ceil_eq_iff]
    have hneg : x < 0 := not_le.mp hx
    constructor
    · rintro ⟨hlow, hhigh⟩
      by_cases htie : x - n = 1 / 2
      · refine .inr ⟨by rw [htie, abs_of_pos one_half_pos], ?_⟩
        rw [htie]
        exact mul_neg_of_neg_of_pos (by linarith) one_half_pos
      · exact .inl (abs_lt.mpr ⟨by linarith, lt_of_le_of_ne (by linarith) htie⟩)
    · rintro (hnear | ⟨htie, hside⟩)
      · obtain ⟨hlow, hhigh⟩ := abs_lt.mp hnear
        exact ⟨by linarith, by linarith⟩
      · rcases (abs_eq one_half_pos.le).mp htie with htie | htie
        · exact ⟨by linarith, by linarith⟩
        · rw [htie] at hside
          have hn : 0 < (n : α) := by linarith
          have hle : 1 ≤ (n : α) := by
            have hint : 0 < n := by exact_mod_cast hn
            exact_mod_cast hint
          linarith

theorem roundHalfAway_pos_iff : 0 < roundHalfAway x ↔ 1 / 2 ≤ x := by
  unfold roundHalfAway
  by_cases hx : 0 ≤ x
  · have hone : 0 < ⌊x + 1 / 2⌋ ↔ (1 : ℤ) ≤ ⌊x + 1 / 2⌋ := Iff.rfl
    rw [if_pos hx, hone, Int.le_floor, Int.cast_one]
    constructor <;> intro h <;> linarith
  · rw [if_neg hx]
    have hle : ⌈x - 1 / 2⌉ ≤ 0 := Int.ceil_le.mpr (by rw [Int.cast_zero]; linarith)
    constructor <;> intro h
    · omega
    · linarith

end Integers

section Digits

def store (digits : ℕ) (x : α) : α := roundHalfAway (x * 10 ^ digits) / 10 ^ digits

omit [IsStrictOrderedRing α] in
theorem onGrid_store (digits : ℕ) (x : α) : OnGrid digits (store digits x) := ⟨_, rfl⟩

theorem store_eq_iff : store digits x = e ↔ OnGrid digits e ∧
    (|x - e| < 1 / 2 / 10 ^ digits ∨ |x - e| = 1 / 2 / 10 ^ digits ∧ e * (x - e) < 0) := by
  have hscale : (0 : α) < 10 ^ digits := by positivity
  have hcell : ∀ n : ℤ, store digits x = n / 10 ^ digits ↔ roundHalfAway (x * 10 ^ digits) = n := by
    intro n
    rw [store, div_left_inj' hscale.ne', Int.cast_inj]
  have hgap : ∀ n : ℤ, x * 10 ^ digits - n = (x - n / 10 ^ digits) * 10 ^ digits := by
    intro n
    field_simp
  have hside : ∀ n : ℤ, (n : α) * (x * 10 ^ digits - n) =
      (n / 10 ^ digits * (x - n / 10 ^ digits)) * (10 ^ digits * 10 ^ digits) := by
    intro n
    field_simp
  constructor
  · rintro rfl
    refine ⟨onGrid_store digits x, ?_⟩
    have hround := roundHalfAway_eq_iff.mp (rfl : roundHalfAway (x * 10 ^ digits) = _)
    rw [hside, hgap, abs_mul, abs_of_pos hscale, ← lt_div_iff₀ hscale, ← eq_div_iff hscale.ne',
      ← lt_div_iff₀ (mul_pos hscale hscale), zero_div] at hround
    exact hround
  · rintro ⟨⟨n, rfl⟩, hround⟩
    rw [hcell, roundHalfAway_eq_iff, hside, hgap, abs_mul, abs_of_pos hscale, ← lt_div_iff₀ hscale,
      ← eq_div_iff hscale.ne', ← lt_div_iff₀ (mul_pos hscale hscale), zero_div]
    exact hround

theorem store_eq_self (h : OnGrid digits x) : store digits x = x := by
  have hhalf : (0 : α) < 1 / 2 / 10 ^ digits := by positivity
  refine store_eq_iff.mpr ⟨h, .inl ?_⟩
  rwa [sub_self, abs_zero]

theorem store_eq_self_iff : store digits x = x ↔ OnGrid digits x :=
  ⟨fun h => h ▸ onGrid_store digits x, store_eq_self⟩

theorem store_pos_iff : 0 < store digits x ↔ 1 / 2 / 10 ^ digits ≤ x := by
  have hscale : (0 : α) < 10 ^ digits := by positivity
  rw [store, div_pos_iff_of_pos_right hscale, Int.cast_pos, roundHalfAway_pos_iff, div_le_iff₀ hscale]

/-- What is added to a stored total is stored as `e`. -/
def Settles (digits : ℕ) (w d e : α) : Prop :=
  OnGrid digits e ∧ (|d - e| < 1 / 2 / 10 ^ digits ∨ |d - e| = 1 / 2 / 10 ^ digits ∧ (w + e) * (d - e) < 0)

theorem store_add_iff (hw : OnGrid digits w) : store digits (w + d) = w + e ↔ Settles digits w d e := by
  rw [store_eq_iff, hw.add_iff, Settles, add_sub_add_left_eq_sub]

end Digits

end TradingBot.Library.FixedPoint
