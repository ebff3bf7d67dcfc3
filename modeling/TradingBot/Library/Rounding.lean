import Mathlib.Algebra.Order.BigOperators.Group.List
import Mathlib.Algebra.Order.BigOperators.Group.Multiset
import Mathlib.Algebra.Order.Field.Basic
import Mathlib.Algebra.Order.Field.Power
import Mathlib.Data.Int.Log
import Mathlib.Data.Rat.Floor
import Mathlib.Tactic.FieldSimp
import Mathlib.Tactic.Linarith
import Mathlib.Tactic.Positivity
import Mathlib.Tactic.Ring

namespace TradingBot.Library.Rounding

section Arithmetic

variable {K : Type} [Field K] [LinearOrder K]

/-- Arithmetic whose results are moved by a part of themselves at most, and neither across minus one nor from below one
and that part beyond one. -/
structure Rounds (u : K) (round : K → K) : Prop where
  error : ∀ x, |round x - x| ≤ u * |x|
  neg_one_le : ∀ x, -1 ≤ x → -1 ≤ round x
  le_one : ∀ x, x < 1 + u → round x ≤ 1

def total (round : K → K) (xs : List K) : K := xs.foldl (fun sum x => round (sum + x)) 0

def mean (round : K → K) (xs : List K) : K := round (total round xs / (xs.length : K))

variable [IsStrictOrderedRing K] {u x : K} {round : K → K} {xs : List K}

theorem rounds_id : Rounds (0 : K) id := ⟨fun x => by simp, fun _ h => h, fun x h => by simpa using h.le⟩

theorem Rounds.nonneg (hround : Rounds u round) : 0 ≤ u := by
  have h := (abs_nonneg _).trans (hround.error 1)
  rwa [abs_one, mul_one] at h

theorem Rounds.of_nonneg (hround : Rounds u round) (hx : 0 ≤ x) : x - u * x ≤ round x ∧ round x ≤ x + u * x := by
  have h := abs_le.mp (hround.error x)
  rw [abs_of_nonneg hx] at h
  constructor <;> linarith

theorem Rounds.map_zero (hround : Rounds u round) : round 0 = 0 := by
  have herror := hround.error 0
  rw [abs_zero, mul_zero, sub_zero] at herror
  exact abs_nonpos_iff.mp herror

theorem Rounds.map_nonneg (hround : Rounds u round) (hu : u ≤ 1) (hx : 0 ≤ x) : 0 ≤ round x := by
  have hpart := mul_le_mul_of_nonneg_right hu hx
  linarith [(hround.of_nonneg hx).1]

theorem Rounds.map_pos (hround : Rounds u round) (hu : u < 1) (hx : 0 < x) : 0 < round x := by
  have hpart := mul_lt_mul_of_pos_right hu hx
  linarith [(hround.of_nonneg hx.le).1]

omit [LinearOrder K] [IsStrictOrderedRing K] in
theorem total_concat (round : K → K) (xs : List K) (x : K) : total round (xs ++ [x]) = round (total round xs + x) :=
  List.foldl_concat _ _ _ _

/-- The sum of the roundings so far grows by the part of the next one. -/
theorem Rounds.abs_total_sub_sum_le (hround : Rounds u round) (xs : List K) :
    |total round xs - xs.sum| ≤ ((1 + u) ^ xs.length - 1) * (xs.map abs).sum := by
  have hu := hround.nonneg
  induction xs using List.reverseRecOn with
  | nil => simp [total]
  | append_singleton xs x ih =>
    rw [total_concat, List.sum_append, List.sum_singleton, List.length_append, List.length_singleton, List.map_append,
      List.sum_append, List.map_singleton, List.sum_singleton]
    have hsum : |xs.sum| ≤ (xs.map abs).sum := by
      simpa using Multiset.abs_sum_le_sum_abs (s := (xs : Multiset K))
    have hnear := hround.error (total round xs + x)
    have hpow : (1 : K) ≤ (1 + u) ^ xs.length := one_le_pow₀ (by linarith)
    have hparts : |total round xs + x| ≤ |total round xs - xs.sum| + (|xs.sum| + |x|) := by
      have h := abs_add_le (total round xs - xs.sum) (xs.sum + x)
      have h' := abs_add_le xs.sum x
      rw [show total round xs - xs.sum + (xs.sum + x) = total round xs + x by ring] at h
      linarith
    have hscaled := mul_le_mul_of_nonneg_left hparts hu
    have hbefore := mul_le_mul_of_nonneg_left ih (show 0 ≤ 1 + u by linarith)
    have hstep := abs_add_le (round (total round xs + x) - (total round xs + x)) (total round xs - xs.sum)
    rw [show round (total round xs + x) - (total round xs + x) + (total round xs - xs.sum) =
      round (total round xs + x) - (xs.sum + x) by ring] at hstep
    have hrest : u * |xs.sum| ≤ u * (xs.map abs).sum := mul_le_mul_of_nonneg_left hsum hu
    have hlast : 0 ≤ ((1 + u) ^ xs.length - 1) * |x| := mul_nonneg (by linarith) (abs_nonneg x)
    have hlast' : 0 ≤ u * (((1 + u) ^ xs.length - 1) * |x|) := mul_nonneg hu hlast
    calc |round (total round xs + x) - (xs.sum + x)|
        ≤ (1 + u) * (((1 + u) ^ xs.length - 1) * (xs.map abs).sum) + u * ((xs.map abs).sum + |x|) := by linarith
      _ ≤ ((1 + u) ^ (xs.length + 1) - 1) * ((xs.map abs).sum + |x|) := by
        rw [pow_succ]
        linarith

theorem Rounds.total_nonneg (hround : Rounds u round) (hu : u ≤ 1) (hxs : ∀ x ∈ xs, 0 ≤ x) : 0 ≤ total round xs := by
  induction xs using List.reverseRecOn with
  | nil => exact le_rfl
  | append_singleton xs x ih =>
    rw [List.forall_mem_append] at hxs
    rw [total_concat]
    exact hround.map_nonneg hu (add_nonneg (ih hxs.1) (hxs.2 x (List.mem_singleton_self x)))

/-- A sum of numbers that are not negative vanishes only if all of them do. -/
theorem Rounds.total_pos_iff (hround : Rounds u round) (hu : u < 1) (hxs : ∀ x ∈ xs, 0 ≤ x) :
    0 < total round xs ↔ ∃ x ∈ xs, 0 < x := by
  induction xs using List.reverseRecOn with
  | nil => simp [total]
  | append_singleton xs x ih =>
    rw [List.forall_mem_append] at hxs
    have hx : 0 ≤ x := hxs.2 x (List.mem_singleton_self x)
    have hsum := hround.total_nonneg hu.le hxs.1
    rw [total_concat]
    constructor
    · intro hpos
      by_cases hlast : 0 < x
      · exact ⟨x, by simp, hlast⟩
      · obtain rfl : x = 0 := le_antisymm (not_lt.mp hlast) hx
        rw [add_zero] at hpos
        have hbefore : 0 < total round xs := by
          rcases hsum.eq_or_lt with hzero | hsum
          · rw [← hzero, hround.map_zero] at hpos
            exact absurd hpos (lt_irrefl 0)
          · exact hsum
        obtain ⟨y, hy, hypos⟩ := (ih hxs.1).mp hbefore
        exact ⟨y, List.mem_append_left _ hy, hypos⟩
    · rintro ⟨y, hy, hypos⟩
      apply hround.map_pos hu
      rcases List.mem_append.mp hy with hy | hy
      · exact add_pos_of_pos_of_nonneg ((ih hxs.1).mpr ⟨y, hy, hypos⟩) hx
      · rw [List.mem_singleton.mp hy] at hypos
        exact add_pos_of_nonneg_of_pos hsum hypos

theorem Rounds.mean_nonneg (hround : Rounds u round) (hu : u ≤ 1) (hxs : ∀ x ∈ xs, 0 ≤ x) : 0 ≤ mean round xs :=
  hround.map_nonneg hu (div_nonneg (hround.total_nonneg hu hxs) (Nat.cast_nonneg _))

theorem Rounds.mean_pos_iff (hround : Rounds u round) (hu : u < 1) (hxs : ∀ x ∈ xs, 0 ≤ x) :
    0 < mean round xs ↔ ∃ x ∈ xs, 0 < x := by
  rw [← hround.total_pos_iff hu hxs]
  rcases (hround.total_nonneg hu.le hxs).eq_or_lt with hzero | hpos
  · rw [mean, ← hzero, zero_div, hround.map_zero]
  · have hne : xs ≠ [] := by
      rintro rfl
      exact absurd hpos (lt_irrefl 0)
    have hlength : (0 : K) < xs.length := Nat.cast_pos.mpr (List.length_pos_iff.mpr hne)
    exact ⟨fun _ => hpos, fun _ => hround.map_pos hu (div_pos hpos hlength)⟩

end Arithmetic

section HalfEven

/-- The nearest integer, and of two the even one. -/
def roundHalfEven (x : ℚ) : ℤ :=
  if x - ⌊x⌋ < 1 / 2 ∨ x - ⌊x⌋ = 1 / 2 ∧ ⌊x⌋ % 2 = 0 then ⌊x⌋ else ⌊x⌋ + 1

theorem abs_roundHalfEven_sub_le (x : ℚ) : |(roundHalfEven x : ℚ) - x| ≤ 1 / 2 := by
  have hfloor := Int.floor_le x
  have hfloor' := Int.lt_floor_add_one x
  unfold roundHalfEven
  split_ifs with hdown
  · have hhalf : x - ⌊x⌋ ≤ 1 / 2 := hdown.elim (fun h => h.le) (fun h => h.1.le)
    exact abs_le.mpr ⟨by linarith, by linarith⟩
  · have hhalf : 1 / 2 ≤ x - ⌊x⌋ := not_lt.mp fun h => hdown (.inl h)
    push_cast
    exact abs_le.mpr ⟨by linarith, by linarith⟩

theorem le_roundHalfEven {n : ℤ} {x : ℚ} (h : (n : ℚ) ≤ x) : n ≤ roundHalfEven x := by
  have hfloor : n ≤ ⌊x⌋ := Int.le_floor.mpr h
  unfold roundHalfEven
  split_ifs
  · exact hfloor
  · exact hfloor.trans (Int.le_add_one le_rfl)

theorem roundHalfEven_le {n : ℤ} {x : ℚ} (h : x < n + 1 / 2) : roundHalfEven x ≤ n := by
  have hnear := (abs_le.mp (abs_roundHalfEven_sub_le x)).2
  have hlt : (roundHalfEven x : ℚ) < n + 1 := by linarith
  exact Int.lt_add_one_iff.mp (by exact_mod_cast hlt)

end HalfEven

section Digits

variable {digits : ℕ} {x : ℚ}

/-- The nearest number with so many significant digits. -/
def significant (digits : ℕ) (x : ℚ) : ℚ :=
  if x = 0 then 0
  else
    let unit : ℚ := 10 ^ (Int.log 10 |x| + 1 - digits)
    roundHalfEven (x / unit) * unit

theorem abs_significant_sub_le (digits : ℕ) (x : ℚ) : |significant digits x - x| ≤ 5 / 10 ^ digits * |x| := by
  by_cases hx : x = 0
  · simp [significant, hx]
  · rw [significant, if_neg hx]
    have hlog : (10 : ℚ) ^ Int.log 10 |x| ≤ |x| := Int.zpow_log_le_self (by norm_num) (abs_pos.mpr hx)
    have hunit : (10 : ℚ) ^ (Int.log 10 |x| + 1 - (digits : ℤ)) = 10 ^ Int.log 10 |x| * (10 / 10 ^ digits) := by
      rw [zpow_sub₀ (by norm_num), zpow_add₀ (by norm_num), zpow_one, zpow_natCast, mul_div_assoc]
    dsimp only
    rw [hunit]
    have hpos : (0 : ℚ) < 10 ^ Int.log 10 |x| * (10 / 10 ^ digits) := by positivity
    generalize (10 : ℚ) ^ Int.log 10 |x| = scale at hlog hpos ⊢
    have hnear := mul_le_mul_of_nonneg_right (abs_roundHalfEven_sub_le (x / (scale * (10 / 10 ^ digits)))) hpos.le
    rw [← abs_of_pos hpos, ← abs_mul, abs_of_pos hpos, sub_mul, div_mul_cancel₀ _ hpos.ne'] at hnear
    have hscale := mul_le_mul_of_nonneg_left hlog (show (0 : ℚ) ≤ 5 / 10 ^ digits by positivity)
    calc |roundHalfEven (x / (scale * (10 / 10 ^ digits))) * (scale * (10 / 10 ^ digits)) - x|
        ≤ 1 / 2 * (scale * (10 / 10 ^ digits)) := hnear
      _ = 5 / 10 ^ digits * scale := by ring
      _ ≤ 5 / 10 ^ digits * |x| := hscale

/-- Up to one, a number is rounded to units of which one is a whole number. -/
theorem exists_unit (hdigits : 0 < digits) (hlog : Int.log 10 |x| ≤ 0) :
    ∃ k : ℕ, (10 : ℚ) ^ (Int.log 10 |x| + 1 - (digits : ℤ)) = 1 / 10 ^ k ∧ (k : ℤ) = digits - 1 - Int.log 10 |x| := by
  obtain ⟨k, hk⟩ : ∃ k : ℕ, Int.log 10 |x| + 1 - (digits : ℤ) = -k := ⟨(digits - 1 - Int.log 10 |x|).toNat, by omega⟩
  exact ⟨k, by rw [hk, zpow_neg, zpow_natCast, one_div], by omega⟩

theorem neg_one_le_significant (hdigits : 0 < digits) (h : -1 ≤ x) : -1 ≤ significant digits x := by
  by_cases hx : x = 0
  · norm_num [significant, hx]
  · rw [significant, if_neg hx]
    dsimp only
    rcases le_total 0 x with hsign | hsign
    · have hunit : (0 : ℚ) < 10 ^ (Int.log 10 |x| + 1 - (digits : ℤ)) := by positivity
      have hround : 0 ≤ roundHalfEven (x / 10 ^ (Int.log 10 |x| + 1 - (digits : ℤ))) :=
        le_roundHalfEven (by rw [Int.cast_zero]; exact div_nonneg hsign hunit.le)
      have hproduct := mul_nonneg (Int.cast_nonneg (R := ℚ) hround) hunit.le
      linarith
    · have hlog : Int.log 10 |x| ≤ 0 := by
        have hmono := Int.log_mono_right (b := 10) (abs_pos.mpr hx) (show |x| ≤ 1 from abs_le.mpr ⟨h, by linarith⟩)
        rwa [Int.log_one_right] at hmono
      obtain ⟨k, hk, -⟩ := exists_unit hdigits hlog
      have hscale : (0 : ℚ) < 10 ^ k := by positivity
      rw [hk, div_div_eq_mul_div, div_one, mul_one_div, le_div_iff₀ hscale]
      have hround : -10 ^ k ≤ roundHalfEven (x * 10 ^ k) := by
        apply le_roundHalfEven
        push_cast
        linarith [mul_le_mul_of_nonneg_right h hscale.le]
      rw [neg_one_mul]
      exact_mod_cast hround

theorem significant_le_one (hdigits : 0 < digits) (h : x < 1 + 5 / 10 ^ digits) : significant digits x ≤ 1 := by
  by_cases hx : x = 0
  · norm_num [significant, hx]
  · rw [significant, if_neg hx]
    dsimp only
    rcases le_total x 0 with hsign | hsign
    · have hunit : (0 : ℚ) < 10 ^ (Int.log 10 |x| + 1 - (digits : ℤ)) := by positivity
      have hquotient : x / 10 ^ (Int.log 10 |x| + 1 - (digits : ℤ)) ≤ 0 := div_nonpos_of_nonpos_of_nonneg hsign hunit.le
      have hround : roundHalfEven (x / 10 ^ (Int.log 10 |x| + 1 - (digits : ℤ))) ≤ 0 :=
        roundHalfEven_le (by rw [Int.cast_zero]; linarith)
      have hproduct := mul_nonpos_of_nonpos_of_nonneg (Int.cast_nonpos (R := ℚ).mpr hround) hunit.le
      linarith
    · have hpart : (5 : ℚ) / 10 ^ digits ≤ 5 / 10 ^ 1 :=
        div_le_div_of_nonneg_left (by norm_num) (by norm_num) (pow_le_pow_right₀ (by norm_num) hdigits)
      have habs : |x| = x := abs_of_nonneg hsign
      have hlog : Int.log 10 |x| ≤ 0 := by
        rw [habs]
        have hlt : Int.log 10 x < 1 := (Int.lt_zpow_iff_log_lt (by norm_num) (lt_of_le_of_ne hsign (Ne.symm hx))).mp
          (by norm_num; linarith)
        omega
      obtain ⟨k, hk, hlength⟩ := exists_unit hdigits hlog
      have hscale : (0 : ℚ) < 10 ^ k := by positivity
      rw [hk, div_div_eq_mul_div, div_one, mul_one_div, div_le_one hscale]
      have hround : roundHalfEven (x * 10 ^ k) ≤ 10 ^ k := by
        apply roundHalfEven_le
        push_cast
        rcases lt_or_ge x 1 with hless | hone
        · linarith [mul_lt_mul_of_pos_right hless hscale]
        · -- from one on the unit is that of the last digit of one
          have hzero : 0 ≤ Int.log 10 |x| := by
            rw [habs, ← Int.log_one_right (R := ℚ) 10]
            exact Int.log_mono_right one_pos hone
          obtain rfl : digits = k + 1 := by omega
          have hbound := mul_lt_mul_of_pos_right h hscale
          rw [pow_succ] at hbound
          have hhalf : 5 / (10 ^ k * 10) * 10 ^ k = (1 / 2 : ℚ) := by
            field_simp
            norm_num
          linarith
      exact_mod_cast hround

theorem rounds_significant (hdigits : 0 < digits) : Rounds (5 / 10 ^ digits : ℚ) (significant digits) :=
  ⟨abs_significant_sub_le digits, fun _ => neg_one_le_significant hdigits, fun _ => significant_le_one hdigits⟩

end Digits

end TradingBot.Library.Rounding
