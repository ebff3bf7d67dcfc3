import Mathlib.Algebra.Order.Field.Power
import Mathlib.Data.Countable.Basic
import Mathlib.Data.Int.Basic
import Mathlib.Data.Rat.Cast.Order
import Mathlib.Logic.Equiv.Nat
import Mathlib.Tactic.DeriveCountable
import Mathlib.Tactic.Linarith
import Mathlib.Tactic.Ring

namespace TradingBot.Library.DecimalNumbers

section Digits

def digits (n : ℕ) : List Char := Nat.toDigits 10 n

def width (n : ℕ) : ℕ := (digits n).length

variable {n k : ℕ}

theorem width_pos (n : ℕ) : 0 < width n := Nat.length_toDigits_pos

theorem width_le_iff (hk : 0 < k) : width n ≤ k ↔ n < 10 ^ k := Nat.length_toDigits_le_iff (by decide) hk

theorem lt_pow_width (n : ℕ) : n < 10 ^ width n := (width_le_iff (width_pos n)).mp le_rfl

theorem width_mul_pow (hn : n ≠ 0) (k : ℕ) : width (n * 10 ^ k) = width n + k := by
  have hpos := width_pos n
  apply le_antisymm
  · rw [width_le_iff (by omega), pow_add]
    exact Nat.mul_lt_mul_of_pos_right (lt_pow_width n) (by positivity)
  · by_contra hlt
    by_cases hone : width n + k = 1
    · have := width_pos (n * 10 ^ k)
      omega
    · have hsmall : n * 10 ^ k < 10 ^ (width n + k - 1) := (width_le_iff (by omega)).mp (by omega)
      by_cases hwidth : width n = 1
      · rw [hwidth, Nat.add_sub_cancel_left] at hsmall
        have hle : 10 ^ k ≤ n * 10 ^ k := Nat.le_mul_of_pos_left _ (Nat.pos_of_ne_zero hn)
        omega
      · rw [show width n + k - 1 = width n - 1 + k by omega, pow_add] at hsmall
        have hless : n < 10 ^ (width n - 1) := lt_of_mul_lt_mul_right' hsmall
        have := (width_le_iff (by omega)).mpr hless
        omega

theorem isDigit_of_mem_digits {c : Char} (hc : c ∈ digits n) : c.isDigit :=
  Nat.isDigit_of_mem_toDigits (by decide) (by decide) hc

theorem digits_ne_nil (n : ℕ) : digits n ≠ [] := Nat.toDigits_ne_nil

end Digits

section Trailing

/-- Takes zeros off the end of the digits of a number, at most as many as the first argument says. -/
def stripZeros : ℕ → ℕ → ℤ → ℕ × ℤ
  | 0, c, e => (c, e)
  | fuel + 1, c, e => if c % 10 = 0 then stripZeros fuel (c / 10) (e + 1) else (c, e)

theorem stripZeros_spec {fuel c : ℕ} (hc : c ≠ 0) (hfuel : c < 10 ^ fuel) (e : ℤ) :
    (stripZeros fuel c e).1 % 10 ≠ 0 ∧
      ∃ k : ℕ, c = (stripZeros fuel c e).1 * 10 ^ k ∧ (stripZeros fuel c e).2 = e + k := by
  induction fuel generalizing c e with
  | zero => omega
  | succ fuel ih =>
    unfold stripZeros
    by_cases hzero : c % 10 = 0
    · rw [if_pos hzero]
      rw [pow_succ] at hfuel
      obtain ⟨hlast, k, hk, he⟩ := ih (c := c / 10) (by omega) (by omega) (e + 1)
      refine ⟨hlast, k + 1, ?_, ?_⟩
      · rw [pow_succ, ← mul_assoc, ← hk]
        omega
      · rw [he]
        push_cast
        ring
    · rw [if_neg hzero]
      exact ⟨hzero, 0, by simp, by simp⟩

theorem eq_of_mul_pow_eq {a b j k : ℕ} (ha : a % 10 ≠ 0) (hb : b % 10 ≠ 0) (h : a * 10 ^ j = b * 10 ^ k) :
    a = b ∧ j = k := by
  have hside : ∀ {a b j k : ℕ}, a % 10 ≠ 0 → j ≤ k → a * 10 ^ j = b * 10 ^ k → a = b ∧ j = k := by
    intro a b j k ha hle h
    obtain ⟨i, rfl⟩ := Nat.exists_eq_add_of_le hle
    have hab : a = b * 10 ^ i := by
      apply Nat.eq_of_mul_eq_mul_right (show 0 < 10 ^ j by positivity)
      rw [h, pow_add]
      ring
    cases i with
    | zero => exact ⟨by simpa using hab, rfl⟩
    | succ i =>
      rw [pow_succ, ← mul_assoc] at hab
      omega
  by_cases hle : j ≤ k
  · exact hside ha hle h
  · obtain ⟨hba, hkj⟩ := hside hb (by omega) h.symm
    exact ⟨hba.symm, hkj.symm⟩

theorem stripZeros_eq {fuel c : ℕ} (hc : c ≠ 0) (hfuel : c < 10 ^ fuel) (e : ℤ) {c' k : ℕ} (hlast : c' % 10 ≠ 0)
    (hsplit : c = c' * 10 ^ k) : stripZeros fuel c e = (c', e + k) := by
  obtain ⟨hlast', k', hk', he⟩ := stripZeros_spec hc hfuel e
  obtain ⟨hcoefficient, rfl⟩ := eq_of_mul_pow_eq hlast hlast' (hsplit.symm.trans hk')
  exact Prod.ext hcoefficient.symm he

end Trailing

section Rounding

/-- The nearest whole number of times that `m` goes into `c`, and of two the even one. -/
def halfEven (c m : ℕ) : ℕ :=
  if 2 * (c % m) < m ∨ 2 * (c % m) = m ∧ c / m % 2 = 0 then c / m else c / m + 1

variable {c m p : ℕ}

theorem halfEven_exact (hm : 0 < m) : halfEven (c * m) m = c := by
  simp [halfEven, hm]

theorem halfEven_scale (hp : 0 < p) : halfEven (c * p) (m * p) = halfEven c m := by
  have hlt : 2 * (c % m * p) < m * p ↔ 2 * (c % m) < m := by
    rw [← mul_assoc, Nat.mul_lt_mul_right hp]
  have heq : 2 * (c % m * p) = m * p ↔ 2 * (c % m) = m := by
    rw [← mul_assoc, Nat.mul_left_inj hp.ne']
  simp only [halfEven, Nat.mul_mod_mul_right, Nat.mul_div_mul_right _ _ hp, hlt, heq]

theorem halfEven_le (c m : ℕ) : halfEven c m ≤ c / m + 1 := by
  unfold halfEven
  split_ifs <;> omega

end Rounding

/-- A decimal number by what is written of it: its sign, its digits, and the power of ten of the last digit. -/
structure Dec where
  negative : Bool
  coefficient : ℕ
  exponent : ℤ
deriving DecidableEq, Repr, Countable

/-- The digits that arithmetic keeps, and its least and its greatest power of ten. -/
structure Context where
  precision : ℕ
  etiny : ℤ
  emax : ℤ
  precision_pos : 0 < precision

namespace Dec

def value (d : Dec) : ℚ := (if d.negative then -1 else 1) * (d.coefficient * 10 ^ d.exponent)

/-- The power of ten of the first digit. -/
def adjusted (d : Dec) : ℤ := d.exponent + width d.coefficient - 1

def IsNonneg (d : Dec) : Prop := d.negative = false ∨ d.coefficient = 0

def IsPositive (d : Dec) : Prop := d.negative = false ∧ d.coefficient ≠ 0

instance (d : Dec) : Decidable d.IsNonneg := inferInstanceAs (Decidable (_ ∨ _))

instance (d : Dec) : Decidable d.IsPositive := inferInstanceAs (Decidable (_ ∧ _))

variable {d d' : Dec}

theorem magnitude_nonneg (d : Dec) : 0 ≤ (d.coefficient * 10 ^ d.exponent : ℚ) := by positivity

theorem value_eq_zero_iff : d.value = 0 ↔ d.coefficient = 0 := by
  have hpow : (10 : ℚ) ^ d.exponent ≠ 0 := by positivity
  cases hsign : d.negative <;> simp [value, hsign, hpow]

theorem value_nonneg_iff : 0 ≤ d.value ↔ d.IsNonneg := by
  have hmagnitude := magnitude_nonneg d
  have hzero : (d.coefficient * 10 ^ d.exponent : ℚ) = 0 ↔ d.coefficient = 0 := by
    have hpow : (10 : ℚ) ^ d.exponent ≠ 0 := by positivity
    simp [hpow]
  cases hsign : d.negative with
  | false => simpa [value, hsign, IsNonneg] using hmagnitude
  | true =>
    simp only [value, hsign, IsNonneg, if_true, neg_one_mul, Left.nonneg_neg_iff, Bool.true_eq_false, false_or]
    rw [← hzero]
    exact ⟨fun h => le_antisymm h hmagnitude, fun h => h.le⟩

/-- Numbers that are equal have the same sign and, once their powers of ten are the same, the same digits. -/
theorem eq_of_value_eq (h : d.value = d'.value) (hzero : d.value ≠ 0) (hle : d.exponent ≤ d'.exponent) :
    d.negative = d'.negative ∧ d.coefficient = d'.coefficient * 10 ^ (d'.exponent - d.exponent).toNat := by
  have hmagnitude := magnitude_nonneg d
  have hmagnitude' := magnitude_nonneg d'
  have hsign : d.negative = d'.negative := by
    have hnonneg := value_nonneg_iff (d := d)
    have hnonneg' := value_nonneg_iff (d := d')
    have hcoefficient : d.coefficient ≠ 0 := fun hc => hzero (value_eq_zero_iff.mpr hc)
    have hcoefficient' : d'.coefficient ≠ 0 := fun hc => hzero (h.trans (value_eq_zero_iff.mpr hc))
    rw [h, hnonneg'] at hnonneg
    simp only [IsNonneg, hcoefficient, hcoefficient', or_false] at hnonneg
    cases hd : d.negative <;> cases hd' : d'.negative <;> simp_all
  refine ⟨hsign, ?_⟩
  have hsame : (d.coefficient * 10 ^ d.exponent : ℚ) = d'.coefficient * 10 ^ d'.exponent := by
    cases hd : d'.negative <;> simpa [value, hsign, hd] using h
  have hsplit : (10 : ℚ) ^ d'.exponent = 10 ^ (d'.exponent - d.exponent).toNat * 10 ^ d.exponent := by
    rw [← zpow_natCast, ← zpow_add₀ (by norm_num), Int.toNat_of_nonneg (by omega), sub_add_cancel]
  rw [hsplit, ← mul_assoc] at hsame
  have hcast := mul_right_cancel₀ (by positivity) hsame
  exact_mod_cast hcast

end Dec

namespace Context

variable (ctx : Context)

/-- The least power of ten that the last digit of a number can have. -/
def least (d : Dec) : ℤ := max (d.exponent + width d.coefficient - ctx.precision) ctx.etiny

def round (d : Dec) : Dec :=
  if d.exponent < ctx.least d then
    ⟨d.negative, halfEven d.coefficient (10 ^ (ctx.least d - d.exponent).toNat), ctx.least d⟩
  else d

/-- A number that is rounded already, without the zeros at its end. -/
def reduce (d : Dec) : Option Dec :=
  if d.coefficient = 0 then some ⟨d.negative, 0, 0⟩
  else if ctx.emax < d.adjusted then none
  else
    let stripped := stripZeros (width d.coefficient) d.coefficient d.exponent
    some ⟨d.negative, stripped.1, stripped.2⟩

/-- The number in its shortest form; none is an overflow. -/
def normalize (d : Dec) : Option Dec := ctx.reduce (ctx.round d)

def Normal (d : Dec) : Prop :=
  d.coefficient = 0 ∧ d.exponent = 0 ∨
    d.coefficient % 10 ≠ 0 ∧ width d.coefficient ≤ ctx.precision ∧ ctx.etiny ≤ d.exponent ∧ d.adjusted ≤ ctx.emax

variable {ctx} {d n : Dec}

theorem reduce_shift (negative : Bool) (c k : ℕ) (e : ℤ) :
    ctx.reduce ⟨negative, c * 10 ^ k, e⟩ = ctx.reduce ⟨negative, c, e + k⟩ := by
  by_cases hc : c = 0
  · simp [reduce, hc]
  · have hwidth := width_mul_pow hc k
    have hshifted : c * 10 ^ k ≠ 0 := by positivity
    have hadjusted : Dec.adjusted ⟨negative, c * 10 ^ k, e⟩ = Dec.adjusted ⟨negative, c, e + k⟩ := by
      simp only [Dec.adjusted, hwidth]
      push_cast
      ring
    obtain ⟨hlast, j, hj, he⟩ := stripZeros_spec hc (lt_pow_width c) (e + k)
    have hstrip : stripZeros (width (c * 10 ^ k)) (c * 10 ^ k) e = stripZeros (width c) c (e + k) := by
      have hsplit : c * 10 ^ k = (stripZeros (width c) c (e + k)).1 * 10 ^ (j + k) := by
        rw [pow_add, ← mul_assoc, ← hj]
      rw [stripZeros_eq hshifted (lt_pow_width _) e hlast hsplit]
      apply Prod.ext
      · rfl
      · rw [he]
        push_cast
        ring
    simp only [reduce, hc, hshifted, if_false, hadjusted, hstrip]

theorem round_negative (d : Dec) : (ctx.round d).negative = d.negative := by
  unfold round
  split_ifs <;> rfl

theorem normalize_zero (negative : Bool) (e : ℤ) : ctx.normalize ⟨negative, 0, e⟩ = some ⟨negative, 0, 0⟩ := by
  have hround : (ctx.round ⟨negative, 0, e⟩).coefficient = 0 := by
    unfold round
    split_ifs
    · have hpow : 0 < 10 ^ (ctx.least ⟨negative, 0, e⟩ - e).toNat := by positivity
      simp [halfEven, hpow]
    · rfl
  rw [normalize, reduce, if_pos hround, round_negative]

theorem normalize_shift (negative : Bool) (c k : ℕ) (e : ℤ) :
    ctx.normalize ⟨negative, c * 10 ^ k, e⟩ = ctx.normalize ⟨negative, c, e + k⟩ := by
  by_cases hc : c = 0
  · rw [hc, zero_mul, normalize_zero, normalize_zero]
  · have hwidth := width_mul_pow hc k
    have hleast : ctx.least ⟨negative, c * 10 ^ k, e⟩ = ctx.least ⟨negative, c, e + k⟩ := by
      simp only [least, hwidth]
      congr 1
      push_cast
      ring
    simp only [normalize, round, hleast]
    generalize ctx.least ⟨negative, c, e + k⟩ = least
    by_cases hlong : e + k < least
    · -- both are rounded
      have hpow : 10 ^ (least - e).toNat = 10 ^ (least - (e + k)).toNat * 10 ^ k := by
        rw [← pow_add]
        congr 1
        omega
      rw [if_pos (by omega), if_pos hlong, hpow, halfEven_scale (by positivity)]
    · rw [if_neg hlong]
      by_cases hshort : e < least
      · -- only zeros are rounded off
        have hpow : c * 10 ^ k = c * 10 ^ (k - (least - e).toNat) * 10 ^ (least - e).toNat := by
          rw [mul_assoc, ← pow_add]
          congr 2
          omega
        rw [if_pos hshort, hpow, halfEven_exact (by positivity), reduce_shift]
        congr 2
        omega
      · rw [if_neg hshort, reduce_shift]

theorem normalize_congr {d d' : Dec} (h : d.value = d'.value) (hzero : d.value ≠ 0) :
    ctx.normalize d = ctx.normalize d' := by
  have hside : ∀ {d d' : Dec}, d.value = d'.value → d.value ≠ 0 → d.exponent ≤ d'.exponent →
      ctx.normalize d = ctx.normalize d' := by
    intro d d' h hzero hle
    obtain ⟨hsign, hcoefficient⟩ := Dec.eq_of_value_eq h hzero hle
    have hshift : _ = ctx.normalize _ :=
      normalize_shift d'.negative d'.coefficient (d'.exponent - d.exponent).toNat d.exponent
    rw [← hcoefficient, Int.toNat_of_nonneg (by omega), add_sub_cancel] at hshift
    calc ctx.normalize d = ctx.normalize ⟨d'.negative, d.coefficient, d.exponent⟩ := by rw [← hsign]
      _ = ctx.normalize d' := hshift
  by_cases hle : d.exponent ≤ d'.exponent
  · exact hside h hzero hle
  · exact (hside h.symm (h ▸ hzero) (by omega)).symm

theorem reduce_eq_some (h : ctx.reduce d = some n) : n.negative = d.negative ∧
    (n.coefficient = 0 ∧ n.exponent = 0 ∧ d.coefficient = 0 ∨
      n.coefficient % 10 ≠ 0 ∧ n.adjusted ≤ ctx.emax ∧
        ∃ k : ℕ, d.coefficient = n.coefficient * 10 ^ k ∧ n.exponent = d.exponent + k) := by
  unfold reduce at h
  split_ifs at h with hzero hover
  · cases h
    exact ⟨rfl, .inl ⟨rfl, rfl, hzero⟩⟩
  · cases h
    obtain ⟨hlast, k, hk, he⟩ := stripZeros_spec hzero (lt_pow_width d.coefficient) d.exponent
    refine ⟨rfl, .inr ⟨hlast, ?_, k, hk, he⟩⟩
    have hne : (stripZeros (width d.coefficient) d.coefficient d.exponent).1 ≠ 0 := fun h0 => hlast (by rw [h0])
    have hwidth := width_mul_pow hne k
    rw [← hk] at hwidth
    simp only [Dec.adjusted] at hover ⊢
    omega

theorem round_bounds (d : Dec) :
    ctx.etiny ≤ (ctx.round d).exponent ∧ (ctx.round d).coefficient ≤ 10 ^ ctx.precision := by
  have hetiny : ctx.etiny ≤ ctx.least d := le_max_right _ _
  have hleast : d.exponent + width d.coefficient - ctx.precision ≤ ctx.least d := le_max_left _ _
  unfold round
  split_ifs with hlong
  · refine ⟨hetiny, (halfEven_le _ _).trans ?_⟩
    have hpow : (10 : ℕ) ^ width d.coefficient ≤ 10 ^ (ctx.precision + (ctx.least d - d.exponent).toNat) :=
      Nat.pow_le_pow_right (by decide) (by omega)
    have hlt := (lt_pow_width d.coefficient).trans_le hpow
    rw [pow_add] at hlt
    exact (Nat.div_lt_iff_lt_mul (by positivity)).mpr hlt
  · refine ⟨hetiny.trans (not_lt.mp hlong), ?_⟩
    exact ((width_le_iff ctx.precision_pos).mp (by omega)).le

theorem normal_of_normalize (h : ctx.normalize d = some n) : ctx.Normal n := by
  obtain ⟨hetiny, hprecision⟩ : ctx.etiny ≤ (ctx.round d).exponent ∧ _ := round_bounds d
  obtain ⟨_, hcase⟩ := reduce_eq_some h
  cases hcase with
  | inl hzero => exact .inl ⟨hzero.1, hzero.2.1⟩
  | inr hnonzero =>
    obtain ⟨hlast, hover, k, hk, he⟩ := hnonzero
    refine .inr ⟨hlast, ?_, by omega, hover⟩
    rw [width_le_iff ctx.precision_pos]
    by_contra hge
    have hle : n.coefficient ≤ 10 ^ ctx.precision :=
      (Nat.le_mul_of_pos_right _ (by positivity)).trans (hk ▸ hprecision)
    have hpower : n.coefficient * 10 ^ 0 = 1 * 10 ^ ctx.precision := by omega
    have hone := (eq_of_mul_pow_eq hlast (by decide) hpower).2
    exact ctx.precision_pos.ne hone

theorem normalize_of_normal (h : ctx.Normal n) : ctx.normalize n = some n := by
  obtain ⟨negative, c, e⟩ := n
  cases h with
  | inl hzero =>
    obtain ⟨rfl, rfl⟩ : c = 0 ∧ e = 0 := hzero
    exact normalize_zero negative 0
  | inr hnonzero =>
    obtain ⟨hlast, hwidth, hetiny, hover⟩ := hnonzero
    have hc : c ≠ 0 := fun h0 => hlast (by simp [h0])
    have hround : ctx.round ⟨negative, c, e⟩ = ⟨negative, c, e⟩ := by
      apply if_neg
      simp only [least] at hwidth hetiny ⊢
      omega
    have hstrip : stripZeros (width c) c e = (c, e) := by
      simpa using stripZeros_eq hc (lt_pow_width c) e hlast (show c = c * 10 ^ 0 by simp)
    rw [normalize, hround]
    simp [reduce, hc, not_lt.mpr hover, hstrip]

theorem normalize_negative (h : ctx.normalize d = some n) : n.negative = d.negative :=
  (reduce_eq_some h).1.trans (round_negative d)

end Context

end TradingBot.Library.DecimalNumbers
