import Mathlib

namespace TradingBot.Library.Truncation

variable {k : Type*} [Field k] [LinearOrder k] [IsStrictOrderedRing k] [FloorRing k]

/-- The integer part of a number, rounded toward zero. -/
def towardZero (x : k) : ℤ := if 0 ≤ x then ⌊x⌋ else ⌈x⌉

theorem towardZero_intCast (n : ℤ) : towardZero (n : k) = n := by
  simp [towardZero]

omit [IsStrictOrderedRing k] in
theorem towardZero_mono : Monotone (towardZero : k → ℤ) := by
  intro x y hxy
  unfold towardZero
  by_cases hx : 0 ≤ x
  · rw [if_pos hx, if_pos (hx.trans hxy)]
    exact Int.floor_mono hxy
  · rw [if_neg hx]
    by_cases hy : 0 ≤ y
    · rw [if_pos hy]
      have hceil : ⌈x⌉ ≤ 0 := Int.ceil_le.mpr (by simpa using (not_le.mp hx).le)
      exact hceil.trans (Int.floor_nonneg.mpr hy)
    · rw [if_neg hy]
      exact Int.ceil_mono hxy

/-- A number cut to a whole number of steps. -/
def toStep (step x : k) : k := towardZero (x / step) * step

theorem toStep_mono {step : k} (hstep : 0 < step) : Monotone (toStep step) := by
  intro x y hxy
  have hdiv : x / step ≤ y / step := div_le_div_of_nonneg_right hxy hstep.le
  exact mul_le_mul_of_nonneg_right (Int.cast_mono (towardZero_mono hdiv)) hstep.le

theorem toStep_toStep {step : k} (hstep : 0 < step) (x : k) :
    toStep step (toStep step x) = toStep step x := by
  unfold toStep
  rw [mul_div_cancel_right₀ _ hstep.ne', towardZero_intCast]

theorem toStep_max {step : k} (hstep : 0 < step) (x y : k) :
    toStep step (max x y) = max (toStep step x) (toStep step y) :=
  (toStep_mono hstep).map_max

theorem toStep_le {step x : k} (hstep : 0 < step) (hx : 0 ≤ x) : toStep step x ≤ x := by
  unfold toStep towardZero
  rw [if_pos (div_nonneg hx hstep.le)]
  exact (le_div_iff₀ hstep).mp (Int.floor_le _)

theorem toStep_zero (step : k) : toStep step 0 = 0 := by
  have h : towardZero ((0 : ℤ) : k) = 0 := towardZero_intCast 0
  rw [toStep, zero_div, ← Int.cast_zero, h, Int.cast_zero, zero_mul]

theorem toStep_lt {step x y : k} (hstep : 0 < step) (hy : 0 < y) (h : x < y) : toStep step x < y := by
  rcases le_or_gt 0 x with hx | hx
  · exact (toStep_le hstep hx).trans_lt h
  · exact (toStep_mono hstep hx.le).trans_lt (by rwa [toStep_zero])

theorem exists_le_toStep_sub {step x : k} (hstep : 0 < step) (hx : x ≤ 0) :
    ∃ ε, 0 < ε ∧ x ≤ toStep step (x - ε) := by
  have hceil : (⌈x / step⌉ : k) - 1 < x / step := sub_lt_iff_lt_add.mpr (Int.ceil_lt_add_one _)
  have hbelow : ((⌈x / step⌉ : k) - 1) * step < x := (lt_div_iff₀ hstep).mp hceil
  obtain ⟨y, hy, hyx⟩ := exists_between hbelow
  refine ⟨x - y, sub_pos.mpr hyx, ?_⟩
  rw [sub_sub_cancel, toStep, towardZero,
    if_neg (not_le.mpr (div_neg_of_neg_of_pos (hyx.trans_le hx) hstep))]
  have hle : ⌈x / step⌉ ≤ ⌈y / step⌉ := by
    refine Int.le_ceil_iff.mpr ?_
    exact (lt_div_iff₀ hstep).mpr hy
  calc x ≤ ⌈x / step⌉ * step := (div_le_iff₀ hstep).mp (Int.le_ceil _)
    _ ≤ ⌈y / step⌉ * step := mul_le_mul_of_nonneg_right (Int.cast_mono hle) hstep.le

def OnStep (step x : k) : Prop := ∃ n : ℤ, x = n * step

omit [LinearOrder k] [IsStrictOrderedRing k] [FloorRing k] in
theorem onStep_zero (step : k) : OnStep step 0 := ⟨0, by simp⟩

omit [IsStrictOrderedRing k] in
theorem onStep_toStep (step x : k) : OnStep step (toStep step x) := ⟨_, rfl⟩

theorem OnStep.toStep_eq {step x : k} (hstep : 0 < step) (h : OnStep step x) : toStep step x = x := by
  obtain ⟨n, rfl⟩ := h
  rw [toStep, mul_div_cancel_right₀ _ hstep.ne', towardZero_intCast]

omit [IsStrictOrderedRing k] [FloorRing k] in
theorem OnStep.min {step x y : k} (hx : OnStep step x) (hy : OnStep step y) : OnStep step (min x y) := by
  rcases min_choice x y with h | h
  · rwa [h]
  · rwa [h]

omit [IsStrictOrderedRing k] [FloorRing k] in
theorem OnStep.max {step x y : k} (hx : OnStep step x) (hy : OnStep step y) : OnStep step (max x y) := by
  rcases max_choice x y with h | h
  · rwa [h]
  · rwa [h]

section Greatest

/-- The largest multiple of a step that does not exceed a number. -/
def floorStep (step x : k) : k := ⌊x / step⌋ * step

omit [IsStrictOrderedRing k] in
theorem onStep_floorStep (step x : k) : OnStep step (floorStep step x) := ⟨_, rfl⟩

theorem isGreatest_floorStep {step : k} (hstep : 0 < step) (x : k) :
    IsGreatest {q | OnStep step q ∧ q ≤ x} (floorStep step x) := by
  refine ⟨⟨⟨_, rfl⟩, (le_div_iff₀ hstep).mp (Int.floor_le _)⟩, ?_⟩
  rintro _ ⟨⟨n, rfl⟩, hle⟩
  have hn : n ≤ ⌊x / step⌋ := Int.le_floor.mpr ((le_div_iff₀ hstep).mpr hle)
  exact mul_le_mul_of_nonneg_right (Int.cast_mono hn) hstep.le

theorem floorStep_mono {step : k} (hstep : 0 < step) : Monotone (floorStep step) := by
  intro x y hxy
  have hn : ⌊x / step⌋ ≤ ⌊y / step⌋ := Int.floor_mono (div_le_div_of_nonneg_right hxy hstep.le)
  exact mul_le_mul_of_nonneg_right (Int.cast_mono hn) hstep.le

theorem floorStep_min {step : k} (hstep : 0 < step) (x y : k) :
    floorStep step (min x y) = min (floorStep step x) (floorStep step y) :=
  (floorStep_mono hstep).map_min

theorem floorStep_le {step : k} (hstep : 0 < step) (x : k) : floorStep step x ≤ x :=
  (isGreatest_floorStep hstep x).1.2

theorem le_floorStep {step q x : k} (hstep : 0 < step) (hq : OnStep step q) (hle : q ≤ x) :
    q ≤ floorStep step x := (isGreatest_floorStep hstep x).2 ⟨hq, hle⟩

theorem toStep_eq_floorStep {step x : k} (hstep : 0 < step) (hx : 0 ≤ x) : toStep step x = floorStep step x := by
  rw [toStep, floorStep, towardZero, if_pos (div_nonneg hx hstep.le)]

theorem floorStep_nonneg {step x : k} (hstep : 0 < step) (hx : 0 ≤ x) : 0 ≤ floorStep step x :=
  le_floorStep hstep (onStep_zero step) hx

end Greatest

end TradingBot.Library.Truncation
