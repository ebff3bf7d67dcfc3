import TradingBot.Library.Rounding

namespace TradingBot.Library.Smoothing

open Library.Rounding

section Levels

variable {K : Type} {step : K → K → K}

def level (step : K → K → K) (seed : K) (xs : List K) : K := xs.foldl step seed

/-- The level after every value, the seed first. -/
def levels (step : K → K → K) (seed : K) (xs : List K) : List K := xs.scanl step seed

/-- Two levels are one, or become one at some value. -/
def Meets (step : K → K → K) (a b : K) : List K → Prop
  | [] => a = b
  | x :: xs => a = b ∨ Meets step (step a x) (step b x) xs

theorem level_append (step : K → K → K) (seed : K) (xs ys : List K) :
    level step seed (xs ++ ys) = level step (level step seed xs) ys := List.foldl_append

theorem levels_getElem? (step : K → K → K) (seed : K) (xs : List K) {i : ℕ} (hi : i ≤ xs.length) :
    (levels step seed xs)[i]? = some (level step seed (xs.take i)) := by
  induction xs generalizing seed i with
  | nil =>
    obtain rfl : i = 0 := Nat.le_zero.mp hi
    rfl
  | cons x xs ih =>
    cases i with
    | zero => simp [levels, level]
    | succ i =>
      have hrest := ih (step seed x) (Nat.le_of_succ_le_succ hi)
      simpa [levels, level] using hrest

theorem meets_iff (step : K → K → K) (a b : K) (xs : List K) : Meets step a b xs ↔ level step a xs = level step b xs := by
  induction xs generalizing a b with
  | nil => exact Iff.rfl
  | cons x xs ih =>
    have hlevel : Meets step (step a x) (step b x) xs ↔ level step a (x :: xs) = level step b (x :: xs) := ih _ _
    rw [Meets, hlevel]
    constructor
    · rintro (rfl | h)
      · rfl
      · exact h
    · exact .inr

theorem Meets.of_eq {a b : K} (h : a = b) (xs : List K) : Meets step a b xs := (meets_iff step a b xs).mpr (by rw [h])

end Levels

section Steps

variable {K : Type} [Field K]

/-- The weighted mean of a value and the level before it, rounded at every operation. -/
def smoothStep (round : K → K) (weight prev x : K) : K :=
  round (round (weight * x) + round (round (1 - weight) * prev))

/-- The mean of a value and as many times the level before it as the period leaves. -/
def wilderStep (round : K → K) (period prev x : K) : K := round (round (round (prev * (period - 1)) + x) / period)

end Steps

section Bounds

variable {K : Type} [Field K] [LinearOrder K] [IsStrictOrderedRing K] {u lo hi m bound seed α period prev x : K}
  {round : K → K} {xs : List K}

/-- A number between two others, or beyond them by no more than what a bound exceeds their magnitude. -/
structure Within (lo hi m bound x : K) : Prop where
  le : lo - (bound - m) ≤ x
  ge : x ≤ hi + (bound - m)

theorem Within.abs_bound (hlo : -m ≤ lo) (hhi : hi ≤ m) (h : Within lo hi m bound x) : |x| ≤ bound :=
  abs_le.mpr ⟨by linarith [h.le], by linarith [h.ge]⟩

/-- The rounded weight and the rounded rest of it are near the weight and its rest. -/
theorem abs_rest_sub_le (hround : Rounds u round) (hu : u ≤ 1 / 100) (hα : 0 ≤ α) (hα' : α ≤ 1) :
    |round α - α| ≤ u ∧ |round (1 - round α) - (1 - α)| ≤ 101 / 100 * u := by
  have hu0 := hround.nonneg
  have hpart : u * α ≤ u := mul_le_of_le_one_right hu0 hα'
  have hweight := hround.error α
  rw [abs_of_nonneg hα] at hweight
  refine ⟨hweight.trans hpart, ?_⟩
  have hrest : |1 - round α| ≤ 1 - α + u * α := by
    have h := abs_le.mp hweight
    exact abs_le.mpr ⟨by linarith, by linarith⟩
  have hscaled := mul_le_mul_of_nonneg_left hrest hu0
  have hsquare : u * (u * α) ≤ 1 / 100 * u :=
    (mul_le_mul_of_nonneg_left hpart hu0).trans (mul_le_mul_of_nonneg_right hu hu0)
  have herror := hround.error (1 - round α)
  have hsum := abs_add_le (round (1 - round α) - (1 - round α)) (α - round α)
  rw [show round (1 - round α) - (1 - round α) + (α - round α) = round (1 - round α) - (1 - α) by ring,
    abs_sub_comm α] at hsum
  linarith

/-- A rounded product is near the exact one when one factor is. -/
theorem abs_round_mul_sub_le (hround : Rounds u round) {a b e c : K} (hab : |a - b| ≤ e) (ha : |a| ≤ c)
    (hx : |x| ≤ bound) : |round (a * x) - b * x| ≤ (e + u * c) * bound := by
  have hc : 0 ≤ c := (abs_nonneg a).trans ha
  have herror := hround.error (a * x)
  have hfactor : |a * x| ≤ c * bound := by
    rw [abs_mul]
    exact mul_le_mul ha hx (abs_nonneg x) hc
  have hdistance : |(a - b) * x| ≤ e * bound := by
    rw [abs_mul]
    exact mul_le_mul hab hx (abs_nonneg x) ((abs_nonneg _).trans hab)
  have hscaled := mul_le_mul_of_nonneg_left hfactor hround.nonneg
  have hsum := abs_add_le (round (a * x) - a * x) ((a - b) * x)
  rw [show round (a * x) - a * x + (a - b) * x = round (a * x) - b * x by ring] at hsum
  linarith

theorem abs_mix_le (hα : 0 ≤ α) (hα' : α ≤ 1) (hx : |x| ≤ bound) (hprev : |prev| ≤ bound) :
    |α * x + (1 - α) * prev| ≤ bound := by
  have hrest : 0 ≤ 1 - α := sub_nonneg.mpr hα'
  have hvalue := mul_le_mul_of_nonneg_left hx hα
  have hlevel := mul_le_mul_of_nonneg_left hprev hrest
  have hsum := abs_add_le (α * x) ((1 - α) * prev)
  rw [abs_mul, abs_mul, abs_of_nonneg hα, abs_of_nonneg hrest] at hsum
  linarith

/-- The rounded step is six roundings away from the exact one at most. -/
theorem abs_smoothStep_sub_le (hround : Rounds u round) (hu : u ≤ 1 / 100) (hα : 0 ≤ α) (hα' : α ≤ 1)
    (hx : |x| ≤ bound) (hprev : |prev| ≤ bound) :
    |smoothStep round (round α) prev x - (α * x + (1 - α) * prev)| ≤ 6 * u * bound := by
  have hu0 := hround.nonneg
  have hub : 0 ≤ u * bound := mul_nonneg hu0 ((abs_nonneg x).trans hx)
  have hubu : u * (u * bound) ≤ 1 / 100 * (u * bound) := mul_le_mul_of_nonneg_right hu hub
  obtain ⟨hweight, hrest⟩ := abs_rest_sub_le hround hu hα hα'
  have hweight' : |round α| ≤ 1 + u := by
    have h := abs_le.mp hweight
    exact abs_le.mpr ⟨by linarith, by linarith⟩
  have hrest' : |round (1 - round α)| ≤ 1 + 101 / 100 * u := by
    have h := abs_le.mp hrest
    exact abs_le.mpr ⟨by linarith, by linarith⟩
  have hvalue := abs_round_mul_sub_le hround hweight hweight' hx
  have hlevel := abs_round_mul_sub_le hround hrest hrest' hprev
  have hmix := abs_mix_le hα hα' hx hprev
  unfold smoothStep
  generalize round (round α * x) = p at hvalue ⊢
  generalize round (round (1 - round α) * prev) = q at hlevel ⊢
  have herrors : |p + q - (α * x + (1 - α) * prev)| ≤ 408 / 100 * (u * bound) := by
    have hsum := abs_add_le (p - α * x) (q - (1 - α) * prev)
    rw [show p - α * x + (q - (1 - α) * prev) = p + q - (α * x + (1 - α) * prev) by ring] at hsum
    linarith
  have hsize : |p + q| ≤ bound + 408 / 100 * (u * bound) := by
    have hsum := abs_add_le (p + q - (α * x + (1 - α) * prev)) (α * x + (1 - α) * prev)
    rw [sub_add_cancel] at hsum
    linarith
  have hscaled := mul_le_mul_of_nonneg_left hsize hu0
  have hlast := hround.error (p + q)
  have hsum := abs_add_le (round (p + q) - (p + q)) (p + q - (α * x + (1 - α) * prev))
  rw [sub_add_sub_cancel] at hsum
  linarith

/-- A smoothed level stays between the values, but for a part of the largest that grows with every step. -/
theorem level_within (hround : Rounds u round) (hu : u ≤ 1 / 100) (hα : 0 ≤ α) (hα' : α ≤ 1) (hlo : -m ≤ lo)
    (hhi : hi ≤ m) (hm : m ≤ bound) (hseed : Within lo hi m bound seed) (hxs : ∀ x ∈ xs, lo ≤ x ∧ x ≤ hi) :
    Within lo hi m (bound * (1 + 6 * u) ^ xs.length) (level (smoothStep round (round α)) seed xs) := by
  have hu0 := hround.nonneg
  induction xs generalizing seed bound with
  | nil => simpa [level] using hseed
  | cons x xs ih =>
    obtain ⟨hx, hxs⟩ := List.forall_mem_cons.mp hxs
    have hprev := hseed.abs_bound hlo hhi
    have hbound : 0 ≤ bound := (abs_nonneg _).trans hprev
    have hnear := abs_le.mp (abs_smoothStep_sub_le hround hu hα hα'
      (show |x| ≤ bound from abs_le.mpr ⟨by linarith [hx.1], by linarith [hx.2]⟩) hprev)
    have hgrown : 0 ≤ 6 * u * bound := by positivity
    have hlow := mul_le_mul_of_nonneg_left hx.1 hα
    have hhigh := mul_le_mul_of_nonneg_left hx.2 hα
    have hlow' := mul_le_mul_of_nonneg_left hseed.le (sub_nonneg.mpr hα')
    have hhigh' := mul_le_mul_of_nonneg_left hseed.ge (sub_nonneg.mpr hα')
    have hslack : 0 ≤ α * (bound - m) := mul_nonneg hα (sub_nonneg.mpr hm)
    have hstep : Within lo hi m (bound * (1 + 6 * u)) (smoothStep round (round α) seed x) :=
      ⟨by linarith [hnear.1], by linarith [hnear.2]⟩
    rw [List.length_cons, pow_succ', ← mul_assoc]
    exact ih (by linarith) hstep hxs

/-- A mean lies between the values, but for a part of the largest. -/
theorem mean_within (hround : Rounds u round) (hlo : -m ≤ lo) (hhi : hi ≤ m) (hne : xs ≠ [])
    (hxs : ∀ x ∈ xs, lo ≤ x ∧ x ≤ hi) : Within lo hi m (m * (1 + u) ^ (xs.length + 1)) (mean round xs) := by
  have hu0 := hround.nonneg
  have hlength : (0 : K) < xs.length := Nat.cast_pos.mpr (List.length_pos_iff.mpr hne)
  have hpow : (1 : K) ≤ (1 + u) ^ xs.length := one_le_pow₀ (by linarith)
  have hsum := List.card_nsmul_le_sum xs lo fun x hx => (hxs x hx).1
  have hsum' := List.sum_le_card_nsmul xs hi fun x hx => (hxs x hx).2
  have habs : (xs.map abs).sum ≤ xs.length • m := by
    rw [← List.length_map (f := abs)]
    refine List.sum_le_card_nsmul _ m fun y hy => ?_
    obtain ⟨x, hx, rfl⟩ := List.mem_map.mp hy
    exact abs_le.mpr ⟨by linarith [(hxs x hx).1], by linarith [(hxs x hx).2]⟩
  rw [nsmul_eq_mul] at hsum hsum' habs
  have htotal := (hround.abs_total_sub_sum_le xs).trans (mul_le_mul_of_nonneg_left habs (by linarith))
  obtain ⟨hbelow, habove⟩ := abs_le.mp htotal
  -- the quotient before it is rounded
  have hlow : lo - ((1 + u) ^ xs.length - 1) * m ≤ total round xs / xs.length := by
    rw [le_div_iff₀ hlength]
    linarith
  have hhigh : total round xs / xs.length ≤ hi + ((1 + u) ^ xs.length - 1) * m := by
    rw [div_le_iff₀ hlength]
    linarith
  have hsize : |total round xs / xs.length| ≤ (1 + u) ^ xs.length * m := abs_le.mpr ⟨by linarith, by linarith⟩
  have herror := abs_le.mp ((hround.error (total round xs / xs.length)).trans (mul_le_mul_of_nonneg_left hsize hu0))
  rw [mean, pow_succ]
  exact ⟨by linarith [herror.1], by linarith [herror.2]⟩

/-- The levels of values that begin at the mean of the first of them lie between the smallest and the largest value,
but for a part of the largest magnitude that grows with every value. -/
theorem level_mean_within (hround : Rounds u round) (hu : u ≤ 1 / 100) (hα : 0 ≤ α) (hα' : α ≤ 1) (hlo : -m ≤ lo)
    (hhi : hi ≤ m) {n : ℕ} (hn : 0 < n) (hlength : n ≤ xs.length) (hxs : ∀ x ∈ xs, lo ≤ x ∧ x ≤ hi) :
    Within lo hi m (m * (1 + 6 * u) ^ xs.length)
      (level (smoothStep round (round α)) (mean round (xs.take n)) (xs.drop n)) := by
  have hu0 := hround.nonneg
  have hfirst : (xs.take n).length = n := List.length_take_of_le hlength
  have hne : xs.take n ≠ [] := List.ne_nil_of_length_pos (by rwa [hfirst])
  have hmean := mean_within hround hlo hhi hne fun x hx => hxs x (List.mem_of_mem_take hx)
  obtain ⟨first, hfirstMem⟩ := List.exists_mem_of_ne_nil _ hne
  have hm : 0 ≤ m := by
    have hbetween := hxs first (List.mem_of_mem_take hfirstMem)
    linarith
  have hpow : (1 + u) ^ (n + 1) ≤ (1 + 6 * u) ^ n := by
    calc (1 + u) ^ (n + 1) ≤ (1 + u) ^ (2 * n) := pow_le_pow_right₀ (by linarith) (by omega)
      _ = ((1 + u) ^ 2) ^ n := pow_mul _ _ _
      _ ≤ (1 + 6 * u) ^ n := by
        refine pow_le_pow_left₀ (by positivity) ?_ n
        have hsquare : u * u ≤ 1 / 100 * u := mul_le_mul_of_nonneg_right hu hu0
        linarith [sq u]
  have hseed : Within lo hi m (m * (1 + 6 * u) ^ n) (mean round (xs.take n)) := by
    have hle := mul_le_mul_of_nonneg_left hpow hm
    rw [hfirst] at hmean
    exact ⟨by linarith [hmean.le], by linarith [hmean.ge]⟩
  have hgrown : m ≤ m * (1 + 6 * u) ^ n := le_mul_of_one_le_right hm (one_le_pow₀ (by linarith))
  have hrest : ∀ x ∈ xs.drop n, lo ≤ x ∧ x ≤ hi := fun x hx => hxs x (List.mem_of_mem_drop hx)
  have hlevel := level_within hround hu hα hα' hlo hhi hgrown hseed hrest
  rwa [List.length_drop, mul_assoc, ← pow_add, Nat.add_sub_cancel' hlength] at hlevel

end Bounds

section Positive

variable {K : Type} [Field K] [LinearOrder K] [IsStrictOrderedRing K] {u seed period : K} {round : K → K} {xs : List K}

theorem wilderStep_nonneg (hround : Rounds u round) (hu : u ≤ 1) (hperiod : 1 ≤ period) {prev x : K} (hprev : 0 ≤ prev)
    (hx : 0 ≤ x) : 0 ≤ wilderStep round period prev x := by
  have hproduct := hround.map_nonneg hu (mul_nonneg hprev (sub_nonneg.mpr hperiod))
  exact hround.map_nonneg hu (div_nonneg (hround.map_nonneg hu (add_nonneg hproduct hx)) (by linarith))

theorem wilderStep_pos_iff (hround : Rounds u round) (hu : u < 1) (hperiod : 1 < period) {prev x : K} (hprev : 0 ≤ prev)
    (hx : 0 ≤ x) : 0 < wilderStep round period prev x ↔ 0 < prev ∨ 0 < x := by
  have hperiod0 : 0 < period := by linarith
  have hproduct := hround.map_nonneg hu.le (mul_nonneg hprev (sub_nonneg.mpr hperiod.le))
  constructor
  · intro hpos
    by_contra hnone
    obtain ⟨hprev', hx'⟩ := not_or.mp hnone
    obtain rfl := le_antisymm (not_lt.mp hprev') hprev
    obtain rfl := le_antisymm (not_lt.mp hx') hx
    simp [wilderStep, hround.map_zero] at hpos
  · intro hsome
    refine hround.map_pos hu (div_pos (hround.map_pos hu ?_) hperiod0)
    rcases hsome with hprev' | hx'
    · exact add_pos_of_pos_of_nonneg (hround.map_pos hu (mul_pos hprev' (sub_pos.mpr hperiod))) hx
    · exact add_pos_of_nonneg_of_pos hproduct hx'

theorem level_wilder_nonneg (hround : Rounds u round) (hu : u ≤ 1) (hperiod : 1 ≤ period) (hseed : 0 ≤ seed)
    (hxs : ∀ x ∈ xs, 0 ≤ x) : 0 ≤ level (wilderStep round period) seed xs := by
  induction xs generalizing seed with
  | nil => exact hseed
  | cons x xs ih =>
    obtain ⟨hx, hxs⟩ := List.forall_mem_cons.mp hxs
    exact ih (wilderStep_nonneg hround hu hperiod hseed hx) hxs

theorem level_wilder_pos_iff (hround : Rounds u round) (hu : u < 1) (hperiod : 1 < period) (hseed : 0 ≤ seed)
    (hxs : ∀ x ∈ xs, 0 ≤ x) : 0 < level (wilderStep round period) seed xs ↔ 0 < seed ∨ ∃ x ∈ xs, 0 < x := by
  induction xs generalizing seed with
  | nil => simp [level]
  | cons x xs ih =>
    obtain ⟨hx, hxs⟩ := List.forall_mem_cons.mp hxs
    have hrest := ih (wilderStep_nonneg hround hu.le hperiod.le hseed hx) hxs
    rw [wilderStep_pos_iff hround hu hperiod hseed hx] at hrest
    simp only [List.exists_mem_cons_iff, ← or_assoc]
    exact hrest

end Positive

end TradingBot.Library.Smoothing
