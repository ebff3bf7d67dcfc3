import TradingBot.Library.Outcome
import TradingBot.Risk.Sizing

namespace TradingBot.Risk.CapLoop

open Market.Models Exceptions Library.Outcome Library.Truncation Risk.Models Risk.Sizing

section Steps

variable {step q qty value : Decimal}

theorem floorToStep_of_pos (hstep : 0 < step) (value : Decimal) : floorToStep value step = .ok (toStep step value) := by
  simp [floorToStep, hstep]

theorem le_sub_step (hstep : 0 < step) (hq : OnStep step q) (hqty : OnStep step qty) (h : q < qty) :
    q ≤ qty - step := by
  obtain ⟨m, rfl⟩ := hq
  obtain ⟨n, rfl⟩ := hqty
  have hlt : m < n := by exact_mod_cast lt_of_mul_lt_mul_right h hstep.le
  have hle : (m : Decimal) ≤ n - 1 := by exact_mod_cast Int.le_sub_one_of_lt hlt
  calc (m : Decimal) * step ≤ (n - 1) * step := mul_le_mul_of_nonneg_right hle hstep.le
    _ = n * step - step := by ring

theorem toStep_sub_step (hstep : 0 < step) (hqty : OnStep step qty) : toStep step (qty - step) = qty - step := by
  apply OnStep.toStep_eq hstep
  obtain ⟨n, rfl⟩ := hqty
  exact ⟨n - 1, by push_cast; ring⟩

theorem toStep_sub_step_lt (hstep : 0 < step) (qty : Decimal) : toStep step (qty - step) < qty := by
  by_cases hle : 0 ≤ qty - step
  · have hcut := toStep_le hstep hle
    linarith
  · have hneg : ¬ 0 ≤ (qty - step) / step := not_le.mpr (div_neg_of_neg_of_pos (not_le.mp hle) hstep)
    rw [toStep, towardZero, if_neg hneg]
    have hceil : (⌈(qty - step) / step⌉ : Decimal) < (qty - step) / step + 1 := Int.ceil_lt_add_one _
    calc (⌈(qty - step) / step⌉ : Decimal) * step < ((qty - step) / step + 1) * step := mul_lt_mul_of_pos_right hceil hstep
      _ = qty := by field_simp; ring

end Steps

section Loop

variable {step q qty distance equity budget minimum limit : Decimal}

def WithinCaps (distance equity budget limit q : Decimal) : Prop :=
  q * distance ≤ budget ∧ q * distance / equity ≤ limit

/-- The greatest member of a set, or nothing if there is no member. -/
def GreatestOrNone (s : Set Decimal) : Option Decimal → Prop
  | none => s = ∅
  | some q => IsGreatest s q

theorem reduceToBudget_of_lt (h : qty < minimum) (fuel : ℕ) :
    reduceToBudget distance equity budget step minimum limit fuel qty = .ok none := by
  cases fuel with
  | zero => rfl
  | succ fuel => rw [reduceToBudget, if_pos h]

theorem reduceToBudget_of_within (hequity : equity ≠ 0) (hmin : minimum ≤ qty)
    (h : WithinCaps distance equity budget limit qty) (fuel : ℕ) :
    reduceToBudget distance equity budget step minimum limit (fuel + 1) qty = .ok (some qty) := by
  rw [reduceToBudget, if_neg (not_lt.mpr hmin), if_neg hequity]
  exact if_pos h

theorem reduceToBudget_of_not_within (hstep : 0 < step) (hequity : equity ≠ 0) (hmin : minimum ≤ qty)
    (h : ¬ WithinCaps distance equity budget limit qty) (fuel : ℕ) :
    reduceToBudget distance equity budget step minimum limit (fuel + 1) qty =
      reduceToBudget distance equity budget step minimum limit fuel (toStep step (qty - step)) := by
  have hnext : toStep step (qty - step) ≠ qty := (toStep_sub_step_lt hstep qty).ne
  rw [reduceToBudget, if_neg (not_lt.mpr hmin), if_neg hequity, floorToStep_of_pos hstep]
  exact (if_neg h).trans (if_neg hnext)

/-- The quantities that the loop may return from a quantity on the step. -/
def Multiples (step qty distance equity budget limit minimum : Decimal) : Set Decimal :=
  {q | OnStep step q ∧ q ≤ qty ∧ WithinCaps distance equity budget limit q ∧ minimum ≤ q}

theorem multiples_of_lt (h : qty < minimum) : Multiples step qty distance equity budget limit minimum = ∅ := by
  apply Set.eq_empty_of_forall_notMem
  rintro q ⟨_, hle, _, hmin⟩
  exact absurd (hmin.trans hle) (not_le.mpr h)

theorem reduceToBudget_onStep (hstep : 0 < step) (hequity : equity ≠ 0) {fuel : ℕ} (hqty : OnStep step qty)
    (hfuel : ⌊(qty - minimum) / step⌋ < fuel) :
    ∃ r, reduceToBudget distance equity budget step minimum limit fuel qty = .ok r ∧
      GreatestOrNone (Multiples step qty distance equity budget limit minimum) r := by
  induction fuel generalizing qty with
  | zero =>
    have hlt : qty < minimum := by
      have hneg : (qty - minimum) / step < 0 := Int.floor_lt_zero.mp (by simpa using hfuel)
      by_contra hle
      exact absurd (div_nonneg (sub_nonneg.mpr (not_lt.mp hle)) hstep.le) (not_le.mpr hneg)
    exact ⟨none, rfl, multiples_of_lt hlt⟩
  | succ fuel ih =>
    by_cases hlt : qty < minimum
    · exact ⟨none, reduceToBudget_of_lt hlt _, multiples_of_lt hlt⟩
    · have hmin := not_lt.mp hlt
      by_cases hwithin : WithinCaps distance equity budget limit qty
      · refine ⟨some qty, reduceToBudget_of_within hequity hmin hwithin fuel, ⟨hqty, le_rfl, hwithin, hmin⟩, ?_⟩
        intro q hq
        exact hq.2.1
      · rw [reduceToBudget_of_not_within hstep hequity hmin hwithin, toStep_sub_step hstep hqty]
        have hnext : OnStep step (qty - step) := toStep_sub_step hstep hqty ▸ onStep_toStep step (qty - step)
        have hfloor : ⌊(qty - step - minimum) / step⌋ = ⌊(qty - minimum) / step⌋ - 1 := by
          rw [← Int.floor_sub_one]
          congr 1
          field_simp
          ring
        -- the quantity itself is not within the caps, so the multiples below it are all there are
        have hsame : Multiples step qty distance equity budget limit minimum =
            Multiples step (qty - step) distance equity budget limit minimum := by
          ext q
          constructor
          · rintro ⟨hq, hle, hcaps, hq'⟩
            have hne : q ≠ qty := fun heq => hwithin (heq ▸ hcaps)
            exact ⟨hq, le_sub_step hstep hq hqty (lt_of_le_of_ne hle hne), hcaps, hq'⟩
          · rintro ⟨hq, hle, hcaps, hq'⟩
            exact ⟨hq, hle.trans (sub_le_self _ hstep.le), hcaps, hq'⟩
        rw [hsame]
        apply ih hnext
        rw [hfloor]
        omega

/-- What may be returned: the start quantity itself and, below it, the multiples of the step from the first turn on,
if they satisfy the caps and the minimum. -/
def Candidates (step qty distance equity budget limit minimum : Decimal) : Set Decimal :=
  {q | (q = qty ∨ OnStep step q ∧ q ≤ toStep step (qty - step)) ∧ WithinCaps distance equity budget limit q ∧
    minimum ≤ q}

theorem candidates_of_onStep (hstep : 0 < step) (hqty : OnStep step qty) :
    Candidates step qty distance equity budget limit minimum =
      Multiples step qty distance equity budget limit minimum := by
  ext q
  rw [Candidates, Multiples, toStep_sub_step hstep hqty]
  constructor
  · rintro ⟨hq, hcaps, hmin⟩
    cases hq with
    | inl heq => exact ⟨heq ▸ hqty, heq.le, hcaps, hmin⟩
    | inr hbelow => exact ⟨hbelow.1, hbelow.2.trans (sub_le_self _ hstep.le), hcaps, hmin⟩
  · rintro ⟨hq, hle, hcaps, hmin⟩
    by_cases heq : q = qty
    · exact ⟨.inl heq, hcaps, hmin⟩
    · exact ⟨.inr ⟨hq, le_sub_step hstep hq hqty (lt_of_le_of_ne hle heq)⟩, hcaps, hmin⟩

theorem candidates_of_not_within (h : ¬ WithinCaps distance equity budget limit qty) :
    Candidates step qty distance equity budget limit minimum =
      Multiples step (toStep step (qty - step)) distance equity budget limit minimum := by
  ext q
  constructor
  · rintro ⟨hq, hcaps, hmin⟩
    cases hq with
    | inl heq => exact absurd (heq ▸ hcaps) h
    | inr hbelow => exact ⟨hbelow.1, hbelow.2, hcaps, hmin⟩
  · rintro ⟨hq, hle, hcaps, hmin⟩
    exact ⟨.inr ⟨hq, hle⟩, hcaps, hmin⟩

theorem floor_next (hstep : 0 < step) :
    ⌊(toStep step (qty - step) - minimum) / step⌋ ≤ ⌊(qty - minimum) / step⌋ := by
  apply Int.floor_mono
  apply div_le_div_of_nonneg_right _ hstep.le
  linarith [toStep_sub_step_lt hstep qty]

theorem turnsFor_pos (hstep : 0 < step) (hmin : minimum ≤ qty) :
    ∃ fuel : ℕ, turnsFor qty step minimum = fuel + 1 ∧ ⌊(qty - minimum) / step⌋ < fuel := by
  have hnonneg : 0 ≤ ⌊(qty - minimum) / step⌋ := Int.floor_nonneg.mpr (div_nonneg (sub_nonneg.mpr hmin) hstep.le)
  refine ⟨(⌊(qty - minimum) / step⌋ + 1).toNat, ?_, by omega⟩
  unfold turnsFor
  omega

theorem candidates_of_lt (hstep : 0 < step) (h : qty < minimum) :
    Candidates step qty distance equity budget limit minimum = ∅ := by
  apply Set.eq_empty_of_forall_notMem
  rintro q ⟨hq, _, hmin⟩
  have hle : q ≤ qty := by
    cases hq with
    | inl heq => exact heq.le
    | inr hbelow => exact hbelow.2.trans (toStep_sub_step_lt hstep qty).le
  exact absurd (hmin.trans hle) (not_le.mpr h)

theorem reduceToBudget_greatest (hstep : 0 < step) (hequity : equity ≠ 0) :
    ∃ r, reduceToBudget distance equity budget step minimum limit (turnsFor qty step minimum) qty = .ok r ∧
      GreatestOrNone (Candidates step qty distance equity budget limit minimum) r := by
  by_cases hlt : qty < minimum
  · exact ⟨none, reduceToBudget_of_lt hlt _, candidates_of_lt hstep hlt⟩
  · have hmin := not_lt.mp hlt
    obtain ⟨fuel, hturns, hfuel⟩ := turnsFor_pos hstep hmin
    rw [hturns]
    by_cases hwithin : WithinCaps distance equity budget limit qty
    · refine ⟨some qty, reduceToBudget_of_within hequity hmin hwithin fuel, ⟨.inl rfl, hwithin, hmin⟩, ?_⟩
      rintro q ⟨hq, _, _⟩
      cases hq with
      | inl heq => exact heq.le
      | inr hbelow => exact hbelow.2.trans (toStep_sub_step_lt hstep qty).le
    · rw [reduceToBudget_of_not_within hstep hequity hmin hwithin, candidates_of_not_within hwithin]
      exact reduceToBudget_onStep hstep hequity (onStep_toStep _ _) ((floor_next hstep).trans_lt hfuel)

end Loop

end TradingBot.Risk.CapLoop
