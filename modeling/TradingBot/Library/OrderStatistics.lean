import Mathlib.Algebra.Order.Floor.Semiring
import Mathlib.Data.List.Sort
import Mathlib.Tactic.LinearCombination
import Mathlib.Tactic.Linarith
import Mathlib.Tactic.Ring

namespace TradingBot.Library.OrderStatistics

variable {K : Type} [Field K] [LinearOrder K]

def orderStatistic (values : List K) (i : ℕ) : K := (values.insertionSort (· ≤ ·)).getD i 0

theorem orderStatistic_of_sorted {values : List K} (h : values.Pairwise (· ≤ ·)) (i : ℕ) :
    orderStatistic values i = values.getD i 0 := by
  rw [orderStatistic, List.Pairwise.insertionSort_eq h]

variable [FloorSemiring K]

/-- A sequence between its places, along straight lines. -/
def interpolate (s : ℕ → K) (x : K) : K := s ⌊x⌋₊ + (x - ⌊x⌋₊) * (s (⌊x⌋₊ + 1) - s ⌊x⌋₊)

def linearQuantile (values : List K) (p : K) : K := interpolate (orderStatistic values) ((values.length - 1) * p)

variable {s t : ℕ → K} {x y c : K} {m n : ℕ}

theorem interpolate_of_floor (h : ⌊x⌋₊ = n) : interpolate s x = s n + (x - n) * (s (n + 1) - s n) := by
  rw [interpolate, h]

theorem interpolate_const (h : ∀ i, n ≤ i → s i = c) (hx : (n : K) ≤ x) : interpolate s x = c := by
  have hn : n ≤ ⌊x⌋₊ := Nat.le_floor hx
  rw [interpolate, h _ hn, h _ (by omega)]
  ring

variable [IsStrictOrderedRing K]

theorem interpolate_congr (h : ∀ i < n, s i = t i) (hx : 0 ≤ x) (hn : x < (n : K) - 1) :
    interpolate s x = interpolate t x := by
  have hfloor : ⌊x⌋₊ + 1 < n := by
    have hle : ((⌊x⌋₊ : ℕ) : K) ≤ x := Nat.floor_le hx
    have hlt : ((⌊x⌋₊ + 1 : ℕ) : K) < n := by
      rw [Nat.cast_add, Nat.cast_one]
      linarith
    exact Nat.cast_lt.mp hlt
  rw [interpolate, interpolate, h _ hfloor, h _ (by omega)]

/-- A sequence that is zero before a place and positive from it on. -/
def step (m : ℕ) (c : K) (i : ℕ) : K := if i < m then 0 else c

/-- Past the last zero the line rises until it is level. -/
theorem interpolate_step_lt (hc : 0 < c) (hx : (n : K) ≤ x) (hxn : x < n + 1) (hy : x < y) :
    interpolate (step (n + 1) c) x < interpolate (step (n + 1) c) y := by
  have hlow : ∀ {z : K}, (n : K) ≤ z → z < n + 1 → interpolate (step (n + 1) c) z = (z - n) * c := by
    intro z hz hzn
    have hfloor : ⌊z⌋₊ = n := by
      rw [Nat.floor_eq_iff ((Nat.cast_nonneg n).trans hz)]
      exact ⟨hz, hzn⟩
    rw [interpolate_of_floor hfloor, step, step, if_pos (by omega), if_neg (by omega)]
    ring
  rw [hlow hx hxn]
  by_cases hyn : y < n + 1
  · rw [hlow (hx.trans hy.le) hyn]
    exact mul_lt_mul_of_pos_right (by linarith) hc
  · have hlevel : ∀ i, n + 1 ≤ i → step (n + 1) c i = c := by
      intro i hi
      rw [step, if_neg (by omega)]
    rw [interpolate_const hlevel (by rw [Nat.cast_add, Nat.cast_one]; exact le_of_not_gt hyn)]
    exact (mul_lt_mul_of_pos_right (by linarith) hc).trans_eq (one_mul c)

theorem linearQuantile_step_lt {p q : K} (hc : 0 < c) (hp : 0 ≤ p) (hpq : p < q) (hq : q < 1) (hm : 2 ≤ m)
    (hn : ⌊((m : K) - 1) * p⌋₊ = n) :
    linearQuantile ((List.range m).map (step (n + 1) c)) p < linearQuantile ((List.range m).map (step (n + 1) c)) q := by
  have hsorted : ((List.range m).map (step (n + 1) c)).Pairwise (· ≤ ·) := by
    rw [List.pairwise_map]
    refine List.pairwise_lt_range.imp fun {i j} hij => ?_
    unfold step
    split_ifs
    · exact le_rfl
    · exact hc.le
    · omega
    · exact le_rfl
  have hplaces : ∀ i < m, orderStatistic ((List.range m).map (step (n + 1) c)) i = step (n + 1) c i := by
    intro i hi
    rw [orderStatistic_of_sorted hsorted]
    simp [List.getD_eq_getElem?_getD, hi]
  have hwidth : 0 < (m : K) - 1 := by
    have hcast : (2 : K) ≤ m := by exact_mod_cast hm
    linarith
  have hline : ∀ {r : K}, 0 ≤ r → r < 1 → linearQuantile ((List.range m).map (step (n + 1) c)) r =
      interpolate (step (n + 1) c) (((m : K) - 1) * r) := by
    intro r hr0 hr1
    rw [linearQuantile, List.length_map, List.length_range]
    exact interpolate_congr hplaces (mul_nonneg hwidth.le hr0) (by nlinarith)
  have hfloor := (Nat.floor_eq_iff (mul_nonneg hwidth.le hp)).mp hn
  rw [hline hp (hpq.trans hq), hline (hp.trans hpq.le) hq]
  exact interpolate_step_lt hc hfloor.1 hfloor.2 (mul_lt_mul_of_pos_left hpq hwidth)

end TradingBot.Library.OrderStatistics
