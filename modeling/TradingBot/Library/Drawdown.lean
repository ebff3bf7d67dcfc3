import TradingBot.Library.Rounding
import Mathlib.Algebra.Order.Field.Basic
import Mathlib.Algebra.Order.Group.MinMax
import Mathlib.Algebra.Order.Group.Unbundled.Abs
import Mathlib.Data.List.Fold
import Mathlib.Data.List.Forall2
import Mathlib.Tactic.FieldSimp
import Mathlib.Tactic.Linarith
import Mathlib.Tactic.Positivity
import Mathlib.Tactic.Ring

namespace TradingBot.Library.Drawdown

open Library.Rounding

variable {K : Type} [Field K] [LinearOrder K]

section Losses

/-- What a fall from one level to another loses, relative to the first. -/
def loss (a b : K) : K := (a - b) / a

/-- The losses from every level of a curve to every later one. -/
def losses : List K → List K
  | [] => []
  | a :: l => l.map (loss a) ++ losses l

/-- The largest peak-to-trough loss of a curve. A curve that never falls has none. -/
def maxDrawdown (l : List K) : K := (losses l).foldr max 0

/-- The losses of each level from the peak that was reached before it. -/
def fromPeak (peak : K) : List K → List K
  | [] => []
  | a :: l => loss (max peak a) a :: fromPeak (max peak a) l

theorem foldr_max_le {l : List K} {c : K} : l.foldr max 0 ≤ c ↔ 0 ≤ c ∧ ∀ d ∈ l, d ≤ c := by
  induction l with
  | nil => simp
  | cons d l ih =>
    rw [List.foldr_cons, max_le_iff, ih, List.forall_mem_cons]
    constructor
    · rintro ⟨hd, hc, hl⟩
      exact ⟨hc, hd, hl⟩
    · rintro ⟨hc, hd, hl⟩
      exact ⟨hd, hc, hl⟩

theorem foldr_max_nonneg (l : List K) : 0 ≤ l.foldr max 0 :=
  (foldr_max_le.mp le_rfl).1

theorem max?_getD_eq_foldr {l : List K} (h : ∀ d ∈ l, 0 ≤ d) : l.max?.getD 0 = l.foldr max 0 := by
  cases hmax : l.max? with
  | none => simp [List.max?_eq_none_iff.mp hmax]
  | some m =>
    have hm : 0 ≤ m := h m (List.max?_mem hmax)
    apply le_antisymm
    · exact (foldr_max_le.mp le_rfl).2 m (List.max?_mem hmax)
    · exact foldr_max_le.mpr ⟨hm, (List.max?_le_iff hmax).mp le_rfl⟩

omit [Field K] in
theorem foldl_eq_max? {f : Option K → K → Option K} (hnone : ∀ d, f none d = some d)
    (hsome : ∀ m d, f (some m) d = some (max m d)) (l : List K) : l.foldl f none = l.max? := by
  cases l with
  | nil => rfl
  | cons d l =>
    have hrest : ∀ m, l.foldl f (some m) = some (l.foldl max m) := by
      induction l with
      | nil => exact fun _ => rfl
      | cons d l ih =>
        intro m
        rw [List.foldl_cons, List.foldl_cons, hsome, ih]
    rw [List.foldl_cons, hnone, List.max?_cons', hrest]

theorem maxDrawdown_nonneg (l : List K) : 0 ≤ maxDrawdown l := foldr_max_nonneg (losses l)

omit [LinearOrder K] in
theorem loss_self (a : K) : loss a a = 0 := by
  simp [loss]

variable [IsStrictOrderedRing K]

theorem loss_mono {a b c : K} (ha : 0 < a) (hab : a ≤ b) (hc : 0 ≤ c) : loss a c ≤ loss b c := by
  have hb : 0 < b := lt_of_lt_of_le ha hab
  unfold loss
  rw [div_le_div_iff₀ ha hb]
  have h : c * a ≤ c * b := mul_le_mul_of_nonneg_left hab hc
  linarith [mul_comm a b]

theorem loss_le_half_iff {a b : K} (ha : 0 < a) : loss a b ≤ 1 / 2 ↔ a / 2 ≤ b := by
  unfold loss
  rw [div_le_div_iff₀ ha two_pos]
  constructor
  · intro h
    linarith
  · intro h
    linarith

/-- The bound on the losses from the running peak is a bound on the losses between all levels: what
is lost from the first peak is the only loss that the levels themselves do not show. -/
theorem fromPeak_le_iff {l : List K} (hpos : ∀ a ∈ l, 0 < a) {peak c : K} (hpeak : 0 < peak) (hc : 0 ≤ c) :
    (∀ d ∈ fromPeak peak l, d ≤ c) ↔ (∀ a ∈ l, loss peak a ≤ c) ∧ ∀ d ∈ losses l, d ≤ c := by
  induction l generalizing peak with
  | nil => simp [fromPeak, losses]
  | cons a l ih =>
    have ha : 0 < a := hpos a List.mem_cons_self
    have hl : ∀ b ∈ l, 0 < b := fun b hb => hpos b (List.mem_cons_of_mem a hb)
    simp only [fromPeak, losses, List.forall_mem_cons, List.forall_mem_append, List.forall_mem_map]
    rw [ih hl (lt_max_of_lt_left hpeak)]
    rcases le_total a peak with hle | hle
    · rw [max_eq_left hle]
      constructor
      · rintro ⟨h, hpl, hlosses⟩
        have hal : ∀ b ∈ l, loss a b ≤ c := fun b hb =>
          (loss_mono ha hle (hl b hb).le).trans (hpl b hb)
        exact ⟨⟨h, hpl⟩, hal, hlosses⟩
      · rintro ⟨⟨h, hpl⟩, -, hlosses⟩
        exact ⟨h, hpl, hlosses⟩
    · rw [max_eq_right hle, loss_self]
      have hfall : loss peak a ≤ c := by
        have h := loss_mono hpeak hle ha.le
        rw [loss_self] at h
        exact h.trans hc
      constructor
      · rintro ⟨-, hal, hlosses⟩
        have hpl : ∀ b ∈ l, loss peak b ≤ c := fun b hb =>
          (loss_mono hpeak hle (hl b hb).le).trans (hal b hb)
        exact ⟨⟨hfall, hpl⟩, hal, hlosses⟩
      · rintro ⟨-, hal, hlosses⟩
        exact ⟨hc, hal, hlosses⟩

theorem foldr_fromPeak {l : List K} (hpos : ∀ a ∈ l, 0 < a) : (fromPeak 0 l).foldr max 0 = maxDrawdown l := by
  have hiff : ∀ c : K, 0 ≤ c → ((∀ d ∈ fromPeak 0 l, d ≤ c) ↔ ∀ d ∈ losses l, d ≤ c) := by
    intro c hc
    cases l with
    | nil => simp [fromPeak, losses]
    | cons a l =>
      have ha : 0 < a := hpos a List.mem_cons_self
      have hl : ∀ b ∈ l, 0 < b := fun b hb => hpos b (List.mem_cons_of_mem a hb)
      simp only [fromPeak, losses, List.forall_mem_cons, List.forall_mem_append, List.forall_mem_map,
        max_eq_right ha.le, loss_self]
      rw [fromPeak_le_iff hl ha hc]
      exact and_iff_right hc
  apply le_antisymm
  · have hc := maxDrawdown_nonneg l
    exact foldr_max_le.mpr ⟨hc, (hiff _ hc).mpr (foldr_max_le.mp le_rfl).2⟩
  · have hc := foldr_max_nonneg (fromPeak 0 l)
    exact foldr_max_le.mpr ⟨hc, (hiff _ hc).mp (foldr_max_le.mp le_rfl).2⟩

omit [LinearOrder K] [IsStrictOrderedRing K] in
theorem mem_losses {l : List K} {d : K} : d ∈ losses l ↔
    ∃ (i j : ℕ) (a b : K), i < j ∧ l[i]? = some a ∧ l[j]? = some b ∧ d = loss a b := by
  induction l with
  | nil => simp [losses]
  | cons first l ih =>
    rw [losses, List.mem_append, List.mem_map, ih]
    constructor
    · intro h
      cases h with
      | inl hfirst =>
        obtain ⟨b, hb, rfl⟩ := hfirst
        obtain ⟨j, hj⟩ := List.mem_iff_getElem?.mp hb
        exact ⟨0, j + 1, first, b, Nat.succ_pos j, rfl, by simpa using hj, rfl⟩
      | inr hrest =>
        obtain ⟨i, j, a, b, hij, ha, hb, rfl⟩ := hrest
        exact ⟨i + 1, j + 1, a, b, by omega, by simpa using ha, by simpa using hb, rfl⟩
    · rintro ⟨i, j, a, b, hij, ha, hb, rfl⟩
      obtain ⟨j, rfl⟩ : ∃ k, j = k + 1 := ⟨j - 1, by omega⟩
      rw [List.getElem?_cons_succ] at hb
      cases i with
      | zero =>
        cases ha
        exact .inl ⟨b, List.mem_of_getElem? hb, rfl⟩
      | succ i =>
        rw [List.getElem?_cons_succ] at ha
        exact .inr ⟨i, j, a, b, by omega, ha, hb, rfl⟩

omit [IsStrictOrderedRing K] in
theorem foldr_max_mem (l : List K) : l.foldr max 0 = 0 ∨ l.foldr max 0 ∈ l := by
  induction l with
  | nil => exact .inl rfl
  | cons a l ih =>
    rw [List.foldr_cons]
    cases max_choice a (l.foldr max 0) with
    | inl h =>
      rw [h]
      exact .inr List.mem_cons_self
    | inr h =>
      rw [h]
      cases ih with
      | inl hzero => exact .inl hzero
      | inr hmem => exact .inr (List.mem_cons_of_mem a hmem)

omit [IsStrictOrderedRing K] in
/-- The largest loss of a curve that is not empty is the maximum over all pairs of levels, the first not after the
second. -/
theorem isGreatest_maxDrawdown {l : List K} (hne : l ≠ []) :
    IsGreatest {d | ∃ (i j : ℕ) (a b : K), i ≤ j ∧ l[i]? = some a ∧ l[j]? = some b ∧ d = loss a b} (maxDrawdown l) := by
  constructor
  · cases foldr_max_mem (losses l) with
    | inl hzero =>
      obtain ⟨a, rest, rfl⟩ := List.exists_cons_of_ne_nil hne
      exact ⟨0, 0, a, a, le_rfl, rfl, rfl, hzero.trans (loss_self a).symm⟩
    | inr hmem =>
      obtain ⟨i, j, a, b, hij, ha, hb, hd⟩ := mem_losses.mp hmem
      exact ⟨i, j, a, b, hij.le, ha, hb, hd⟩
  · rintro d ⟨i, j, a, b, hij, ha, hb, rfl⟩
    cases Nat.eq_or_lt_of_le hij with
    | inl heq =>
      obtain rfl : a = b := by
        rw [heq, hb] at ha
        exact (Option.some.inj ha).symm
      rw [loss_self]
      exact maxDrawdown_nonneg l
    | inr hlt => exact (foldr_max_le.mp le_rfl).2 _ (mem_losses.mpr ⟨i, j, a, b, hlt, ha, hb, rfl⟩)

theorem maxDrawdown_le_half_iff {l : List K} (hpos : ∀ a ∈ l, 0 < a) :
    maxDrawdown l ≤ 1 / 2 ↔ l.Pairwise fun a b => a / 2 ≤ b := by
  have hhalf : (0 : K) ≤ 1 / 2 := by positivity
  unfold maxDrawdown
  rw [foldr_max_le, and_iff_right hhalf]
  induction l with
  | nil => simp [losses]
  | cons a l ih =>
    have ha : 0 < a := hpos a List.mem_cons_self
    have hl := ih fun b hb => hpos b (List.mem_cons_of_mem a hb)
    rw [losses, List.forall_mem_append, List.forall_mem_map, List.pairwise_cons]
    exact and_congr (forall₂_congr fun b _ => loss_le_half_iff ha) hl

end Losses

section Shares

def keep (factor share : K) : K := min 1 (factor * share)

/-- The lowest share of its peak that a curve with these growth factors keeps. -/
def lowest (share low : K) : List K → K
  | [] => low
  | g :: gs => lowest (keep g share) (min low (keep g share)) gs

def growths (a : K) : List K → List K
  | [] => []
  | b :: l => b / a :: growths b l

/-- A growth factor exceeds another one by a part of itself, or of one. -/
structure Exceeds (η g h : K) : Prop where
  nonneg : 0 ≤ g
  nonneg' : 0 ≤ h
  le : h ≤ g + η * max 1 g

/-- A share and the lowest one so far, and how far those of another curve are above them. The share of the other curve
may be far off, but only by as much as the curve has recovered from its lowest share. -/
structure Above (e share low share' low' : K) : Prop where
  error : 0 ≤ e
  low_nonneg : 0 ≤ low
  low_le : low ≤ share
  share_nonneg' : 0 ≤ share'
  share_le' : share' ≤ 1
  relative : share' * low ≤ share * (low + e)
  absolute : low' ≤ low + e

variable [IsStrictOrderedRing K] {η e g h share low share' low' : K}

omit [IsStrictOrderedRing K] in
theorem keep_le_one (g share : K) : keep g share ≤ 1 := min_le_left _ _

theorem keep_nonneg (hg : 0 ≤ g) (hshare : 0 ≤ share) : 0 ≤ keep g share := le_min zero_le_one (mul_nonneg hg hshare)

theorem Above.relative_keep (hη : 0 ≤ η) (hgh : Exceeds η g h) (habove : Above e share low share' low') {m : K}
    (hm : 0 ≤ m) (hmlow : m ≤ low) (hmkeep : m ≤ keep g share) :
    keep h share' * m ≤ keep g share * (m + (e + η)) := by
  have he := habove.error
  rcases le_total 1 (g * share) with hpeak | hpeak
  · -- at its peak the curve keeps everything
    have hkeep : keep g share = 1 := min_eq_left hpeak
    have hle : keep h share' * m ≤ 1 * m := mul_le_mul_of_nonneg_right (keep_le_one h share') hm
    rw [hkeep]
    linarith
  · have hkeep : keep g share = g * share := min_eq_right hpeak
    rw [hkeep] at hmkeep ⊢
    have hbefore : share' * m ≤ share * (m + e) := by
      rcases le_total share' share with hle | hle
      · have hproduct := mul_le_mul_of_nonneg_right hle hm
        have hshare : 0 ≤ share * e := mul_nonneg (habove.low_nonneg.trans habove.low_le) he
        linarith
      · have hproduct := mul_le_mul_of_nonneg_left hmlow (sub_nonneg.mpr hle)
        linarith [habove.relative]
    have hfactor : max 1 g * (share' * m) ≤ g * share := by
      have hpart : share' * m ≤ m := mul_le_of_le_one_left hm habove.share_le'
      rcases le_total g 1 with hle | hle
      · rw [max_eq_left hle, one_mul]
        exact hpart.trans hmkeep
      · rw [max_eq_right hle]
        exact mul_le_mul_of_nonneg_left (hpart.trans (hmlow.trans habove.low_le)) hgh.nonneg
    calc keep h share' * m
        ≤ h * share' * m := mul_le_mul_of_nonneg_right (min_le_right _ _) hm
      _ ≤ (g + η * max 1 g) * share' * m :=
        mul_le_mul_of_nonneg_right (mul_le_mul_of_nonneg_right hgh.le habove.share_nonneg') hm
      _ = g * (share' * m) + η * (max 1 g * (share' * m)) := by ring
      _ ≤ g * (share * (m + e)) + η * (g * share) :=
        add_le_add (mul_le_mul_of_nonneg_left hbefore hgh.nonneg) (mul_le_mul_of_nonneg_left hfactor hη)
      _ = g * share * (m + (e + η)) := by ring

theorem Above.step (hη : 0 ≤ η) (hgh : Exceeds η g h) (habove : Above e share low share' low') :
    Above (e + η) (keep g share) (min low (keep g share)) (keep h share') (min low' (keep h share')) := by
  have he := habove.error
  have hshare : 0 ≤ share := habove.low_nonneg.trans habove.low_le
  have hkeep : 0 ≤ keep g share := keep_nonneg hgh.nonneg hshare
  refine ⟨add_nonneg he hη, le_min habove.low_nonneg hkeep, min_le_right _ _,
    keep_nonneg hgh.nonneg' habove.share_nonneg', keep_le_one _ _, ?_, ?_⟩
  · exact habove.relative_keep hη hgh (le_min habove.low_nonneg hkeep) (min_le_left _ _) (min_le_right _ _)
  · rcases le_or_gt low (keep g share) with hlow | hlow
    · rw [min_eq_left hlow]
      exact (min_le_left _ _).trans (habove.absolute.trans (by linarith))
    · rw [min_eq_right hlow.le]
      refine (min_le_right _ _).trans ?_
      rcases hkeep.eq_or_lt with hzero | hpos
      · -- the curve loses everything in this step, so its growth factor is zero
        rw [← hzero] at hlow ⊢
        have hproduct : g * share = 0 := by
          rcases min_choice 1 (g * share) with hone | hone
          · exact absurd (hzero.trans hone) zero_ne_one
          · exact (hzero.trans hone).symm
        have hg : g = 0 := (mul_eq_zero.mp hproduct).resolve_right (hlow.trans_le habove.low_le).ne'
        have hle : h ≤ η := by simpa [hg] using hgh.le
        calc keep h share' ≤ h * share' := min_le_right _ _
          _ ≤ h * 1 := mul_le_mul_of_nonneg_left habove.share_le' hgh.nonneg'
          _ ≤ 0 + (e + η) := by linarith
      · have hrelative := habove.relative_keep hη hgh hkeep hlow.le le_rfl
        rw [mul_comm] at hrelative
        exact le_of_mul_le_mul_left hrelative hpos

theorem Above.run (hη : 0 ≤ η) {gs hs : List K} (hgs : List.Forall₂ (Exceeds η) gs hs)
    (habove : Above e share low share' low') :
    lowest share' low' hs ≤ lowest share low gs + (e + gs.length * η) := by
  induction hgs generalizing e share low share' low' with
  | nil => simpa [lowest] using habove.absolute
  | @cons g h gs hs hgh _ ih =>
    have hrest := ih (habove.step hη hgh)
    rw [lowest, lowest, List.length_cons, Nat.cast_succ]
    linarith

/-- Curves whose growth factors agree up to a part have lowest shares that agree up to as many parts as there are
steps, however much the curves fall and recover in between. -/
theorem abs_lowest_sub_le (hη : 0 ≤ η) {gs hs : List K} (hgs : List.Forall₂ (Exceeds η) gs hs)
    (hhs : List.Forall₂ (Exceeds η) hs gs) : |lowest 1 1 hs - lowest 1 1 gs| ≤ gs.length * η := by
  have hstart : Above (0 : K) 1 1 1 1 :=
    ⟨le_rfl, zero_le_one, le_rfl, zero_le_one, le_rfl, by rw [add_zero], by rw [add_zero]⟩
  have hupper := hstart.run hη hgs
  have hlower := hstart.run hη hhs
  rw [← hgs.length_eq] at hlower
  rw [abs_le]
  constructor <;> linarith

theorem div_max {b peak : K} (hpeak : 0 < peak) : b / max peak b = min 1 (b / peak) := by
  rcases le_total b peak with hle | hle
  · rw [max_eq_left hle, min_eq_right ((div_le_one hpeak).mpr hle)]
  · rw [max_eq_right hle, min_eq_left ((one_le_div hpeak).mpr hle), div_self (hpeak.trans_le hle).ne']

theorem loss_max {b peak : K} (hpeak : 0 < peak) : loss (max peak b) b = 1 - min 1 (b / peak) := by
  rw [loss, sub_div, div_self (lt_max_of_lt_left hpeak).ne', div_max hpeak]

omit [IsStrictOrderedRing K] in
theorem keep_growth {a b peak : K} (ha : 0 < a) : keep (b / a) (a / peak) = min 1 (b / peak) := by
  rw [keep, div_mul_div_cancel₀ ha.ne']

theorem max_one_sub {low share : K} : max (1 - low) (1 - share) = 1 - min low share := max_sub_sub_left 1 low share

theorem fromPeak_eq_lowest {a peak : K} {l : List K} (ha : 0 < a) (hpeak : 0 < peak) (hpos : ∀ b ∈ l, 0 < b) (low : K) :
    (fromPeak peak l).foldl max (1 - low) = 1 - lowest (a / peak) low (growths a l) := by
  induction l generalizing a peak low with
  | nil => rfl
  | cons b l ih =>
    have hb : 0 < b := hpos b List.mem_cons_self
    have hrest : ∀ c ∈ l, 0 < c := fun c hc => hpos c (List.mem_cons_of_mem b hc)
    rw [fromPeak, List.foldl_cons, loss_max hpeak, max_one_sub, growths, lowest, keep_growth ha, ← div_max hpeak]
    exact ih hb (lt_max_of_lt_left hpeak) hrest _

theorem maxDrawdown_eq_lowest {a : K} {l : List K} (ha : 0 < a) (hpos : ∀ b ∈ l, 0 < b) :
    maxDrawdown (a :: l) = 1 - lowest 1 1 (growths a l) := by
  have hall : ∀ b ∈ a :: l, 0 < b := List.forall_mem_cons.mpr ⟨ha, hpos⟩
  have hrun := fromPeak_eq_lowest ha ha hpos 1
  rw [div_self ha.ne', sub_self, List.foldl_eq_foldr] at hrun
  rw [← foldr_fromPeak hall, fromPeak, max_eq_right ha.le, loss_self, ← hrun, List.foldr_cons]
  exact max_eq_right (foldr_max_nonneg _)

end Shares

section Rounding

/-- One and the return, which is the quotient less one. -/
def growth (round : K → K) (a b : K) : K := round (1 + round (round (b / a) - 1))

def fall (round : K → K) (peak level : K) : K := round (round (peak - level) / peak)

/-- The falls of each level from the peak that was reached before it. -/
def fallsFrom (round : K → K) (peak : K) : List K → List K
  | [] => []
  | a :: l => fall round (max peak a) a :: fallsFrom round (max peak a) l

/-- The worst fall of a curve that is built again from its returns. -/
def worstFall (round : K → K) (level peak worst a : K) : List K → K
  | [] => worst
  | b :: l =>
    let next := round (level * growth round a b)
    worstFall round next (max peak next) (max worst (fall round (max peak next) next)) b l

variable [IsStrictOrderedRing K] {u : K} {round : K → K} {a b level peak worst low : K} {l : List K}

theorem growth_bounds (hround : Rounds u round) (hu : u ≤ 1 / 100) (ha : 0 < a) (hb : 0 < b) :
    0 ≤ growth round a b ∧ |growth round a b - b / a| ≤ 304 / 100 * (u * max 1 (b / a)) := by
  have hu0 := hround.nonneg
  have hrho : 0 < b / a := div_pos hb ha
  have hone : 1 ≤ max 1 (b / a) := le_max_left _ _
  have hle : b / a ≤ max 1 (b / a) := le_max_right _ _
  unfold growth
  generalize b / a = rho at hrho hone hle ⊢
  generalize max 1 rho = m at hone hle ⊢
  have hpart : u * rho ≤ u * m := mul_le_mul_of_nonneg_left hle hu0
  have hsmall : u * m ≤ 1 / 100 * m := mul_le_mul_of_nonneg_right hu (by linarith)
  have hpart0 : 0 ≤ u * m := mul_nonneg hu0 (by linarith)
  obtain ⟨hq, hq'⟩ := hround.of_nonneg hrho.le
  generalize round rho = q at hq hq' ⊢
  have hq0 : 0 ≤ q := by
    have h : u * rho ≤ 1 * rho := mul_le_mul_of_nonneg_right (by linarith) hrho.le
    linarith
  have hreturn : |q - 1| ≤ 101 / 100 * m := abs_le.mpr ⟨by linarith, by linarith⟩
  have ht := hround.neg_one_le (q - 1) (by linarith)
  have herror := (hround.error (q - 1)).trans (mul_le_mul_of_nonneg_left hreturn hu0)
  generalize round (q - 1) = t at ht herror ⊢
  obtain ⟨hlow, hhigh⟩ := abs_le.mp herror
  obtain ⟨hf, hf'⟩ := hround.of_nonneg (show 0 ≤ 1 + t by linarith)
  have hsum : 1 + t ≤ 10201 / 10000 * m := by linarith
  have hlast : u * (1 + t) ≤ 10201 / 10000 * (u * m) := by
    have h := mul_le_mul_of_nonneg_left hsum hu0
    linarith
  have hlast' : u * (1 + t) ≤ 1 * (1 + t) := mul_le_mul_of_nonneg_right (by linarith) (by linarith)
  exact ⟨by linarith, abs_le.mpr ⟨by linarith, by linarith⟩⟩

/-- A step of the curve that is built again: it grows by a factor that agrees with the true one up to five roundings. -/
theorem exists_factor (hround : Rounds u round) (hu : u ≤ 1 / 100) (ha : 0 < a) (hb : 0 < b)
    (hlevel : 0 ≤ level) :
    ∃ h, round (level * growth round a b) = h * level ∧ Exceeds (5 * u) (b / a) h ∧ Exceeds (5 * u) h (b / a) := by
  have hu0 := hround.nonneg
  have hrho : 0 ≤ b / a := (div_pos hb ha).le
  rcases hlevel.eq_or_lt with hzero | hpos
  · refine ⟨b / a, ?_, ?_, ?_⟩
    · have herror := hround.error 0
      rw [abs_zero, mul_zero, sub_zero] at herror
      rw [← hzero, zero_mul, mul_zero]
      exact abs_nonpos_iff.mp herror
    all_goals exact ⟨hrho, hrho, le_add_of_nonneg_right (by positivity)⟩
  · obtain ⟨hf0, herror⟩ := growth_bounds hround hu ha hb
    have hone : 1 ≤ max 1 (b / a) := le_max_left _ _
    have hle : b / a ≤ max 1 (b / a) := le_max_right _ _
    generalize growth round a b = f at hf0 herror ⊢
    obtain ⟨hround1, hround2⟩ := hround.of_nonneg (mul_nonneg hlevel hf0)
    have hpart : u * f ≤ 104 / 100 * (u * max 1 (b / a)) := by
      have hf : f ≤ 104 / 100 * max 1 (b / a) := by
        have h : u * max 1 (b / a) ≤ 1 / 100 * max 1 (b / a) := mul_le_mul_of_nonneg_right hu (by linarith)
        linarith [(abs_le.mp herror).2]
      have h := mul_le_mul_of_nonneg_left hf hu0
      linarith
    have hlow : f - u * f ≤ round (level * f) / level := by
      rw [le_div_iff₀ hpos]
      linarith
    have hhigh : round (level * f) / level ≤ f + u * f := by
      rw [div_le_iff₀ hpos]
      linarith
    have hnonneg : 0 ≤ round (level * f) / level := by
      have h : u * f ≤ 1 * f := mul_le_mul_of_nonneg_right (by linarith) hf0
      linarith
    obtain ⟨herror1, herror2⟩ := abs_le.mp herror
    refine ⟨round (level * f) / level, (div_mul_cancel₀ _ hpos.ne').symm, ⟨hrho, hnonneg, ?_⟩, ⟨hnonneg, hrho, ?_⟩⟩
    · have h : 0 ≤ u * max 1 (b / a) := mul_nonneg hu0 (by linarith)
      linarith
    · generalize round (level * f) / level = h at hlow hhigh hnonneg ⊢
      rcases le_total (b / a) 1 with hfall | hrise
      · rw [max_eq_left hfall] at hpart herror1 herror2
        have h1 : u * 1 ≤ u * max 1 h := mul_le_mul_of_nonneg_left (le_max_left _ _) hu0
        linarith
      · rw [max_eq_right hrise] at hpart herror1 herror2
        have h1 : u * h ≤ u * max 1 h := mul_le_mul_of_nonneg_left (le_max_right _ _) hu0
        have h2 : b / a - 408 / 100 * (u * (b / a)) ≤ h := by linarith
        have h3 := mul_le_mul_of_nonneg_left h2 hu0
        have h4 : u * (u * (b / a)) ≤ 1 / 100 * (u * (b / a)) :=
          mul_le_mul_of_nonneg_right hu (mul_nonneg hu0 hrho)
        have h5 : 0 ≤ u * (b / a) := mul_nonneg hu0 hrho
        linarith

theorem fall_bounds (hround : Rounds u round) (hu : u ≤ 1 / 100) (hlevel : 0 ≤ level) (hle : level ≤ peak)
    (hpeak : 0 < peak) : |fall round peak level - loss peak level| ≤ 3 * u := by
  have hu0 := hround.nonneg
  have hloss : loss peak level ≤ 1 := (div_le_one hpeak).mpr (by linarith)
  have hloss0 : 0 ≤ loss peak level := div_nonneg (by linarith) hpeak.le
  obtain ⟨hlow, hhigh⟩ := hround.of_nonneg (sub_nonneg.mpr hle)
  have hlow' : loss peak level - u * loss peak level ≤ round (peak - level) / peak := by
    rw [loss, mul_div_assoc', ← sub_div]
    exact div_le_div_of_nonneg_right hlow hpeak.le
  have hhigh' : round (peak - level) / peak ≤ loss peak level + u * loss peak level := by
    rw [loss, mul_div_assoc', ← add_div]
    exact div_le_div_of_nonneg_right hhigh hpeak.le
  have hpart : u * loss peak level ≤ u * 1 := mul_le_mul_of_nonneg_left hloss hu0
  have hpart' : u * loss peak level ≤ 1 * loss peak level := mul_le_mul_of_nonneg_right (by linarith) hloss0
  unfold fall
  generalize round (peak - level) / peak = y at hlow' hhigh' ⊢
  obtain ⟨hround1, hround2⟩ := hround.of_nonneg (show 0 ≤ y by linarith)
  have hlast : u * y ≤ u * 2 := mul_le_mul_of_nonneg_left (by linarith) hu0
  exact abs_le.mpr ⟨by linarith, by linarith⟩

theorem fall_nonneg (hround : Rounds u round) (hu : u ≤ 1) (hle : level ≤ peak) (hpeak : 0 ≤ peak) :
    0 ≤ fall round peak level :=
  hround.map_nonneg hu (div_nonneg (hround.map_nonneg hu (sub_nonneg.mpr hle)) hpeak)

/-- What is left keeps the share of the fall so far below one that rounding brings it to one at most. -/
theorem fall_le_one (hround : Rounds u round) (hlevel : 0 < level) (hle : level ≤ peak) : fall round peak level ≤ 1 := by
  have hu := hround.nonneg
  have hpeak : 0 < peak := hlevel.trans_le hle
  apply hround.le_one
  rw [div_lt_iff₀ hpeak]
  have hpart := mul_le_mul_of_nonneg_left (show peak - level ≤ peak by linarith) hu
  linarith [(hround.of_nonneg (sub_nonneg.mpr hle)).2]

theorem fallsFrom_nonneg (hround : Rounds u round) (hu : u ≤ 1) (hpeak : 0 ≤ peak) (l : List K) :
    ∀ d ∈ fallsFrom round peak l, 0 ≤ d := by
  induction l generalizing peak with
  | nil => simp [fallsFrom]
  | cons a l ih =>
    have hmax : 0 ≤ max peak a := hpeak.trans (le_max_left peak a)
    rw [fallsFrom, List.forall_mem_cons]
    exact ⟨fall_nonneg hround hu (le_max_right peak a) hmax, ih hmax⟩

theorem fallsFrom_le_one (hround : Rounds u round) (hpos : ∀ a ∈ l, 0 < a) : ∀ d ∈ fallsFrom round peak l, d ≤ 1 := by
  induction l generalizing peak with
  | nil => simp [fallsFrom]
  | cons a l ih =>
    obtain ⟨ha, hl⟩ := List.forall_mem_cons.mp hpos
    rw [fallsFrom, List.forall_mem_cons]
    exact ⟨fall_le_one hround ha (le_max_right peak a), ih hl⟩

/-- Every fall is three roundings away from the loss at most, and so is the largest. -/
theorem fallsFrom_near (hround : Rounds u round) (hu : u ≤ 1 / 100) (hpos : ∀ a ∈ l, 0 < a) :
    List.Forall₂ (fun d d' => |d - d'| ≤ 3 * u) (fallsFrom round peak l) (fromPeak peak l) := by
  induction l generalizing peak with
  | nil => exact List.Forall₂.nil
  | cons a l ih =>
    obtain ⟨ha, hl⟩ := List.forall_mem_cons.mp hpos
    exact List.Forall₂.cons (fall_bounds hround hu ha.le (le_max_right peak a) (lt_max_of_lt_right ha)) (ih hl)

theorem foldr_max_near {e : K} (he : 0 ≤ e) {ds ds' : List K} (h : List.Forall₂ (fun d d' => |d - d'| ≤ e) ds ds') :
    |ds.foldr max 0 - ds'.foldr max 0| ≤ e := by
  induction h with
  | nil => simpa using he
  | cons hd _ ih => exact (abs_max_sub_max_le_max _ _ _ _).trans (max_le hd ih)

theorem exists_factors (hround : Rounds u round) (hu : u ≤ 1 / 100) (ha : 0 < a) (hpos : ∀ b ∈ l, 0 < b)
    (hlevel : 0 ≤ level) (hpeak : 0 < peak) (hworst : |worst - (1 - low)| ≤ 3 * u) :
    ∃ hs, List.Forall₂ (Exceeds (5 * u)) (growths a l) hs ∧ List.Forall₂ (Exceeds (5 * u)) hs (growths a l) ∧
      |worstFall round level peak worst a l - (1 - lowest (level / peak) low hs)| ≤ 3 * u := by
  induction l generalizing a level peak worst low with
  | nil => exact ⟨[], List.Forall₂.nil, List.Forall₂.nil, hworst⟩
  | cons b l ih =>
    have hb : 0 < b := hpos b List.mem_cons_self
    have hrest : ∀ c ∈ l, 0 < c := fun c hc => hpos c (List.mem_cons_of_mem b hc)
    obtain ⟨h, hnext, hup, hdown⟩ := exists_factor hround hu ha hb hlevel
    have hshare : keep h (level / peak) = min 1 (h * level / peak) := by rw [keep, mul_div_assoc]
    rw [worstFall, hnext]
    have hnext0 : 0 ≤ h * level := mul_nonneg hup.nonneg' hlevel
    have hpeak' : 0 < max peak (h * level) := lt_max_of_lt_left hpeak
    have hfall := fall_bounds hround hu hnext0 (le_max_right peak (h * level)) hpeak'
    rw [loss_max hpeak] at hfall
    have hworst' : |max worst (fall round (max peak (h * level)) (h * level)) -
        (1 - min low (min 1 (h * level / peak)))| ≤ 3 * u := by
      rw [← max_one_sub]
      exact (abs_max_sub_max_le_max _ _ _ _).trans (max_le hworst hfall)
    obtain ⟨hs, hgs, hhs, hrun⟩ := ih hb hrest hnext0 hpeak' hworst'
    refine ⟨h :: hs, List.Forall₂.cons hup hgs, List.Forall₂.cons hdown hhs, ?_⟩
    rw [lowest, hshare, ← div_max hpeak]
    rwa [← div_max hpeak] at hrun

omit [LinearOrder K] [IsStrictOrderedRing K] in
theorem length_growths (a : K) (l : List K) : (growths a l).length = l.length := by
  induction l generalizing a with
  | nil => rfl
  | cons b l ih => rw [growths, List.length_cons, List.length_cons, ih]

/-- The worst fall of the curve that is built again is the largest loss of the curve, up to five roundings for each of
its levels. -/
theorem abs_worstFall_sub_le (hround : Rounds u round) (hu : u ≤ 1 / 100) (ha : 0 < a) (hpos : ∀ b ∈ l, 0 < b) :
    |worstFall round 1 1 0 a l - maxDrawdown (a :: l)| ≤ 5 * u * (a :: l).length := by
  have hu0 := hround.nonneg
  have hstart : |(0 : K) - (1 - 1)| ≤ 3 * u := by
    rw [sub_self, sub_self, abs_zero]
    linarith
  obtain ⟨hs, hgs, hhs, hrun⟩ := exists_factors hround hu ha hpos zero_le_one one_pos hstart
  have hfactors := abs_lowest_sub_le (by linarith) hgs hhs
  rw [div_one] at hrun
  rw [length_growths] at hfactors
  obtain ⟨hrun1, hrun2⟩ := abs_le.mp hrun
  obtain ⟨hfactors1, hfactors2⟩ := abs_le.mp hfactors
  rw [maxDrawdown_eq_lowest ha hpos, List.length_cons, Nat.cast_succ]
  exact abs_le.mpr ⟨by linarith, by linarith⟩

end Rounding

end TradingBot.Library.Drawdown
