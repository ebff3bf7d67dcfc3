import Mathlib.Data.Int.Order.Basic
import Mathlib.Order.Interval.Set.Basic
import Mathlib.Tactic.Linarith
import Mathlib.Tactic.Ring
import Mathlib.Algebra.BigOperators.Group.List.Basic
import Mathlib.Tactic.Abel

namespace TradingBot.Library.Tiling

section Windows

variable {α : Type} [LinearOrder α]

/-- Windows that follow each other without a gap, from `a` up to before `b`; each of them has a point. -/
inductive Tiles : α → α → List (α × α) → Prop
  | nil (a : α) : Tiles a a []
  | cons {a b c : α} {windows : List (α × α)} (hlt : a < b) (h : Tiles b c windows) : Tiles a c ((a, b) :: windows)

variable {a b : α} {windows : List (α × α)}

theorem Tiles.le (h : Tiles a b windows) : a ≤ b := by
  induction h with
  | nil a => exact le_rfl
  | cons hlt _ ih => exact hlt.le.trans ih

theorem Tiles.within (h : Tiles a b windows) : ∀ w ∈ windows, a ≤ w.1 ∧ w.1 < w.2 ∧ w.2 ≤ b := by
  induction h with
  | nil a => simp
  | cons hlt h ih =>
    intro w hw
    cases hw with
    | head => exact ⟨le_rfl, hlt, h.le⟩
    | tail _ hw =>
      obtain ⟨hlow, hpoint, hhigh⟩ := ih w hw
      exact ⟨hlt.le.trans hlow, hpoint, hhigh⟩

theorem Tiles.exists_last (h : Tiles a b windows) (hne : windows ≠ []) : ∃ w ∈ windows, w.2 = b := by
  induction h with
  | nil a => exact absurd rfl hne
  | @cons a b c windows hlt h ih =>
    cases h with
    | nil => exact ⟨(a, b), List.mem_cons_self, rfl⟩
    | cons hlt' h' =>
      obtain ⟨w, hw, hlast⟩ := ih (List.cons_ne_nil _ _)
      exact ⟨w, List.mem_cons_of_mem _ hw, hlast⟩

theorem Tiles.ordered (h : Tiles a b windows) : windows.Pairwise fun v w => v.2 ≤ w.1 := by
  induction h with
  | nil a => exact List.Pairwise.nil
  | cons _ h ih => exact List.Pairwise.cons (fun w hw => (h.within w hw).1) ih

theorem Tiles.existsUnique (h : Tiles a b windows) {x : α} (hx : x ∈ Set.Ico a b) :
    ∃! w, w ∈ windows ∧ x ∈ Set.Ico w.1 w.2 := by
  induction h with
  | nil a => exact absurd hx.2 (not_lt.mpr hx.1)
  | @cons a b c windows hlt h ih =>
    by_cases hfirst : x < b
    · refine ⟨(a, b), ⟨List.mem_cons_self, hx.1, hfirst⟩, ?_⟩
      rintro w ⟨hw, hxw⟩
      cases hw with
      | head => rfl
      | tail _ hw => exact absurd hfirst (not_lt.mpr ((h.within w hw).1.trans hxw.1))
    · obtain ⟨w, ⟨hw, hxw⟩, hunique⟩ := ih ⟨not_lt.mp hfirst, hx.2⟩
      refine ⟨w, ⟨List.mem_cons_of_mem _ hw, hxw⟩, ?_⟩
      rintro v ⟨hv, hxv⟩
      cases hv with
      | head => exact absurd hxv.2 hfirst
      | tail _ hv => exact hunique v ⟨hv, hxv⟩

end Windows

section Shares

/-- Where the `i`th of `n` shares of a total starts, when the first shares take the remainder. -/
def cut (total n : ℤ) (i : ℕ) : ℤ := total / n * i + min (i : ℤ) (total % n)

variable {total n : ℤ}

theorem cut_zero (hn : 0 < n) : cut total n 0 = 0 := by
  have hrem := Int.emod_nonneg total hn.ne'
  simp [cut, hrem]

theorem cut_succ (i : ℕ) : cut total n (i + 1) = cut total n i + (total / n + if i < total % n then 1 else 0) := by
  unfold cut
  push_cast
  rw [mul_add, mul_one]
  split_ifs
  all_goals omega

theorem cut_all (hn : 0 < n) : cut total n n.toNat = total := by
  have hrem := Int.emod_lt_of_pos total hn
  have hdiv := Int.mul_ediv_add_emod total n
  unfold cut
  rw [Int.toNat_of_nonneg hn.le, min_eq_right hrem.le, mul_comm]
  exact hdiv

end Shares

end TradingBot.Library.Tiling

namespace TradingBot.Library.Increments

variable {α τ : Type} [AddCommGroup α]

def increments (initial : α) : List α → List α
  | [] => []
  | level :: levels => (level - initial) :: increments level levels

theorem length_increments (initial : α) (levels : List α) : (increments initial levels).length = levels.length := by
  induction levels generalizing initial with
  | nil => rfl
  | cons level levels ih => simp [increments, ih]

theorem sum_increments (initial : α) (levels : List α) :
    (increments initial levels).sum = levels.getLastD initial - initial := by
  induction levels generalizing initial with
  | nil => simp [increments]
  | cons level levels ih =>
    rw [increments, List.sum_cons, ih, List.getLastD_cons]
    abel

variable (inWindow inOther : τ → Bool)

def gainOn (dates : List τ) (initial : α) (levels : List α) : α :=
  ((dates.zip (increments initial levels)).map fun p => if inWindow p.1 then p.2 else 0).sum

variable {inWindow inOther}

theorem sum_split {gains : List (τ × α)} (h : ∀ p ∈ gains, inWindow p.1 = !inOther p.1) :
    (gains.map fun p => if inWindow p.1 then p.2 else 0).sum + (gains.map fun p => if inOther p.1 then p.2 else 0).sum =
      (gains.map Prod.snd).sum := by
  induction gains with
  | nil => simp
  | cons p gains ih =>
    obtain ⟨hp, hgains⟩ := List.forall_mem_cons.mp h
    simp only [List.map_cons, List.sum_cons]
    rw [← ih hgains, hp]
    cases inOther p.1 with
    | true => simp; abel
    | false => simp; abel

theorem gainOn_split {dates : List τ} {initial : α} {levels : List α} (hlength : dates.length = levels.length)
    (h : ∀ t ∈ dates, inWindow t = !inOther t) :
    gainOn inWindow dates initial levels + gainOn inOther dates initial levels = levels.getLastD initial - initial := by
  unfold gainOn
  have hgains : ∀ p ∈ dates.zip (increments initial levels), inWindow p.1 = !inOther p.1 :=
    fun p hp => h p.1 (List.of_mem_zip hp).1
  rw [sum_split hgains, List.map_snd_zip (by rw [length_increments, hlength]), sum_increments]

end TradingBot.Library.Increments
