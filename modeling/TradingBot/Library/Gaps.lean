import Mathlib.Data.Int.Range
import Mathlib.Data.List.Basic
import Mathlib.Order.Interval.Set.Defs

namespace TradingBot.Library.Gaps

variable {a b m : ℤ} {l : List ℤ}

theorem range_nil (h : b ≤ a) : Int.range a b = [] := by
  unfold Int.range
  rw [Int.toNat_eq_zero.mpr (by omega)]
  rfl

theorem range_cons (h : a < b) : Int.range a b = a :: Int.range (a + 1) b := by
  have hlength : (b - a).toNat = (b - (a + 1)).toNat + 1 := by omega
  unfold Int.range
  rw [hlength, List.range_succ_eq_map, List.map_cons, List.map_map]
  congr 1
  · simp
  · refine List.map_congr_left fun n _ => ?_
    simp only [Function.comp_apply, Nat.succ_eq_add_one, Int.natCast_add, Int.natCast_one]
    omega

theorem pairwise_range (a b : ℤ) : (Int.range a b).Pairwise (· < ·) := by
  unfold Int.range
  rw [List.pairwise_map]
  exact List.pairwise_lt_range.imp fun h => by omega

/-- The integers between one element of a list and the next. -/
def between : List ℤ → List ℤ
  | a :: b :: rest => Int.range (a + 1) b ++ between (b :: rest)
  | _ => []

theorem mem_between (hsorted : l.Pairwise (· ≤ ·)) :
    m ∈ between l ↔ m ∉ l ∧ (∃ a ∈ l, a < m) ∧ ∃ b ∈ l, m < b := by
  fun_induction between l with
  | case1 a b rest ih =>
    obtain ⟨hfirst, hrest⟩ := List.pairwise_cons.mp hsorted
    obtain ⟨hsecond, _⟩ := List.pairwise_cons.mp hrest
    have hab : a ≤ b := hfirst b List.mem_cons_self
    have hle : ∀ x ∈ b :: rest, b ≤ x := List.forall_mem_cons.mpr ⟨le_rfl, hsecond⟩
    rw [List.mem_append, Int.mem_range_iff, ih hrest]
    constructor
    · rintro (⟨hlow, hhigh⟩ | ⟨hnot, ⟨x, hx, hxm⟩, y, hy, hmy⟩)
      · refine ⟨fun hm => ?_, ⟨a, List.mem_cons_self, by omega⟩, b, by simp, hhigh⟩
        rcases List.mem_cons.mp hm with rfl | hm
        · omega
        · exact absurd (hle m hm) (by omega)
      · refine ⟨fun hm => ?_, ⟨x, List.mem_cons_of_mem a hx, hxm⟩, y, List.mem_cons_of_mem a hy, hmy⟩
        rcases List.mem_cons.mp hm with rfl | hm
        · exact absurd (hle x hx) (by omega)
        · exact hnot hm
    · rintro ⟨hnot, ⟨x, hx, hxm⟩, y, hy, hmy⟩
      have ham : a < m := by
        rcases List.mem_cons.mp hx with rfl | hx
        · exact hxm
        · exact (hfirst x hx).trans_lt hxm
      have hlast : ∃ y ∈ b :: rest, m < y := by
        rcases List.mem_cons.mp hy with rfl | hy
        · exact absurd ham (by omega)
        · exact ⟨y, hy, hmy⟩
      by_cases hmb : m < b
      · exact .inl ⟨by omega, hmb⟩
      · have hbm : b ≠ m := fun h => hnot (by simp [h])
        exact .inr ⟨fun hm => hnot (List.mem_cons_of_mem a hm), ⟨b, List.mem_cons_self, by omega⟩, hlast⟩
  | case2 l hshort =>
    rcases l with _ | ⟨a, _ | ⟨b, rest⟩⟩
    · simp
    · simp only [List.not_mem_nil, List.mem_singleton, exists_eq_left, false_iff, not_and, not_lt]
      omega
    · exact absurd rfl (hshort a b rest)

theorem pairwise_between (hsorted : l.Pairwise (· ≤ ·)) : (between l).Pairwise (· < ·) := by
  fun_induction between l with
  | case1 a b rest ih =>
    obtain ⟨_, hrest⟩ := List.pairwise_cons.mp hsorted
    obtain ⟨hsecond, _⟩ := List.pairwise_cons.mp hrest
    refine List.pairwise_append.mpr ⟨pairwise_range _ _, ih hrest, fun x hx y hy => ?_⟩
    obtain ⟨_, hxb⟩ := Int.mem_range_iff.mp hx
    obtain ⟨_, ⟨z, hz, hzy⟩, _⟩ := (mem_between hrest).mp hy
    have hbz : b ≤ z := (List.forall_mem_cons.mpr ⟨le_rfl, hsecond⟩ : ∀ z ∈ b :: rest, b ≤ z) z hz
    omega
  | case2 l hshort => exact List.Pairwise.nil

variable {last stop : ℤ}

theorem mem_between_append (hsorted : l.Pairwise (· ≤ ·)) (hlast : last ∈ l) (hmax : ∀ b ∈ l, b ≤ last) :
    m ∈ between l ++ Int.range (last + 1) stop ↔ (∃ a ∈ l, a < m) ∧ (m < stop ∨ ∃ b ∈ l, m < b) ∧ m ∉ l := by
  rw [List.mem_append, mem_between hsorted, Int.mem_range_iff]
  constructor
  · rintro (⟨hnot, hlow, hhigh⟩ | ⟨hlow, hhigh⟩)
    · exact ⟨hlow, .inr hhigh, hnot⟩
    · exact ⟨⟨last, hlast, by omega⟩, .inl hhigh, fun hm => absurd (hmax m hm) (by omega)⟩
  · rintro ⟨hlow, hhigh, hnot⟩
    by_cases hlater : ∃ b ∈ l, m < b
    · exact .inl ⟨hnot, hlow, hlater⟩
    · have hle : last ≤ m := not_lt.mp fun h => hlater ⟨last, hlast, h⟩
      have hne : last ≠ m := fun h => hnot (h ▸ hlast)
      exact .inr ⟨by omega, hhigh.resolve_right hlater⟩

theorem pairwise_between_append (hsorted : l.Pairwise (· ≤ ·)) (hmax : ∀ b ∈ l, b ≤ last) :
    (between l ++ Int.range (last + 1) stop).Pairwise (· < ·) := by
  refine List.pairwise_append.mpr ⟨pairwise_between hsorted, pairwise_range _ _, fun x hx y hy => ?_⟩
  obtain ⟨_, _, b, hb, hxb⟩ := (mem_between hsorted).mp hx
  have hle := hmax b hb
  have hy := (Int.mem_range_iff.mp hy).1
  omega

section Neighbours

variable {α : Type} {r : α → α → Prop} {l : List α} {a b : α}

/-- Two elements of an ordered list are next to each other exactly if no third one is between them. -/
theorem mem_zip_tail (hasymm : ∀ a b, r a b → ¬ r b a) (hsorted : l.Pairwise r) :
    (a, b) ∈ l.zip l.tail ↔ a ∈ l ∧ b ∈ l ∧ r a b ∧ ∀ c ∈ l, r a c → ¬ r c b := by
  induction l with
  | nil => simp
  | cons x l ih =>
    obtain ⟨hfirst, hrest⟩ := List.pairwise_cons.mp hsorted
    cases l with
    | nil =>
      simp only [List.tail_cons, List.zip_nil_right, List.not_mem_nil, List.mem_singleton, false_iff]
      rintro ⟨rfl, rfl, hself, _⟩
      exact hasymm _ _ hself hself
    | cons y rest =>
      obtain ⟨hsecond, _⟩ := List.pairwise_cons.mp hrest
      have hxy := hfirst y List.mem_cons_self
      rw [List.tail_cons, List.zip_cons_cons, List.mem_cons, Prod.mk.injEq]
      rw [List.tail_cons] at ih
      rw [ih hrest]
      constructor
      · intro h
        cases h with
        | inl hpair =>
          obtain ⟨rfl, rfl⟩ := hpair
          refine ⟨List.mem_cons_self, List.mem_cons_of_mem _ List.mem_cons_self, hxy, ?_⟩
          intro c hc hac hcb
          cases List.mem_cons.mp hc with
          | inl heq => exact hasymm a c hac (by rwa [heq] at hac ⊢)
          | inr hmem =>
            cases List.mem_cons.mp hmem with
            | inl heq => exact hasymm c b hcb (by rwa [heq] at hcb ⊢)
            | inr hlater => exact hasymm c b hcb (hsecond c hlater)
        | inr h =>
          obtain ⟨ha, hb, hab, hnone⟩ := h
          refine ⟨List.mem_cons_of_mem x ha, List.mem_cons_of_mem x hb, hab, ?_⟩
          intro c hc hac
          cases List.mem_cons.mp hc with
          | inl heq => exact absurd (heq ▸ hfirst a ha) (hasymm a c hac)
          | inr hmem => exact hnone c hmem hac
      · rintro ⟨ha, hb, hab, hnone⟩
        have hbx : b ≠ x := by
          rintro rfl
          cases List.mem_cons.mp ha with
          | inl heq => exact hasymm a b hab (by rwa [heq] at hab ⊢)
          | inr hmem => exact hasymm a b hab (hfirst a hmem)
        have hbl := (List.mem_cons.mp hb).resolve_left hbx
        cases List.mem_cons.mp ha with
        | inl heq =>
          cases List.mem_cons.mp hbl with
          | inl hby => exact .inl ⟨heq, hby⟩
          | inr hlater => exact absurd (hsecond b hlater) (hnone y (by simp) (heq ▸ hxy))
        | inr hmem => exact .inr ⟨hmem, hbl, hab, fun c hc => hnone c (List.mem_cons_of_mem x hc)⟩

end Neighbours

end TradingBot.Library.Gaps
