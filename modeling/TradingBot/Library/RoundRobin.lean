import Mathlib.Data.List.Chain
import Mathlib.Data.Nat.Basic

namespace TradingBot.Library.RoundRobin

variable {α : Type} (n : ℕ) (cursor : α → ℕ) (Visits : α → ℕ → Prop)

/-- The next round on a circle of `n` places starts behind this one, and this one visited what it leaves. -/
def Follows (a b : α) : Prop :=
  ∃ k, 0 < k ∧ (∀ d < k, Visits a ((cursor a + d) % n)) ∧ cursor b % n = (cursor a + k) % n

variable {n cursor Visits} {first : α} {rounds : List α}

theorem visits_offset (hchain : (first :: rounds).IsChain (Follows n cursor Visits))
    (hvisits : ∀ a ∈ first :: rounds, Visits a (cursor a % n)) {m : ℕ} (hm : m ≤ rounds.length) :
    ∃ a ∈ first :: rounds, Visits a ((cursor first + m) % n) := by
  induction rounds generalizing first m with
  | nil =>
    obtain rfl : m = 0 := by simpa using hm
    exact ⟨first, by simp, hvisits first (by simp)⟩
  | cons second rounds ih =>
    obtain ⟨⟨k, hk, hleft, hcursor⟩, hrest⟩ := List.isChain_cons_cons.mp hchain
    by_cases hlt : m < k
    · exact ⟨first, by simp, hleft m hlt⟩
    · rw [List.length_cons] at hm
      obtain ⟨a, ha, hvisit⟩ := ih (m := m - k) hrest (fun a ha => hvisits a (List.mem_cons_of_mem first ha))
        (by omega)
      have hplace : (cursor second + (m - k)) % n = (cursor first + m) % n := by
        rw [Nat.add_mod, hcursor, ← Nat.add_mod]
        congr 1
        omega
      rw [hplace] at hvisit
      exact ⟨a, List.mem_cons_of_mem first ha, hvisit⟩

theorem visits_all (hchain : rounds.IsChain (Follows n cursor Visits))
    (hvisits : ∀ a ∈ rounds, Visits a (cursor a % n)) (hlength : n ≤ rounds.length) {place : ℕ}
    (hplace : place < n) : ∃ a ∈ rounds, Visits a place := by
  cases rounds with
  | nil =>
    rw [List.length_nil] at hlength
    omega
  | cons first rounds =>
    rw [List.length_cons] at hlength
    have hmod : cursor first % n < n := Nat.mod_lt _ (by omega)
    have hlast := Nat.mod_lt (place + (n - cursor first % n)) (show 0 < n by omega)
    have hoffset : (cursor first + (place + (n - cursor first % n)) % n) % n = place := by
      have hsum : cursor first % n + (place + (n - cursor first % n)) = place + n := by omega
      rw [Nat.add_mod_mod, ← Nat.mod_add_mod, hsum, Nat.add_mod_right, Nat.mod_eq_of_lt hplace]
    have hle : (place + (n - cursor first % n)) % n ≤ rounds.length := by omega
    obtain ⟨a, ha, hvisit⟩ := visits_offset hchain hvisits hle
    rw [hoffset] at hvisit
    exact ⟨a, ha, hvisit⟩

end TradingBot.Library.RoundRobin
