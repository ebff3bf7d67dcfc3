import Mathlib.Data.Nat.Basic

namespace TradingBot.Library.WhileLoops

variable {σ ρ : Type}

/-- A loop by its turn, which goes on with a state or leaves with a result, and a measure that every turn that
goes on makes smaller. -/
structure WhileLoop (σ ρ : Type) where
  turn : σ → σ ⊕ ρ
  measure : σ → ℕ
  decreases : ∀ s s', turn s = .inl s' → measure s' < measure s

def turns (turn : σ → σ ⊕ ρ) : ℕ → σ → Option ρ
  | 0, _ => none
  | n + 1, s =>
    match turn s with
    | .inl s' => turns turn n s'
    | .inr r => some r

variable (loop : WhileLoop σ ρ)

theorem WhileLoop.turns_isSome {n : ℕ} {s : σ} (h : loop.measure s < n) : (turns loop.turn n s).isSome := by
  induction n generalizing s with
  | zero => omega
  | succ n ih =>
    rw [turns]
    cases hturn : loop.turn s with
    | inl s' =>
      have hless := loop.decreases s s' hturn
      exact ih (by omega)
    | inr r => rfl

def WhileLoop.run (s : σ) : ρ :=
  (turns loop.turn (loop.measure s + 1) s).get (loop.turns_isSome (Nat.lt_succ_self _))

theorem WhileLoop.terminates (s : σ) : ∃ n, turns loop.turn n s = some (loop.run s) :=
  ⟨_, (Option.some_get _).symm⟩

variable {loop} {inv : σ → Prop} {p : Prop} {r : ρ}

theorem WhileLoop.run_induction (hturn : ∀ s s', inv s → loop.turn s = .inl s' → inv s')
    (hleave : ∀ s, inv s → loop.turn s = .inr r → p) {s : σ} (hs : inv s) (h : loop.run s = r) : p := by
  obtain ⟨n, hrun⟩ := loop.terminates s
  rw [h] at hrun
  clear h
  induction n generalizing s with
  | zero => cases hrun
  | succ n ih =>
    rw [turns] at hrun
    cases hs' : loop.turn s with
    | inl s' =>
      rw [hs'] at hrun
      exact ih (hturn s s' hs hs') hrun
    | inr r' =>
      rw [hs'] at hrun
      cases hrun
      exact hleave s hs hs'

end TradingBot.Library.WhileLoops
