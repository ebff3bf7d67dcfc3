import Mathlib.Data.List.Basic
import Mathlib.Data.List.Induction

namespace TradingBot.Library.FirstWrites

structure Log (σ τ κ α : Type) where
  step : σ → τ → σ
  key : σ → τ → Option κ
  view : σ → α
  rows : σ → List (κ × α)
  captures : ∀ {s : σ} {t : τ} {k : κ}, key s t = some k →
    (rows (step s t) = rows s ∧ ∃ row ∈ rows s, row.1 = k) ∨ rows (step s t) = rows s ++ [(k, view (step s t))]
  idles : ∀ {s : σ} {t : τ}, key s t = none → rows (step s t) = rows s

namespace Log

variable {σ τ κ α : Type} (log : Log σ τ κ α)

def run (s : σ) (steps : List τ) : σ := steps.foldl log.step s

/-- After its capture a key has a row, and its rows have the view of the state. -/
def Current (s : σ) (k : κ) : Prop :=
  (∃ row ∈ log.rows s, row.1 = k) ∧ ∀ row ∈ log.rows s, row.1 = k → row.2 = log.view s

def CapturesAt (start : σ) (past : List τ) (t : τ) (k : κ) : Prop := log.key (log.run start past) t = some k

variable {start : σ} {past : List τ} {t : τ} {k : κ}

theorem run_append (s : σ) (past rest : List τ) : log.run s (past ++ rest) = log.run (log.run s past) rest := by
  simp [run]

theorem run_concat (s : σ) (past : List τ) (t : τ) : log.run s (past ++ [t]) = log.step (log.run s past) t := by
  simp [run]

theorem rows_step (s : σ) (t : τ) : log.rows s ⊆ log.rows (log.step s t) := by
  intro row hrow
  cases hkey : log.key s t with
  | none =>
    rw [log.idles hkey]
    exact hrow
  | some k =>
    cases log.captures hkey with
    | inl hkept =>
      rw [hkept.1]
      exact hrow
    | inr hadded =>
      rw [hadded]
      exact List.mem_append_left _ hrow

theorem rows_run (s : σ) (steps : List τ) : log.rows s ⊆ log.rows (log.run s steps) := by
  induction steps generalizing s with
  | nil => exact List.Subset.refl _
  | cons t steps ih => exact List.Subset.trans (log.rows_step s t) (ih (log.step s t))

theorem row_captured (hstart : log.rows start = []) (steps : List τ) {row : κ × α}
    (hrow : row ∈ log.rows (log.run start steps)) : ∃ past t rest, steps = past ++ t :: rest ∧
      log.CapturesAt start past t row.1 ∧ row.2 = log.view (log.run start (past ++ [t])) := by
  induction steps using List.reverseRecOn with
  | nil =>
    have hnone : row ∈ log.rows start := hrow
    rw [hstart] at hnone
    cases hnone
  | append_singleton steps t ih =>
    rw [run_concat] at hrow
    have hold : row ∈ log.rows (log.run start steps) → ∃ past t' rest, steps ++ [t] = past ++ t' :: rest ∧
        log.CapturesAt start past t' row.1 ∧ row.2 = log.view (log.run start (past ++ [t'])) := by
      intro hmem
      obtain ⟨past, t', rest, hsteps, hcaptured⟩ := ih hmem
      exact ⟨past, t', rest ++ [t], by simp [hsteps], hcaptured⟩
    cases hkey : log.key (log.run start steps) t with
    | none =>
      rw [log.idles hkey] at hrow
      exact hold hrow
    | some k =>
      cases log.captures hkey with
      | inl hkept =>
        rw [hkept.1] at hrow
        exact hold hrow
      | inr hadded =>
        rw [hadded, List.mem_append, List.mem_singleton] at hrow
        cases hrow with
        | inl hmem => exact hold hmem
        | inr heq =>
          subst heq
          exact ⟨steps, t, [], rfl, hkey, by rw [run_concat]⟩

theorem row_of_captured (h : log.CapturesAt start past t k) :
    ∃ row ∈ log.rows (log.run start (past ++ [t])), row.1 = k := by
  rw [run_concat]
  cases log.captures h with
  | inl hkept =>
    rw [hkept.1]
    exact hkept.2
  | inr hadded =>
    rw [hadded]
    exact ⟨_, List.mem_append_right _ (List.mem_singleton.mpr rfl), rfl⟩

/-- Every capture leaves its key current just when two captures of a key never see different views. -/
theorem current_iff (hstart : log.rows start = []) (steps : List τ) :
    (∀ past t rest k, steps = past ++ t :: rest → log.CapturesAt start past t k →
      log.Current (log.run start (past ++ [t])) k) ↔
    ∀ past t between t' rest k, steps = past ++ t :: between ++ t' :: rest → log.CapturesAt start past t k →
      log.CapturesAt start (past ++ t :: between) t' k →
      log.view (log.run start (past ++ [t])) = log.view (log.run start (past ++ t :: between ++ [t'])) := by
  constructor
  · intro hcurrent past t between t' rest k hsteps hfirst hsecond
    obtain ⟨⟨row, hrow, hkey⟩, hviews⟩ :=
      hcurrent past t (between ++ t' :: rest) k (by simp [hsteps]) hfirst
    -- the row of the first capture is still there after the second
    have hkept : row ∈ log.rows (log.run start (past ++ t :: between ++ [t'])) := by
      have happend : past ++ t :: between ++ [t'] = (past ++ [t]) ++ (between ++ [t']) := by simp
      rw [happend, run_append]
      exact log.rows_run _ _ hrow
    have hlater := (hcurrent (past ++ t :: between) t' rest k hsteps hsecond).2 row hkept hkey
    rw [← hviews row hrow hkey, hlater]
  · intro hviews past t rest k hsteps hcaptured
    refine ⟨log.row_of_captured hcaptured, ?_⟩
    intro row hrow hkey
    obtain ⟨first, t₀, after, hsplit, hfirst, hview⟩ := log.row_captured hstart _ hrow
    rw [hkey] at hfirst
    rw [hview]
    cases List.eq_nil_or_concat after with
    | inl hnil => rw [hsplit, hnil]
    | inr hlater =>
      obtain ⟨between, t₁, rfl⟩ := hlater
      have hends : past ++ [t] = first ++ t₀ :: between ++ [t₁] := by simp [hsplit]
      obtain ⟨rfl, hlast⟩ := List.append_inj' hends rfl
      cases hlast
      exact hviews first t₀ between t rest k hsteps hfirst hcaptured

end Log

end TradingBot.Library.FirstWrites
