import Mathlib.Data.List.Induction

namespace TradingBot.Library.Trace

variable {σ ι : Type} (step : σ → ι → Option σ)

/-- The state after the events, if each of them can happen in its turn. -/
def run (s : σ) (es : List ι) : Option σ := es.foldlM step s

/-- A state on the way of a run, its ends included. -/
def Reached (s : σ) (es : List ι) (t : σ) : Prop := ∃ done, done <+: es ∧ run step s done = some t

def Taken (s : σ) (es : List ι) (t : σ) (e : ι) (u : σ) : Prop :=
  ∃ done, done ++ [e] <+: es ∧ run step s done = some t ∧ step t e = some u

/-- Two states on the way of a run, in their order. -/
def Before (s : σ) (es : List ι) (t u : σ) : Prop :=
  ∃ done later, done ++ later <+: es ∧ run step s done = some t ∧ run step t later = some u

variable {step} {s t u : σ} {es : List ι} {e : ι}

theorem run_append {fs : List ι} : run step s (es ++ fs) = (run step s es).bind (run step · fs) := by
  rw [run, List.foldlM_append]
  rfl

theorem run_concat : run step s (es ++ [e]) = (run step s es).bind (step · e) := by
  rw [run, List.foldlM_append]
  cases h : es.foldlM step s with
  | none => simp [run, h]
  | some t => simp [run, h]

theorem reached_start : Reached step s es s := ⟨[], List.nil_prefix, rfl⟩

theorem Taken.reached (h : Taken step s es t e u) : Reached step s es t ∧ Reached step s es u := by
  obtain ⟨done, hdone, hrun, hstep⟩ := h
  refine ⟨⟨done, (List.prefix_append _ _).trans hdone, hrun⟩, done ++ [e], hdone, ?_⟩
  rw [run_concat, hrun]
  exact hstep

theorem Taken.index (h : Taken step s es t e u) : ∃ n, n < es.length ∧ run step s (es.take n) = some t := by
  obtain ⟨done, hdone, hrun, -⟩ := h
  refine ⟨done.length, ?_, ?_⟩
  · have hle := hdone.length_le
    rw [List.length_append, List.length_singleton] at hle
    omega
  · rwa [← List.prefix_iff_eq_take.mp ((List.prefix_append _ _).trans hdone)]

theorem reached_induction {inv : σ → Prop} (hstart : inv s)
    (hstep : ∀ t e u, inv t → Taken step s es t e u → inv u) (h : Reached step s es t) : inv t := by
  obtain ⟨done, hdone, hrun⟩ := h
  induction done using List.reverseRecOn generalizing t with
  | nil =>
    cases hrun
    exact hstart
  | append_singleton done e ih =>
    rw [run_concat] at hrun
    obtain ⟨u, hu, htu⟩ := Option.bind_eq_some_iff.mp hrun
    exact hstep u e t (ih ((List.prefix_append _ _).trans hdone) hu) ⟨done, hdone, hu, htu⟩

theorem before_induction {p : σ → Prop} (hstart : p t) (hstep : ∀ t e u, p t → Taken step s es t e u → p u)
    (h : Before step s es t u) : p u := by
  obtain ⟨done, later, hdone, hrun, hlater⟩ := h
  induction later using List.reverseRecOn generalizing u with
  | nil =>
    cases hlater
    exact hstart
  | append_singleton later e ih =>
    rw [run_concat] at hlater
    obtain ⟨v, hv, hvu⟩ := Option.bind_eq_some_iff.mp hlater
    rw [← List.append_assoc] at hdone
    refine hstep v e u (ih ((List.prefix_append _ _).trans hdone) hv) ⟨done ++ later, hdone, ?_, hvu⟩
    unfold run at *
    rw [List.foldlM_append, hrun]
    exact hv

/-- A run all of whose steps meet a condition is the same as a run all of whose states are good, if the
condition says of a step from a state under the invariant whether it leads to a good state. -/
theorem forall_taken_iff_forall_reached {inv good : σ → Prop} {clean : σ → ι → Prop} (hstart : inv s)
    (hkeeps : ∀ t e u, inv t → clean t e → step t e = some u → inv u) (hgood : ∀ t, inv t → good t)
    (hdefect : ∀ t e u, inv t → ¬clean t e → step t e = some u → ¬good u) :
    (∀ t e u, Taken step s es t e u → clean t e) ↔ ∀ t, Reached step s es t → good t := by
  constructor
  · intro hclean t ht
    refine hgood t (reached_induction hstart (fun t e u hinv htaken => ?_) ht)
    exact hkeeps t e u hinv (hclean t e u htaken) htaken.choose_spec.2.2
  · intro hall t e u htaken
    have hstep : ∀ t e u, inv t → Taken step s es t e u → clean t e ∧ step t e = some u := by
      intro t e u hinv htaken
      obtain ⟨done, hdone, hrun, hstep⟩ := id htaken
      refine ⟨?_, hstep⟩
      by_contra hnot
      exact hdefect t e u hinv hnot hstep (hall u htaken.reached.2)
    have hinv : inv t := by
      refine reached_induction hstart (fun t e u hinv htaken => ?_) htaken.reached.1
      obtain ⟨hclean, hstep⟩ := hstep t e u hinv htaken
      exact hkeeps t e u hinv hclean hstep
    exact (hstep t e u hinv htaken).1

end TradingBot.Library.Trace
