import Mathlib.Data.List.Induction
import TradingBot.Library.Dictionary

namespace TradingBot.Library.OverlayLog

open Dictionary

variable {κ α : Type} [DecidableEq κ] {key : α → κ} {k : κ} {a : α} {log : List α}

def newest (key : α → κ) (k : κ) (log : List α) : Option α := (log.filter fun a => key a = k).getLast?

/-- The newest entry of every key, in the order in which the keys first appear. -/
def byKey (key : α → κ) (log : List α) : Dict κ α := log.foldl (fun d a => d.set (key a) a) {}

theorem newest_append : newest key k (log ++ [a]) = if key a = k then some a else newest key k log := by
  by_cases h : key a = k
  · simp [newest, h]
  · simp [newest, h]

theorem newest_mem (h : newest key k log = some a) : a ∈ log ∧ key a = k := by
  have hmem := List.mem_of_getLast? h
  simpa using hmem

theorem newest_isSome_iff : (newest key k log).isSome ↔ ∃ a ∈ log, key a = k := by
  rw [newest, List.getLast?_isSome, ne_eq, List.filter_eq_nil_iff]
  simp

theorem newest_map {f : α → α} (hf : ∀ a, key (f a) = key a) :
    newest key k (log.map f) = (newest key k log).map f := by
  rw [newest, newest, List.filter_map, List.getLast?_map]
  simp only [Function.comp_def, hf]

theorem byKey_append : byKey key (log ++ [a]) = (byKey key log).set (key a) a := by
  rw [byKey, List.foldl_append]
  rfl

theorem byKey_get? : (byKey key log).get? k = newest key k log := by
  induction log using List.reverseRecOn with
  | nil => rfl
  | append_singleton log a ih =>
    rw [byKey_append, newest_append]
    by_cases h : key a = k
    · rw [if_pos h, h, Dict.get?_set_self]
    · rw [if_neg h, Dict.get?_set_of_ne (Ne.symm h), ih]

theorem byKey_values_iff : a ∈ (byKey key log).values ↔ newest key (key a) log = some a := by
  constructor
  · intro h
    obtain ⟨k, hk⟩ := Dict.mem_values_iff.mp h
    rw [byKey_get?] at hk
    rw [(newest_mem hk).2, hk]
  · intro h
    exact Dict.mem_values_iff.mpr ⟨key a, byKey_get?.trans h⟩

/-- The view of an entry whose key may be marked. -/
def overlay (key : α → κ) (marked : κ → Bool) (mark : α → α) (a : α) : α :=
  if marked (key a) then mark a else a

section Overlay

variable {marked : κ → Bool} {mark : α → α}

omit [DecidableEq κ] in
theorem overlay_of_marked (h : marked (key a) = true) : overlay key marked mark a = mark a := if_pos h

omit [DecidableEq κ] in
theorem key_overlay (key : α → κ) (hmark : ∀ a, key (mark a) = key a) (a : α) :
    key (overlay key marked mark a) = key a := by
  unfold overlay
  split_ifs
  · exact hmark a
  · rfl

end Overlay

structure Store (κ α : Type) where
  log : List α
  marked : κ → Bool

/-- What a program may do that appends to the log and marks keys of it: it takes nothing back. -/
structure Store.Extends (key : α → κ) (s t : Store κ α) : Prop where
  log : s.log <+: t.log
  kept : ∀ k, s.marked k = true → t.marked k = true
  logged : ∀ k, t.marked k = true → s.marked k = true ∨ ∃ a ∈ t.log, key a = k

def Store.WellMarked (key : α → κ) (s : Store κ α) : Prop := ∀ k, s.marked k = true → ∃ a ∈ s.log, key a = k

namespace Store

variable {s t u : Store κ α} {marked : κ → Bool}

omit [DecidableEq κ] in
theorem Extends.refl (s : Store κ α) : s.Extends key s :=
  ⟨List.prefix_refl _, fun _ h => h, fun _ h => .inl h⟩

omit [DecidableEq κ] in
theorem Extends.trans (hst : s.Extends key t) (htu : t.Extends key u) : s.Extends key u where
  log := hst.log.trans htu.log
  kept k h := htu.kept k (hst.kept k h)
  logged k h := by
    rcases htu.logged k h with ht | hu
    · rcases hst.logged k ht with hs | ⟨a, ha, hkey⟩
      · exact .inl hs
      · exact .inr ⟨a, htu.log.subset ha, hkey⟩
    · exact .inr hu

omit [DecidableEq κ] in
theorem extends_append (log : List α) (marked : κ → Bool) (as : List α) :
    Extends key ⟨log, marked⟩ ⟨log ++ as, marked⟩ :=
  ⟨List.prefix_append _ _, fun _ h => h, fun _ h => .inl h⟩

theorem extends_mark {marked' : κ → Bool} (hlogged : ∃ a ∈ log, key a = k)
    (hmarked : ∀ k', marked' k' = (k' = k || marked k')) : Extends key ⟨log, marked⟩ ⟨log, marked'⟩ where
  log := List.prefix_refl _
  kept k' h := (hmarked k').trans (by rw [show marked k' = true from h, Bool.or_true])
  logged k' h := by
    have h' := (hmarked k').symm.trans h
    rw [Bool.or_eq_true, decide_eq_true_eq] at h'
    rcases h' with rfl | h'
    · exact .inr hlogged
    · exact .inl h'

omit [DecidableEq κ] in
theorem wellMarked_of_unmarked (h : ∀ k, s.marked k = false) : s.WellMarked key := by
  intro k hk
  rw [h k] at hk
  cases hk

omit [DecidableEq κ] in
theorem WellMarked.extends (hs : s.WellMarked key) (h : s.Extends key t) : t.WellMarked key := by
  intro k hk
  rcases h.logged k hk with hmarked | hlogged
  · obtain ⟨a, ha, hkey⟩ := hs k hmarked
    exact ⟨a, h.log.subset ha, hkey⟩
  · exact hlogged

omit [DecidableEq κ] in
theorem extends_foldl {σ ι : Type} (store : σ → Store κ α) {step : σ → ι → σ}
    (hstep : ∀ x i, (store x).Extends key (store (step x i))) (x : σ) (is : List ι) :
    (store x).Extends key (store (is.foldl step x)) := by
  induction is generalizing x with
  | nil => exact Extends.refl _
  | cons i is ih => exact (hstep x i).trans (ih _)

end Store

end TradingBot.Library.OverlayLog
