import Mathlib.Data.List.Forall2
import Mathlib.Data.List.Sort
import Mathlib.Data.List.TakeWhile

namespace TradingBot.Library.Runs

variable {α β : Type}

section Related

variable {R : α → β → Prop} {l : List α} {l' : List β}

theorem exists_related (h : List.Forall₂ R l l') {a : α} (ha : a ∈ l) : ∃ b ∈ l', R a b := by
  induction h with
  | nil => cases ha
  | @cons c d l l' hcd _ ih =>
    cases List.mem_cons.mp ha with
    | inl heq => exact ⟨d, List.mem_cons_self, heq ▸ hcd⟩
    | inr hmem =>
      obtain ⟨b, hb, hab⟩ := ih hmem
      exact ⟨b, List.mem_cons_of_mem d hb, hab⟩

theorem exists_getLast?_related (h : List.Forall₂ R l l') {b : β} (hb : l'.getLast? = some b) :
    ∃ a, l.getLast? = some a ∧ R a b := by
  rw [List.getLast?_eq_head?_reverse] at hb ⊢
  have hreversed := List.forall₂_reverse_iff.mpr h
  generalize l.reverse = k, l'.reverse = k' at hb hreversed
  cases hreversed with
  | nil => cases hb
  | @cons a b' k k' hab _ =>
    cases hb
    exact ⟨a, rfl, hab⟩

theorem length_takeWhile_le {p : α → Bool} {q : β → Bool} (h : List.Forall₂ R l l')
    (hR : ∀ a b, R a b → p a → q b) : (l.takeWhile p).length ≤ (l'.takeWhile q).length := by
  induction h with
  | nil => simp
  | @cons a b l l' hab _ ih =>
    by_cases ha : p a
    · rw [List.takeWhile_cons_of_pos ha, List.takeWhile_cons_of_pos (hR a b hab ha)]
      simpa using ih
    · rw [List.takeWhile_cons_of_neg ha]
      simp

theorem countP_le {p : α → Bool} {q : β → Bool} (h : List.Forall₂ R l l') (hR : ∀ a b, R a b → p a → q b) :
    l.countP p ≤ l'.countP q := by
  induction h with
  | nil => simp
  | @cons a b l l' hab _ ih =>
    rw [List.countP_cons, List.countP_cons]
    by_cases ha : p a
    · rw [if_pos ha, if_pos (hR a b hab ha)]
      omega
    · rw [if_neg ha]
      omega

theorem forall₂_filter {p : α → Bool} {q : β → Bool} (h : List.Forall₂ R l l') (hR : ∀ a b, R a b → p a = q b) :
    List.Forall₂ R (l.filter p) (l'.filter q) := by
  induction h with
  | nil => exact List.Forall₂.nil
  | @cons a b l l' hab _ ih =>
    rw [List.filter_cons, List.filter_cons, hR a b hab]
    by_cases hb : q b
    · rw [if_pos hb, if_pos hb]
      exact List.Forall₂.cons hab ih
    · rw [if_neg hb, if_neg hb]
      exact ih

theorem forall₂_split {p : α → Bool} {q : β → Bool} (h : List.Forall₂ R l l') (hR : ∀ a b, R a b → p a = q b) :
    List.Forall₂ R (l.takeWhile p) (l'.takeWhile q) ∧ List.Forall₂ R (l.dropWhile p) (l'.dropWhile q) := by
  induction h with
  | nil => exact ⟨List.Forall₂.nil, List.Forall₂.nil⟩
  | @cons a b l l' hab hrest ih =>
    rw [List.takeWhile_cons, List.takeWhile_cons, List.dropWhile_cons, List.dropWhile_cons, hR a b hab]
    by_cases hb : q b
    · simp only [hb, if_true]
      exact ⟨List.Forall₂.cons hab ih.1, ih.2⟩
    · simp only [hb, Bool.false_eq_true, if_false]
      exact ⟨List.Forall₂.nil, List.Forall₂.cons hab hrest⟩

variable {r : α → α → Prop} {s : β → β → Prop} [DecidableRel r] [DecidableRel s]

theorem forall₂_orderedInsert (hsame : ∀ a b a' b', R a b → R a' b' → (r a a' ↔ s b b')) {a : α} {b : β} (hab : R a b)
    (h : List.Forall₂ R l l') : List.Forall₂ R (l.orderedInsert r a) (l'.orderedInsert s b) := by
  induction h with
  | nil => exact List.Forall₂.cons hab List.Forall₂.nil
  | @cons c d l l' hcd hrest ih =>
    by_cases hle : r a c
    · rw [List.orderedInsert_cons_of_le r l hle, List.orderedInsert_cons_of_le s l' ((hsame a b c d hab hcd).mp hle)]
      exact List.Forall₂.cons hab (List.Forall₂.cons hcd hrest)
    · rw [List.orderedInsert_of_not_le r l hle,
        List.orderedInsert_of_not_le s l' fun hs => hle ((hsame a b c d hab hcd).mpr hs)]
      exact List.Forall₂.cons hcd ih

theorem forall₂_insertionSort (hsame : ∀ a b a' b', R a b → R a' b' → (r a a' ↔ s b b'))
    (h : List.Forall₂ R l l') : List.Forall₂ R (l.insertionSort r) (l'.insertionSort s) := by
  induction h with
  | nil => exact List.Forall₂.nil
  | cons hab _ ih => exact forall₂_orderedInsert hsame hab ih

end Related

section Around

variable (center good : α → Bool)

/-- The good elements that end the first list and begin the second one, if that begins with a good element. -/
def runAcross (before : List α) : List α → ℕ
  | [] => 0
  | c :: after => if good c then (before.reverse.takeWhile good).length + 1 + (after.takeWhile good).length else 0

/-- The length of the run of good elements around the first center; it is zero if that one is not good. -/
def runThrough (l : List α) : ℕ :=
  runAcross good (l.takeWhile fun a => !center a) (l.dropWhile fun a => !center a)

variable {center good} {l : List α}

theorem runAcross_spec {before rest : List α} (hrun : 0 < runAcross good before rest) :
    ∃ c after, rest = c :: after ∧ ∃ left run right, before ++ rest = left ++ run ++ right ∧ c ∈ run ∧
      (∀ a ∈ run, good a) ∧ run.length = runAcross good before rest := by
  cases rest with
  | nil => exact absurd hrun (by simp [runAcross])
  | cons c after =>
    by_cases hgood : good c
    · have hbefore := congrArg List.reverse (List.takeWhile_append_dropWhile (p := good) (l := before.reverse))
      have hafter := List.takeWhile_append_dropWhile (p := good) (l := after)
      rw [List.reverse_append, List.reverse_reverse] at hbefore
      refine ⟨c, after, rfl, (before.reverse.dropWhile good).reverse,
        (before.reverse.takeWhile good).reverse ++ c :: after.takeWhile good, after.dropWhile good, ?_, by simp, ?_, ?_⟩
      · rw [← List.append_assoc, hbefore, List.append_assoc, List.cons_append, hafter]
      · intro a ha
        rw [List.mem_append, List.mem_reverse, List.mem_cons] at ha
        obtain hleft | rfl | hright := ha
        · exact List.mem_takeWhile_imp hleft
        · exact hgood
        · exact List.mem_takeWhile_imp hright
      · rw [runAcross, if_pos hgood, List.length_append, List.length_reverse, List.length_cons]
        omega
    · rw [runAcross, if_neg hgood] at hrun
      exact absurd hrun (by omega)

theorem runThrough_spec (hrun : 0 < runThrough center good l) :
    ∃ before run after, l = before ++ run ++ after ∧ (∃ c ∈ run, center c) ∧ (∀ a ∈ run, good a) ∧
      run.length = runThrough center good l := by
  obtain ⟨c, after, hrest, left, run, right, hsplit, hc, hgood, hlength⟩ := runAcross_spec hrun
  have hcenter : center c := by
    have hhead := List.head?_dropWhile_not (fun a => !center a) l
    rw [hrest] at hhead
    simpa using hhead
  rw [List.takeWhile_append_dropWhile] at hsplit
  exact ⟨left, run, right, hsplit, ⟨c, hc, hcenter⟩, hgood, hlength⟩

variable {center' good' : β → Bool} {l' : List β} {R : α → β → Prop}

theorem runAcross_le {before rest : List α} {before' rest' : List β} (hbefore : List.Forall₂ R before before')
    (hrest : List.Forall₂ R rest rest') (hgood : ∀ a b, R a b → good a → good' b) :
    runAcross good before rest ≤ runAcross good' before' rest' := by
  cases hrest with
  | nil => exact le_rfl
  | @cons c d after after' hcd hafter =>
    by_cases hc : good c
    · rw [runAcross, runAcross, if_pos hc, if_pos (hgood c d hcd hc)]
      have hleft := length_takeWhile_le (List.rel_reverse hbefore) hgood
      have hright := length_takeWhile_le hafter hgood
      omega
    · rw [runAcross, if_neg hc]
      exact Nat.zero_le _

theorem runThrough_le (h : List.Forall₂ R l l') (hcenter : ∀ a b, R a b → center a = center' b)
    (hgood : ∀ a b, R a b → good a → good' b) : runThrough center good l ≤ runThrough center' good' l' := by
  obtain ⟨hbefore, hrest⟩ := forall₂_split h
    (p := fun a => !center a) (q := fun b => !center' b) fun a b hab => by rw [hcenter a b hab]
  exact runAcross_le hbefore hrest hgood

end Around

section Maximal

variable {good : α → Prop} {l run : List α}

/-- A run of good elements with no good element next to it. -/
structure IsRun (good : α → Prop) (l run : List α) : Prop where
  nonempty : run ≠ []
  all_good : ∀ a ∈ run, good a
  maximal : ∃ before after, l = before ++ run ++ after ∧ (∀ a ∈ before.getLast?, ¬ good a) ∧
    ∀ a ∈ after.head?, ¬ good a

theorem IsRun.subset (h : IsRun good l run) : run ⊆ l := by
  obtain ⟨before, after, rfl, -, -⟩ := h.maximal
  intro a ha
  exact List.mem_append_left after (List.mem_append_right before ha)

theorem isRun_of_all (hgood : ∀ a ∈ l, good a) : IsRun good l run ↔ run = l ∧ l ≠ [] := by
  constructor
  · intro h
    obtain ⟨before, after, heq, hbefore, hafter⟩ := h.maximal
    have hnone : before = [] ∧ after = [] := by
      constructor
      · by_contra hne
        have hlast := List.getLast_mem hne
        refine hbefore _ (List.getLast?_eq_some_getLast hne) (hgood _ ?_)
        rw [heq]
        exact List.mem_append_left after (List.mem_append_left run hlast)
      · by_contra hne
        refine hafter _ (List.head?_eq_some_head hne) (hgood _ ?_)
        rw [heq]
        exact List.mem_append_right _ (List.head_mem hne)
    obtain ⟨rfl, rfl⟩ := hnone
    rw [List.nil_append, List.append_nil] at heq
    exact ⟨heq.symm, heq ▸ h.nonempty⟩
  · rintro ⟨rfl, hne⟩
    exact ⟨hne, hgood, [], [], by simp, by simp, by simp⟩

theorem isRun_append_cons {current rest : List α} {a : α} (hcurrent : ∀ b ∈ current, good b) (ha : ¬ good a) :
    IsRun good (current ++ a :: rest) run ↔ run = current ∧ current ≠ [] ∨ IsRun good rest run := by
  constructor
  · intro h
    obtain ⟨before, after, heq, hbefore, hafter⟩ := h.maximal
    rw [List.append_assoc, List.append_eq_append_iff] at heq
    rcases heq with ⟨gap, rfl, hrest⟩ | ⟨part, rfl, hrest⟩
    · -- the run lies behind the element
      cases gap with
      | nil =>
        obtain ⟨b, run, rfl⟩ := List.exists_cons_of_ne_nil h.nonempty
        simp only [List.nil_append, List.cons_append, List.cons.injEq] at hrest
        exact absurd (h.all_good b List.mem_cons_self) (hrest.1 ▸ ha)
      | cons b gap =>
        simp only [List.cons_append, List.cons.injEq] at hrest
        have hsplit : rest = gap ++ run ++ after := by rw [hrest.2, List.append_assoc]
        refine .inr ⟨h.nonempty, h.all_good, gap, after, hsplit, fun c hc => hbefore c ?_, hafter⟩
        obtain ⟨front, rfl⟩ := List.getLast?_eq_some_iff.mp hc
        exact List.getLast?_eq_some_iff.mpr ⟨current ++ b :: front, by simp⟩
    · -- the run begins before the element, so it begins where the list does
      obtain rfl : before = [] := by
        by_contra hne
        exact hbefore _ (List.getLast?_eq_some_getLast hne)
          (hcurrent _ (List.mem_append_left part (List.getLast_mem hne)))
      rw [List.nil_append] at hcurrent ⊢
      rcases List.append_eq_append_iff.mp hrest with ⟨more, rfl, hafter'⟩ | ⟨more, rfl, hafter'⟩
      · cases more with
        | nil => exact .inl ⟨(List.append_nil run).symm, by simpa using h.nonempty⟩
        | cons b more =>
          refine absurd (hcurrent b (List.mem_append_right run List.mem_cons_self)) (hafter b ?_)
          rw [hafter']
          rfl
      · cases more with
        | nil => exact .inl ⟨List.append_nil part, by simpa using h.nonempty⟩
        | cons b more =>
          simp only [List.cons_append, List.cons.injEq] at hafter'
          exact absurd (h.all_good b (List.mem_append_right part List.mem_cons_self)) (hafter'.1 ▸ ha)
  · rintro (⟨rfl, hne⟩ | h)
    · exact ⟨hne, hcurrent, [], a :: rest, by simp, by simp, by simpa using ha⟩
    · obtain ⟨before, after, rfl, hbefore, hafter⟩ := h.maximal
      refine ⟨h.nonempty, h.all_good, current ++ a :: before, after, by simp, fun b hb => ?_, hafter⟩
      cases before with
      | nil => simpa [← show a = b by simpa using hb] using ha
      | cons c before => exact hbefore b (by simpa [List.getLast?_append, List.getLast?_cons_cons] using hb)

end Maximal

end TradingBot.Library.Runs
