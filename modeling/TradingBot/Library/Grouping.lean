import Mathlib

namespace TradingBot.Library.Grouping

variable {α κ M : Type} [DecidableEq κ] [AddCommMonoid M]

def group (key : α → κ) (l : List α) (k : κ) : List α := l.filter fun a => key a = k

variable {key : α → κ} {keys : List κ} {l : List α}

theorem group_cons (a : α) (l : List α) (k : κ) :
    group key (a :: l) k = if key a = k then a :: group key l k else group key l k := by
  by_cases h : key a = k
  · simp [group, h]
  · simp [group, h]

theorem group_append (l l' : List α) (k : κ) : group key (l ++ l') k = group key l k ++ group key l' k := by
  rw [group, List.filter_append, group, group]

theorem sum_indicator (hnodup : keys.Nodup) {k : κ} (hk : k ∈ keys) (x : M) :
    (keys.map fun k' => if k = k' then x else 0).sum = x := by
  induction keys with
  | nil => exact absurd hk List.not_mem_nil
  | cons first keys ih =>
    obtain ⟨hfirst, hkeys⟩ := List.nodup_cons.mp hnodup
    rw [List.map_cons, List.sum_cons]
    by_cases heq : k = first
    · have hrest : (keys.map fun k' => if k = k' then x else 0).sum = 0 := by
        apply List.sum_eq_zero
        intro y hy
        obtain ⟨k', hk', rfl⟩ := List.mem_map.mp hy
        have hne : k ≠ k' := fun h => hfirst (heq ▸ h ▸ hk')
        exact if_neg hne
      rw [if_pos heq, hrest, add_zero]
    · have hmem : k ∈ keys := (List.mem_cons.mp hk).resolve_left heq
      rw [if_neg heq, zero_add, ih hkeys hmem]

theorem sum_group (key : α → κ) (l : List α) (k : κ) (f : α → M) :
    ((group key l k).map f).sum = (l.map fun a => if key a = k then f a else 0).sum := by
  induction l with
  | nil => rfl
  | cons a l ih =>
    rw [group_cons, List.map_cons, List.sum_cons, ← ih]
    by_cases h : key a = k
    · rw [if_pos h, if_pos h, List.map_cons, List.sum_cons]
    · rw [if_neg h, if_neg h, zero_add]

theorem sum_groups (hnodup : keys.Nodup) (hkeys : ∀ a ∈ l, key a ∈ keys) (f : α → M) :
    (keys.map fun k => ((group key l k).map f).sum).sum = (l.map f).sum := by
  simp only [sum_group]
  induction l with
  | nil => simp
  | cons a l ih =>
    obtain ⟨hhead, htail⟩ := List.forall_mem_cons.mp hkeys
    simp only [List.map_cons, List.sum_cons, List.sum_map_add, sum_indicator hnodup hhead, ih htail]

theorem length_groups (hnodup : keys.Nodup) (hkeys : ∀ a ∈ l, key a ∈ keys) :
    (keys.map fun k => (group key l k).length).sum = l.length := by
  have hsum := sum_groups hnodup hkeys fun _ => 1
  simpa using hsum

theorem perm_groups (hnodup : keys.Nodup) (hkeys : ∀ a ∈ l, key a ∈ keys) : (keys.flatMap (group key l)).Perm l := by
  have hsingle : ∀ k : List α, (k.map fun a => ({a} : Multiset α)).sum = (k : Multiset α) := by
    intro k
    rw [← Multiset.sum_coe, ← Multiset.map_coe, Multiset.sum_map_singleton]
  have hsum := sum_groups hnodup hkeys fun a => ({a} : Multiset α)
  simp only [hsingle] at hsum
  rw [← Multiset.coe_eq_coe, ← hsum, ← Multiset.coe_bind, Multiset.bind, Multiset.join, Multiset.map_coe,
    Multiset.sum_coe]

theorem mem_group {a : α} (k : κ) : a ∈ group key l k ↔ a ∈ l ∧ key a = k := by
  simp [group]

section Sorting
variable {r : α → α → Prop} [DecidableRel r] {p : α → Bool}

theorem filter_orderedInsert (htrans : ∀ a b c, r a b → r b c → r a c) (hsorted : l.Pairwise r) (a : α) :
    (l.orderedInsert r a).filter p = if p a then (l.filter p).orderedInsert r a else l.filter p := by
  induction l with
  | nil => cases hp : p a <;> simp [hp]
  | cons b l ih =>
    obtain ⟨hfirst, hrest⟩ := List.pairwise_cons.mp hsorted
    by_cases hab : r a b
    · rw [List.orderedInsert_cons, if_pos hab]
      cases hp : p a with
      | false => simp [hp]
      | true =>
        have hall : ∀ c ∈ (b :: l).filter p, r a c := by
          intro c hc
          cases List.mem_cons.mp (List.mem_of_mem_filter hc) with
          | inl heq => rwa [heq]
          | inr hmem => exact htrans a b c hab (hfirst c hmem)
        rw [List.filter_cons_of_pos hp, if_pos rfl]
        cases hfilter : (b :: l).filter p with
        | nil => rfl
        | cons c rest =>
          have hac := hall c (by rw [hfilter]; exact List.mem_cons_self)
          rw [List.orderedInsert_cons, if_pos hac]
    · rw [List.orderedInsert_cons, if_neg hab]
      cases hpb : p b with
      | false => simp [hpb, ih hrest]
      | true =>
        rw [List.filter_cons_of_pos hpb, List.filter_cons_of_pos hpb, ih hrest]
        cases hp : p a <;> simp [hab]

/-- Sorting keeps the order of equals, so it can be done before or after a selection. -/
theorem filter_insertionSort (htotal : ∀ a b, r a b ∨ r b a) (htrans : ∀ a b c, r a b → r b c → r a c) (l : List α) :
    (l.insertionSort r).filter p = (l.filter p).insertionSort r := by
  have : Std.Total r := ⟨htotal⟩
  have : IsTrans α r := ⟨htrans⟩
  induction l with
  | nil => rfl
  | cons a l ih =>
    rw [List.insertionSort_cons, filter_orderedInsert htrans (List.pairwise_insertionSort r l), ih]
    cases hp : p a <;> simp [hp]

theorem group_insertionSort (htotal : ∀ a b, r a b ∨ r b a) (htrans : ∀ a b c, r a b → r b c → r a c) (k : κ) :
    group key (l.insertionSort r) k = (group key l k).insertionSort r := by
  rw [group, filter_insertionSort htotal htrans, group]

end Sorting

end TradingBot.Library.Grouping

namespace TradingBot.Library.Keyed

variable {α β κ : Type} [DecidableEq κ] {key : α → κ} {l : List α}

theorem filter_key_eq_singleton (hnodup : (l.map key).Nodup) {a : α} (ha : a ∈ l) :
    l.filter (fun b => decide (key b = key a)) = [a] := by
  induction l with
  | nil => cases ha
  | cons b l ih =>
    rw [List.map_cons, List.nodup_cons] at hnodup
    rcases List.mem_cons.mp ha with rfl | ha
    · have hnone : l.filter (fun b => decide (key b = key a)) = [] := by
        simp only [List.filter_eq_nil_iff, decide_eq_true_eq]
        exact fun b hb heq => hnodup.1 (List.mem_map.mpr ⟨b, hb, heq⟩)
      simp [hnone]
    · have hne : key b ≠ key a := fun heq => hnodup.1 (List.mem_map.mpr ⟨a, ha, heq.symm⟩)
      rw [List.filter_cons_of_neg (by simpa using hne), ih hnodup.2 ha]

theorem length_filter_key_le_one (hnodup : (l.map key).Nodup) (k : κ) :
    (l.filter (fun b => decide (key b = k))).length ≤ 1 := by
  rcases hrows : l.filter (fun b => decide (key b = k)) with _ | ⟨a, rest⟩
  · simp
  · have ha : a ∈ l.filter (fun b => decide (key b = k)) := hrows ▸ List.mem_cons_self
    obtain ⟨hmem, hkey⟩ := List.mem_filter.mp ha
    rw [decide_eq_true_eq] at hkey
    rw [← hrows, ← hkey, filter_key_eq_singleton hnodup hmem]
    simp

theorem find?_key (hnodup : (l.map key).Nodup) {a : α} (ha : a ∈ l) :
    l.find? (fun b => decide (key b = key a)) = some a := by
  rw [← List.head?_filter, filter_key_eq_singleton hnodup ha, List.head?_cons]

theorem find?_key_perm {l' : List α} (hnodup : (l.map key).Nodup) (hperm : l.Perm l') (k : κ) :
    l.find? (fun b => decide (key b = k)) = l'.find? (fun b => decide (key b = k)) := by
  have hnodup' : (l'.map key).Nodup := (hperm.map key).nodup_iff.mp hnodup
  cases hfind : l.find? (fun b => decide (key b = k)) with
  | none =>
    symm
    rw [List.find?_eq_none] at hfind ⊢
    exact fun b hb => hfind b (hperm.mem_iff.mpr hb)
  | some a =>
    have hkey : key a = k := by simpa using List.find?_some hfind
    rw [← hkey, find?_key hnodup' (hperm.mem_iff.mp (List.mem_of_find?_eq_some hfind))]

theorem flatMap_if_nil (p : α → Bool) (f : α → List β) (l : List α) :
    l.flatMap (fun a => if p a then f a else []) = (l.filter p).flatMap f := by
  induction l with
  | nil => rfl
  | cons a l ih => by_cases h : p a <;> simp [h, ih]

theorem eraseDups_eq_nil {l : List κ} (h : l.eraseDups = []) : l = [] := by
  cases l with
  | nil => rfl
  | cons a l => simp [List.eraseDups_cons] at h

end TradingBot.Library.Keyed
