import Mathlib.Algebra.BigOperators.Group.List.Basic
import Mathlib.Data.List.Nodup
import Mathlib.Data.List.Perm.Basic

namespace TradingBot.Library.Dictionary

variable {κ α : Type} [DecidableEq κ]

/-- The entries after setting a key: one that is there keeps its place, a new one goes to the end. -/
def setEntry (k : κ) (a : α) : List (κ × α) → List (κ × α)
  | [] => [(k, a)]
  | e :: es => if e.1 = k then (k, a) :: es else e :: setEntry k a es

theorem setEntry_perm (k : κ) (a : α) {es : List (κ × α)} (hnodup : (es.map Prod.fst).Nodup) :
    (setEntry k a es).Perm ((k, a) :: es.filter fun e => e.1 ≠ k) := by
  induction es with
  | nil => exact List.Perm.refl _
  | cons e es ih =>
    rw [List.map_cons, List.nodup_cons] at hnodup
    by_cases he : e.1 = k
    · have hrest : es.filter (fun e => e.1 ≠ k) = es := by
        refine List.filter_eq_self.mpr fun e' he' => ?_
        simp only [ne_eq, decide_not, Bool.not_eq_eq_eq_not, Bool.not_true, decide_eq_false_iff_not]
        exact fun hk => hnodup.1 (List.mem_map.mpr ⟨e', he', hk.trans he.symm⟩)
      rw [List.filter_cons_of_neg (by simpa using he), hrest]
      simp [setEntry, he]
    · simp only [setEntry, he, if_false]
      rw [List.filter_cons_of_pos (by simpa using he)]
      exact ((ih hnodup.2).cons e).trans (List.Perm.swap _ _ _)

theorem setEntry_keys (k : κ) (a : α) (es : List (κ × α)) :
    (setEntry k a es).map Prod.fst =
      if k ∈ es.map Prod.fst then es.map Prod.fst else es.map Prod.fst ++ [k] := by
  induction es with
  | nil => rfl
  | cons e es ih =>
    by_cases he : e.1 = k
    · simp [setEntry, he]
    · simp only [setEntry, he, if_false, List.map_cons, ih, List.mem_cons, Ne.symm he, false_or]
      split_ifs <;> simp

structure Dict (κ α : Type) where
  entries : List (κ × α) := []
  nodup : (entries.map Prod.fst).Nodup := by first | exact List.nodup_nil | simp
deriving DecidableEq, Repr

namespace Dict

variable {d : Dict κ α} {k k' : κ} {a b : α}

def keys (d : Dict κ α) : List κ := d.entries.map Prod.fst

def values (d : Dict κ α) : List α := d.entries.map Prod.snd

def get? (d : Dict κ α) (k : κ) : Option α := (d.entries.find? fun e => e.1 = k).map Prod.snd

def set (d : Dict κ α) (k : κ) (a : α) : Dict κ α where
  entries := setEntry k a d.entries
  nodup := by
    rw [setEntry_keys]
    split_ifs with h
    · exact d.nodup
    · rw [List.nodup_append]
      refine ⟨d.nodup, List.nodup_singleton k, ?_⟩
      intro a ha b hb hab
      rw [List.mem_singleton.mp hb] at hab
      exact h (hab ▸ ha)

def erase (d : Dict κ α) (k : κ) : Dict κ α where
  entries := d.entries.filter fun e => e.1 ≠ k
  nodup := d.nodup.sublist (List.filter_sublist.map _)

def filterKeys (d : Dict κ α) (wanted : κ → Bool) : Dict κ α where
  entries := d.entries.filter fun e => wanted e.1
  nodup := d.nodup.sublist (List.filter_sublist.map _)

omit [DecidableEq κ] in
theorem keys_nodup (d : Dict κ α) : d.keys.Nodup := d.nodup

theorem get?_isSome_iff : (d.get? k).isSome ↔ k ∈ d.keys := by
  simp only [get?, Option.isSome_map, List.find?_isSome, keys, List.mem_map, decide_eq_true_eq]

theorem get?_eq_none_iff : d.get? k = none ↔ k ∉ d.keys := by
  rw [← get?_isSome_iff, Option.not_isSome_iff_eq_none]

theorem mem_keys_of_get? (h : d.get? k = some a) : k ∈ d.keys :=
  get?_isSome_iff.mp (by simp [h])

theorem keys_set_of_mem (h : k ∈ d.keys) : (d.set k a).keys = d.keys := by
  unfold keys at h ⊢
  rw [set, setEntry_keys, if_pos h]

theorem keys_set_of_not_mem (h : k ∉ d.keys) : (d.set k a).keys = d.keys ++ [k] := by
  unfold keys at h ⊢
  rw [set, setEntry_keys, if_neg h]

@[simp] theorem keys_erase : (d.erase k).keys = d.keys.filter (· ≠ k) := by
  simp only [keys, erase, List.filter_map]
  rfl

theorem values_set_perm (d : Dict κ α) (k : κ) (a : α) :
    (d.set k a).values.Perm (a :: (d.erase k).values) :=
  (setEntry_perm k a d.nodup).map Prod.snd

theorem erase_of_not_mem (h : k ∉ d.keys) : d.erase k = d := by
  have hentries : d.entries.filter (fun e => e.1 ≠ k) = d.entries := by
    refine List.filter_eq_self.mpr fun e he => ?_
    simp only [ne_eq, decide_not, Bool.not_eq_eq_eq_not, Bool.not_true, decide_eq_false_iff_not]
    exact fun hk => h (List.mem_map.mpr ⟨e, he, hk⟩)
  cases d
  simpa [erase] using hentries

theorem values_perm_of_get? (h : d.get? k = some a) : d.values.Perm (a :: (d.erase k).values) := by
  have hset : d.set k a = d := by
    obtain ⟨entries, hnodup⟩ := d
    have hentries : ∀ es : List (κ × α), (es.find? fun e => e.1 = k).map Prod.snd = some a →
        setEntry k a es = es := by
      intro es
      induction es with
      | nil => intro hfind; cases hfind
      | cons e es ih =>
        intro hfind
        by_cases he : e.1 = k
        · have ha : e.2 = a := by simpa [List.find?_cons, he] using hfind
          rw [setEntry, if_pos he, ← he, ← ha]
        · rw [List.find?_cons_of_neg (by simpa using he)] at hfind
          simp [setEntry, he, ih hfind]
    simpa [set] using hentries entries h
  have hperm := values_set_perm d k a
  rwa [hset] at hperm

theorem get?_set_self : (d.set k a).get? k = some a := by
  have h : ∀ es : List (κ × α), ((setEntry k a es).find? fun e => e.1 = k).map Prod.snd = some a := by
    intro es
    induction es with
    | nil => simp [setEntry]
    | cons e es ih =>
      by_cases he : e.1 = k
      · simp [setEntry, he]
      · simp [setEntry, he, ih]
  exact h d.entries

theorem get?_set_of_ne (h : k' ≠ k) : (d.set k a).get? k' = d.get? k' := by
  have hes : ∀ es : List (κ × α), (setEntry k a es).find? (fun e => e.1 = k') =
      es.find? fun e => e.1 = k' := by
    intro es
    induction es with
    | nil => simp [setEntry, Ne.symm h]
    | cons e es ih =>
      by_cases he : e.1 = k
      · simp [setEntry, he, Ne.symm h]
      · simp [setEntry, he, ih, List.find?_cons]
  simp [get?, set, hes]

theorem get?_eq_some_iff : d.get? k = some a ↔ (k, a) ∈ d.entries := by
  constructor
  · intro h
    obtain ⟨e, he, rfl⟩ := Option.map_eq_some_iff.mp h
    have hk : e.1 = k := by simpa using List.find?_some he
    rw [← hk]
    exact List.mem_of_find?_eq_some he
  · intro h
    obtain ⟨b, hb⟩ : ∃ b, d.get? k = some b := by
      rw [← Option.isSome_iff_exists, get?_isSome_iff]
      exact List.mem_map.mpr ⟨(k, a), h, rfl⟩
    obtain ⟨e, he, rfl⟩ := Option.map_eq_some_iff.mp hb
    have hk : e.1 = k := by simpa using List.find?_some he
    have heq := List.inj_on_of_nodup_map d.nodup (List.mem_of_find?_eq_some he) h hk
    rw [hb, heq]

theorem get?_set : (d.set k a).get? k' = if k' = k then some a else d.get? k' := by
  split_ifs with hk
  · rw [hk, get?_set_self]
  · exact get?_set_of_ne hk

theorem get?_erase : (d.erase k).get? k' = if k' = k then none else d.get? k' := by
  split_ifs with hk
  · rw [get?_eq_none_iff, keys_erase, hk]
    simp
  · refine Option.ext fun b => ?_
    rw [get?_eq_some_iff, get?_eq_some_iff, erase, List.mem_filter]
    simp [hk]

theorem mem_values_iff : a ∈ d.values ↔ ∃ k, d.get? k = some a := by
  rw [values, List.mem_map]
  constructor
  · rintro ⟨⟨k, a⟩, he, rfl⟩
    exact ⟨k, get?_eq_some_iff.mpr he⟩
  · rintro ⟨k, hk⟩
    exact ⟨(k, a), get?_eq_some_iff.mp hk, rfl⟩

/-- `==` of two dictionaries: the order does not count. -/
def sameItems [DecidableEq α] (d d' : Dict κ α) : Bool :=
  d.keys.all (fun k => d.get? k = d'.get? k) && d'.keys.all fun k => d.get? k = d'.get? k

theorem values_erase_subset (d : Dict κ α) (k : κ) : (d.erase k).values ⊆ d.values :=
  (List.filter_sublist.map _).subset

theorem forall_mem_values_set {p : α → Prop} (hd : ∀ b ∈ d.values, p b) (ha : p a) :
    ∀ b ∈ (d.set k a).values, p b := by
  intro b hb
  rcases List.mem_cons.mp ((values_set_perm d k a).mem_iff.mp hb) with rfl | hb
  · exact ha
  · exact hd b (values_erase_subset d k hb)

theorem mem_values_of_get? (h : d.get? k = some a) : a ∈ d.values :=
  (values_perm_of_get? h).mem_iff.mpr List.mem_cons_self

omit [DecidableEq κ] in
theorem length_values (d : Dict κ α) : d.values.length = d.keys.length := by
  simp [values, keys]

theorem values_eq_map (d : Dict κ α) (default : α) : d.values = d.keys.map fun k => (d.get? k).getD default := by
  rw [values, keys, List.map_map]
  apply List.map_congr_left
  intro e he
  have hget : d.get? e.1 = some e.2 := get?_eq_some_iff.mpr he
  rw [Function.comp_apply, hget, Option.getD_some]

section Assignments

variable {ι : Type} {key : ι → κ} {value : ι → α} {items : List ι}

theorem get?_foldl_set (h : (items.foldl (fun d x => d.set (key x) (value x)) d).get? k = some a) :
    (∃ x ∈ items, key x = k ∧ value x = a) ∨ d.get? k = some a := by
  induction items generalizing d with
  | nil => exact .inr h
  | cons x items ih =>
    rw [List.foldl_cons] at h
    cases ih h with
    | inl hlater =>
      obtain ⟨y, hy, hkey⟩ := hlater
      exact .inl ⟨y, List.mem_cons_of_mem x hy, hkey⟩
    | inr hfirst =>
      rw [get?_set] at hfirst
      by_cases hk : k = key x
      · rw [if_pos hk] at hfirst
        exact .inl ⟨x, List.mem_cons_self, hk.symm, Option.some.inj hfirst⟩
      · rw [if_neg hk] at hfirst
        exact .inr hfirst

theorem mem_keys_foldl_set : k ∈ (items.foldl (fun d x => d.set (key x) (value x)) d).keys ↔
    k ∈ d.keys ∨ ∃ x ∈ items, key x = k := by
  induction items generalizing d with
  | nil => simp
  | cons x items ih =>
    rw [List.foldl_cons, ih, ← get?_isSome_iff, get?_set]
    by_cases hk : k = key x
    · simp [hk]
    · simp [hk, Ne.symm hk, get?_isSome_iff]

theorem get?_index {key : α → κ} {items : List α} (hnodup : (items.map key).Nodup) :
    (items.foldl (fun d x => d.set (key x) x) ({} : Dict κ α)).get? k = some a ↔ a ∈ items ∧ key a = k := by
  constructor
  · intro h
    cases get?_foldl_set h with
    | inr hempty => cases hempty
    | inl hitem =>
      obtain ⟨x, hx, hkey, rfl⟩ := hitem
      exact ⟨hx, hkey⟩
  · rintro ⟨ha, rfl⟩
    have hkey : key a ∈ (items.foldl (fun d x => d.set (key x) x) ({} : Dict κ α)).keys :=
      mem_keys_foldl_set.mpr (.inr ⟨a, ha, rfl⟩)
    obtain ⟨b, hb⟩ := Option.isSome_iff_exists.mp (get?_isSome_iff.mpr hkey)
    cases get?_foldl_set hb with
    | inr hempty => cases hempty
    | inl hitem =>
      obtain ⟨x, hx, hsame, rfl⟩ := hitem
      rw [List.inj_on_of_nodup_map hnodup hx ha hsame] at hb
      exact hb

end Assignments

section Sums

variable {M : Type} [AddCommMonoid M]

theorem sum_values_of_get? (h : d.get? k = some a) (f : α → M) :
    (d.values.map f).sum = f a + ((d.erase k).values.map f).sum := by
  rw [((values_perm_of_get? h).map f).sum_eq, List.map_cons, List.sum_cons]

theorem sum_values_set (d : Dict κ α) (k : κ) (a : α) (f : α → M) :
    ((d.set k a).values.map f).sum = f a + ((d.erase k).values.map f).sum := by
  rw [((values_set_perm d k a).map f).sum_eq, List.map_cons, List.sum_cons]

end Sums

section Tallies

variable {ι M : Type} [AddCommMonoid M]

/-- Adds what an item counts to the sum of its key. -/
def tallyStep (key : ι → κ) (x : ι → M) (totals : Dict κ M) (item : ι) : Dict κ M :=
  totals.set (key item) ((totals.get? (key item)).getD 0 + x item)

def tally (key : ι → κ) (x : ι → M) (items : List ι) (totals : Dict κ M) : Dict κ M :=
  items.foldl (tallyStep key x) totals

variable {key : ι → κ} {x : ι → M} {totals : Dict κ M} {items : List ι}

theorem tally_get? (k : κ) : ((tally key x items totals).get? k).getD 0 =
    (totals.get? k).getD 0 + ((items.filter fun item => key item = k).map x).sum := by
  induction items generalizing totals with
  | nil => simp [tally]
  | cons item items ih =>
    rw [tally, List.foldl_cons, ← tally, ih, tallyStep, get?_set, List.filter_cons]
    by_cases hkey : key item = k
    · subst hkey
      simp [add_assoc]
    · simp [hkey, Ne.symm hkey]

theorem mem_keys_tally {k : κ} : k ∈ (tally key x items totals).keys ↔ k ∈ totals.keys ∨ ∃ item ∈ items, key item = k := by
  induction items generalizing totals with
  | nil => simp [tally]
  | cons item items ih =>
    rw [tally, List.foldl_cons, ← tally, ih, tallyStep, ← get?_isSome_iff, get?_set]
    by_cases hkey : k = key item
    · simp [hkey]
    · simp [hkey, Ne.symm hkey, get?_isSome_iff]

theorem sum_values_tally : (tally key x items totals).values.sum = totals.values.sum + (items.map x).sum := by
  induction items generalizing totals with
  | nil => simp [tally]
  | cons item items ih =>
    have hset := sum_values_set totals (key item) ((totals.get? (key item)).getD 0 + x item) id
    rw [List.map_id, List.map_id] at hset
    rw [tally, List.foldl_cons, ← tally, ih, tallyStep, hset, List.map_cons, List.sum_cons]
    cases hget : totals.get? (key item) with
    | none =>
      rw [erase_of_not_mem (get?_eq_none_iff.mp hget), Option.getD_none, id, zero_add, add_comm (x item), add_assoc]
    | some y =>
      have hold := sum_values_of_get? hget id
      rw [List.map_id, List.map_id] at hold
      rw [hold, Option.getD_some, id, id]
      simp only [add_assoc, add_comm, add_left_comm]

theorem sum_entries_of_key (d : Dict κ M) (k : κ) :
    ((d.entries.filter fun e => e.1 = k).map Prod.snd).sum = (d.get? k).getD 0 := by
  have hentries : ∀ es : List (κ × M), (es.map Prod.fst).Nodup →
      ((es.filter fun e => e.1 = k).map Prod.snd).sum = ((es.find? fun e => e.1 = k).map Prod.snd).getD 0 := by
    intro es hnodup
    induction es with
    | nil => simp
    | cons e es ih =>
      obtain ⟨hfirst, hrest⟩ := List.nodup_cons.mp hnodup
      by_cases hkey : e.1 = k
      · have hnone : es.filter (fun e => e.1 = k) = [] := by
          apply List.filter_eq_nil_iff.mpr
          intro e' he' heq
          exact hfirst (List.mem_map.mpr ⟨e', he', (of_decide_eq_true heq).trans hkey.symm⟩)
        simp [hkey, hnone]
      · simpa [hkey] using ih hrest
  exact hentries d.entries d.nodup

end Tallies

section Pairs

variable {β γ : Type} {f : α → γ} {g : β → γ}

omit [DecidableEq κ] in
theorem map_snd_eq {es : List (κ × α)} {es' : List (κ × β)} (hkeys : es.map Prod.fst = es'.map Prod.fst)
    (h : ∀ k a b, (k, a) ∈ es → (k, b) ∈ es' → f a = g b) : (es.map Prod.snd).map f = (es'.map Prod.snd).map g := by
  induction es generalizing es' with
  | nil =>
    rw [List.map_nil, eq_comm, List.map_eq_nil_iff] at hkeys
    rw [hkeys]
    rfl
  | cons e es ih =>
    cases es' with
    | nil => cases hkeys
    | cons e' es' =>
      obtain ⟨k, a⟩ := e
      obtain ⟨k', b⟩ := e'
      obtain ⟨hkey, hrest⟩ := List.cons.inj hkeys
      cases hkey
      have hhead : f a = g b := h k a b List.mem_cons_self List.mem_cons_self
      have htail := ih hrest fun k a b ha hb => h k a b (List.mem_cons_of_mem _ ha) (List.mem_cons_of_mem _ hb)
      simp only [List.map_cons, hhead, htail]

theorem map_values_eq {d : Dict κ α} {d' : Dict κ β} (hkeys : d.keys = d'.keys)
    (h : ∀ k a b, d.get? k = some a → d'.get? k = some b → f a = g b) : d.values.map f = d'.values.map g :=
  map_snd_eq hkeys fun k a b ha hb => h k a b (get?_eq_some_iff.mpr ha) (get?_eq_some_iff.mpr hb)

end Pairs

end Dict

section Related

variable {β : Type} {R : α → β → Prop} {d : Dict κ α} {d' : Dict κ β} {es : List (κ × α)} {es' : List (κ × β)}

/-- Two entries with one key and related values. -/
def RelatedEntry (R : α → β → Prop) (e : κ × α) (e' : κ × β) : Prop := e.1 = e'.1 ∧ R e.2 e'.2

theorem forall₂_setEntry (h : List.Forall₂ (RelatedEntry R) es es') (k : κ) {a : α} {b : β} (hab : R a b) :
    List.Forall₂ (RelatedEntry R) (setEntry k a es) (setEntry k b es') := by
  induction h with
  | nil => exact List.Forall₂.cons ⟨rfl, hab⟩ List.Forall₂.nil
  | @cons e e' es es' hee' hrest ih =>
    unfold setEntry
    rw [hee'.1]
    by_cases hk : e'.1 = k
    · rw [if_pos hk, if_pos hk]
      exact List.Forall₂.cons ⟨rfl, hab⟩ hrest
    · rw [if_neg hk, if_neg hk]
      exact List.Forall₂.cons hee' ih

theorem rel_find?_entries (h : List.Forall₂ (RelatedEntry R) es es') (k : κ) :
    Option.Rel (RelatedEntry R) (es.find? fun e => e.1 = k) (es'.find? fun e => e.1 = k) := by
  induction h with
  | nil => exact Option.Rel.none
  | @cons e e' es es' hee' _ ih =>
    rw [List.find?_cons, List.find?_cons, hee'.1]
    by_cases hk : e'.1 = k
    · rw [decide_eq_true hk]
      exact Option.Rel.some hee'
    · rw [decide_eq_false hk]
      exact ih

/-- Two dictionaries with the same keys in one order and related values. -/
def Dict.Related (R : α → β → Prop) (d : Dict κ α) (d' : Dict κ β) : Prop :=
  List.Forall₂ (RelatedEntry R) d.entries d'.entries

theorem Dict.Related.get? (h : d.Related R d') (k : κ) : Option.Rel R (d.get? k) (d'.get? k) := by
  have hfound := rel_find?_entries h k
  unfold Dict.get?
  generalize d.entries.find? (fun e => e.1 = k) = x at hfound ⊢
  generalize d'.entries.find? (fun e => e.1 = k) = y at hfound ⊢
  cases hfound with
  | none => exact Option.Rel.none
  | some hee' => exact Option.Rel.some hee'.2

theorem Dict.Related.set (h : d.Related R d') (k : κ) {a : α} {b : β} (hab : R a b) :
    (d.set k a).Related R (d'.set k b) := forall₂_setEntry h k hab

end Related

end TradingBot.Library.Dictionary
