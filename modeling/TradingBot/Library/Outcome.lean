import Mathlib.Data.List.Perm.Basic
import Mathlib.Tactic.Basic
import TradingBot.Library.Runs

namespace TradingBot.Library.Outcome

variable {ε α β : Type}

theorem except_bind_eq_ok {x : Except ε α} {f : α → Except ε β} {b : β} :
    (x >>= f) = .ok b ↔ ∃ a, x = .ok a ∧ f a = .ok b := by
  cases x <;> simp [bind, Except.bind]

theorem except_ok_bind (a : α) (f : α → Except ε β) : (Except.ok a >>= f) = f a := rfl

theorem exists_of_isOk {x : Except ε α} (h : x.isOk = true) : ∃ a, x = .ok a := by
  cases x with
  | error e => cases h
  | ok a => exact ⟨a, rfl⟩

theorem exists_of_any {x : Except ε α} {p : α → Bool} (h : x.toOption.any p = true) : ∃ a, x = .ok a ∧ p a = true := by
  cases x with
  | error e => cases h
  | ok a => exact ⟨a, rfl, h⟩

theorem except_map_eq_ok {x : Except ε α} {f : α → β} {b : β} : x.map f = .ok b ↔ ∃ a, x = .ok a ∧ f a = b := by
  cases x <;> simp [Except.map]

theorem mapError_eq_ok_iff {ε' : Type} {f : ε → ε'} {x : Except ε α} {a : α} : x.mapError f = .ok a ↔ x = .ok a := by
  cases x <;> simp [Except.mapError]

theorem foldlM_preserves_mem {inv : β → Prop} {f : β → α → Except ε β} {l : List α}
    (hstep : ∀ b, ∀ a ∈ l, ∀ b', inv b → f b a = .ok b' → inv b') {b b' : β} (hb : inv b)
    (h : l.foldlM f b = .ok b') : inv b' := by
  induction l generalizing b with
  | nil =>
    cases h
    exact hb
  | cons a l ih =>
    rw [List.foldlM_cons] at h
    obtain ⟨c, hc, h⟩ := except_bind_eq_ok.mp h
    have hinv := hstep b a List.mem_cons_self c hb hc
    exact ih (fun b a' ha' => hstep b a' (List.mem_cons_of_mem a ha')) hinv h

theorem foldlM_preserves {inv : β → Prop} {f : β → α → Except ε β}
    (hstep : ∀ b a b', inv b → f b a = .ok b' → inv b') {l : List α} {b b' : β} (hb : inv b)
    (h : l.foldlM f b = .ok b') : inv b' :=
  foldlM_preserves_mem (fun b a _ => hstep b a) hb h

/-- A loop whose every turn keeps a relation between the elements seen and the value so far. -/
theorem foldlM_history (inv : List α → β → Prop) {f : β → α → Except ε β}
    (hstep : ∀ seen a b b', inv seen b → f b a = .ok b' → inv (seen ++ [a]) b') {seen l : List α} {b b' : β}
    (hb : inv seen b) (h : l.foldlM f b = .ok b') : inv (seen ++ l) b' := by
  induction l generalizing seen b with
  | nil =>
    cases h
    simpa using hb
  | cons a l ih =>
    rw [List.foldlM_cons] at h
    obtain ⟨c, hc, h⟩ := except_bind_eq_ok.mp h
    have hrest := ih (hstep seen a b c hb hc) h
    simpa using hrest

/-- Two loops that make the same turn at every element end alike. -/
theorem foldlM_congr {f g : β → α → Except ε β} {l : List α} (h : ∀ a ∈ l, ∀ b, f b a = g b a) (b : β) :
    l.foldlM f b = l.foldlM g b := by
  induction l generalizing b with
  | nil => rfl
  | cons a l ih =>
    rw [List.foldlM_cons, List.foldlM_cons, h a List.mem_cons_self b]
    congr 1
    funext c
    exact ih (fun a' ha' => h a' (List.mem_cons_of_mem a ha')) c

theorem foldlM_ok_mem {f : β → α → Except ε β} {l : List α} {b b' : β} (h : l.foldlM f b = .ok b') {a : α}
    (ha : a ∈ l) : ∃ c c', f c a = .ok c' := by
  induction l generalizing b with
  | nil => exact absurd ha List.not_mem_nil
  | cons first l ih =>
    rw [List.foldlM_cons] at h
    obtain ⟨c, hc, h⟩ := except_bind_eq_ok.mp h
    rcases List.mem_cons.mp ha with rfl | ha
    · exact ⟨b, c, hc⟩
    · exact ih h ha

section Loops

variable {f : α → Except ε β} {l : List α} {l' : List β}

theorem mapM_eq_ok_iff : l.mapM f = .ok l' ↔ List.Forall₂ (fun a b => f a = .ok b) l l' := by
  induction l generalizing l' with
  | nil =>
    rw [List.mapM_nil, List.forall₂_nil_left_iff]
    constructor
    · intro h
      cases h
      rfl
    · rintro rfl
      rfl
  | cons a l ih =>
    rw [List.mapM_cons, except_bind_eq_ok]
    constructor
    · rintro ⟨b, hb, h⟩
      obtain ⟨bs, hbs, h⟩ := except_bind_eq_ok.mp h
      cases h
      exact .cons hb (ih.mp hbs)
    · rintro (_ | ⟨hb, hbs⟩)
      exact ⟨_, hb, except_bind_eq_ok.mpr ⟨_, ih.mpr hbs, rfl⟩⟩

/-- A loop over the same elements in another order gives the same values in another order. -/
theorem mapM_perm {k : List α} (hperm : k.Perm l) (h : l.mapM f = .ok l') :
    ∃ k', k.mapM f = .ok k' ∧ k'.Perm l' := by
  obtain ⟨k', hpairs, hperm'⟩ := List.perm_comp_forall₂ hperm (mapM_eq_ok_iff.mp h)
  exact ⟨k', mapM_eq_ok_iff.mpr hpairs, hperm'⟩

theorem mapM_same_mem {g : α → Except ε β} (h : l.mapM f = .ok l') (h' : l.mapM g = .ok l') {a : α} (ha : a ∈ l) :
    f a = g a := by
  have hpairs := mapM_eq_ok_iff.mp h
  have hpairs' := mapM_eq_ok_iff.mp h'
  clear h h'
  induction hpairs with
  | nil => exact absurd ha List.not_mem_nil
  | cons hfirst _ ih =>
    cases hpairs' with
    | cons hfirst' hrest' =>
      cases List.mem_cons.mp ha with
      | inl heq => rw [heq, hfirst, hfirst']
      | inr hmem => exact ih hmem hrest'

theorem mapM_congr {g : α → Except ε β} (h : ∀ a ∈ l, f a = g a) : l.mapM f = l.mapM g := by
  induction l with
  | nil => rfl
  | cons a l ih =>
    rw [List.mapM_cons, List.mapM_cons, h a List.mem_cons_self, ih fun a' ha' => h a' (List.mem_cons_of_mem a ha')]

theorem mapM_map {γ : Type} {g : β → γ} : l.mapM (fun a => (f a).map g) = (l.mapM f).map (List.map g) := by
  induction l with
  | nil => rfl
  | cons a l ih =>
    rw [List.mapM_cons, List.mapM_cons, ih]
    cases f a with
    | error e => rfl
    | ok b =>
      cases l.mapM f with
      | error e => rfl
      | ok bs => rfl

theorem mapM_ok {g : α → β} (h : ∀ a ∈ l, f a = .ok (g a)) : l.mapM f = .ok (l.map g) := by
  rw [mapM_eq_ok_iff, List.forall₂_map_right_iff, List.forall₂_same]
  exact h

theorem mapM_ok_mem (h : l.mapM f = .ok l') {b : β} (hb : b ∈ l') : ∃ a ∈ l, f a = .ok b :=
  Runs.exists_related (R := fun b a => f a = .ok b) (mapM_eq_ok_iff.mp h).flip hb

theorem mapM_mem_ok (h : l.mapM f = .ok l') {a : α} (ha : a ∈ l) : ∃ b ∈ l', f a = .ok b :=
  Runs.exists_related (mapM_eq_ok_iff.mp h) ha

theorem mapM_same {k : List α} :
    (∃ r, l.mapM f = .ok r ∧ k.mapM f = .ok r) ↔ List.Forall₂ (fun a b => ∃ c, f a = .ok c ∧ f b = .ok c) l k := by
  simp only [mapM_eq_ok_iff]
  constructor
  · rintro ⟨r, hl, hk⟩
    induction hl generalizing k with
    | nil =>
      cases hk
      exact .nil
    | cons hfirst _ ih =>
      cases hk with
      | cons hfirst' hrest' => exact .cons ⟨_, hfirst, hfirst'⟩ (ih hrest')
  · intro h
    induction h with
    | nil => exact ⟨[], .nil, .nil⟩
    | cons hfirst _ ih =>
      obtain ⟨c, ha, hb⟩ := hfirst
      obtain ⟨r, hl, hk⟩ := ih
      exact ⟨c :: r, .cons ha hl, .cons hb hk⟩

theorem mapM_all {p : β → Prop} (h : ∀ a ∈ l, ∃ b, f a = .ok b ∧ p b) :
    ∃ bs, l.mapM f = .ok bs ∧ ∀ b ∈ bs, p b := by
  induction l with
  | nil => exact ⟨[], rfl, by simp⟩
  | cons a l ih =>
    obtain ⟨b, hb, hp⟩ := h a List.mem_cons_self
    obtain ⟨bs, hbs, hall⟩ := ih fun a' ha' => h a' (List.mem_cons_of_mem a ha')
    exact ⟨b :: bs, mapM_eq_ok_iff.mpr (.cons hb (mapM_eq_ok_iff.mp hbs)), List.forall_mem_cons.mpr ⟨hp, hall⟩⟩

theorem map_eq_of_mapM_ok {γ : Type} {k : α → γ} {g : β → γ} (hg : ∀ a b, f a = .ok b → k a = g b)
    (h : l.mapM f = .ok l') : l.map k = l'.map g := by
  have hpairs : List.Forall₂ (fun a b => k a = g b) l l' := (mapM_eq_ok_iff.mp h).imp hg
  rw [← List.forall₂_eq_eq_eq, List.forall₂_map_left_iff, List.forall₂_map_right_iff]
  exact hpairs

theorem eq_map_of_mapM_ok {g : β → α} (hg : ∀ a b, f a = .ok b → a = g b) (h : l.mapM f = .ok l') :
    l = l'.map g := by
  rw [← map_eq_of_mapM_ok hg h, List.map_id']

theorem forM_eq_ok_iff {f : α → Except ε Unit} : forM l f = .ok () ↔ ∀ a ∈ l, f a = .ok () := by
  induction l with
  | nil =>
    rw [List.forM_nil]
    exact ⟨fun _ a ha => absurd ha List.not_mem_nil, fun _ => rfl⟩
  | cons a l ih =>
    rw [List.forM_cons, except_bind_eq_ok, List.forall_mem_cons, ← ih]
    constructor
    · rintro ⟨⟨⟩, ha, hl⟩
      exact ⟨ha, hl⟩
    · rintro ⟨ha, hl⟩
      exact ⟨⟨⟩, ha, hl⟩

theorem forM_congr {f g : α → Except ε Unit} (h : ∀ a ∈ l, f a = g a) : forM l f = forM l g := by
  induction l with
  | nil => rfl
  | cons a l ih =>
    rw [List.forM_cons, List.forM_cons, h a List.mem_cons_self, ih fun a' ha' => h a' (List.mem_cons_of_mem a ha')]

end Loops

section Simulation

variable {α' β' : Type} {R : α → α' → Prop} {S : β → β' → Prop} {l : List α} {l' : List α'}

theorem foldlM_simulates {f : β → α → Except ε β} {g : β' → α' → Except ε β'}
    (hstep : ∀ a a' b b' c, R a a' → S b b' → f b a = .ok c → ∃ c', g b' a' = .ok c' ∧ S c c')
    (hl : List.Forall₂ R l l') {b r : β} {b' : β'} (hb : S b b')
    (h : l.foldlM f b = .ok r) : ∃ r', l'.foldlM g b' = .ok r' ∧ S r r' := by
  induction hl generalizing b b' with
  | nil =>
    rw [List.foldlM_nil] at h
    cases h
    exact ⟨b', rfl, hb⟩
  | @cons a a' l l' haa' _ ih =>
    rw [List.foldlM_cons] at h
    obtain ⟨c, hc, hrest⟩ := except_bind_eq_ok.mp h
    obtain ⟨c', hc', hcc'⟩ := hstep a a' b b' c haa' hb hc
    obtain ⟨r', hr', hrr'⟩ := ih hcc' hrest
    exact ⟨r', by rw [List.foldlM_cons, hc']; exact hr', hrr'⟩

theorem mapM_simulates {f : α → Except ε β} {g : α' → Except ε β'}
    (hstep : ∀ a a' b, R a a' → f a = .ok b → ∃ b', g a' = .ok b' ∧ S b b')
    (hl : List.Forall₂ R l l') {r : List β} (h : l.mapM f = .ok r) :
    ∃ r', l'.mapM g = .ok r' ∧ List.Forall₂ S r r' := by
  induction hl generalizing r with
  | nil =>
    rw [List.mapM_nil] at h
    cases h
    exact ⟨[], rfl, List.Forall₂.nil⟩
  | @cons a a' l l' haa' _ ih =>
    rw [List.mapM_cons] at h
    obtain ⟨b, hb, hrest⟩ := except_bind_eq_ok.mp h
    obtain ⟨bs, hbs, hr⟩ := except_bind_eq_ok.mp hrest
    cases hr
    obtain ⟨b', hb', hbb'⟩ := hstep a a' b haa' hb
    obtain ⟨bs', hbs', hall⟩ := ih hbs
    exact ⟨b' :: bs', by rw [List.mapM_cons, hb', hbs']; rfl, List.Forall₂.cons hbb' hall⟩

end Simulation

section Fails

def Fails (p : ε → Prop) (x : Except ε α) : Prop := ∀ e, x = .error e → p e

variable {p : ε → Prop}

@[simp] theorem fails_ok (a : α) : Fails p (.ok a : Except ε α) := by
  intro e h
  cases h

@[simp] theorem fails_error {e : ε} : Fails p (.error e : Except ε α) ↔ p e := by
  constructor
  · exact fun h => h e rfl
  · intro he e' h
    cases h
    exact he

theorem fails_bind {x : Except ε α} {f : α → Except ε β} (hx : Fails p x) (hf : ∀ a, Fails p (f a)) :
    Fails p (x >>= f) := by
  cases x with
  | ok a => exact hf a
  | error e => exact fails_error.mpr (fails_error.mp hx)

end Fails

section Returns

def Returns (x : Except ε α) : Prop := ∃ a, x = .ok a

@[simp] theorem returns_ok (a : α) : Returns (.ok a : Except ε α) := ⟨a, rfl⟩

theorem Returns.bind {x : Except ε α} {f : α → Except ε β} (hx : Returns x) (hf : ∀ a, Returns (f a)) :
    Returns (x >>= f) := by
  obtain ⟨a, rfl⟩ := hx
  exact hf a

theorem returns_mapM {f : α → Except ε β} {l : List α} (hf : ∀ a ∈ l, Returns (f a)) : Returns (l.mapM f) := by
  induction l with
  | nil => exact returns_ok _
  | cons a l ih =>
    rw [List.mapM_cons]
    refine (hf a List.mem_cons_self).bind fun b => ?_
    exact (ih fun a' ha' => hf a' (List.mem_cons_of_mem a ha')).bind fun bs => returns_ok _

end Returns

end TradingBot.Library.Outcome
