import Mathlib.Algebra.Order.Ring.Nat
import Mathlib.Data.List.Basic
import Mathlib.Tactic.Basic

namespace TradingBot.Library.Paging

variable {ρ κ ε : Type}

structure Page (ρ κ : Type) where
  items : List ρ
  nextCursor : Option κ

/-- The page of the rows fetched, one more than the limit; the cursor is made from the last row that is shown. -/
def pageOf (cursorOf : ρ → κ) (limit : ℕ) (fetched : List ρ) : Page ρ κ where
  items := fetched.take limit
  nextCursor := if limit < fetched.length then (fetched[limit - 1]?).map cursorOf else none

def follow (respond : Option κ → Except ε (Page ρ κ)) : ℕ → Option κ → Option (List ρ)
  | 0, _ => none
  | fuel + 1, cursor =>
    match respond cursor with
    | .error _ => none
    | .ok page =>
      match page.nextCursor with
      | none => some page.items
      | some next => (follow respond fuel (some next)).map (page.items ++ ·)

/-- What is asked of the pages of a row of rows: a cursor shows the rows that are after it, which are none of those
up to its own row and, with a row, all that follow the row. -/
structure Paged (respond : Option κ → Except ε (Page ρ κ)) (cursorOf : ρ → κ) (after : ρ → ρ → Bool) (limit : ℕ)
    (rows : List ρ) : Prop where
  limit_pos : 0 < limit
  first : respond none = .ok (pageOf cursorOf limit (rows.take (limit + 1)))
  next : ∀ r ∈ rows, respond (some (cursorOf r)) =
    .ok (pageOf cursorOf limit ((rows.filter (after r)).take (limit + 1)))
  forward : ∀ past r rest, rows = past ++ r :: rest → ∀ s ∈ past ++ [r], after r s = false
  onward : ∀ past s rest, rows = past ++ s :: rest → ∀ r, after r s → ∀ u ∈ rest, after r u

/-- Every row that ends a page is followed by rows that are after its cursor only. -/
def Clear (after : ρ → ρ → Bool) (limit : ℕ) (rows : List ρ) : Prop :=
  ∀ past r rest, rows = past ++ r :: rest → limit ∣ past.length + 1 → ∀ s ∈ rest, after r s

section Pages

variable {cursorOf : ρ → κ} {limit : ℕ} {shown : List ρ}

theorem pageOf_last (h : shown.length ≤ limit) :
    pageOf cursorOf limit (shown.take (limit + 1)) = { items := shown, nextCursor := none } := by
  have hall : shown.take (limit + 1) = shown := List.take_of_length_le (by omega)
  simp only [pageOf, hall, List.take_of_length_le h, if_neg (not_lt.mpr h)]

theorem pageOf_more {page rest : List ρ} {r : ρ} (hpage : (page ++ [r]).length = limit) (hrest : rest ≠ []) :
    pageOf cursorOf limit ((page ++ [r] ++ rest).take (limit + 1)) =
      { items := page ++ [r], nextCursor := some (cursorOf r) } := by
  have hlength : 0 < rest.length := List.length_pos_iff.mpr hrest
  have hlong : limit < ((page ++ [r] ++ rest).take (limit + 1)).length := by
    rw [List.length_take, List.length_append, hpage]
    omega
  have hindex : ((page ++ [r] ++ rest).take (limit + 1))[limit - 1]? = some r := by
    rw [List.length_append, List.length_singleton] at hpage
    rw [List.getElem?_take_of_lt (by omega), List.append_assoc, List.getElem?_append_right (by omega)]
    simp [← hpage]
  simp only [pageOf, if_pos hlong, hindex, Option.map_some, List.take_take]
  rw [Nat.min_eq_left (Nat.le_succ limit), List.take_append_of_le_length hpage.ge, List.take_of_length_le hpage.le]

end Pages

section Following

variable {respond : Option κ → Except ε (Page ρ κ)} {cursorOf : ρ → κ} {after : ρ → ρ → Bool} {limit : ℕ}
  {rows shown : List ρ} {cursor : Option κ}

theorem follow_last {fuel : ℕ} (hshows : respond cursor = .ok (pageOf cursorOf limit (shown.take (limit + 1))))
    (hlast : shown.length ≤ limit) : follow respond (fuel + 1) cursor = some shown := by
  simp only [follow, hshows, pageOf_last hlast]

theorem follow_more {fuel : ℕ} {page rest : List ρ} {r : ρ}
    (hshows : respond cursor = .ok (pageOf cursorOf limit ((page ++ [r] ++ rest).take (limit + 1))))
    (hpage : (page ++ [r]).length = limit) (hrest : rest ≠ []) :
    follow respond (fuel + 1) cursor = (follow respond fuel (some (cursorOf r))).map (page ++ [r] ++ ·) := by
  simp only [follow, hshows, pageOf_more hpage hrest]

theorem exists_page (hpos : 0 < limit) (hlong : limit < shown.length) :
    ∃ page r rest, shown = page ++ [r] ++ rest ∧ (page ++ [r]).length = limit ∧ rest ≠ [] := by
  have hne : shown.take limit ≠ [] := by
    apply List.ne_nil_of_length_pos
    rw [List.length_take]
    omega
  refine ⟨(shown.take limit).dropLast, (shown.take limit).getLast hne, shown.drop limit, ?_, ?_, ?_⟩
  · rw [List.dropLast_append_getLast, List.take_append_drop]
  · rw [List.dropLast_append_getLast, List.length_take]
    omega
  · apply List.ne_nil_of_length_pos
    rw [List.length_drop]
    omega

theorem Paged.filter_after (h : Paged respond cursorOf after limit rows) {past rest : List ρ} {r : ρ}
    (hrows : rows = past ++ r :: rest) : rows.filter (after r) = rest.filter (after r) := by
  have hsplit : rows = past ++ [r] ++ rest := by simp [hrows]
  have hback := h.forward past r rest hrows
  rw [hsplit, List.filter_append, List.filter_eq_nil_iff.mpr, List.nil_append]
  intro s hs
  simp [hback s hs]

theorem Paged.suffix_after (h : Paged respond cursorOf after limit rows) (r : ρ) : rows.filter (after r) <:+ rows := by
  have hsuffix : ∀ past rest, rows = past ++ rest → rest.filter (after r) <:+ rest := by
    intro past rest hrows
    induction rest generalizing past with
    | nil => exact List.suffix_rfl
    | cons s rest ih =>
      by_cases hs : after r s
      · have hrest : rest.filter (after r) = rest := List.filter_eq_self.mpr (h.onward past s rest hrows r hs)
        have hall : (s :: rest).filter (after r) = s :: rest := by rw [List.filter_cons_of_pos hs, hrest]
        exact ⟨[], hall⟩
      · rw [List.filter_cons_of_neg hs]
        exact (ih (past ++ [s]) (by simp [hrows])).trans (List.suffix_cons s rest)
  exact hsuffix [] rows rfl

theorem clear_of_length_le (h : shown.length ≤ limit) : Clear after limit shown := by
  intro past r rest hshown hlimit s hs
  have hle := Nat.le_of_dvd (Nat.succ_pos _) hlimit
  have hlength := congrArg List.length hshown
  have hrest : 0 < rest.length := List.length_pos_of_mem hs
  rw [List.length_append, List.length_cons] at hlength
  omega

theorem clear_append_iff {page rest : List ρ} {r : ρ} (hpage : (page ++ [r]).length = limit) :
    Clear after limit (page ++ [r] ++ rest) ↔ (∀ s ∈ rest, after r s) ∧ Clear after limit rest := by
  have hone : page.length + 1 = limit := by simpa using hpage
  constructor
  · intro h
    constructor
    · exact h page r rest (by simp) (hone ▸ dvd_rfl)
    · intro past r' rest' hrest hlimit s hs
      apply h (page ++ [r] ++ past) r' rest' (by simp [hrest]) ?_ s hs
      rw [List.length_append, hpage, add_assoc]
      exact (Nat.dvd_add_right (dvd_refl limit)).mpr hlimit
  · rintro ⟨hfirst, hclear⟩ past r' rest' hsplit hlimit s hs
    have hafter : ∀ past', page ++ [r] ++ past' = past → rest = past' ++ r' :: rest' → after r' s := by
      intro past' hpast hrest
      apply hclear past' r' rest' hrest ?_ s hs
      rw [← hpast, List.length_append, hpage, add_assoc] at hlimit
      exact (Nat.dvd_add_right (dvd_refl limit)).mp hlimit
    obtain ⟨past', hpast, hrest⟩ | ⟨past', hpast, hrest⟩ := List.append_eq_append_iff.mp hsplit
    · exact hafter past' hpast.symm hrest
    · cases past' with
      | nil => exact hafter [] (by simpa using hpast) (by simpa using hrest.symm)
      | cons x past' =>
        -- a row within the first page ends it
        obtain ⟨rfl, rfl⟩ := List.cons.inj hrest
        have hle := Nat.le_of_dvd (Nat.succ_pos _) hlimit
        have hlength := congrArg List.length hpast
        rw [hpage, List.length_append, List.length_cons] at hlength
        have hnil : past' = [] := List.length_eq_zero_iff.mp (by omega)
        subst hnil
        obtain ⟨rfl, hlast⟩ := List.append_inj' hpast rfl
        obtain ⟨rfl, _⟩ := List.cons.inj hlast
        exact hfirst s (by simpa using hs)

theorem follow_succ {fuel : ℕ} {out : List ρ} (h : follow respond fuel cursor = some out) :
    follow respond (fuel + 1) cursor = some out := by
  induction fuel generalizing cursor out with
  | zero => cases h
  | succ fuel ih =>
    rw [follow] at h ⊢
    cases hpage : respond cursor with
    | error exc =>
      rw [hpage] at h
      cases h
    | ok page =>
      rw [hpage] at h
      cases hnext : page.nextCursor with
      | none =>
        simp only [hnext] at h ⊢
        exact h
      | some next =>
        simp only [hnext] at h ⊢
        obtain ⟨rest, hrest, hout⟩ := Option.map_eq_some_iff.mp h
        rw [ih hrest]
        exact congrArg some hout

theorem follow_unique {fuel fuel' : ℕ} {out out' : List ρ} (h : follow respond fuel cursor = some out)
    (h' : follow respond fuel' cursor = some out') : out = out' := by
  have hmono : ∀ k, follow respond (fuel + k) cursor = some out := by
    intro k
    induction k with
    | zero => exact h
    | succ k ih => exact follow_succ ih
  have hmono' : ∀ k, follow respond (fuel' + k) cursor = some out' := by
    intro k
    induction k with
    | zero => exact h'
    | succ k ih => exact follow_succ ih
  have hboth := hmono fuel'
  rw [Nat.add_comm, hmono' fuel] at hboth
  exact (Option.some.inj hboth).symm

theorem Paged.follows (h : Paged respond cursorOf after limit rows) (hsuffix : shown <:+ rows)
    (hshows : respond cursor = .ok (pageOf cursorOf limit (shown.take (limit + 1)))) :
    ∃ fuel out, follow respond fuel cursor = some out ∧ out.Sublist shown ∧ (out = shown ↔ Clear after limit shown) := by
  induction hcount : shown.length using Nat.strong_induction_on generalizing shown cursor with
  | _ count ih =>
    by_cases hlong : limit < shown.length
    · obtain ⟨page, r, rest, rfl, hpage, hrest⟩ := exists_page h.limit_pos hlong
      obtain ⟨past, hpast⟩ := hsuffix
      have hrows : rows = (past ++ page) ++ r :: rest := by simp [← hpast]
      have hfilter := h.filter_after hrows
      have hfewer : (rows.filter (after r)).length < count := by
        rw [hfilter, ← hcount, List.length_append, hpage]
        have hle := List.length_filter_le (after r) rest
        have hpos := h.limit_pos
        omega
      obtain ⟨fuel, out, hfollow, hsublist, hclear⟩ :=
        ih _ hfewer (h.suffix_after r) (h.next r (by rw [hrows]; simp)) rfl
      rw [hfilter] at hsublist hclear
      have hout : out.Sublist rest := hsublist.trans List.filter_sublist
      refine ⟨fuel + 1, page ++ [r] ++ out, ?_, hout.append_left (page ++ [r]), ?_⟩
      · rw [follow_more hshows hpage hrest, hfollow]
        rfl
      · rw [List.append_right_inj, clear_append_iff hpage]
        constructor
        · rintro rfl
          have hall : out.filter (after r) = out := hsublist.eq_of_length_le (List.length_filter_le _ _) |>.symm
          rw [hall] at hclear
          exact ⟨List.filter_eq_self.mp hall, hclear.mp rfl⟩
        · rintro ⟨hfirst, hrest⟩
          rw [List.filter_eq_self.mpr hfirst] at hclear
          exact hclear.mpr hrest
    · have hle : shown.length ≤ limit := not_lt.mp hlong
      exact ⟨1, shown, follow_last hshows hle, List.Sublist.refl _, iff_of_true rfl (clear_of_length_le hle)⟩

theorem Paged.follow_eq_iff (h : Paged respond cursorOf after limit rows) :
    (∃ fuel, follow respond fuel none = some rows) ↔ Clear after limit rows := by
  obtain ⟨fuel, out, hfollow, _, hclear⟩ := h.follows List.suffix_rfl h.first
  rw [← hclear]
  constructor
  · rintro ⟨fuel', hrows⟩
    exact follow_unique hfollow hrows
  · rintro rfl
    exact ⟨fuel, hfollow⟩

end Following

end TradingBot.Library.Paging
