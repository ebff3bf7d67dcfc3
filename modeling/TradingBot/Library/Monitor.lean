import Mathlib.Logic.Relation
import TradingBot.Library.Transaction

namespace TradingBot.Library.Monitor

open Relation Transaction

variable {ε σ ν α β γ : Type} {view : σ → ν} {R : ν → ν → Prop} {E : ε → Prop} {pre : ν → Prop}

/-- Started where the view of the rows has the property `pre`, every single write of the computation
leaves the view as it is or changes it along `R`; what the computation raises has the property `E`, and
where it returns the view has `post`. A silent part writes nothing at all. -/
inductive Performs (view : σ → ν) (R : ν → ν → Prop) (E : ε → Prop) :
    {α : Type} → (ν → Prop) → Txn ε σ α → (α → ν → Prop) → Prop
  | silent {α : Type} {pre : ν → Prop} {m : Txn ε σ α} {post : α → ν → Prop}
    (hfaults : ∀ s, (m s).2.faults = s.faults) (hview : ∀ s, view (m s).2.db = view s.db)
    (hraise : ∀ s e t, pre (view s.db) → m s = (.error e, t) → E e)
    (hpost : ∀ s a t, pre (view s.db) → m s = (.ok a, t) → post a (view s.db)) :
    Performs view R E pre m post
  | flush {pre : ν → Prop} {e : ε} (he : E e) : Performs view R E pre (flush e) (fun _ => pre)
  | write {pre post : ν → Prop} {f : σ → σ} {e : ε} (he : E e)
    (hwrite : ∀ db, pre (view db) → view (f db) = view db ∨ R (view db) (view (f db)))
    (hpost : ∀ db, pre (view db) → post (view (f db))) : Performs view R E pre (write e f) (fun _ => post)
  | bind {α β : Type} {pre : ν → Prop} {mid : α → ν → Prop} {post : β → ν → Prop} {m : Txn ε σ α}
    {f : α → Txn ε σ β} (hm : Performs view R E pre m mid)
    (hf : ∀ a, Performs view R E (mid a) (f a) post) : Performs view R E pre (m >>= f) post
  | scope {α : Type} {pre : ν → Prop} {post : α → ν → Prop} {m : Txn ε σ α}
    (hm : Performs view R E pre m post) : Performs view R E pre (scope m) post

/-- A run of a monitored computation: its writes led along `R` whatever the outcome, and the outcome is
one of those that were announced. -/
structure Monitored (view : σ → ν) (R : ν → ν → Prop) (E : ε → Prop) (s : Session σ) (m : Txn ε σ α)
    (post : α → ν → Prop) : Prop where
  reaches : ReflTransGen R (view s.db) (view (m s).2.db)
  raises : ∀ e t, m s = (.error e, t) → E e
  returns : ∀ a t, m s = (.ok a, t) → post a (view t.db)

theorem Performs.run {m : Txn ε σ α} {post : α → ν → Prop} (h : Performs view R E pre m post)
    (s : Session σ) (hs : pre (view s.db)) : Monitored view R E s m post := by
  induction h generalizing s with
  | silent hfaults hview hraise hpost =>
    refine ⟨by rw [hview s], fun e t hm => hraise s e t hs hm, fun a t hm => ?_⟩
    have hsame := hview s
    rw [hm] at hsame
    rw [hsame]
    exact hpost s a t hs hm
  | flush he =>
    refine ⟨?_, fun e' t hm => ?_, fun a t hm => ?_⟩
    · unfold Transaction.flush
      split <;> exact .refl
    · exact raises_flush he s e' t hm
    · rw [flush_ok_db hm]
      exact hs
  | write he hwrite hpost =>
    rename_i f e
    refine ⟨?_, fun e' t hm => raises_write he f s e' t hm, fun a t hm => ?_⟩
    · rcases hrun : (Transaction.write e f : Txn ε σ Unit) s with ⟨e' | u, t⟩
      · rw [write_error_db hrun]
      · rw [write_ok_db hrun]
        rcases hwrite s.db hs with hsame | hchange
        · rw [hsame]
        · exact .single hchange
    · rw [write_ok_db hm]
      exact hpost s.db hs
  | bind hm hf ihm ihf =>
    rename_i m f
    obtain ⟨hfirst, hraises, hmid⟩ := ihm s hs
    rcases hrun : m s with ⟨e | a, t⟩ <;> rw [hrun] at hfirst
    · have herror : (m >>= f) s = (.error e, t) := bind_of_error hrun
      refine ⟨by rwa [herror], fun e' t' h => ?_, fun b t' h => ?_⟩ <;> rw [herror] at h <;> cases h
      exact hraises e t hrun
    · have hrest : (m >>= f) s = f a t := bind_of_ok hrun
      obtain ⟨hsecond, hlater, hlast⟩ := ihf a t (hmid a t hrun)
      refine ⟨?_, fun e t' h => hlater e t' (hrest ▸ h), fun b t' h => hlast b t' (hrest ▸ h)⟩
      rw [hrest]
      exact hfirst.trans hsecond
  | scope hm ih =>
    rename_i m
    obtain ⟨hreach, hraises, hlast⟩ := ih s hs
    refine ⟨?_, fun e t h => ?_, fun a t h => hlast a t (scope_eq_ok.mp h)⟩
    · rcases hrun : Transaction.scope m s with ⟨e | a, t⟩
      · rw [scope_error_db hrun]
      · rw [scope_eq_ok.mp hrun] at hreach
        exact hreach
    · obtain ⟨t', hm⟩ := scope_eq_error h
      exact hraises e t' hm

section Rules

theorem performs_pure {a : α} {post : α → ν → Prop} (h : ∀ v, pre v → post a v) :
    Performs view R E pre (pure a : Txn ε σ α) post := by
  refine .silent (fun _ => rfl) (fun _ => rfl) (fun s e t hs hrun => by cases hrun) fun s b t hs hrun => ?_
  obtain ⟨rfl, _⟩ := pure_eq_ok.mp hrun
  exact h _ hs

theorem performs_raise {e : ε} {post : α → ν → Prop} (he : E e) :
    Performs view R E pre (raise e : Txn ε σ α) post := by
  refine .silent (fun _ => rfl) (fun _ => rfl) (fun s e' t _ hrun => ?_) fun _ _ _ _ hrun => absurd hrun raise_ne_ok
  cases hrun
  exact he

/-- A computation that writes nothing into the view. -/
def Misses (view : σ → ν) (E : ε → Prop) (m : Txn ε σ α) : Prop :=
  ∀ R pre, Performs view R E pre m (fun _ => pre)

theorem misses_pure (a : α) : Misses view E (pure a : Txn ε σ α) := fun _ _ => performs_pure fun _ h => h

theorem misses_raise {e : ε} (he : E e) : Misses view E (raise e : Txn ε σ α) := fun _ _ => performs_raise he

theorem misses_read (f : σ → α) : Misses view E (read f : Txn ε σ α) :=
  fun _ _ => .silent (fun _ => rfl) (fun _ => rfl) (fun s e t _ hrun => by cases hrun) fun _ _ _ hs _ => hs

theorem misses_flush {e : ε} (he : E e) : Misses view E (flush e : Txn ε σ Unit) := fun _ _ => .flush he

theorem misses_write {e : ε} (he : E e) {f : σ → σ} (h : ∀ db, view (f db) = view db) :
    Misses view E (write e f : Txn ε σ Unit) :=
  fun _ _ => .write he (fun db _ => .inl (h db)) fun db hdb => by rwa [h db]

theorem misses_bind {m : Txn ε σ α} {f : α → Txn ε σ β} (hm : Misses view E m)
    (hf : ∀ a, Misses view E (f a)) : Misses view E (m >>= f) :=
  fun R pre => (hm R pre).bind fun a => hf a R pre

theorem misses_forEach {as : List α} {f : α → Txn ε σ β} (hf : ∀ a ∈ as, Misses view E (f a)) :
    Misses view E (forEach as f) := by
  induction as with
  | nil => exact misses_pure _
  | cons a as ih =>
    refine misses_bind (hf a List.mem_cons_self) fun b => ?_
    exact misses_bind (ih fun a' ha' => hf a' (List.mem_cons_of_mem _ ha')) fun bs => misses_pure _

end Rules

section Turns

variable {f : γ → α → Txn ε σ γ} {rest : List α → σ → Prop} {S : σ → σ → Prop}

/-- The turns of a loop that begin, each with the local variable and the session it finds. -/
def forFoldTurns (f : γ → α → Txn ε σ γ) : γ → List α → Session σ → List (γ × α × Session σ)
  | _, [], _ => []
  | c, a :: as, s =>
    (c, a, s) :: match f c a s with
      | (.ok c', s') => forFoldTurns f c' as s'
      | (.error _, _) => []

/-- A loop whose invariant speaks of the elements still to come, and whose turns each relate the rows they
find to those they leave. -/
theorem forFold_relates (hrefl : ∀ db, S db db) (htrans : ∀ a b c, S a b → S b c → S a c)
    (hstep : ∀ c a as s, rest (a :: as) s.db → rest as (f c a s).2.db ∧ S s.db (f c a s).2.db)
    (c : γ) (as : List α) (s : Session σ) (hs : rest as s.db) : S s.db (forFold f c as s).2.db := by
  induction as generalizing c s with
  | nil => exact hrefl s.db
  | cons a as ih =>
    obtain ⟨hrest, hturn⟩ := hstep c a as s hs
    rcases hrun : f c a s with ⟨e | c', t⟩ <;> rw [hrun] at hrest hturn
    · rw [forFold, bind_of_error hrun]
      exact hturn
    · rw [forFold, bind_of_ok hrun]
      exact htrans _ _ _ hturn (ih c' t hrest)

theorem forFoldTurns_relates (rest : List α → σ → Prop) (hrefl : ∀ db, S db db)
    (htrans : ∀ a b c, S a b → S b c → S a c)
    (hstep : ∀ c a as s, rest (a :: as) s.db → rest as (f c a s).2.db ∧ S s.db (f c a s).2.db)
    {c₀ c : γ} {as : List α} {a : α} {s t : Session σ} (hs : rest as s.db)
    (h : (c, a, t) ∈ forFoldTurns f c₀ as s) :
    a ∈ as ∧ (∃ later, rest (a :: later) t.db) ∧ S (f c a t).2.db (forFold f c₀ as s).2.db := by
  induction as generalizing c₀ s with
  | nil => cases h
  | cons b as ih =>
    obtain ⟨hrest, hturn⟩ := hstep c₀ b as s hs
    rw [forFoldTurns] at h
    rcases List.mem_cons.mp h with hhead | htail
    · cases hhead
      refine ⟨List.mem_cons_self, ⟨as, hs⟩, ?_⟩
      rcases hrun : f c a t with ⟨e | c', u⟩ <;> rw [hrun] at hrest
      · rw [forFold, bind_of_error hrun]
        exact hrefl u.db
      · rw [forFold, bind_of_ok hrun]
        exact forFold_relates hrefl htrans hstep c' as u hrest
    · rcases hrun : f c₀ b s with ⟨e | c', u⟩ <;> rw [hrun] at htail hrest
      · cases htail
      · obtain ⟨hmem, hlater, hend⟩ := ih hrest htail
        rw [forFold, bind_of_ok hrun]
        exact ⟨List.mem_cons_of_mem _ hmem, hlater, hend⟩

/-- What holds after a loop and did not before is the work of one of its turns. -/
theorem exists_turn {p : σ → Prop} {c : γ} {as : List α} {s : Session σ} (hs : ¬p s.db)
    (h : p (forFold f c as s).2.db) : ∃ turn ∈ forFoldTurns f c as s,
      ¬p turn.2.2.db ∧ p (f turn.1 turn.2.1 turn.2.2).2.db := by
  induction as generalizing c s with
  | nil => exact absurd h hs
  | cons a as ih =>
    by_cases hturn : p (f c a s).2.db
    · exact ⟨(c, a, s), List.mem_cons_self, hs, hturn⟩
    · rcases hrun : f c a s with ⟨e | c', t⟩ <;> rw [hrun] at hturn
      · rw [forFold, bind_of_error hrun] at h
        exact absurd h hturn
      · rw [forFold, bind_of_ok hrun] at h
        obtain ⟨turn, hmem, hwork⟩ := ih hturn h
        refine ⟨turn, ?_, hwork⟩
        rw [forFoldTurns, hrun]
        exact List.mem_cons_of_mem _ hmem

end Turns

end TradingBot.Library.Monitor
