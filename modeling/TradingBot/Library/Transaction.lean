import Mathlib.Tactic.Basic

namespace TradingBot.Library.Transaction

variable {ε σ α β γ : Type}

/-- A database session: the rows the transaction sees, and for each coming write whether it fails. -/
structure Session (σ : Type) where
  db : σ
  faults : List Bool

/-- A computation over a session. What it wrote is still in the session when it raises. -/
def Txn (ε σ α : Type) : Type := Session σ → Except ε α × Session σ

instance : Monad (Txn ε σ) where
  pure a := fun s => (.ok a, s)
  bind m f := fun s => match m s with
    | (.ok a, s') => f a s'
    | (.error e, s') => (.error e, s')

def raise (e : ε) : Txn ε σ α := fun s => (.error e, s)

def read (f : σ → α) : Txn ε σ α := fun s => (.ok (f s.db), s)

/-- Sends pending writes to the database, where the write raises if it is one of the faulty ones. -/
def flush (e : ε) : Txn ε σ Unit := fun s =>
  match s.faults with
  | true :: rest => (.error e, { s with faults := rest })
  | _ => (.ok (), { s with faults := s.faults.tail })

/-- A write: the rows change and the change is flushed. -/
def write (e : ε) (f : σ → σ) : Txn ε σ Unit := do
  flush e
  fun s => (.ok (), { s with db := f s.db })

/-- A transaction or savepoint: on an exception the rows are restored and the exception is passed on. -/
def scope (m : Txn ε σ α) : Txn ε σ α := fun s =>
  match m s with
  | (.ok a, s') => (.ok a, s')
  | (.error e, s') => (.error e, { s' with db := s.db })

/-- `try … except`: the exception becomes a value and the session goes on. -/
def attempt (m : Txn ε σ α) : Txn ε σ (Except ε α) := fun s => (.ok (m s).1, (m s).2)

/-- A `for` loop that appends one result for each element. -/
def forEach : List α → (α → Txn ε σ β) → Txn ε σ (List β)
  | [], _ => pure []
  | a :: as, f => do
    let b ← f a
    let bs ← forEach as f
    pure (b :: bs)

/-- A `for` loop that carries a local variable. -/
def forFold (f : γ → α → Txn ε σ γ) : γ → List α → Txn ε σ γ
  | c, [] => pure c
  | c, a :: as => do
    let c' ← f c a
    forFold f c' as

section Inversion

variable {s s' : Session σ}

@[simp] theorem pure_eq_ok {a b : α} :
    (pure a : Txn ε σ α) s = (.ok b, s') ↔ a = b ∧ s = s' := by
  simp [pure]

@[simp] theorem bind_eq_ok {m : Txn ε σ α} {f : α → Txn ε σ β} {b : β} :
    (m >>= f) s = (.ok b, s') ↔ ∃ a t, m s = (.ok a, t) ∧ f a t = (.ok b, s') := by
  constructor
  · intro h
    simp only [bind] at h
    rcases hm : m s with ⟨e | a, t⟩
    · rw [hm] at h
      cases h
    · rw [hm] at h
      exact ⟨a, t, rfl, h⟩
  · rintro ⟨a, t, hm, hf⟩
    simp only [bind, hm, hf]

theorem bind_eq_error {m : Txn ε σ α} {f : α → Txn ε σ β} {e : ε} :
    (m >>= f) s = (.error e, s') ↔
      m s = (.error e, s') ∨ ∃ a t, m s = (.ok a, t) ∧ f a t = (.error e, s') := by
  rcases hm : m s with ⟨e' | a, t⟩
  · simp [bind, hm]
  · constructor
    · intro h
      simp only [bind, hm] at h
      exact .inr ⟨a, t, rfl, h⟩
    · rintro (h | ⟨a', t', h, hf⟩)
      · cases h
      · cases h
        simpa only [bind, hm] using hf

@[simp] theorem raise_ne_ok {e : ε} {a : α} : (raise e : Txn ε σ α) s ≠ (.ok a, s') := by
  simp [raise]

@[simp] theorem read_eq_ok {f : σ → α} {a : α} :
    (read f : Txn ε σ α) s = (.ok a, s') ↔ f s.db = a ∧ s = s' := by
  simp [read]

theorem flush_ok_db {e : ε} {u : Unit} (h : (flush e : Txn ε σ Unit) s = (.ok u, s')) :
    s'.db = s.db := by
  unfold flush at h
  split at h <;> cases h
  rfl

theorem write_ok_db {e : ε} {f : σ → σ} {u : Unit}
    (h : (write e f : Txn ε σ Unit) s = (.ok u, s')) : s'.db = f s.db := by
  obtain ⟨_, t, hflush, hset⟩ := bind_eq_ok.mp h
  have hdb := flush_ok_db hflush
  cases hset
  rw [hdb]

theorem write_error_db {e e' : ε} {f : σ → σ} (h : (write e f : Txn ε σ Unit) s = (.error e', s')) :
    s'.db = s.db := by
  rcases bind_eq_error.mp h with hflush | ⟨_, t, _, hset⟩
  · unfold flush at hflush
    split at hflush <;> cases hflush
    rfl
  · cases hset

@[simp] theorem scope_eq_ok {m : Txn ε σ α} {a : α} :
    scope m s = (.ok a, s') ↔ m s = (.ok a, s') := by
  unfold scope
  rcases m s with ⟨e | a', t⟩ <;> simp

theorem scope_eq_error {m : Txn ε σ α} {e : ε} (h : scope m s = (.error e, s')) :
    ∃ t, m s = (.error e, t) := by
  unfold scope at h
  rcases hm : m s with ⟨e' | a, t⟩ <;> rw [hm] at h <;> cases h
  exact ⟨t, rfl⟩

theorem scope_error_db {m : Txn ε σ α} {e : ε} (h : scope m s = (.error e, s')) : s'.db = s.db := by
  unfold scope at h
  split at h <;> cases h
  rfl

@[simp] theorem attempt_eq_ok {m : Txn ε σ α} {r : Except ε α} :
    attempt m s = (.ok r, s') ↔ m s = (r, s') := by
  simp [attempt, Prod.ext_iff]

end Inversion

section Evaluation

variable {s t : Session σ} {db : σ}

@[simp] theorem pure_run (a : α) (s : Session σ) : (pure a : Txn ε σ α) s = (.ok a, s) := rfl

theorem bind_of_ok {m : Txn ε σ α} {f : α → Txn ε σ β} {a : α} (h : m s = (.ok a, t)) :
    (m >>= f) s = f a t := by
  simp only [bind, h]

theorem bind_of_error {m : Txn ε σ α} {f : α → Txn ε σ β} {e : ε} (h : m s = (.error e, t)) :
    (m >>= f) s = (.error e, t) := by
  simp only [bind, h]

theorem read_bind (f : σ → α) (g : α → Txn ε σ β) (s : Session σ) :
    (read f >>= g) s = g (f s.db) s := rfl

theorem bind_pure_db (m : Txn ε σ α) (f : α → β) (s : Session σ) :
    ((m >>= fun a => pure (f a)) s).2.db = (m s).2.db := by
  rcases hrun : m s with ⟨e | a, t⟩
  · rw [bind_of_error hrun]
  · rw [bind_of_ok hrun, pure_run]

theorem bind_assoc_run (m : Txn ε σ α) (f : α → Txn ε σ β) (g : β → Txn ε σ γ) :
    ((m >>= f) >>= g) = m >>= fun a => f a >>= g := by
  funext s
  rcases hrun : m s with ⟨e | a, t⟩
  · rw [bind_of_error hrun, bind_of_error (bind_of_error hrun)]
  · rw [bind_of_ok hrun]
    simp only [bind, hrun]

theorem scope_of_ok {m : Txn ε σ α} {a : α} (h : m s = (.ok a, t)) : scope m s = (.ok a, t) :=
  scope_eq_ok.mpr h

theorem write_run_of_head {e : ε} {f : σ → σ} (h : s.faults.head? ≠ some true) :
    (write e f : Txn ε σ Unit) s = (.ok (), ⟨f s.db, s.faults.tail⟩) := by
  obtain ⟨db, faults⟩ := s
  rcases faults with _ | ⟨fault, rest⟩
  · rfl
  · cases fault
    · rfl
    · exact absurd rfl h

theorem head_of_write_ok {e : ε} {f : σ → σ} {u : Unit}
    (h : (write e f : Txn ε σ Unit) s = (.ok u, t)) : s.faults.head? ≠ some true := by
  obtain ⟨db, faults⟩ := s
  rcases faults with _ | ⟨fault, rest⟩
  · simp
  · cases fault
    · simp
    · cases h

theorem flush_eq (e : ε) (s : Session σ) : (flush e : Txn ε σ Unit) s =
    if s.faults.head? = some true then (.error e, { s with faults := s.faults.tail })
    else (.ok (), { s with faults := s.faults.tail }) := by
  obtain ⟨db, faults⟩ := s
  cases faults with
  | nil => rfl
  | cons fault faults => cases fault <;> rfl

/-- A loop whose turns change the rows each in its own way changes them in all these ways, in order. -/
theorem forEach_ok_db {as : List α} {f : α → Txn ε σ β} {step : α → σ → σ} {bs : List β}
    (hf : ∀ a ∈ as, ∀ s b s', f a s = (.ok b, s') → s'.db = step a s.db)
    (h : forEach as f s = (.ok bs, t)) : t.db = as.foldl (fun db a => step a db) s.db := by
  induction as generalizing s bs with
  | nil =>
    obtain ⟨_, rfl⟩ := pure_eq_ok.mp h
    rfl
  | cons a as ih =>
    obtain ⟨b, u, hturn, h⟩ := bind_eq_ok.mp h
    obtain ⟨rest, v, hrest, hpure⟩ := bind_eq_ok.mp h
    obtain ⟨_, rfl⟩ := pure_eq_ok.mp hpure
    rw [ih (fun a' ha' => hf a' (List.mem_cons_of_mem _ ha')) hrest, hf a List.mem_cons_self s b u hturn]
    rfl

theorem forEach_run_nil {as : List α} {f : α → Txn ε σ β} {step : α → σ → σ}
    (hf : ∀ a ∈ as, ∀ db, ∃ b, f a ⟨db, []⟩ = (.ok b, ⟨step a db, []⟩)) (db : σ) :
    ∃ bs, forEach as f ⟨db, []⟩ = (.ok bs, ⟨as.foldl (fun db a => step a db) db, []⟩) := by
  induction as generalizing db with
  | nil => exact ⟨[], rfl⟩
  | cons a as ih =>
    obtain ⟨b, hturn⟩ := hf a List.mem_cons_self db
    obtain ⟨bs, hrest⟩ := ih (fun a' ha' => hf a' (List.mem_cons_of_mem _ ha')) (step a db)
    exact ⟨b :: bs, by rw [forEach, bind_of_ok hturn, bind_of_ok hrest, pure_run, List.foldl_cons]⟩

/-- A loop in which only one element has work to do ends where that element's turn ends. -/
theorem forEach_run_single {as : List α} {f : α → Txn ε σ β} {a : α} {b : β}
    (hnodup : as.Nodup) (hmem : a ∈ as) (hrun : f a s = (.ok b, t))
    (hother : ∀ a' ∈ as, a' ≠ a → ∀ u, u = s ∨ u = t → ∃ b', f a' u = (.ok b', u)) :
    ∃ bs, forEach as f s = (.ok bs, t) := by
  have hidle : ∀ (as : List α) (u : Session σ), (∀ a' ∈ as, ∃ b', f a' u = (.ok b', u)) →
      ∃ bs, forEach as f u = (.ok bs, u) := by
    intro as u
    induction as with
    | nil => exact fun _ => ⟨[], rfl⟩
    | cons c cs ih =>
      intro h
      obtain ⟨b', hb'⟩ := h c List.mem_cons_self
      obtain ⟨bs, hbs⟩ := ih fun a' ha' => h a' (List.mem_cons_of_mem _ ha')
      exact ⟨b' :: bs, by rw [forEach, bind_of_ok hb', bind_of_ok hbs, pure_run]⟩
  induction as with
  | nil => cases hmem
  | cons c cs ih =>
    obtain ⟨hc, hcs⟩ := List.nodup_cons.mp hnodup
    by_cases hca : c = a
    · subst hca
      obtain ⟨bs, hbs⟩ := hidle cs t fun a' ha' =>
        hother a' (List.mem_cons_of_mem _ ha') (fun h => hc (h ▸ ha')) t (.inr rfl)
      exact ⟨b :: bs, by rw [forEach, bind_of_ok hrun, bind_of_ok hbs, pure_run]⟩
    · obtain ⟨b', hb'⟩ := hother c List.mem_cons_self hca s (.inl rfl)
      have hmem' : a ∈ cs := (List.mem_cons.mp hmem).resolve_left (Ne.symm hca)
      obtain ⟨bs, hbs⟩ := ih hcs hmem' fun a' ha' => hother a' (List.mem_cons_of_mem _ ha')
      exact ⟨b' :: bs, by rw [forEach, bind_of_ok hb', bind_of_ok hbs, pure_run]⟩

end Evaluation

section Rules

variable {inv : σ → Prop}

/-- Whatever the outcome, the rows a computation leaves keep a property of the rows it found. -/
def Keeps (inv : σ → Prop) (m : Txn ε σ α) : Prop := ∀ s, inv s.db → inv (m s).2.db

theorem keeps_pure (a : α) : Keeps inv (pure a : Txn ε σ α) := fun _ h => h

theorem keeps_raise (e : ε) : Keeps inv (raise e : Txn ε σ α) := fun _ h => h

theorem keeps_read (f : σ → α) : Keeps inv (read f : Txn ε σ α) := fun _ h => h

theorem bind_keeps {m : Txn ε σ α} {f : α → Txn ε σ β} {s : Session σ} (hm : inv (m s).2.db)
    (hf : ∀ a, Keeps inv (f a)) : inv ((m >>= f) s).2.db := by
  simp only [bind]
  rcases hms : m s with ⟨e | a, t⟩ <;> rw [hms] at hm
  · exact hm
  · exact hf a t hm

theorem keeps_bind {m : Txn ε σ α} {f : α → Txn ε σ β} (hm : Keeps inv m)
    (hf : ∀ a, Keeps inv (f a)) : Keeps inv (m >>= f) := fun s hs => bind_keeps (hm s hs) hf

theorem keeps_bind_ok {m : Txn ε σ α} {f : α → Txn ε σ β} (hm : Keeps inv m)
    (hf : ∀ s a t, inv s.db → m s = (.ok a, t) → inv t.db → inv (f a t).2.db) : Keeps inv (m >>= f) := by
  intro s hs
  have hms := hm s hs
  rcases hrun : m s with ⟨e | a, t⟩ <;> rw [hrun] at hms
  · rw [bind_of_error hrun]
    exact hms
  · rw [bind_of_ok hrun]
    exact hf s a t hs hrun hms

/-- The continuation may rely on what was read, since nothing was written in between. -/
theorem keeps_read_bind {f : σ → α} {g : α → Txn ε σ β}
    (h : ∀ s : Session σ, inv s.db → inv (g (f s.db) s).2.db) : Keeps inv (read f >>= g) := h

theorem keeps_flush (e : ε) : Keeps inv (flush e : Txn ε σ Unit) := by
  intro s hs
  unfold flush
  split <;> exact hs

theorem keeps_write (e : ε) {f : σ → σ} (hf : ∀ db, inv db → inv (f db)) :
    Keeps inv (write e f : Txn ε σ Unit) :=
  keeps_bind (keeps_flush e) fun _ s hs => hf s.db hs

/-- Inside a scope only a normal return has to keep the property: a raise restores the rows. -/
theorem scope_keeps {m : Txn ε σ α} {s : Session σ} (hs : inv s.db)
    (h : ∀ a s', m s = (.ok a, s') → inv s'.db) : inv (scope m s).2.db := by
  unfold scope
  rcases hms : m s with ⟨e | a, t⟩
  · exact hs
  · exact h a t hms

theorem keeps_scope {m : Txn ε σ α}
    (h : ∀ s a s', inv s.db → m s = (.ok a, s') → inv s'.db) : Keeps inv (scope m) :=
  fun s hs => scope_keeps hs fun a s' hm => h s a s' hs hm

theorem Keeps.scope {m : Txn ε σ α} (hm : Keeps inv m) : Keeps inv (scope m) :=
  keeps_scope fun s a s' hs h => by
    have := hm s hs
    rwa [h] at this

theorem Keeps.of_ok {m : Txn ε σ α} (hm : Keeps inv m) {s s' : Session σ} {a : α} (hs : inv s.db)
    (h : m s = (.ok a, s')) : inv s'.db := by
  have := hm s hs
  rwa [h] at this

theorem Keeps.of_error {m : Txn ε σ α} (hm : Keeps inv m) {s s' : Session σ} {e : ε} (hs : inv s.db)
    (h : m s = (.error e, s')) : inv s'.db := by
  have := hm s hs
  rwa [h] at this

theorem keeps_attempt {m : Txn ε σ α} (hm : Keeps inv m) : Keeps inv (attempt m) := hm

theorem keeps_forEach {as : List α} {f : α → Txn ε σ β} (hf : ∀ a ∈ as, Keeps inv (f a)) :
    Keeps inv (forEach as f) := by
  induction as with
  | nil => exact keeps_pure _
  | cons a as ih =>
    refine keeps_bind (hf a List.mem_cons_self) fun b => ?_
    exact keeps_bind (ih fun a' ha' => hf a' (List.mem_cons_of_mem _ ha')) fun bs => keeps_pure _

theorem keeps_forFold {as : List α} {f : γ → α → Txn ε σ γ} (hf : ∀ c a, Keeps inv (f c a))
    (c : γ) : Keeps inv (forFold f c as) := by
  induction as generalizing c with
  | nil => exact keeps_pure _
  | cons a as ih => exact keeps_bind (hf c a) ih

theorem forFold_rest {rest : List α → σ → Prop} {f : γ → α → Txn ε σ γ}
    (hstep : ∀ c a as s, rest (a :: as) s.db → rest as (f c a s).2.db)
    (hstop : ∀ as db, rest as db → rest [] db) (c : γ) (as : List α) (s : Session σ)
    (hs : rest as s.db) : rest [] (forFold f c as s).2.db := by
  induction as generalizing c s with
  | nil => exact hs
  | cons a as ih =>
    have h := hstep c a as s hs
    simp only [forFold, bind]
    rcases hfs : f c a s with ⟨e | c', t⟩ <;> rw [hfs] at h
    · exact hstop as t.db h
    · exact ih c' t h

end Rules

section Exceptions

variable {p : ε → Prop}

/-- All exceptions of the computation have a property, from whatever session it is run. -/
def Raises (p : ε → Prop) (m : Txn ε σ α) : Prop := ∀ s e t, m s = (.error e, t) → p e

theorem raises_pure (a : α) : Raises p (pure a : Txn ε σ α) := by
  intro s e t h
  cases h

theorem raises_raise {e : ε} (he : p e) : Raises p (raise e : Txn ε σ α) := by
  intro s e' t h
  cases h
  exact he

theorem raises_read (f : σ → α) : Raises p (read f : Txn ε σ α) := by
  intro s e t h
  cases h

theorem raises_bind {m : Txn ε σ α} {f : α → Txn ε σ β} (hm : Raises p m) (hf : ∀ a, Raises p (f a)) :
    Raises p (m >>= f) := by
  intro s e t h
  rcases hms : m s with ⟨e' | a, u⟩
  · rw [bind_of_error hms] at h
    cases h
    exact hm s e t hms
  · rw [bind_of_ok hms] at h
    exact hf a u e t h

theorem raises_flush {e : ε} (he : p e) : Raises p (flush e : Txn ε σ Unit) := by
  intro s e' t h
  unfold flush at h
  split at h
  · cases h
    exact he
  · cases h

theorem raises_write {e : ε} (he : p e) (f : σ → σ) : Raises p (write e f : Txn ε σ Unit) := by
  refine raises_bind (raises_flush he) fun _ s e' t h => ?_
  cases h

theorem Raises.scope {m : Txn ε σ α} (hm : Raises p m) : Raises p (scope m) := by
  intro s e t h
  obtain ⟨u, hms⟩ := scope_eq_error h
  exact hm s e u hms

theorem Raises.mono {q : ε → Prop} {m : Txn ε σ α} (h : Raises p m) (hpq : ∀ e, p e → q e) : Raises q m :=
  fun s e t hm => hpq e (h s e t hm)

theorem Raises.attempt_bind {q : ε → Prop} {m : Txn ε σ α} {f : Except ε α → Txn ε σ β} (hm : Raises q m)
    (hok : ∀ a, Raises p (f (.ok a))) (herror : ∀ e, q e → Raises p (f (.error e))) :
    Raises p (attempt m >>= f) := by
  intro s e t h
  have hattempt : attempt m s = (.ok (m s).1, (m s).2) := rfl
  rw [bind_of_ok hattempt] at h
  rcases hms : m s with ⟨e' | a, u⟩ <;> rw [hms] at h
  · exact herror e' (hm s e' u hms) u e t h
  · exact hok a u e t h

theorem Keeps.attempt_bind {q : ε → Prop} {inv : σ → Prop} {m : Txn ε σ α} {f : Except ε α → Txn ε σ β}
    (hm : Keeps inv m) (hraises : Raises q m) (hok : ∀ a, Keeps inv (f (.ok a)))
    (herror : ∀ e, q e → Keeps inv (f (.error e))) : Keeps inv (attempt m >>= f) := by
  refine keeps_bind_ok (keeps_attempt hm) fun s r t _ hr ht => ?_
  cases r with
  | ok a => exact hok a t ht
  | error e => exact herror e (hraises s e t (attempt_eq_ok.mp hr)) t ht

end Exceptions

section Results

variable {q : β → Prop}

/-- What a computation returns has a property, from whatever session it is run. -/
def Yields (q : α → Prop) (m : Txn ε σ α) : Prop := ∀ s a t, m s = (.ok a, t) → q a

theorem yields_pure {q : α → Prop} {a : α} (h : q a) : Yields q (pure a : Txn ε σ α) := by
  intro s b t hb
  obtain ⟨rfl, rfl⟩ := pure_eq_ok.mp hb
  exact h

theorem yields_raise {q : α → Prop} (e : ε) : Yields q (raise e : Txn ε σ α) :=
  fun _ _ _ h => absurd h raise_ne_ok

theorem yields_bind {m : Txn ε σ α} {f : α → Txn ε σ β} (hf : ∀ a, Yields q (f a)) : Yields q (m >>= f) := by
  intro s b t h
  obtain ⟨a, u, _, hb⟩ := bind_eq_ok.mp h
  exact hf a u b t hb

end Results

section Triples

variable {inv inv' : σ → Prop} {p : α → σ → Prop} {q : β → σ → Prop} {s t : Session σ}

/-- The run of a computation from one session: the rows it leaves have the property `inv` whatever
happens, and the property `post` too if it returns. -/
def Leaves (inv : σ → Prop) (post : α → σ → Prop) (m : Txn ε σ α) (s : Session σ) : Prop :=
  inv (m s).2.db ∧ ∀ a t, m s = (.ok a, t) → post a t.db

theorem leaves_pure {a : α} (hs : inv s.db) (h : p a s.db) : Leaves inv p (pure a : Txn ε σ α) s := by
  refine ⟨hs, fun b t hb => ?_⟩
  obtain ⟨rfl, rfl⟩ := pure_eq_ok.mp hb
  exact h

theorem leaves_raise {e : ε} (hs : inv s.db) : Leaves inv p (raise e : Txn ε σ α) s :=
  ⟨hs, fun _ _ h => absurd h raise_ne_ok⟩

theorem leaves_read_bind {f : σ → α} {g : α → Txn ε σ β} (h : Leaves inv q (g (f s.db)) s) :
    Leaves inv q (read f >>= g) s := h

theorem Keeps.leaves {m : Txn ε σ α} (h : Keeps inv m) (hs : inv s.db) :
    Leaves inv (fun _ _ => True) m s := ⟨h s hs, fun _ _ _ => trivial⟩

theorem Leaves.of_ok {m : Txn ε σ α} (h : Leaves inv p m s) {a : α} (hm : m s = (.ok a, t)) :
    inv t.db ∧ p a t.db := by
  have hinv := h.1
  rw [hm] at hinv
  exact ⟨hinv, h.2 a t hm⟩

theorem Leaves.mono {m : Txn ε σ α} {p' : α → σ → Prop} (h : Leaves inv p m s)
    (hinv : ∀ db, inv db → inv' db) (hpost : ∀ a db, inv db → p a db → p' a db) : Leaves inv' p' m s :=
  ⟨hinv _ h.1, fun a _ hm => hpost a _ (h.of_ok hm).1 (h.of_ok hm).2⟩

theorem Leaves.and {m : Txn ε σ α} {p' : α → σ → Prop} (h : Leaves inv p m s) (h' : Leaves inv' p' m s) :
    Leaves inv (fun a db => p a db ∧ p' a db) m s :=
  ⟨h.1, fun a t hm => ⟨h.2 a t hm, h'.2 a t hm⟩⟩

/-- The continuation may also rely on how the first part ran. -/
theorem Leaves.bind_run {m : Txn ε σ α} {f : α → Txn ε σ β} (hm : Leaves inv p m s)
    (hf : ∀ a t, m s = (.ok a, t) → inv t.db → p a t.db → Leaves inv q (f a) t) :
    Leaves inv q (m >>= f) s := by
  rcases hms : m s with ⟨e | a, t⟩
  · have herror : (m >>= f) s = (.error e, t) := bind_of_error hms
    have hinv := hm.1
    rw [hms] at hinv
    refine ⟨by rwa [herror], fun b t' hb => ?_⟩
    rw [herror] at hb
    cases hb
  · have hrun : (m >>= f) s = f a t := bind_of_ok hms
    obtain ⟨hinv, hpost⟩ := hf a t hms (hm.of_ok hms).1 (hm.of_ok hms).2
    exact ⟨by rwa [hrun], fun b t' hb => hpost b t' (hrun ▸ hb)⟩

theorem Leaves.bind {m : Txn ε σ α} {f : α → Txn ε σ β} (hm : Leaves inv p m s)
    (hf : ∀ a t, inv t.db → p a t.db → Leaves inv q (f a) t) : Leaves inv q (m >>= f) s :=
  hm.bind_run fun a t _ => hf a t

/-- The first part may keep a stronger property than the whole. -/
theorem Leaves.bind_mono {m : Txn ε σ α} {f : α → Txn ε σ β} (hm : Leaves inv p m s)
    (hinv : ∀ db, inv db → inv' db) (hf : ∀ a t, inv t.db → p a t.db → Leaves inv' q (f a) t) :
    Leaves inv' q (m >>= f) s := by
  have hstronger : Leaves inv' (fun a db => inv db ∧ p a db) m s :=
    hm.mono hinv fun _ _ hdb hp => ⟨hdb, hp⟩
  exact hstronger.bind fun a t _ h => hf a t h.1 h.2

theorem Leaves.scope {m : Txn ε σ α} (hs : inv s.db) (hm : Leaves inv p m s) :
    Leaves inv p (scope m) s :=
  ⟨scope_keeps hs fun _ _ h => (hm.of_ok h).1, fun _ _ h => (hm.of_ok (scope_eq_ok.mp h)).2⟩

theorem Leaves.attempt_bind {m : Txn ε σ α} {f : Except ε α → Txn ε σ β} (hm : Leaves inv p m s)
    (hok : ∀ a t, inv t.db → p a t.db → Leaves inv q (f (.ok a)) t)
    (herror : ∀ e t, inv t.db → Leaves inv q (f (.error e)) t) : Leaves inv q (attempt m >>= f) s := by
  have hattempt : Leaves inv (fun r db => ∀ a, r = .ok a → p a db) (attempt m) s := by
    refine ⟨hm.1, fun r t h a hr => ?_⟩
    subst hr
    exact (hm.of_ok (attempt_eq_ok.mp h)).2
  refine hattempt.bind fun r t hinv hr => ?_
  cases r with
  | ok a => exact hok a t hinv (hr a rfl)
  | error e => exact herror e t hinv

end Triples

end TradingBot.Library.Transaction
