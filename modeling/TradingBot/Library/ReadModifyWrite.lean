import Mathlib.Algebra.Order.Ring.Int
import Mathlib.Logic.Function.Basic
import TradingBot.Library.Trace

namespace TradingBot.Library.ReadModifyWrite

open Library.Trace

inductive Decision (O C : Type)
  | done
  | write (content : C)
  | again (call : O)

/-- The calls on one shared content: whether a call looks at it at all, whether it takes the lock that excludes the
calls of other processes, and what it decides at a time. -/
structure Calls (O C : Type) where
  enters : O → Bool
  locked : O → Bool
  decide : ℤ → O → C → Decision O C

inductive Stage (C : Type)
  | entered
  | read (seen : C)
  | ready (seen next : C)

def Stage.seen {C : Type} : Stage C → Option C
  | .entered => none
  | .read seen | .ready seen _ => some seen

/-- The content, the calls in progress, of which a process has one at a time, and the owner of the lock. -/
structure World (P O C : Type) where
  now : ℤ
  content : C
  calls : P → Option (O × Stage C) := fun _ => none
  lock : Option P := none

inductive Action (P O : Type)
  | tick (elapsed : ℕ)
  | enter (p : P) (call : O)
  | read (p : P)
  | decide (p : P)
  | write (p : P)
  | crash (p : P)

variable {P O C : Type} [DecidableEq P] (ops : Calls O C)

namespace World

def set (w : World P O C) (p : P) (call : O) (stage : Stage C) : World P O C :=
  { w with calls := Function.update w.calls p (some (call, stage)) }

/-- The end of a call, or of its process, gives up the lock. -/
def leave (w : World P O C) (p : P) : World P O C :=
  { w with calls := Function.update w.calls p none, lock := if w.lock = some p then none else w.lock }

def step (w : World P O C) : Action P O → Option (World P O C)
  | .tick elapsed => some { w with now := w.now + elapsed }
  | .enter p call =>
    if (w.calls p).isSome ∨ !ops.enters call then none
    else if !ops.locked call then some (w.set p call .entered)
    else if w.lock.isSome then none
    else some { w.set p call .entered with lock := some p }
  | .read p =>
    match w.calls p with
    | some (call, .entered) => some (w.set p call (.read w.content))
    | _ => none
  | .decide p =>
    match w.calls p with
    | some (call, .read seen) =>
      match ops.decide w.now call seen with
      | .done => some (w.leave p)
      | .write next => some (w.set p call (.ready seen next))
      | .again call => some (w.set p call .entered)
    | _ => none
  | .write p =>
    match w.calls p with
    | some (_, .ready _ next) => some { w.leave p with content := next }
    | _ => none
  | .crash p => some (w.leave p)

end World

def idle (now : ℤ) (content : C) : World P O C := { now, content }

def Writes (w : World P O C) (e : Action P O) (call : O) (seen next : C) : Prop :=
  ∃ p, e = .write p ∧ w.calls p = some (call, .ready seen next)

variable {ops} {w w' : World P O C} {p q : P} {call call' : O} {stage : Stage C} {seen next : C} {e : Action P O}

@[simp] theorem set_calls : (w.set p call stage).calls q = if q = p then some (call, stage) else w.calls q := by
  simp [World.set, Function.update_apply]

@[simp] theorem leave_calls : (w.leave p).calls q = if q = p then none else w.calls q := by
  simp [World.leave, Function.update_apply]

def Decided (ops : Calls O C) (w : World P O C) : Prop :=
  ∀ p call seen next, w.calls p = some (call, .ready seen next) →
    ∃ t ≤ w.now, ops.decide t call seen = .write next

omit [DecidableEq P] in
theorem decided_idle {now : ℤ} {content : C} : Decided ops (idle now content : World P O C) := by
  intro p call seen next h
  cases h

theorem Decided.set (hw : Decided ops w) (hready : ∀ seen next, stage = .ready seen next →
    ∃ t ≤ w.now, ops.decide t call seen = .write next) : Decided ops (w.set p call stage) := by
  intro q call' seen next h
  rw [set_calls] at h
  by_cases hq : q = p
  · rw [if_pos hq, Option.some.injEq, Prod.mk.injEq] at h
    obtain ⟨rfl, hstage⟩ := h
    exact hready seen next hstage
  · rw [if_neg hq] at h
    exact hw q call' seen next h

theorem Decided.leave (hw : Decided ops w) : Decided ops (w.leave p) := by
  intro q call seen next h
  rw [leave_calls] at h
  split_ifs at h
  exact hw q call seen next h

theorem Decided.step (hw : Decided ops w) (h : w.step ops e = some w') : Decided ops w' := by
  cases e with
  | tick elapsed =>
    cases h
    intro q call seen next hq
    obtain ⟨t, ht, hdecide⟩ := hw q call seen next hq
    exact ⟨t, ht.trans (Int.le_add_of_nonneg_right (Int.natCast_nonneg elapsed)), hdecide⟩
  | enter p call =>
    simp only [World.step] at h
    split_ifs at h <;> cases h
    · exact hw.set fun _ _ hstage => nomatch hstage
    · exact Decided.set hw fun _ _ hstage => nomatch hstage
  | read p =>
    simp only [World.step] at h
    split at h <;> cases h
    exact hw.set fun _ _ hstage => nomatch hstage
  | decide p =>
    simp only [World.step] at h
    split at h
    · split at h <;> cases h
      · exact hw.leave
      · next hdecide =>
        refine hw.set ?_
        intro _ _ hstage
        cases hstage
        exact ⟨w.now, le_rfl, hdecide⟩
      · exact hw.set fun _ _ hstage => nomatch hstage
    · cases h
  | write p =>
    simp only [World.step] at h
    split at h <;> cases h
    exact hw.leave
  | crash p =>
    cases h
    exact hw.leave

section Runs

variable {now : ℤ} {content : C} {es : List (Action P O)}

theorem writes_decided (h : Taken (World.step ops) (idle now content) es w e w') (hwrite : Writes w e call seen next) :
    ∃ t ≤ w.now, ops.decide t call seen = .write next := by
  obtain ⟨p, -, hcall⟩ := hwrite
  refine reached_induction decided_idle ?_ h.reached.1 p call seen next hcall
  rintro t e u ht ⟨-, -, -, hstep⟩
  exact ht.step hstep

end Runs

section Exclusion

/-- A call in progress that takes the lock holds it. -/
def Exclusive (ops : Calls O C) (w : World P O C) : Prop :=
  ∀ p call stage, w.calls p = some (call, stage) → ops.locked call = true → w.lock = some p

theorem Exclusive.set (hw : Exclusive ops w) (hlocked : ops.locked call = true → w.lock = some p) :
    Exclusive ops (w.set p call stage) := by
  intro q call' stage' h htakes
  rw [set_calls] at h
  split_ifs at h with hq
  · cases h
    exact hq ▸ hlocked htakes
  · exact hw q call' stage' h htakes

theorem Exclusive.leave (hw : Exclusive ops w) : Exclusive ops (w.leave p) := by
  intro q call stage h htakes
  rw [leave_calls] at h
  split_ifs at h with hq
  have hlock := hw q call stage h htakes
  simp only [World.leave, hlock, Option.some.injEq, if_neg hq]

theorem Exclusive.step (hagain : ∀ t call seen call', ops.decide t call seen = .again call' →
    ops.locked call' = ops.locked call) (hw : Exclusive ops w) (h : w.step ops e = some w') : Exclusive ops w' := by
  cases e with
  | tick elapsed =>
    cases h
    exact hw
  | enter p call =>
    simp only [World.step] at h
    split_ifs at h with hbusy hunlocked hheld <;> cases h
    · exact hw.set fun hlocked => by simp [hlocked] at hunlocked
    · intro q call' stage' hcall htakes
      have hcall : (w.set p call .entered).calls q = some (call', stage') := hcall
      rw [set_calls] at hcall
      split_ifs at hcall with hq
      · rw [hq]
      · rw [hw q call' stage' hcall htakes] at hheld
        exact absurd rfl hheld
  | read p =>
    simp only [World.step] at h
    split at h <;> cases h
    next call hp => exact hw.set (hw p call _ hp)
  | decide p =>
    simp only [World.step] at h
    split at h
    · next call seen hp =>
      split at h <;> cases h
      · exact hw.leave
      · exact hw.set (hw p call _ hp)
      · next call' hdecide => exact hw.set (hagain _ _ _ _ hdecide ▸ hw p call _ hp)
    · cases h
  | write p =>
    simp only [World.step] at h
    split at h <;> cases h
    exact hw.leave (p := p)
  | crash p =>
    cases h
    exact hw.leave

theorem exclusive_of_run {now : ℤ} {content : C} {done : List (Action P O)}
    (hagain : ∀ t call seen call', ops.decide t call seen = .again call' → ops.locked call' = ops.locked call)
    (h : run (World.step ops) (idle now content) done = some w) : Exclusive ops w := by
  have hreached : Reached (World.step ops) (idle now content) done w := ⟨done, List.prefix_rfl, h⟩
  refine reached_induction ?_ (fun t e u ht htaken => ?_) hreached
  · intro p call stage hcall
    cases hcall
  · obtain ⟨-, -, -, hstep⟩ := htaken
    exact ht.step hagain hstep

end Exclusion

section Overlaps

/-- Since the call of `p` has read, the last write was the one of another call, which left `next`. -/
def Overtaken (ops : Calls O C) (w₀ : World P O C) (done : List (Action P O)) (p : P) (call other : O) (next : C) : Prop :=
  ∃ before since rest q u stage seen, done = before ++ .read p :: since ++ .write q :: rest ∧ q ≠ p ∧
    (∀ e ∈ since ++ rest, e ≠ .read p) ∧ (∀ r, .write r ∉ rest) ∧
    run (World.step ops) w₀ (before ++ .read p :: since) = some u ∧
    u.calls p = some (call, stage) ∧ u.calls q = some (other, .ready seen next)

/-- What a step is to a call that has read, and to the content under it. -/
inductive Passes (w : World P O C) (p : P) (call : O) (seen : C) (e : Action P O) (w' : World P O C) : Prop
  | reads (he : e = .read p) (hcontent : w'.content = seen)
  | other {stage : Stage C} (he : e ≠ .read p) (hcall : w.calls p = some (call, stage)) (hseen : stage.seen = some seen)
      (hwrite : ∀ q, e ≠ .write q) (hcontent : w'.content = w.content)
  | overtakes {stage : Stage C} {q : P} {other : O} {read : C} (hcall : w.calls p = some (call, stage))
      (hseen : stage.seen = some seen) (he : e = .write q) (hq : q ≠ p)
      (hother : w.calls q = some (other, .ready read w'.content))

theorem calls_of_set {after : Stage C} (h : (w.set q call' after).calls p = some (call, stage)) :
    p = q ∧ call' = call ∧ after = stage ∨ p ≠ q ∧ w.calls p = some (call, stage) := by
  rw [set_calls] at h
  split_ifs at h with hq
  · cases h
    exact .inl ⟨hq, rfl, rfl⟩
  · exact .inr ⟨hq, h⟩

theorem calls_of_leave (h : (w.leave q).calls p = some (call, stage)) : p ≠ q ∧ w.calls p = some (call, stage) := by
  rw [leave_calls] at h
  split_ifs at h with hq
  exact ⟨hq, h⟩

theorem step_passes (h : w.step ops e = some w') (hcall : w'.calls p = some (call, stage))
    (hseen : stage.seen = some seen) : Passes w p call seen e w' := by
  cases e with
  | tick elapsed =>
    cases h
    exact .other nofun hcall hseen nofun rfl
  | enter q call' =>
    obtain ⟨hset, hcontent⟩ :
        (w.set q call' .entered).calls p = some (call, stage) ∧ w'.content = w.content := by
      simp only [World.step] at h
      split_ifs at h <;> cases h <;> exact ⟨hcall, rfl⟩
    obtain ⟨-, -, rfl⟩ | ⟨-, hcall⟩ := calls_of_set hset
    · cases hseen
    · exact .other nofun hcall hseen nofun hcontent
  | read q =>
    simp only [World.step] at h
    split at h <;> cases h
    obtain ⟨rfl, -, rfl⟩ | ⟨hq, hcall⟩ := calls_of_set hcall
    · cases hseen
      exact .reads rfl rfl
    · exact .other (fun he => hq (Action.read.inj he).symm) hcall hseen nofun rfl
  | decide q =>
    simp only [World.step] at h
    split at h
    · next call' read hread =>
      split at h <;> cases h
      · exact .other nofun (calls_of_leave hcall).2 hseen nofun rfl
      · obtain ⟨rfl, rfl, rfl⟩ | ⟨-, hcall⟩ := calls_of_set hcall
        · exact .other nofun hread hseen nofun rfl
        · exact .other nofun hcall hseen nofun rfl
      · obtain ⟨-, -, rfl⟩ | ⟨-, hcall⟩ := calls_of_set hcall
        · cases hseen
        · exact .other nofun hcall hseen nofun rfl
    · cases h
  | write q =>
    simp only [World.step] at h
    split at h <;> cases h
    next hready =>
    obtain ⟨hq, hcall⟩ := calls_of_leave (q := q) hcall
    exact .overtakes hcall hseen rfl hq.symm hready
  | crash q =>
    cases h
    exact .other nofun (calls_of_leave hcall).2 hseen nofun rfl

/-- A call that finds another content than it has read was overtaken by the call that wrote it. -/
theorem exists_read {now : ℤ} {content : C} {done : List (Action P O)}
    (h : run (World.step ops) (idle now content) done = some w) (hcall : w.calls p = some (call, stage))
    (hseen : stage.seen = some seen) :
    (∃ before since, done = before ++ .read p :: since ∧ ∀ e ∈ since, e ≠ .read p) ∧
      (w.content = seen ∨ ∃ other, Overtaken ops (idle now content) done p call other w.content) := by
  induction done using List.reverseRecOn generalizing w stage with
  | nil =>
    cases h
    cases hcall
  | append_singleton done e ih =>
    rw [run_concat] at h
    obtain ⟨u, hu, hstep⟩ := Option.bind_eq_some_iff.mp h
    cases step_passes hstep hcall hseen with
    | reads he hcontent => exact ⟨⟨done, [], by rw [he], nofun⟩, .inl hcontent⟩
    | other he hbefore hread hwrite hcontent =>
      obtain ⟨⟨before, since, rfl, hsince⟩, hlast⟩ := ih hu hbefore hread
      refine ⟨⟨before, since ++ [e], by simp, fun e' he' => ?_⟩, ?_⟩
      · rcases List.mem_append.mp he' with hmem | hmem
        · exact hsince e' hmem
        · exact List.mem_singleton.mp hmem ▸ he
      · rw [hcontent]
        refine hlast.imp_right fun ⟨other, before, since, rest, q, t, stage, read, hdone, hq, hreads, hwrites, hrun⟩ => ?_
        refine ⟨other, before, since, rest ++ [e], q, t, stage, read, by rw [hdone]; simp, hq, fun e' he' => ?_, ?_, hrun⟩
        · rw [← List.append_assoc] at he'
          rcases List.mem_append.mp he' with hmem | hmem
          · exact hreads e' hmem
          · exact List.mem_singleton.mp hmem ▸ he
        · intro r hr
          rcases List.mem_append.mp hr with hmem | hmem
          · exact hwrites r hmem
          · exact hwrite r (List.mem_singleton.mp hmem).symm
    | @overtakes _ q _ _ hbefore hread he hq hother =>
      obtain ⟨⟨before, since, rfl, hsince⟩, -⟩ := ih hu hbefore hread
      subst he
      refine ⟨⟨before, since ++ [.write q], by simp, fun e' he' => ?_⟩, .inr ?_⟩
      · rcases List.mem_append.mp he' with hmem | hmem
        · exact hsince e' hmem
        · exact List.mem_singleton.mp hmem ▸ nofun
      · exact ⟨_, before, since, [], _, u, _, _, rfl, hq, by simpa using hsince, nofun, hu, hbefore, hother⟩

theorem run_content {since : List (Action P O)} (h : run (World.step ops) w since = some w')
    (hwrite : ∀ q, .write q ∉ since) : w'.content = w.content := by
  induction since using List.reverseRecOn generalizing w' with
  | nil =>
    cases h
    rfl
  | append_singleton since e ih =>
    rw [run_concat] at h
    obtain ⟨u, hu, hstep⟩ := Option.bind_eq_some_iff.mp h
    have hbefore := ih hu fun q hq => hwrite q (List.mem_append_left _ hq)
    rw [← hbefore]
    cases e with
    | write q => exact absurd (List.mem_append_right _ (List.mem_singleton.mpr rfl)) (hwrite q)
    | tick elapsed =>
      cases hstep
      rfl
    | enter q call =>
      simp only [World.step] at hstep
      split_ifs at hstep <;> cases hstep <;> rfl
    | read q =>
      simp only [World.step] at hstep
      split at hstep <;> cases hstep
      rfl
    | decide q =>
      simp only [World.step] at hstep
      split at hstep
      · split at hstep <;> cases hstep <;> rfl
      · cases hstep
    | crash q =>
      cases hstep
      rfl

theorem Overtaken.content {w₀ : World P O C} {done : List (Action P O)} {other : O}
    (h : Overtaken ops w₀ done p call other next) (hrun : run (World.step ops) w₀ done = some w) : w.content = next := by
  obtain ⟨before, since, rest, q, u, stage, seen, rfl, hq, -, hrest, hu, -, hready⟩ := h
  rw [List.append_cons, run_append, run_concat, hu] at hrun
  obtain ⟨v, hv, hrun⟩ := Option.bind_eq_some_iff.mp hrun
  rw [run_content hrun hrest]
  simp only [Option.bind_some, World.step, hready] at hv
  cases hv
  rfl

end Overlaps

end TradingBot.Library.ReadModifyWrite
