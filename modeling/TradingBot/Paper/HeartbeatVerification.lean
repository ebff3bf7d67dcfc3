import TradingBot.Paper.RuntimeLocking

namespace TradingBot.Paper.HeartbeatVerification

open Market.Models Exceptions Paper.Models Paper.Repository Paper.RuntimeLocking

section Model

structure HeartbeatCommitResult where
  previous : RuntimeState
  updated : RuntimeState
  observed : RuntimeState
deriving DecidableEq, Repr

/-- How far the call is: it holds the row it read at first, the time of the heartbeat and the row it loaded for the
update. -/
inductive Call
  | opened
  | began (previous : RuntimeState)
  | writing (previous : RuntimeState) (now : Time)
  | loaded (previous : RuntimeState) (now : Time) (row : RuntimeState)
  | flushed (previous : RuntimeState) (now : Time) (row : RuntimeState)
  | committed (previous : RuntimeState) (now : Time) (row : RuntimeState)
  | returned (result : HeartbeatCommitResult)
  | raised (exc : Exc)
deriving DecidableEq, Repr

/-- The call's transaction is the session `none`. `committed` is not in the source: whether it was committed. -/
structure World (S : Type) where
  system : System (Option S)
  call : Call := .opened
  committed : Bool := false

/-- A statement of another session, or the next one of the call; before its commit the call may fail, by a lock timeout
for one. -/
inductive Event (S : Type)
  | other (action : Action S)
  | getState
  | begin (now : Time)
  | load
  | flush
  | commit
  | fail (exc : Exc)
  | verify
deriving Repr

def ofOther {S : Type} : Action S → Action (Option S)
  | .begin s operation now => .begin (some s) operation now
  | .load s => .load (some s)
  | .flush s => .flush (some s)
  | .commit s => .commit (some s)
  | .rollback s => .rollback (some s)

def updatedRow (now : Time) (row : RuntimeState) : RuntimeState :=
  RuntimeUpdate.apply { heartbeatAt := some now } row

def notVisible : Exc := .runtimeError "committed heartbeat is not visible in a fresh database session"

/-- The comparison of the fresh session's row with the updated one. -/
def verdict (previous observed updated : RuntimeState) : Call :=
  if observed.heartbeatAt ≠ updated.heartbeatAt ∨ observed.version ≠ updated.version then .raised notVisible
  else .returned { previous, updated, observed }

variable {S : Type} [DecidableEq S]

namespace World

def abort (w : World S) (exc : Exc) : World S :=
  { w with system := w.system.step (.rollback none), call := .raised exc }

/-- Nothing happens where the call is elsewhere or waits for the lock of the row. -/
def step (w : World S) : Event S → World S
  | .other action => { w with system := w.system.step (ofOther action) }
  | .getState =>
    match w.call with
    | .opened => { w with call := .began w.system.row }
    | _ => w
  | .begin now =>
    match w.call with
    | .began previous => { w with system := w.system.step (.begin none .heartbeat now), call := .writing previous now }
    | _ => w
  | .load =>
    match w.call with
    | .writing previous now =>
      let system := w.system.step (.load none)
      match system.sessions none with
      | .loaded _ row _ _ => { w with system, call := .loaded previous now row }
      | _ => w.abort (.valueError "runtime_state version conflict")
    | _ => w
  | .flush =>
    match w.call with
    | .loaded previous now row =>
      let system := w.system.step (.flush none)
      match system.sessions none with
      | .flushed .. => { w with system, call := .flushed previous now row }
      | _ => w
    | _ => w
  | .commit =>
    match w.call with
    | .flushed previous now row =>
      { system := w.system.step (.commit none), call := .committed previous now row, committed := true }
    | _ => w
  | .fail exc =>
    match w.call with
    | .opened | .began _ | .writing .. | .loaded .. | .flushed .. => w.abort exc
    | _ => w
  | .verify =>
    match w.call with
    | .committed previous now row => { w with call := verdict previous w.system.row (updatedRow now row) }
    | _ => w

def run (w : World S) (events : List (Event S)) : World S := events.foldl step w

end World

def Reported (w : World S) : Prop :=
  (∀ result, w.call = .returned result → w.committed) ∧ ∀ exc, w.call = .raised exc → ¬w.committed

end Model

section Commits

variable {S : Type} {sys : System S} {start : RuntimeState}

def LastCommit (sys : System S) : Prop :=
  ∀ c ∈ sys.commits.getLast?, c.next = sys.row ∧ c.next.version = c.expectedVersion + 1

variable [DecidableEq S]

theorem step_commits (sys : System S) (action : Action S) :
    ((sys.step action).row = sys.row ∧ (sys.step action).commits = sys.commits) ∨
    ∃ s expectedVersion row seen, sys.sessions s = .flushed expectedVersion row seen ∧ (sys.step action).row = row ∧
      (sys.step action).commits = sys.commits ++ [⟨expectedVersion, seen, sys.row, row⟩] := by
  cases action with
  | begin s operation now =>
    simp only [System.step]
    split
    · exact .inl ⟨rfl, rfl⟩
    · exact .inl ⟨rfl, rfl⟩
  | load s =>
    simp only [System.step]
    split
    · split_ifs
      · exact .inl ⟨rfl, rfl⟩
      · exact .inl ⟨rfl, rfl⟩
    · exact .inl ⟨rfl, rfl⟩
  | flush s =>
    simp only [System.step]
    split
    · split_ifs
      · exact .inl ⟨rfl, rfl⟩
      · exact .inl ⟨rfl, rfl⟩
    · exact .inl ⟨rfl, rfl⟩
  | commit s =>
    cases hs : sys.sessions s with
    | flushed expectedVersion row seen =>
      simp only [System.step, hs]
      exact .inr ⟨s, expectedVersion, row, seen, hs, rfl, rfl⟩
    | idle | read | loaded =>
      left
      simp only [System.step, hs]
      exact ⟨trivial, trivial⟩
  | rollback s => exact .inl ⟨rfl, rfl⟩

theorem lastCommit_step (htracks : Tracks start sys) (h : LastCommit sys) (action : Action S) :
    LastCommit (sys.step action) := by
  cases step_commits sys action with
  | inl hsame =>
    simp only [LastCommit, hsame.1, hsame.2]
    exact h
  | inr hcommit =>
    obtain ⟨s, expectedVersion, row, seen, hs, hrow, hcommits⟩ := hcommit
    have hcoherent := htracks.sessions s
    rw [hs] at hcoherent
    intro c hc
    rw [hcommits, List.getLast?_concat, Option.mem_some_iff] at hc
    subst hc
    exact ⟨hrow.symm, hcoherent.next⟩

theorem commits_step_ne_nil (h : sys.commits ≠ []) (action : Action S) : (sys.step action).commits ≠ [] := by
  cases step_commits sys action with
  | inl hsame => exact hsame.2 ▸ h
  | inr hcommit =>
    obtain ⟨s, expectedVersion, row, seen, _, _, hcommits⟩ := hcommit
    rw [hcommits]
    exact List.append_ne_nil_of_left_ne_nil h _

end Commits

section Runs

variable {S : Type} [DecidableEq S] {w : World S} {start : RuntimeState}

def Placed (w : World S) : Prop :=
  match w.call with
  | .opened | .began _ => w.system.sessions none = .idle ∧ ¬w.committed
  | .writing _ now => (∃ current, w.system.sessions none = .read { heartbeatAt := some now } current) ∧ ¬w.committed
  | .loaded _ now row =>
    (∃ seen, w.system.sessions none = .loaded row.version row (updatedRow now row) seen) ∧ ¬w.committed
  | .flushed _ now row =>
    (∃ next seen, w.system.sessions none = .flushed row.version next seen ∧
      (now ≠ row.heartbeatAt → next.heartbeatAt = now)) ∧ ¬w.committed
  | .committed .. => w.system.commits ≠ [] ∧ w.committed
  | .returned _ => w.committed
  | .raised _ => True

structure Consistent (start : RuntimeState) (w : World S) : Prop where
  tracks : Tracks start w.system
  last : LastCommit w.system
  placed : Placed w

theorem set_other (sys : System (Option S)) (s : S) (progress : Progress) :
    (sys.set (some s) progress).sessions none = sys.sessions none :=
  Function.update_of_ne (Option.some_ne_none s).symm progress sys.sessions

theorem sessions_ofOther (sys : System (Option S)) (action : Action S) :
    (sys.step (ofOther action)).sessions none = sys.sessions none := by
  cases action with
  | begin s operation now =>
    simp only [ofOther, System.step]
    split
    · exact set_other sys s _
    · rfl
  | load s =>
    simp only [ofOther, System.step]
    split
    · split_ifs
      · exact set_other sys s _
      · exact set_other sys s _
    · rfl
  | flush s =>
    simp only [ofOther, System.step]
    split
    · rename_i expectedVersion row updated seen _
      split_ifs
      · exact set_other sys s (.flushed expectedVersion (setChanged row updated sys.row) seen)
      · rfl
    · rfl
  | commit s =>
    simp only [ofOther, System.step]
    split
    · exact set_other sys s .idle
    · rfl
  | rollback s => exact set_other sys s .idle

theorem session_load {sys : System S} {s : S} {update : RuntimeUpdate} {current : RuntimeState}
    (hs : sys.sessions s = .read update current) : (sys.step (.load s)).sessions s =
      if current.version ≠ sys.row.version then .idle
      else .loaded current.version sys.row (update.apply sys.row) sys.commits.length := by
  simp only [System.step, hs]
  split_ifs
  · exact Function.update_self s _ sys.sessions
  · exact Function.update_self s _ sys.sessions

theorem session_flush {sys : System S} {s : S} {expectedVersion seen : ℕ} {row updated : RuntimeState}
    (hs : sys.sessions s = .loaded expectedVersion row updated seen) : (sys.step (.flush s)).sessions s =
      if sys.rowLock.all (· = s) then .flushed expectedVersion (setChanged row updated sys.row) seen
      else .loaded expectedVersion row updated seen := by
  simp only [System.step, hs]
  split_ifs
  · exact Function.update_self s _ sys.sessions
  · exact hs

theorem Consistent.statement (h : Consistent start w) (action : Action (Option S)) {call : Call} {committed : Bool}
    (hplaced : Placed { system := w.system.step action, call, committed }) :
    Consistent start { system := w.system.step action, call, committed } :=
  ⟨tracks_step h.tracks action, lastCommit_step h.tracks h.last action, hplaced⟩

theorem Consistent.abort (h : Consistent start w) (exc : Exc) : Consistent start (w.abort exc) :=
  h.statement _ trivial

theorem consistent_step (h : Consistent start w) (event : Event S) : Consistent start (w.step event) := by
  have hplaced := h.placed
  cases event with
  | other action =>
    apply h.statement (ofOther action)
    simp only [Placed, sessions_ofOther] at hplaced ⊢
    cases hcall : w.call with
    | committed =>
      simp only [hcall] at hplaced ⊢
      exact ⟨commits_step_ne_nil hplaced.1 _, hplaced.2⟩
    | raised exc => trivial
    | _ =>
      simp only [hcall] at hplaced ⊢
      exact hplaced
  | getState =>
    simp only [World.step]
    split
    · rename_i hcall
      simp only [Placed, hcall] at hplaced
      exact ⟨h.tracks, h.last, hplaced⟩
    · exact h
  | begin now =>
    simp only [World.step]
    split
    · rename_i hcall
      simp only [Placed, hcall] at hplaced
      apply h.statement
      refine ⟨⟨w.system.row, ?_⟩, hplaced.2⟩
      simp only [System.step, hplaced.1, Operation.update]
      exact Function.update_self none _ w.system.sessions
    · exact h
  | load =>
    simp only [World.step]
    split
    · rename_i hcall
      simp only [Placed, hcall] at hplaced
      obtain ⟨⟨current, hread⟩, hnot⟩ := hplaced
      split
      · rename_i expectedVersion row updated seen hloaded
        apply h.statement
        refine ⟨⟨seen, ?_⟩, hnot⟩
        rw [session_load hread] at hloaded ⊢
        split_ifs at hloaded ⊢ with hversion
        cases hloaded
        rw [not_not.mp hversion]
        rfl
      · exact h.abort _
    · exact h
  | flush =>
    simp only [World.step]
    split
    · rename_i hcall
      simp only [Placed, hcall] at hplaced
      obtain ⟨⟨seen, hloaded⟩, hnot⟩ := hplaced
      split
      · rename_i expectedVersion next seen' hflushed
        apply h.statement
        rw [session_flush hloaded] at hflushed
        split_ifs at hflushed with hlock
        cases hflushed
        refine ⟨⟨_, seen, (session_flush hloaded).trans (if_pos hlock), ?_⟩, hnot⟩
        intro hne
        exact if_neg hne
      · exact h
    · exact h
  | commit =>
    simp only [World.step]
    split
    · rename_i hcall
      simp only [Placed, hcall] at hplaced
      obtain ⟨⟨next, seen, hflushed, _⟩, _⟩ := hplaced
      apply h.statement
      refine ⟨?_, rfl⟩
      simp only [System.step, hflushed]
      exact List.append_ne_nil_of_right_ne_nil _ (List.cons_ne_nil _ _)
    · exact h
  | fail exc =>
    simp only [World.step]
    split
    · exact h.abort exc
    · exact h.abort exc
    · exact h.abort exc
    · exact h.abort exc
    · exact h.abort exc
    · exact h
  | verify =>
    simp only [World.step]
    split
    · rename_i hcall
      simp only [Placed, hcall] at hplaced
      refine ⟨h.tracks, h.last, ?_⟩
      simp only [Placed, verdict]
      split_ifs
      · trivial
      · exact hplaced.2
    · exact h

theorem run_concat (w : World S) (events : List (Event S)) (event : Event S) :
    w.run (events ++ [event]) = (w.run events).step event := by
  simp only [World.run, List.foldl_append, List.foldl_cons, List.foldl_nil]

theorem consistent_run (h : Consistent start w) (events : List (Event S)) : Consistent start (w.run events) := by
  induction events generalizing w with
  | nil => exact h
  | cons event events ih => exact ih (consistent_step h event)

theorem raised_step {exc : Exc} (h : w.call = .raised exc) (event : Event S) :
    (w.step event).call = .raised exc ∧ (w.step event).committed = w.committed := by
  cases event with
  | other action => exact ⟨h, rfl⟩
  | _ =>
    simp only [World.step, h]
    exact ⟨trivial, trivial⟩

theorem raised_run {exc : Exc} (h : w.call = .raised exc) (events : List (Event S)) :
    (w.run events).call = .raised exc ∧ (w.run events).committed = w.committed := by
  induction events generalizing w with
  | nil => exact ⟨h, rfl⟩
  | cons event events ih =>
    obtain ⟨hcall, hcommitted⟩ := raised_step h event
    obtain ⟨hcall', hcommitted'⟩ := ih hcall
    exact ⟨hcall', hcommitted'.trans hcommitted⟩

end Runs

section Verification

variable {S : Type} {w : World S} {start : RuntimeState}

def Confirms (sys : System (Option S)) (now : Time) (row : RuntimeState) : Prop :=
  ∀ c ∈ sys.commits.getLast?, c.expectedVersion = row.version ∧ c.next.heartbeatAt = now

theorem verdict_returned_iff (h : Consistent start w) {previous row : RuntimeState} {now : Time}
    (hcall : w.call = .committed previous now row) :
    verdict previous w.system.row (updatedRow now row) ≠ .raised notVisible ↔ Confirms w.system now row := by
  have hplaced := h.placed
  simp only [Placed, hcall] at hplaced
  have hc := List.getLast?_eq_some_getLast hplaced.1
  generalize w.system.commits.getLast hplaced.1 = c at hc
  obtain ⟨hnext, hversion⟩ := h.last c hc
  have hupdated : (updatedRow now row).heartbeatAt = now ∧ (updatedRow now row).version = row.version + 1 :=
    ⟨rfl, rfl⟩
  simp only [Confirms, hc, Option.mem_some_iff, forall_eq']
  simp only [verdict, hupdated.1, hupdated.2, ← hnext, hversion, ne_eq, Nat.add_right_cancel_iff]
  split_ifs with hdiffers
  · refine iff_of_false (fun hne => hne rfl) ?_
    rintro ⟨hexpected, htime⟩
    cases hdiffers with
    | inl hne => exact hne htime
    | inr hne => exact hne hexpected
  · obtain ⟨htime, hexpected⟩ := not_or.mp hdiffers
    exact iff_of_true (by simp) ⟨not_not.mp hexpected, not_not.mp htime⟩

theorem reported_of_running (hreturned : ∀ result, w.call ≠ .returned result) (hraised : ∀ exc, w.call ≠ .raised exc) :
    Reported w :=
  ⟨fun result h => absurd h (hreturned result), fun exc h => absurd h (hraised exc)⟩

variable [DecidableEq S]

theorem reported_abort (h : ¬w.committed) (exc : Exc) : Reported (w.abort exc) :=
  ⟨fun result hcall => (by cases hcall), fun _ _ => h⟩

theorem reported_step (hconsistent : Consistent start w) (h : Reported w) (event : Event S)
    (hconfirms : event = .verify → ∀ previous now row, w.call = .committed previous now row →
      Confirms w.system now row) : Reported (w.step event) := by
  have hplaced := hconsistent.placed
  cases event with
  | other action => exact h
  | getState =>
    simp only [World.step]
    split
    · exact reported_of_running (by simp) (by simp)
    · exact h
  | begin now =>
    simp only [World.step]
    split
    · exact reported_of_running (by simp) (by simp)
    · exact h
  | load =>
    simp only [World.step]
    split
    · rename_i hcall
      simp only [Placed, hcall] at hplaced
      split
      · exact reported_of_running (by simp) (by simp)
      · exact reported_abort hplaced.2 _
    · exact h
  | flush =>
    simp only [World.step]
    split
    · split
      · exact reported_of_running (by simp) (by simp)
      · exact h
    · exact h
  | commit =>
    simp only [World.step]
    split
    · exact reported_of_running (by simp) (by simp)
    · exact h
  | fail exc =>
    simp only [World.step]
    cases hcall : w.call with
    | opened | began | writing | loaded | flushed =>
      simp only [Placed, hcall] at hplaced
      exact reported_abort hplaced.2 exc
    | committed | returned | raised => exact h
  | verify =>
    simp only [World.step]
    split
    · rename_i previous now row hcall
      have hreturned := (verdict_returned_iff hconsistent hcall).mpr (hconfirms rfl previous now row hcall)
      simp only [Placed, hcall] at hplaced
      refine ⟨fun _ _ => hplaced.2, ?_⟩
      intro exc hraised
      simp only [verdict] at hraised hreturned
      split_ifs at hraised hreturned with hdiffers
      exact absurd rfl hreturned
    · exact h

/-- A failing verification makes the call raise although its transaction was committed, whatever comes after it. -/
theorem not_reported_of_unconfirmed (hconsistent : Consistent start w) {previous row : RuntimeState} {now : Time}
    (hcall : w.call = .committed previous now row) (h : ¬Confirms w.system now row) (rest : List (Event S)) :
    ¬Reported ((w.step .verify).run rest) := by
  have hplaced := hconsistent.placed
  simp only [Placed, hcall] at hplaced
  have hraised : (w.step .verify).call = .raised notVisible := by
    by_contra hne
    apply h
    apply (verdict_returned_iff hconsistent hcall).mp
    simp only [World.step, hcall] at hne
    exact hne
  have hcommitted : (w.step .verify).committed = w.committed := by
    simp only [World.step, hcall]
  obtain ⟨hcall', hcommitted'⟩ := raised_run hraised rest
  intro hreported
  apply hreported.2 notVisible hcall'
  rw [hcommitted', hcommitted]
  exact hplaced.2

/-- In a run with any other writers the call reports its commit, exactly when each verification finds the row as an
update left it that was made from the heartbeat's own version and has the heartbeat's time. -/
theorem heartbeat_reported_iff (start : RuntimeState) (events : List (Event S)) :
    Reported (World.run { system := { row := start } } events) ↔
      ∀ past rest, events = past ++ .verify :: rest → ∀ previous now row,
        (World.run { system := { row := start } } past).call = .committed previous now row →
        Confirms (World.run { system := { row := start } } past).system now row := by
  have hstart : Consistent (S := S) start { system := { row := start } } :=
    ⟨tracks_init start, fun c hc => (by cases hc), rfl, Bool.false_ne_true⟩
  constructor
  · intro hreported past rest hevents previous now row hcall
    by_contra hnot
    apply not_reported_of_unconfirmed (consistent_run hstart past) hcall hnot rest
    rw [hevents] at hreported
    simp only [World.run, List.foldl_append, List.foldl_cons] at hreported ⊢
    exact hreported
  · induction events using List.reverseRecOn with
    | nil => exact fun _ => reported_of_running (by simp [World.run]) (by simp [World.run])
    | append_singleton events event ih =>
      intro hconfirms
      have hearlier := ih fun past rest hevents => hconfirms past (rest ++ [event]) (by simp [hevents])
      rw [run_concat]
      apply reported_step (consistent_run hstart events) hearlier event
      rintro rfl previous now row hcall
      exact hconfirms events [] rfl previous now row hcall

def pausedMeanwhile : List (Event Unit) :=
  [.getState, .begin 1, .load, .flush, .commit, .other (.begin () (.setPaused true) 2), .other (.load ()),
    .other (.flush ()), .other (.commit ()), .verify]

/-- The heartbeat is committed, and the call raises. -/
theorem paused_meanwhile_raises : ¬ ∀ (start : RuntimeState) (events : List (Event Unit)),
    Reported (World.run { system := { row := start } } events) := by
  intro h
  have hreported := h { status := .ready, heartbeatAt := 0 } pausedMeanwhile
  have hraised : (World.run { system := { row := { status := .ready, heartbeatAt := 0 } } } pausedMeanwhile).call =
      .raised notVisible := by decide
  exact hreported.2 notVisible hraised (by decide)

end Verification

end TradingBot.Paper.HeartbeatVerification
