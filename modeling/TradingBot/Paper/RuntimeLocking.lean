import TradingBot.Paper.Runtime

namespace TradingBot.Paper.RuntimeLocking

open Market.Models Exceptions Library.Transaction Paper.Models Paper.Repository Paper.Runtime

section Model

/-- The calls that change the runtime row in a transaction of their own. -/
inductive Operation
  | transition (target : RuntimeStatus) (lastError : Option String)
  | heartbeat
  | setPaused (paused : Bool)
  | setKillSwitch (enabled : Bool)
deriving DecidableEq, Repr

/-- What a call wants to change, with the row it read first. -/
def Operation.update (now : Time) (current : RuntimeState) : Operation → Except Exc RuntimeUpdate
  | .transition target lastError =>
    (validateRuntimeTransition current.status target).map fun _ =>
      { status := some target
        lastError := lastError.or current.lastError
        startedAt := if target = .starting then some now else none
        heartbeatAt := some now }
  | .heartbeat => .ok { heartbeatAt := some now }
  | .setPaused paused => .ok { paused := some paused }
  | .setKillSwitch enabled => .ok { killSwitch := some enabled }

/-- An UPDATE sets the columns that differ from the row as it was loaded, and no others. -/
def setChanged (loaded updated latest : RuntimeState) : RuntimeState :=
  { status := if updated.status = loaded.status then latest.status else updated.status
    lastError := if updated.lastError = loaded.lastError then latest.lastError else updated.lastError
    startedAt := if updated.startedAt = loaded.startedAt then latest.startedAt else updated.startedAt
    heartbeatAt := if updated.heartbeatAt = loaded.heartbeatAt then latest.heartbeatAt else updated.heartbeatAt
    killSwitch := if updated.killSwitch = loaded.killSwitch then latest.killSwitch else updated.killSwitch
    paused := if updated.paused = loaded.paused then latest.paused else updated.paused
    version := if updated.version = loaded.version then latest.version else updated.version }

/-- How far the transaction of a session is. `seen` is not in the source: it counts the commits before the
row was loaded. -/
inductive Progress
  | idle
  | read (update : RuntimeUpdate) (current : RuntimeState)
  | loaded (expectedVersion : ℕ) (row updated : RuntimeState) (seen : ℕ)
  | flushed (expectedVersion : ℕ) (row : RuntimeState) (seen : ℕ)

/-- A committed update, with the committed row it replaced. -/
structure Commit where
  expectedVersion : ℕ
  seen : ℕ
  previous : RuntimeState
  next : RuntimeState
deriving DecidableEq, Repr

structure System (S : Type) where
  row : RuntimeState
  sessions : S → Progress := fun _ => .idle
  rowLock : Option S := none
  commits : List Commit := []

/-- A SELECT of `get_state`, the SELECT and the version check of `update_runtime_state`, its UPDATE and the
commit; a transaction may be rolled back at any time. -/
inductive Action (S : Type)
  | begin (s : S) (operation : Operation) (now : Time)
  | load (s : S)
  | flush (s : S)
  | commit (s : S)
  | rollback (s : S)
deriving Repr

variable {S : Type} [DecidableEq S]

namespace System

def set (sys : System S) (s : S) (progress : Progress) : System S :=
  { sys with sessions := Function.update sys.sessions s progress }

def unlock (sys : System S) (s : S) : Option S := if sys.rowLock = some s then none else sys.rowLock

def step (sys : System S) : Action S → System S
  | .begin s operation now =>
    match sys.sessions s, operation.update now sys.row with
    | .idle, .ok update => sys.set s (.read update sys.row)
    | _, _ => sys
  | .load s =>
    match sys.sessions s with
    | .read update current =>
      if current.version ≠ sys.row.version then sys.set s .idle
      else sys.set s (.loaded current.version sys.row (update.apply sys.row) sys.commits.length)
    | _ => sys
  | .flush s =>
    match sys.sessions s with
    | .loaded expectedVersion row updated seen =>
      if sys.rowLock.all (· = s) then
        { sys.set s (.flushed expectedVersion (setChanged row updated sys.row) seen) with rowLock := some s }
      else sys
    | _ => sys
  | .commit s =>
    match sys.sessions s with
    | .flushed expectedVersion row seen =>
      { sys.set s .idle with
        row
        rowLock := sys.unlock s
        commits := sys.commits ++ [⟨expectedVersion, seen, sys.row, row⟩] }
    | _ => sys
  | .rollback s => { sys.set s .idle with rowLock := sys.unlock s }

def run (sys : System S) (actions : List (Action S)) : System S := actions.foldl step sys

end System

end Model

section Versions

variable {S : Type} {sys : System S} {start : RuntimeState}

def Serialized (c : Commit) : Prop :=
  c.next.version = c.previous.version + 1 ∧ c.expectedVersion = c.previous.version

instance : DecidablePred Serialized := fun c => by
  unfold Serialized
  infer_instance

/-- No update was committed between the load of the row and the commit of its own update. -/
def Undisturbed (commits : List Commit) : Prop := ∀ (k : ℕ) (c : Commit), commits[k]? = some c → c.seen = k

/-- The versions a transaction carries, as long as all updates before its load were serialized. -/
structure Carries (start : RuntimeState) (sys : System S) (expectedVersion seen version : ℕ) : Prop where
  next : version = expectedVersion + 1
  expected : (∀ c ∈ sys.commits, Serialized c) → expectedVersion = start.version + seen

def Coherent (start : RuntimeState) (sys : System S) : Progress → Prop
  | .loaded expectedVersion row updated seen =>
    row.version = expectedVersion ∧ Carries start sys expectedVersion seen updated.version
  | .flushed expectedVersion row seen => Carries start sys expectedVersion seen row.version
  | _ => True

structure Tracks (start : RuntimeState) (sys : System S) : Prop where
  version : (∀ c ∈ sys.commits, Serialized c) → sys.row.version = start.version + sys.commits.length
  sessions : ∀ s, Coherent start sys (sys.sessions s)
  agree : (∀ c ∈ sys.commits, Serialized c) ↔ Undisturbed sys.commits

theorem coherent_of_commits {sys' : System S} {p : Progress} (h : Coherent start sys p)
    (hcommits : (∀ c ∈ sys'.commits, Serialized c) → ∀ c ∈ sys.commits, Serialized c) :
    Coherent start sys' p := by
  cases p with
  | idle => trivial
  | read update current => trivial
  | loaded expectedVersion row updated seen =>
    exact ⟨h.1, h.2.next, fun hall => h.2.expected (hcommits hall)⟩
  | flushed expectedVersion row seen => exact ⟨h.next, fun hall => h.expected (hcommits hall)⟩

theorem undisturbed_append {commits : List Commit} {c : Commit} :
    Undisturbed (commits ++ [c]) ↔ Undisturbed commits ∧ c.seen = commits.length := by
  constructor
  · intro h
    refine ⟨fun k d hk => h k d ?_, h _ _ List.getElem?_concat_length⟩
    obtain ⟨hlt, _⟩ := List.getElem?_eq_some_iff.mp hk
    rw [List.getElem?_append_left hlt, hk]
  · rintro ⟨hold, hnew⟩ k d hk
    rcases Nat.lt_or_ge k commits.length with hlt | hge
    · rw [List.getElem?_append_left hlt] at hk
      exact hold k d hk
    · rw [List.getElem?_append_right hge] at hk
      obtain ⟨hlt, hd⟩ := List.getElem?_eq_some_iff.mp hk
      have hzero : k - commits.length = 0 := by simpa using hlt
      simp only [hzero, List.getElem_cons_zero] at hd
      rw [← hd, hnew]
      omega

theorem setChanged_version {loaded updated latest : RuntimeState} (h : updated.version = loaded.version + 1) :
    (setChanged loaded updated latest).version = updated.version := by
  have hne : updated.version ≠ loaded.version := by omega
  exact if_neg hne

theorem tracks_init (start : RuntimeState) : Tracks (S := S) start { row := start } :=
  ⟨fun _ => rfl, fun _ => trivial, by simp [Undisturbed]⟩

variable [DecidableEq S]

theorem Tracks.set (h : Tracks start sys) (s : S) {p : Progress} (hp : Coherent start sys p)
    (rowLock : Option S) : Tracks start { sys.set s p with rowLock } := by
  refine ⟨h.version, fun s' => ?_, h.agree⟩
  have hsession : Coherent start sys (Function.update sys.sessions s p s') := by
    by_cases hs : s' = s
    · rw [hs, Function.update_self]
      exact hp
    · rw [Function.update_of_ne hs]
      exact h.sessions s'
  exact coherent_of_commits hsession id

theorem Tracks.commit (h : Tracks start sys) (s : S) {expectedVersion seen : ℕ} {row : RuntimeState}
    (hs : sys.sessions s = .flushed expectedVersion row seen) : Tracks start (sys.step (.commit s)) := by
  have hcarries : Carries start sys expectedVersion seen row.version := by
    have hcoherent := h.sessions s
    rw [hs] at hcoherent
    exact hcoherent
  have hall : (∀ c ∈ sys.commits ++ [⟨expectedVersion, seen, sys.row, row⟩], Serialized c) ↔
      (∀ c ∈ sys.commits, Serialized c) ∧ seen = sys.commits.length := by
    rw [List.forall_mem_append, List.forall_mem_singleton]
    refine and_congr_right fun hold => ?_
    have hversion := h.version hold
    have hexpected := hcarries.expected hold
    have hnext := hcarries.next
    unfold Serialized
    simp only
    omega
  have hstep : sys.step (.commit s) = { sys.set s .idle with
      row
      rowLock := sys.unlock s
      commits := sys.commits ++ [⟨expectedVersion, seen, sys.row, row⟩] } := by
    simp only [System.step, hs]
  rw [hstep]
  refine ⟨fun hnew => ?_, fun s' => ?_, ?_⟩
  · obtain ⟨hold, hseen⟩ := hall.mp hnew
    have hexpected := hcarries.expected hold
    have hnext := hcarries.next
    simp only [List.length_append, List.length_singleton]
    omega
  · have hsession : Coherent start sys (Function.update sys.sessions s .idle s') := by
      by_cases hs' : s' = s
      · rw [hs', Function.update_self]
        trivial
      · rw [Function.update_of_ne hs']
        exact h.sessions s'
    exact coherent_of_commits hsession fun hnew => (hall.mp hnew).1
  · rw [undisturbed_append, ← h.agree]
    exact hall

theorem tracks_step (h : Tracks start sys) (action : Action S) : Tracks start (sys.step action) := by
  cases action with
  | begin s operation now =>
    unfold System.step
    simp only
    split
    · exact h.set s (p := .read _ _) trivial sys.rowLock
    · exact h
  | load s =>
    unfold System.step
    simp only
    split
    · split_ifs with hversion
      · exact h.set s (p := .idle) trivial sys.rowLock
      · have heq : _ = sys.row.version := not_ne_iff.mp hversion
        refine h.set s (p := .loaded _ _ _ _) ⟨heq.symm, ?_, fun hall => ?_⟩ sys.rowLock
        · rw [heq]
          rfl
        · rw [heq]
          exact h.version hall
    · exact h
  | flush s =>
    have hcoherent := h.sessions s
    unfold System.step
    simp only
    split
    · rename_i expectedVersion row updated seen hs
      rw [hs] at hcoherent
      split_ifs
      · refine h.set s (p := .flushed _ _ _) ?_ (some s)
        have hversion : updated.version = row.version + 1 := by rw [hcoherent.1, hcoherent.2.next]
        refine ⟨?_, hcoherent.2.expected⟩
        rw [setChanged_version hversion, hcoherent.2.next]
      · exact h
    · exact h
  | commit s =>
    cases hs : sys.sessions s with
    | flushed expectedVersion row seen => exact h.commit s hs
    | idle => simpa only [System.step, hs] using h
    | read update current => simpa only [System.step, hs] using h
    | loaded expectedVersion row updated seen => simpa only [System.step, hs] using h
  | rollback s => exact h.set s (p := .idle) trivial (sys.unlock s)

theorem tracks_run (h : Tracks start sys) (actions : List (Action S)) : Tracks start (sys.run actions) := by
  induction actions generalizing sys with
  | nil => exact h
  | cons action actions ih => exact ih (tracks_step h action)

/-- Every committed update counts the version up by one from the version its writer expected, exactly when
no update is committed between a writer's load of the row and its own commit. -/
theorem versions_serialized_iff (start : RuntimeState) (actions : List (Action S)) :
    (∀ c ∈ (System.run { row := start } actions).commits, Serialized c) ↔
      Undisturbed (System.run { row := start } actions).commits :=
  (tracks_run (tracks_init start) actions).agree

def crossedHeartbeats : List (Action Bool) :=
  [.begin false .heartbeat 1, .begin true .heartbeat 2, .load false, .load true, .flush false, .commit false,
    .flush true, .commit true]

/-- The second of two crossed updates is committed under the version of the first. -/
theorem crossed_updates_share_version : ¬ ∀ (start : RuntimeState) (actions : List (Action Bool)),
    ∀ c ∈ (System.run { row := start } actions).commits, Serialized c := by
  intro h
  have hcrossed := h { status := .ready, heartbeatAt := 0 } crossedHeartbeats
  revert hcrossed
  decide

end Versions

end TradingBot.Paper.RuntimeLocking
