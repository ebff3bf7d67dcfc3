import Mathlib.Data.Fintype.Basic
import TradingBot.Exceptions

namespace TradingBot.Paper.WorkerLock

open Exceptions

section Lock

/-- Database sessions, numbered in the order in which they are opened. -/
abbrev SessionId := ℕ

/-- The open sessions of the database and the one that has the advisory lock. -/
structure Server where
  sessions : List SessionId := []
  owner : Option SessionId := none
  nextId : SessionId := 0
deriving DecidableEq, Repr

namespace Server

def connect (server : Server) : Server × SessionId :=
  ({ server with sessions := server.nextId :: server.sessions, nextId := server.nextId + 1 }, server.nextId)

/-- A session that ends gives up its lock. -/
def disconnect (server : Server) (session : SessionId) : Server :=
  { server with
    sessions := server.sessions.filter (· ≠ session)
    owner := if server.owner = some session then none else server.owner }

/-- `pg_try_advisory_lock`. -/
def tryAdvisoryLock (server : Server) (session : SessionId) : Server × Bool :=
  match server.owner with
  | none => ({ server with owner := some session }, true)
  | some owner => (server, owner = session)

def advisoryUnlock (server : Server) (session : SessionId) : Server :=
  { server with owner := if server.owner = some session then none else server.owner }

end Server

structure PostgresAdvisoryLock where
  connection : Option SessionId := none
  held : Bool := false
deriving DecidableEq, Repr

namespace PostgresAdvisoryLock

/-- A lock that is held by its flag is not looked at again. -/
def tryAcquire (lock : PostgresAdvisoryLock) (server : Server) (reachable : Bool) :
    Server × PostgresAdvisoryLock × Except Exc Bool :=
  if lock.held then (server, lock, .ok true)
  else if !reachable then (server, lock, .error .databaseError)
  else
    let (connected, session) := server.connect
    let (locked, acquired) := connected.tryAdvisoryLock session
    if acquired then (locked, { connection := some session, held := true }, .ok true)
    else (locked.disconnect session, { lock with connection := none }, .ok false)

/-- The unlock raises when the connection is gone; nothing changes then. -/
def release (lock : PostgresAdvisoryLock) (server : Server) :
    Server × PostgresAdvisoryLock × Except Exc Unit :=
  match lock.connection with
  | none => (server, lock, .ok ())
  | some session =>
    if !lock.held then (server, lock, .ok ())
    else if session ∉ server.sessions then (server, lock, .error .databaseError)
    else ((server.advisoryUnlock session).disconnect session, {}, .ok ())

end PostgresAdvisoryLock

end Lock

section Workers

inductive Phase
  | down | starting | up | stopping
deriving DecidableEq, Repr

/-- A worker process. `polling` is set while `process_after_poll` runs. -/
structure Worker where
  phase : Phase := .down
  lock : PostgresAdvisoryLock := {}
  polling : Bool := false
deriving DecidableEq, Repr

structure System (W : Type) where
  server : Server := {}
  worker : W → Worker := fun _ => {}

/-- The steps of the workers, and what can happen to their connections and processes at any time. -/
inductive Action (W : Type)
  | launch (w : W)
  | acquire (w : W) (reachable : Bool)
  | started (w : W)
  | heartbeat (w : W) (reachable : Bool)
  | beginPoll (w : W) (marketDataReady heartbeatHealthy : Bool)
  | endPoll (w : W)
  | stop (w : W)
  | release (w : W)
  | connectionLost (w : W)
  | exit (w : W)
deriving DecidableEq, Repr

variable {W : Type} [DecidableEq W]

namespace System

def set (sys : System W) (w : W) (server : Server) (worker : Worker) : System W :=
  { server, worker := Function.update sys.worker w worker }

def tryAcquire (sys : System W) (w : W) (reachable : Bool) : System W :=
  let (server, lock, _) := (sys.worker w).lock.tryAcquire sys.server reachable
  sys.set w server { sys.worker w with lock }

def lose (sys : System W) (w : W) : Server :=
  match (sys.worker w).lock.connection with
  | none => sys.server
  | some session => sys.server.disconnect session

def step (sys : System W) : Action W → System W
  | .launch w => if (sys.worker w).phase = .down then sys.set w sys.server { phase := .starting } else sys
  | .acquire w reachable => if (sys.worker w).phase = .starting then sys.tryAcquire w reachable else sys
  | .started w =>
    if (sys.worker w).phase = .starting ∧ (sys.worker w).lock.held then
      sys.set w sys.server { sys.worker w with phase := .up }
    else sys
  | .heartbeat w reachable =>
    if (sys.worker w).phase = .up ∧ !(sys.worker w).polling then sys.tryAcquire w reachable else sys
  | .beginPoll w marketDataReady heartbeatHealthy =>
    if (sys.worker w).phase = .up ∧ (sys.worker w).lock.held ∧ marketDataReady ∧ heartbeatHealthy then
      sys.set w sys.server { sys.worker w with polling := true }
    else sys
  | .endPoll w => sys.set w sys.server { sys.worker w with polling := false }
  | .stop w =>
    if (sys.worker w).phase = .up ∧ !(sys.worker w).polling then
      sys.set w sys.server { sys.worker w with phase := .stopping }
    else sys
  | .release w =>
    if (sys.worker w).phase = .stopping then
      match (sys.worker w).lock.release sys.server with
      | (server, _, .ok ()) => sys.set w server {}
      | (_, _, .error _) => sys
    else sys
  | .connectionLost w => { sys with server := sys.lose w }
  | .exit w => sys.set w (sys.lose w) {}

def run (sys : System W) (actions : List (Action W)) : System W := actions.foldl step sys

/-- The worker runs `process_after_poll` with a lock it believes to hold. -/
def Polls (sys : System W) (w : W) : Prop :=
  (sys.worker w).phase = .up ∧ (sys.worker w).polling ∧ (sys.worker w).lock.held

instance (sys : System W) : DecidablePred sys.Polls := fun w => by
  unfold Polls
  infer_instance

end System

end Workers

section Safety

variable {W : Type} {sys : System W}

def Active (worker : Worker) : Prop := worker.phase = .starting ∨ worker.phase = .up

instance : DecidablePred Active := fun worker => by
  unfold Active
  infer_instance

def Orphaned (sys : System W) (w : W) : Prop :=
  Active (sys.worker w) ∧ (sys.worker w).lock.held ∧
    ∀ session ∈ (sys.worker w).lock.connection, session ∉ sys.server.sessions

instance (sys : System W) : DecidablePred (Orphaned sys) := fun w => by
  unfold Orphaned
  infer_instance

def NoOrphanBut (sys : System W) (w : W) : Prop := sys.server.owner = none → ∀ v, v ≠ w → ¬ Orphaned sys v

/-- The free lock is taken only while no other worker goes on with a lock that it has lost. -/
def Safe (sys : System W) : Action W → Prop
  | .acquire w _ | .heartbeat w _ => NoOrphanBut sys w
  | _ => True

/-- What the database and the flags have to do with each other. -/
structure Inv (sys : System W) : Prop where
  issued : ∀ session ∈ sys.server.owner, session < sys.server.nextId
  fresh : ∀ w, ∀ session ∈ (sys.worker w).lock.connection, session < sys.server.nextId
  connected : ∀ w, (sys.worker w).lock.held → ∃ session, (sys.worker w).lock.connection = some session
  owner : ∀ w, (sys.worker w).lock.held → ∀ session ∈ (sys.worker w).lock.connection,
    session ∈ sys.server.sessions → sys.server.owner = some session
  single : ∀ v w, Active (sys.worker v) → Active (sys.worker w) → (sys.worker v).lock.held →
    (sys.worker w).lock.held → v = w

theorem inv_init : Inv ({} : System W) :=
  ⟨by simp, by simp, by simp, by simp, by simp⟩

theorem Inv.disconnect (h : Inv sys) (session : SessionId) :
    Inv { sys with server := sys.server.disconnect session } := by
  refine ⟨fun s hs => ?_, h.fresh, h.connected, fun w hheld s hs hmem => ?_, h.single⟩
  · have howner : (if sys.server.owner = some session then none else sys.server.owner) = some s := hs
    split_ifs at howner
    exact h.issued s howner
  obtain ⟨hmem, hne⟩ := List.mem_filter.mp hmem
  have hne : s ≠ session := by simpa using hne
  have howner := h.owner w hheld s hs hmem
  show (if sys.server.owner = some session then none else sys.server.owner) = some s
  rw [howner, if_neg fun he => hne (Option.some.inj he)]

theorem Inv.lose (h : Inv sys) (w : W) : Inv { sys with server := sys.lose w } := by
  unfold System.lose
  cases (sys.worker w).lock.connection with
  | none => exact h
  | some session => exact h.disconnect session

variable [DecidableEq W]

theorem Inv.set (h : Inv sys) (w : W) {worker : Worker}
    (hlock : worker.lock = (sys.worker w).lock ∨ worker.lock = {})
    (hactive : worker.lock.held → Active worker → Active (sys.worker w)) :
    Inv (sys.set w sys.server worker) := by
  have hother : ∀ v, v ≠ w → (sys.set w sys.server worker).worker v = sys.worker v := fun v hv =>
    Function.update_of_ne hv _ _
  have hself : (sys.set w sys.server worker).worker w = worker := Function.update_self ..
  have hheld : ∀ v, ((sys.set w sys.server worker).worker v).lock.held → (sys.worker v).lock.held ∧
      ((sys.set w sys.server worker).worker v).lock = (sys.worker v).lock := by
    intro v hv
    by_cases hvw : v = w
    · subst hvw
      rw [hself] at hv ⊢
      rcases hlock with hsame | hempty
      · rw [hsame] at hv ⊢
        exact ⟨hv, rfl⟩
      · rw [hempty] at hv
        cases hv
    · rw [hother v hvw] at hv ⊢
      exact ⟨hv, rfl⟩
  have hup : ∀ v, ((sys.set w sys.server worker).worker v).lock.held →
      Active ((sys.set w sys.server worker).worker v) → Active (sys.worker v) := by
    intro v hv ha
    by_cases hvw : v = w
    · subst hvw
      rw [hself] at hv ha
      exact hactive hv ha
    · rwa [hother v hvw] at ha
  refine ⟨h.issued, fun v session hsession => ?_, fun v hv => ?_, fun v hv session hsession => ?_,
    fun u v hu hv hheldu hheldv => ?_⟩
  · by_cases hvw : v = w
    · subst hvw
      rw [hself] at hsession
      rcases hlock with hsame | hempty
      · exact h.fresh v session (hsame ▸ hsession)
      · rw [hempty] at hsession
        cases hsession
    · rw [hother v hvw] at hsession
      exact h.fresh v session hsession
  · rw [(hheld v hv).2]
    exact h.connected v (hheld v hv).1
  · rw [(hheld v hv).2] at hsession
    exact h.owner v (hheld v hv).1 session hsession
  · exact h.single u v (hup u hheldu hu) (hup v hheldv hv) (hheld u hheldu).1 (hheld v hheldv).1

theorem Inv.acquired (h : Inv sys) (w : W) (hfree : sys.server.owner = none)
    (hsafe : ∀ v, v ≠ w → ¬ Orphaned sys v) :
    Inv (sys.set w { sys.server.connect.1 with owner := some sys.server.nextId }
      { sys.worker w with lock := { connection := some sys.server.nextId, held := true } }) := by
  have hgone : ∀ v, (sys.worker v).lock.held → ∀ session ∈ (sys.worker v).lock.connection,
      session ∉ sys.server.sessions := by
    intro v hv session hsession hmem
    have howner := h.owner v hv session hsession hmem
    rw [hfree] at howner
    cases howner
  have halone : ∀ v, v ≠ w → Active (sys.worker v) → (sys.worker v).lock.held → False := fun v hvw ha hheld =>
    hsafe v hvw ⟨ha, hheld, hgone v hheld⟩
  refine ⟨fun session hsession => ?_, fun v session hsession => ?_, fun v hv => ?_,
    fun v hv session hsession hmem => ?_, fun u v hu hv hheldu hheldv => ?_⟩
  · rw [← Option.some.inj hsession]
    exact Nat.lt_succ_self _
  · show session < sys.server.nextId + 1
    by_cases hvw : v = w
    · subst hvw
      simp only [System.set, Function.update_self] at hsession
      rw [← Option.some.inj hsession]
      exact Nat.lt_succ_self _
    · simp only [System.set, Function.update_of_ne hvw] at hsession
      exact Nat.lt_succ_of_lt (h.fresh v session hsession)
  · by_cases hvw : v = w
    · subst hvw
      exact ⟨sys.server.nextId, by simp [System.set]⟩
    · simp only [System.set, Function.update_of_ne hvw] at hv ⊢
      exact h.connected v hv
  · show some sys.server.nextId = some session
    by_cases hvw : v = w
    · subst hvw
      simp only [System.set, Function.update_self] at hsession
      exact hsession
    · simp only [System.set, Function.update_of_ne hvw] at hv hsession
      rcases List.mem_cons.mp hmem with hnew | hold
      · exact congrArg some hnew.symm
      · exact absurd hold (hgone v hv session hsession)
  · by_cases huw : u = w
    · by_cases hvw : v = w
      · rw [huw, hvw]
      · simp only [System.set, Function.update_of_ne hvw] at hv hheldv
        exact (halone v hvw hv hheldv).elim
    · simp only [System.set, Function.update_of_ne huw] at hu hheldu
      exact (halone u huw hu hheldu).elim

theorem Inv.refused (h : Inv sys) (w : W) {owner : SessionId} (howner : sys.server.owner = some owner)
    (hheld : (sys.worker w).lock.held = false) :
    Inv (sys.set w (sys.server.connect.1.disconnect sys.server.nextId)
      { sys.worker w with lock := { (sys.worker w).lock with connection := none } }) := by
  have hother : owner ≠ sys.server.nextId := (h.issued owner howner).ne
  have hkept : (sys.server.connect.1.disconnect sys.server.nextId).owner = some owner := by
    show (if sys.server.owner = some sys.server.nextId then none else sys.server.owner) = some owner
    rw [if_neg (by rw [howner]; simpa using hother), howner]
  have hheld' : ∀ v, ((sys.set w (sys.server.connect.1.disconnect sys.server.nextId)
      { sys.worker w with lock := { (sys.worker w).lock with connection := none } }).worker v).lock.held →
      v ≠ w ∧ (sys.worker v).lock.held := by
    intro v hv
    by_cases hvw : v = w
    · subst hvw
      simp only [System.set, Function.update_self, hheld] at hv
      cases hv
    · simp only [System.set, Function.update_of_ne hvw] at hv
      exact ⟨hvw, hv⟩
  refine ⟨fun session hsession => ?_, fun v session hsession => ?_, fun v hv => ?_,
    fun v hv session hsession hmem => ?_, fun u v hu hv hheldu hheldv => ?_⟩
  · exact Nat.lt_succ_of_lt (h.issued session (howner.trans (hkept.symm.trans hsession)))
  · show session < sys.server.nextId + 1
    by_cases hvw : v = w
    · subst hvw
      simp only [System.set, Function.update_self] at hsession
      cases hsession
    · simp only [System.set, Function.update_of_ne hvw] at hsession
      exact Nat.lt_succ_of_lt (h.fresh v session hsession)
  · obtain ⟨hvw, hv⟩ := hheld' v hv
    simp only [System.set, Function.update_of_ne hvw]
    exact h.connected v hv
  · obtain ⟨hvw, hv⟩ := hheld' v hv
    simp only [System.set, Function.update_of_ne hvw] at hsession
    have hold : session ∈ sys.server.sessions := by
      obtain ⟨hmem, hne⟩ := List.mem_filter.mp hmem
      have hne : session ≠ sys.server.nextId := by simpa using hne
      exact (List.mem_cons.mp hmem).resolve_left hne
    exact hkept.trans (howner.symm.trans (h.owner v hv session hsession hold))
  · obtain ⟨huw, hheldu⟩ := hheld' u hheldu
    obtain ⟨hvw, hheldv⟩ := hheld' v hheldv
    simp only [System.set, Function.update_of_ne huw, Function.update_of_ne hvw] at hu hv
    exact h.single u v hu hv hheldu hheldv

theorem Inv.tryAcquire (h : Inv sys) (w : W) (reachable : Bool) (hsafe : NoOrphanBut sys w) :
    Inv (sys.tryAcquire w reachable) := by
  unfold System.tryAcquire PostgresAdvisoryLock.tryAcquire
  cases hheld : (sys.worker w).lock.held with
  | true =>
    simp only [↓reduceIte]
    exact h.set w (.inl rfl) fun _ ha => ha
  | false =>
    cases reachable with
    | false =>
      simp only [Bool.not_false, ↓reduceIte, Bool.false_eq_true]
      exact h.set w (.inl rfl) fun _ ha => ha
    | true =>
      simp only [Bool.not_true, ↓reduceIte, Bool.false_eq_true]
      cases howner : sys.server.owner with
      | none =>
        have hlocked := h.acquired w howner (hsafe howner)
        simpa [Server.connect, Server.tryAdvisoryLock, howner] using hlocked
      | some owner =>
        have hrefused := h.refused w howner hheld
        have hother : owner ≠ sys.server.nextId := (h.issued owner howner).ne
        simpa [Server.connect, Server.tryAdvisoryLock, howner, hother, hheld] using hrefused

theorem Inv.release (h : Inv sys) (w : W) {server : Server} {lock : PostgresAdvisoryLock}
    (hrelease : (sys.worker w).lock.release sys.server = (server, lock, .ok ())) :
    Inv (sys.set w server {}) := by
  have hfree : ∀ {sys' : System W}, Inv sys' → sys'.worker = sys.worker → Inv (sys.set w sys'.server {}) := by
    intro sys' h' hworker
    have hunheld : ({} : Worker).lock.held = false := rfl
    have hset := h'.set w (.inr rfl) fun hheld _ => absurd (hunheld.symm.trans hheld) Bool.false_ne_true
    unfold System.set at hset ⊢
    rwa [hworker] at hset
  unfold PostgresAdvisoryLock.release at hrelease
  cases hconnection : (sys.worker w).lock.connection with
  | none =>
    rw [hconnection] at hrelease
    cases hrelease
    exact hfree h rfl
  | some session =>
    rw [hconnection] at hrelease
    simp only at hrelease
    split_ifs at hrelease
    · cases hrelease
      exact hfree h rfl
    · cases hrelease
      have hunlocked : (sys.server.advisoryUnlock session).disconnect session =
          sys.server.disconnect session := by
        unfold Server.advisoryUnlock Server.disconnect
        simp
      rw [hunlocked]
      exact hfree (h.disconnect session) rfl
    · cases (congrArg (fun r => r.2.2) hrelease)

theorem inv_step (h : Inv sys) {action : Action W} (hsafe : Safe sys action) : Inv (sys.step action) := by
  cases action with
  | launch w =>
    simp only [System.step]
    split_ifs
    · exact h.set w (.inr rfl) fun hheld _ => by cases hheld
    · exact h
  | acquire w reachable =>
    simp only [System.step]
    split_ifs
    · exact h.tryAcquire w reachable hsafe
    · exact h
  | started w =>
    simp only [System.step]
    split_ifs with hstart
    · exact h.set w (.inl rfl) fun _ _ => .inl hstart.1
    · exact h
  | heartbeat w reachable =>
    simp only [System.step]
    split_ifs
    · exact h.tryAcquire w reachable hsafe
    · exact h
  | beginPoll w marketDataReady heartbeatHealthy =>
    simp only [System.step]
    split_ifs
    · exact h.set w (.inl rfl) fun _ ha => ha
    · exact h
  | endPoll w => exact h.set w (.inl rfl) fun _ ha => ha
  | stop w =>
    simp only [System.step]
    split_ifs with hup
    · exact h.set w (.inl rfl) fun _ _ => .inr hup.1
    · exact h
  | release w =>
    simp only [System.step]
    split_ifs
    · split
      · rename_i hrelease
        exact h.release w hrelease
      · exact h
    · exact h
  | connectionLost w => exact h.lose w
  | exit w =>
    have hunheld : ({} : Worker).lock.held = false := rfl
    have hlost := (h.lose w).set w (.inr rfl) fun hheld _ => absurd (hunheld.symm.trans hheld) Bool.false_ne_true
    exact hlost

def SafeRun : System W → List (Action W) → Prop
  | _, [] => True
  | sys, action :: actions => Safe sys action ∧ SafeRun (sys.step action) actions

theorem inv_run (h : Inv sys) {actions : List (Action W)} (hsafe : SafeRun sys actions) :
    Inv (sys.run actions) := by
  induction actions generalizing sys with
  | nil => exact h
  | cons action actions ih => exact ih (inv_step h hsafe.1) hsafe.2

/-- As long as nobody takes the lock while another worker goes on without it, one worker at most polls. -/
theorem single_active_worker {actions : List (Action W)} (hsafe : SafeRun {} actions) :
    ∀ v w, (System.run {} actions).Polls v → (System.run {} actions).Polls w → v = w := by
  rintro v w ⟨hv, _, hheldv⟩ ⟨hw, _, hheldw⟩
  exact (inv_run inv_init hsafe).single v w (.inr hv) (.inr hw) hheldv hheldw

def orderlyHandover : List (Action Bool) :=
  [.launch false, .acquire false true, .started false, .launch true, .acquire true true, .beginPoll false true true,
    .connectionLost false, .endPoll false, .exit false, .acquire true true, .started true, .beginPoll true true true]

theorem orderly_handover_has_single_worker : (System.run {} orderlyHandover).Polls true ∧
    ∀ v w, (System.run {} orderlyHandover).Polls v → (System.run {} orderlyHandover).Polls w → v = w := by
  have hsafe : SafeRun {} orderlyHandover := by
    simp only [orderlyHandover, SafeRun, Safe, NoOrphanBut]
    decide
  exact ⟨by decide, single_active_worker hsafe⟩

def lostConnection : List (Action Bool) :=
  [.launch false, .acquire false true, .started false, .connectionLost false, .launch true, .acquire true true,
    .started true, .beginPoll true true true, .heartbeat false true, .beginPoll false true true]

theorem two_workers_poll : ¬ ∀ actions : List (Action Bool),
    ∀ v w, (System.run {} actions).Polls v → (System.run {} actions).Polls w → v = w := by
  intro h
  have hboth := h lostConnection false true (by decide) (by decide)
  cases hboth

end Safety

end TradingBot.Paper.WorkerLock
