import TradingBot.Paper.RecoverySoundness

namespace TradingBot.Paper.Handover

open Market.Models Exceptions Library.Transaction Paper.Models Paper.Repository Paper.Lifecycle
open Paper.Runtime Paper.Recovery Paper.RecoverySoundness

section Model

inductive Worker
  | leaving | arriving
deriving DecidableEq, Repr

structure StatusWrite where
  worker : Worker
  change : StatusChange
deriving DecidableEq, Repr

/-- Where `stop` is: each of its two transitions reads the row, writes it and commits. -/
inductive StopPoint
  | running | shutdownAllowed | shutdownWritten | shuttingDown | released | shutdownSeen
  | stopAllowed | stopWritten | gone
deriving DecidableEq, Repr

/-- Where `start` is. While the recovery writes, its changes are not committed: `pending` are the status
writes to come, `written` is the last one made and `after` what a recovery that returns will commit. -/
inductive StartPoint
  | waiting
  | locked
  | observed (status : RuntimeStatus)
  | writing (pending : List StatusChange) (written : Option RuntimeStatus) (after : Option Db)
  | recovered
  | failed
deriving DecidableEq, Repr

structure Workers where
  db : Db
  lock : Option Worker := some .leaving
  stop : StopPoint := .running
  start : StartPoint := .waiting
  writes : List StatusWrite := []
deriving DecidableEq, Repr

def statusOf (db : Db) : Option RuntimeStatus := db.runtimeState.map (·.status)

def storeStatus (now : Time) (target : RuntimeStatus) (db : Db) : Db :=
  match db.runtimeState with
  | none => db
  | some row =>
    { db with
      runtimeState := some (RuntimeUpdate.apply
        { status := some target, lastError := row.lastError
          startedAt := if target = .starting then some now else none, heartbeatAt := some now } row)
      statusChanges := db.statusChanges ++ [⟨row.status, target⟩] }

def allowed (db : Db) (target : RuntimeStatus) : Bool :=
  (statusOf db).any fun status => (validateRuntimeTransition status target).isOk

variable (h : Workers)

def unlock (worker : Worker) : Option Worker := if h.lock = some worker then none else h.lock

/-- The leaving worker ends, in its last step or before: what it did not commit is lost. -/
def leave : Workers := { h with stop := .gone, lock := unlock h .leaving }

def giveUp : Workers := { h with start := .failed, lock := unlock h .arriving }

def rowFree : Worker → Bool
  | .leaving => match h.start with
    | .writing _ (some _) _ => false
    | _ => true
  | .arriving => h.stop ≠ .shutdownWritten ∧ h.stop ≠ .stopWritten

def record (worker : Worker) (previous current : RuntimeStatus) : List StatusWrite :=
  h.writes ++ [⟨worker, ⟨previous, current⟩⟩]

/-- The write of a transition, which does not look at the row again: `next` is where it leads. -/
def writeStatus (target : RuntimeStatus) (next : StopPoint) : Workers :=
  if rowFree h .leaving then
    match statusOf h.db with
    | none => leave h
    | some status => { h with stop := next, writes := record h .leaving status target }
  else h

def stepStop (now : Time) : Workers :=
  match h.stop with
  | .running => if allowed h.db .shuttingDown then { h with stop := .shutdownAllowed } else leave h
  | .shutdownAllowed => writeStatus h .shuttingDown .shutdownWritten
  | .shutdownWritten => { h with stop := .shuttingDown, db := storeStatus now .shuttingDown h.db }
  | .shuttingDown => { h with stop := .released, lock := unlock h .leaving }
  | .released => if statusOf h.db = some .shuttingDown then { h with stop := .shutdownSeen } else leave h
  | .shutdownSeen => if allowed h.db .stopped then { h with stop := .stopAllowed } else leave h
  | .stopAllowed => writeStatus h .stopped .stopWritten
  | .stopWritten => leave { h with db := storeStatus now .stopped h.db }
  | .gone => h

/-- The recovery after its first look at the runtime row. -/
def proceed (r : RecoveryService) (status : RuntimeStatus) (marketDataReady : Bool) : Query RecoveryResult :=
  if status = .ready then r.recheckReady marketDataReady else r.recover status marketDataReady

def recovery (r : RecoveryService) (status : RuntimeStatus) (marketDataReady : Bool) (faults : List Bool)
    (db : Db) : StartPoint :=
  match proceed r status marketDataReady ⟨db, faults⟩ with
  | (.ok _, s) => .writing (s.db.statusChanges.drop db.statusChanges.length) none (some s.db)
  | (.error _, s) => .writing (s.db.statusChanges.drop db.statusChanges.length) none none

def stepStart (r : RecoveryService) (marketDataReady : Bool) (faults : List Bool) : Workers :=
  match h.start with
  | .waiting => if h.lock = none then { h with start := .locked, lock := some .arriving } else h
  | .locked =>
    match statusOf h.db with
    | none => giveUp h
    | some status => { h with start := .observed status }
  | .observed status => { h with start := recovery r status marketDataReady faults h.db }
  | .writing (change :: pending) written after =>
    if rowFree h .arriving then
      match written.or (statusOf h.db) with
      | none => giveUp h
      | some status =>
        { h with start := .writing pending (some change.current) after
                 writes := record h .arriving status change.current }
    else h
  | .writing [] _ (some db) => { h with start := .recovered, db }
  | .writing [] _ none => giveUp h
  | .recovered => h
  | .failed => h

/-- What the schedule may pick: a step of either worker, or the end of its process. -/
inductive Action
  | stop (now : Time)
  | leave
  | start (r : RecoveryService) (marketDataReady : Bool) (faults : List Bool)
  | giveUp

def step : Action → Workers
  | .stop now => stepStop h now
  | .leave => leave h
  | .start r marketDataReady faults => stepStart h r marketDataReady faults
  | .giveUp => match h.start with
    | .recovered => h
    | _ => giveUp h

def run (h : Workers) : List Action → Workers
  | [] => h
  | action :: actions => run (step h action) actions

end Model

section Invariant

variable {h : Workers}

/-- The points at which the leaving worker still has the lock. -/
def keepsLock : StopPoint → Bool
  | .running | .shutdownAllowed | .shutdownWritten | .shuttingDown => true
  | _ => false

def mayShutDown : StopPoint → Bool
  | .shutdownAllowed | .shutdownWritten => true
  | _ => false

/-- The points between the two status changes of the leaving worker. -/
def isShuttingDown : StopPoint → Bool
  | .shuttingDown | .released | .shutdownSeen | .stopAllowed | .stopWritten => true
  | _ => false

def hasLock : StartPoint → Bool
  | .waiting | .failed => false
  | _ => true

/-- An arriving worker that has written nothing and never will. -/
def Quiet : StartPoint → Prop
  | .waiting | .locked | .failed => True
  | .observed status => status = .shuttingDown
  | .writing pending written after => pending = [] ∧ written = none ∧ after = none
  | .recovered => False

/-- The writes to come are allowed from the status that the arriving worker sees. -/
def Continues (db : Db) : StartPoint → Prop
  | .writing pending written _ =>
    ∀ status, written.or (statusOf db) = some status → ∃ last, StatusPath status pending last
  | _ => True

structure Inv (h : Workers) : Prop where
  leavingLock : keepsLock h.stop → h.lock = some .leaving
  arrivingLock : hasLock h.start → h.lock = some .arriving
  shutdownAllowed : mayShutDown h.stop → allowed h.db .shuttingDown
  shuttingDown : isShuttingDown h.stop → statusOf h.db = some .shuttingDown
  quiet : h.stop ≠ .gone → Quiet h.start
  own : h.stop ≠ .gone → ∀ w ∈ h.writes, w.worker = .leaving
  continues : Continues h.db h.start
  legal : ∀ w ∈ h.writes, validateRuntimeTransition w.change.previous w.change.current = .ok ()
  ordered : h.writes.Pairwise fun w w' => w.worker = .arriving → w'.worker = .arriving

theorem statusOf_storeStatus {now : Time} {target status : RuntimeStatus} {db : Db}
    (hstatus : statusOf db = some status) : statusOf (storeStatus now target db) = some target := by
  obtain ⟨row, hrow, _⟩ := Option.map_eq_some_iff.mp hstatus
  simp [storeStatus, hrow, statusOf, RuntimeUpdate.apply]

theorem allowed_iff {db : Db} {target : RuntimeStatus} :
    allowed db target ↔ ∃ status, statusOf db = some status ∧
      validateRuntimeTransition status target = .ok () := by
  simp only [allowed, Option.any_eq_true]
  refine exists_congr fun status => and_congr_right fun _ => ?_
  cases hvalid : validateRuntimeTransition status target with
  | ok u => simp [Except.isOk, Except.toBool]
  | error e => simp [Except.isOk, Except.toBool]

theorem transition_refused {now : Time} {target status : RuntimeStatus} {lastError : Option String}
    {s : Session Db} (hstatus : statusOf s.db = some status)
    (hillegal : validateRuntimeTransition status target ≠ .ok ()) :
    ∃ e s', transition now target lastError s = (.error e, s') ∧ s'.db = s.db := by
  obtain ⟨row, hrow, rfl⟩ := Option.map_eq_some_iff.mp hstatus
  rcases hrun : transition now target lastError s with ⟨e | u, s'⟩
  · exact ⟨e, s', rfl, scope_error_db hrun⟩
  · obtain ⟨row', _, hrow', _, hlegal, _⟩ := transition_ok hrun
    rw [hrow] at hrow'
    cases hrow'
    exact absurd hlegal hillegal

theorem recovery_shuttingDown (r : RecoveryService) (marketDataReady : Bool) (faults : List Bool) {db : Db}
    (hstatus : statusOf db = some .shuttingDown) :
    recovery r .shuttingDown marketDataReady faults db = .writing [] none none := by
  have hrefused : ∃ e s', transition (r.now .recovering) .recovering none ⟨db, faults⟩ = (.error e, s') ∧
      s'.db = db := transition_refused hstatus (by decide)
  obtain ⟨e, s', hrun, hdb⟩ := hrefused
  have hproceed : proceed r .shuttingDown marketDataReady ⟨db, faults⟩ = (.error e, s') := by
    unfold proceed RecoveryService.recover
    rw [if_neg (by decide), if_neg (by decide)]
    exact bind_of_error hrun
  unfold recovery
  rw [hproceed]
  simp [hdb]

theorem keeps_proceed {start : RuntimeStatus} {old : List StatusChange} (r : RecoveryService)
    (status : RuntimeStatus) (marketDataReady : Bool) :
    Keeps (Pathed start old) (proceed r status marketDataReady) := by
  unfold proceed
  split_ifs
  · exact keeps_recheckReady r marketDataReady
  · exact keeps_recover r status marketDataReady

theorem continues_recovery (r : RecoveryService) (status : RuntimeStatus) (marketDataReady : Bool)
    (faults : List Bool) (db : Db) : Continues db (recovery r status marketDataReady faults db) := by
  have hpath : ∀ stored, statusOf db = some stored → ∃ last, StatusPath stored
      ((proceed r status marketDataReady ⟨db, faults⟩).2.db.statusChanges.drop db.statusChanges.length)
      last := by
    intro stored hstored
    obtain ⟨row, hrow, rfl⟩ := Option.map_eq_some_iff.mp hstored
    obtain ⟨row', new, _, hchanges, hpath⟩ := keeps_proceed r status marketDataReady ⟨db, faults⟩
      ⟨row, [], hrow, (List.append_nil _).symm, rfl⟩
    rw [hchanges, List.drop_left]
    exact ⟨row'.status, hpath⟩
  unfold recovery
  rcases hrun : proceed r status marketDataReady ⟨db, faults⟩ with ⟨e | result, s⟩ <;> rw [hrun] at hpath
  · exact hpath
  · exact hpath

theorem Inv.leave (hinv : Inv h) : Inv (leave h) := by
  refine ⟨nofun, fun hlock => ?_, nofun, nofun, fun hgone => absurd rfl hgone, fun hgone => absurd rfl hgone,
    hinv.continues, hinv.legal, hinv.ordered⟩
  have hlock := hinv.arrivingLock hlock
  simp [Handover.leave, unlock, hlock]

theorem Inv.giveUp (hinv : Inv h) : Inv (giveUp h) := by
  refine ⟨fun hlock => ?_, nofun, hinv.shutdownAllowed, hinv.shuttingDown,
    fun _ => trivial, hinv.own, trivial, hinv.legal, hinv.ordered⟩
  have hlock := hinv.leavingLock hlock
  simp [Handover.giveUp, unlock, hlock]

theorem Inv.continues_of_lock (hinv : Inv h) (hlock : h.lock = some .leaving) (db : Db) :
    Continues db h.start := by
  have hnot : ¬ hasLock h.start := by
    intro hstart
    rw [hinv.arrivingLock hstart] at hlock
    cases hlock
  cases hstart : h.start with
  | writing pending written after => simp [hstart, hasLock] at hnot
  | _ => trivial

theorem Quiet.continues {start : StartPoint} (hquiet : Quiet start) (db : Db) : Continues db start := by
  cases start with
  | writing pending written after =>
    obtain ⟨rfl, _, _⟩ := hquiet
    exact fun status _ => ⟨status, rfl⟩
  | _ => trivial

theorem Inv.advance (hinv : Inv h) {next : StopPoint} (hhere : h.stop ≠ .gone)
    (hlock : keepsLock next → keepsLock h.stop)
    (hallowed : mayShutDown next → allowed h.db .shuttingDown)
    (hdown : isShuttingDown next → isShuttingDown h.stop) : Inv { h with stop := next } :=
  ⟨fun hnext => hinv.leavingLock (hlock hnext), hinv.arrivingLock, hallowed,
    fun hnext => hinv.shuttingDown (hdown hnext), fun _ => hinv.quiet hhere, fun _ => hinv.own hhere,
    hinv.continues, hinv.legal, hinv.ordered⟩

theorem Inv.writeStatus (hinv : Inv h) {target : RuntimeStatus} {next : StopPoint} (hhere : h.stop ≠ .gone)
    (hallowed : allowed h.db target) (hnext : Inv { h with stop := next }) :
    Inv (writeStatus h target next) := by
  obtain ⟨status, hstatus, hvalid⟩ := allowed_iff.mp hallowed
  unfold Handover.writeStatus
  split_ifs
  · rw [hstatus]
    refine ⟨hnext.leavingLock, hnext.arrivingLock, hnext.shutdownAllowed, hnext.shuttingDown, hnext.quiet,
      fun _ w hw => ?_, hnext.continues, fun w hw => ?_, ?_⟩
    · rcases List.mem_append.mp hw with hw | hw
      · exact hinv.own hhere w hw
      · exact List.mem_singleton.mp hw ▸ rfl
    · rcases List.mem_append.mp hw with hw | hw
      · exact hinv.legal w hw
      · exact List.mem_singleton.mp hw ▸ hvalid
    · refine List.pairwise_append.mpr ⟨hinv.ordered, List.pairwise_singleton _ _, fun w hw w' _ hb => ?_⟩
      rw [hinv.own hhere w hw] at hb
      cases hb
  · exact hinv

theorem Inv.stepStop (hinv : Inv h) (now : Time) : Inv (stepStop h now) := by
  unfold Handover.stepStop
  by_cases hhere : h.stop = .gone
  · rw [hhere]
    exact hinv
  · cases hstop : h.stop with
    | running =>
      dsimp only
      split_ifs with hallowed
      · exact hinv.advance hhere (by simp [hstop, keepsLock]) (fun _ => hallowed) nofun
      · exact hinv.leave
    | shutdownAllowed =>
      have hallowed := hinv.shutdownAllowed (by simp [hstop, mayShutDown])
      refine hinv.writeStatus hhere hallowed ?_
      exact hinv.advance hhere (by simp [hstop, keepsLock]) (fun _ => hallowed) nofun
    | shutdownWritten =>
      have hlock := hinv.leavingLock (by simp [hstop, keepsLock])
      obtain ⟨status, hstatus, _⟩ := allowed_iff.mp (hinv.shutdownAllowed (by simp [hstop, mayShutDown]))
      exact ⟨fun _ => hlock, hinv.arrivingLock, nofun, fun _ => statusOf_storeStatus hstatus,
        fun _ => hinv.quiet hhere, fun _ => hinv.own hhere, hinv.continues_of_lock hlock _, hinv.legal,
        hinv.ordered⟩
    | shuttingDown =>
      have hlock := hinv.leavingLock (by simp [hstop, keepsLock])
      have hdown := hinv.shuttingDown (by simp [hstop, isShuttingDown])
      refine ⟨nofun, fun hstart => ?_, nofun, fun _ => hdown, fun _ => hinv.quiet hhere,
        fun _ => hinv.own hhere, hinv.continues, hinv.legal, hinv.ordered⟩
      rw [hinv.arrivingLock hstart] at hlock
      cases hlock
    | released =>
      dsimp only
      split_ifs
      · exact hinv.advance hhere nofun nofun (by simp [hstop, isShuttingDown])
      · exact hinv.leave
    | shutdownSeen =>
      dsimp only
      split_ifs
      · exact hinv.advance hhere nofun nofun (by simp [hstop, isShuttingDown])
      · exact hinv.leave
    | stopAllowed =>
      have hdown := hinv.shuttingDown (by simp [hstop, isShuttingDown])
      refine hinv.writeStatus hhere (allowed_iff.mpr ⟨_, hdown, by decide⟩) ?_
      exact hinv.advance hhere nofun nofun (by simp [hstop, isShuttingDown])
    | stopWritten =>
      have hquiet := hinv.quiet hhere
      refine ⟨nofun, fun hstart => ?_, nofun, nofun, fun hgone => absurd rfl hgone,
        fun hgone => absurd rfl hgone, hquiet.continues _, hinv.legal, hinv.ordered⟩
      have hlock := hinv.arrivingLock hstart
      simp [Handover.leave, unlock, hlock]
    | gone => exact absurd hstop hhere

theorem Inv.shuttingDown_of_lock (hinv : Inv h) (hhere : h.stop ≠ .gone) (hstart : hasLock h.start) :
    statusOf h.db = some .shuttingDown := by
  have hlock := hinv.arrivingLock hstart
  have hkeeps : ¬ keepsLock h.stop := by
    intro hkeeps
    rw [hinv.leavingLock hkeeps] at hlock
    cases hlock
  refine hinv.shuttingDown ?_
  cases hstop : h.stop with
  | gone => exact absurd hstop hhere
  | shuttingDown => rfl
  | released => rfl
  | shutdownSeen => rfl
  | stopAllowed => rfl
  | stopWritten => rfl
  | running => exact absurd rfl (hstop ▸ hkeeps)
  | shutdownAllowed => exact absurd rfl (hstop ▸ hkeeps)
  | shutdownWritten => exact absurd rfl (hstop ▸ hkeeps)

theorem Inv.stepStart (hinv : Inv h) (r : RecoveryService) (marketDataReady : Bool) (faults : List Bool) :
    Inv (stepStart h r marketDataReady faults) := by
  unfold Handover.stepStart
  split
  · split_ifs with hfree
    · refine ⟨fun hkeeps => ?_, fun _ => rfl, hinv.shutdownAllowed, hinv.shuttingDown, fun _ => trivial,
        hinv.own, trivial, hinv.legal, hinv.ordered⟩
      have hlock := hinv.leavingLock hkeeps
      rw [hfree] at hlock
      cases hlock
    · exact hinv
  · rename_i hstart
    have hactive : hasLock h.start := by simp [hstart, hasLock]
    cases hstatus : statusOf h.db with
    | none => exact hinv.giveUp
    | some status =>
      refine ⟨hinv.leavingLock, fun _ => hinv.arrivingLock hactive, hinv.shutdownAllowed, hinv.shuttingDown,
        fun hhere => ?_, hinv.own, trivial, hinv.legal, hinv.ordered⟩
      have hdown := hinv.shuttingDown_of_lock hhere hactive
      rw [hstatus] at hdown
      exact Option.some.inj hdown
  · rename_i status hstart
    have hactive : hasLock h.start := by simp [hstart, hasLock]
    refine ⟨hinv.leavingLock, fun _ => hinv.arrivingLock hactive, hinv.shutdownAllowed, hinv.shuttingDown,
      fun hhere => ?_, hinv.own, continues_recovery r status marketDataReady faults h.db, hinv.legal,
      hinv.ordered⟩
    have hquiet := hinv.quiet hhere
    rw [hstart] at hquiet
    obtain rfl : status = .shuttingDown := hquiet
    dsimp only
    rw [recovery_shuttingDown r marketDataReady faults (hinv.shuttingDown_of_lock hhere hactive)]
    exact ⟨rfl, rfl, rfl⟩
  · rename_i change pending written after hstart
    have hactive : hasLock h.start := by simp [hstart, hasLock]
    have hgone : h.stop = .gone := by
      by_contra hhere
      have hquiet := hinv.quiet hhere
      rw [hstart] at hquiet
      cases hquiet.1
    split_ifs
    · have hcontinues := hinv.continues
      rw [hstart] at hcontinues
      cases hstatus : written.or (statusOf h.db) with
      | none => exact hinv.giveUp
      | some status =>
        obtain ⟨last, rfl, hvalid, hpath⟩ := hcontinues status hstatus
        refine ⟨hinv.leavingLock, fun _ => hinv.arrivingLock hactive, hinv.shutdownAllowed, hinv.shuttingDown,
          fun hhere => absurd hgone hhere, fun hhere => absurd hgone hhere, ?_, fun w hw => ?_, ?_⟩
        · intro status hstatus
          cases hstatus
          exact ⟨last, hpath⟩
        · rcases List.mem_append.mp hw with hw | hw
          · exact hinv.legal w hw
          · exact List.mem_singleton.mp hw ▸ hvalid
        · refine List.pairwise_append.mpr ⟨hinv.ordered, List.pairwise_singleton _ _, ?_⟩
          exact fun _ _ w' hw' _ => List.mem_singleton.mp hw' ▸ rfl
    · exact hinv
  · rename_i written db hstart
    have hactive : hasLock h.start := by simp [hstart, hasLock]
    have hgone : h.stop = .gone := by
      by_contra hhere
      have hquiet := hinv.quiet hhere
      rw [hstart] at hquiet
      cases hquiet.2.2
    refine ⟨hinv.leavingLock, fun _ => hinv.arrivingLock hactive, ?_, ?_, fun hhere => absurd hgone hhere,
      fun hhere => absurd hgone hhere, trivial, hinv.legal, hinv.ordered⟩
    · simp [hgone, mayShutDown]
    · simp [hgone, isShuttingDown]
  · exact hinv.giveUp
  · exact hinv
  · exact hinv

theorem Inv.step (hinv : Inv h) (action : Action) : Inv (step h action) := by
  cases action with
  | stop now => exact hinv.stepStop now
  | leave => exact hinv.leave
  | start r marketDataReady faults => exact hinv.stepStart r marketDataReady faults
  | giveUp =>
    unfold Handover.step
    dsimp only
    split
    · exact hinv
    · exact hinv.giveUp

theorem Inv.run (hinv : Inv h) (actions : List Action) : Inv (run h actions) := by
  induction actions generalizing h with
  | nil => exact hinv
  | cons action actions ih => exact ih (hinv.step action)

theorem inv_start (db : Db) : Inv { db } :=
  ⟨fun _ => rfl, nofun, nofun, nofun, fun _ => trivial, nofun, trivial, nofun, .nil⟩

/-- In whatever order the two workers take their steps, and wherever one of them ends: no status write of
the leaving worker comes after one of the arriving worker, and every write is an allowed transition. -/
theorem handover_ordered_and_legal (db : Db) (actions : List Action) :
    (run { db } actions).writes.Pairwise (fun w w' => w.worker = .arriving → w'.worker = .arriving) ∧
    ∀ w ∈ (run { db } actions).writes,
      validateRuntimeTransition w.change.previous w.change.current = .ok () :=
  have hinv := (inv_start db).run actions
  ⟨hinv.ordered, hinv.legal⟩

/-- A whole handover: the old worker stops, the new one waits for it and recovers. -/
example : (run { db := { stoppedDb with runtimeState := some { status := .ready, heartbeatAt := 0 } } }
      (.start morningRecovery false [] :: List.replicate 8 (.stop second) ++
        List.replicate 9 (.start morningRecovery false []))).writes.map
      (fun w => (w.worker, w.change.current)) =
    [(.leaving, .shuttingDown), (.leaving, .stopped), (.arriving, .starting), (.arriving, .recovering),
      (.arriving, .syncing), (.arriving, .degraded)] := by
  decide +kernel

end Invariant

end TradingBot.Paper.Handover
