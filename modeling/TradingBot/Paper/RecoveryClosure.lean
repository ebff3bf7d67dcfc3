import TradingBot.Paper.EventEffects
import TradingBot.Paper.RecoveryTurns

namespace TradingBot.Paper.RecoveryClosure

open Market.Models Exceptions Library.Transaction Paper.Models Paper.Repository Paper.MarketEvents
open Paper.Scheduler.PaperTradingScheduler Paper.Bridge Paper.Bridge.MarketEventBridge Paper.Polls
open Paper.EventRules Paper.Recovery Paper.ConfigurationRecovery Paper.RecoveryAttempts Paper.RecoveryTurns
open Paper.EventEffects Paper.SignalParity

variable {symbol : Symbol} {openTime : Time} {db db' : Db} {rows rows' : List SchedulerRun}
  {o a : SchedulerRun} {m m' : Memory} {s s' : Session Db} {w w' : Worker}

section Conditions

/-- No run that is resolved is given a turn. -/
def PermittedTurns (m : Memory) : List Turn → Session Db → Prop
  | [], _ => True
  | turn :: turns, s => Unresolved turn s.db ∧
    ∀ o s', takeTurn (remembering m turn, turn.2) s = (.ok o, s') →
      PermittedTurns (m.set ((remembering m turn).jobName turn.2) turn.2.scheduledFor
        (recoveryAfter (remembering m turn) turn.2 s (.ok o))) turns s'

/-- Only opens are repeated, and not while an attempt is still active. -/
def PermittedRecovery (call : RecoverCall) (db : Db) : Prop :=
  call.event.eventType = .dailyOpenAvailable ∧
    ∀ r ∈ db.schedulerRuns, isRun (call.bridge.jobName call.event) call.event.scheduledFor r →
      ∀ a ∈ db.schedulerRuns, a.recoveryOfRunId = some r.runId → isActiveRecovery a = false

def Permitted (w : Worker) : Action → Prop
  | .recover call => PermittedRecovery call w.db
  | .poll p => PermittedTurns w.memory p.turns ⟨w.db, p.faults⟩
  | _ => True

def PermittedRun : Worker → List Action → Prop
  | _, [] => True
  | w, action :: actions => Permitted w action ∧ PermittedRun (w.step action).2 actions

theorem run_append (w : Worker) (actions more : List Action) :
    w.run (actions ++ more) = (w.run actions).run more := by
  induction actions generalizing w with
  | nil => rfl
  | cons action actions ih => exact ih _

theorem permittedRun_append {actions more : List Action} :
    PermittedRun w (actions ++ more) ↔ PermittedRun w actions ∧ PermittedRun (w.run actions) more := by
  induction actions generalizing w with
  | nil => simp [PermittedRun, Worker.run]
  | cons action actions ih =>
    simp only [List.cons_append, PermittedRun, Worker.run, ih, and_assoc]

end Conditions

section Invariant

def Remembered (m : Memory) (db : Db) : Prop := ∀ name t c, m name t = some c → Remembers db name t c.1

structure Sane (w : Worker) : Prop where
  orderly : Orderly w.db
  memory : Remembered w.memory w.db

/-- The runs of every case have moved on turn by turn. -/
def Advances (db db' : Db) : Prop := ∀ symbol openTime, Relation.ReflTransGen (Follows symbol openTime)
  (caseRuns symbol openTime db.schedulerRuns) (caseRuns symbol openTime db'.schedulerRuns)

theorem advances_refl (db : Db) : Advances db db := fun _ _ => .refl

theorem Advances.trans {db'' : Db} (h : Advances db db') (h' : Advances db' db'') : Advances db db'' :=
  fun symbol openTime => (h symbol openTime).trans (h' symbol openTime)

theorem turnEffect_advances {e : MarketEvent} {outcome : EventProcessOutcome} (h : TurnEffect e outcome db db') :
    Advances db db' := fun symbol openTime => .single (h.follows symbol openTime)

theorem steps_lastContext (h : Relation.ReflTransGen (Follows symbol openTime) rows rows') :
    lastContext rows' = lastContext rows := by
  induction h with
  | refl => rfl
  | tail _ hstep ih => exact hstep.lastContext_eq.trans ih

theorem steps_progress (h : Relation.ReflTransGen (Follows symbol openTime) rows rows')
    (hrows : Progress symbol openTime rows) : Progress symbol openTime rows' := by
  induction h with
  | refl => exact hrows
  | tail _ hstep ih => exact hstep.progress ih

theorem steps_closed (h : Relation.ReflTransGen (Follows symbol openTime) rows rows')
    (hrows : Closed symbol openTime o a rows) : Closed symbol openTime o a rows' := by
  induction h with
  | refl => exact hrows
  | tail _ hstep ih => exact hstep.closed_stays ih

theorem steps_tracked (h : Relation.ReflTransGen (Follows symbol openTime) rows rows')
    (hrows : Tracked symbol openTime o a rows) :
    Tracked symbol openTime o a rows' ∨ Closed symbol openTime o a rows' := by
  induction h with
  | refl => exact .inl hrows
  | tail _ hstep ih =>
    rcases ih with htracked | hclosed
    · exact hstep.tracked htracked
    · exact .inr (hstep.closed_stays hclosed)

theorem Advances.remembers (h : Advances db db') {name : JobName} {t : Time} {c : RecoveryContext} :
    Remembers db' name t c ↔ Remembers db name t c := by
  simp only [Remembers, steps_lastContext (h _ _)]

theorem Advances.remembered (h : Advances db db') : Remembered m db' ↔ Remembered m db := by
  simp only [Remembered, h.remembers]

theorem Advances.orderly (h : Advances db db') (hsound : Sound db') (hdb : Orderly db) : Orderly db' :=
  ⟨hsound, fun symbol openTime => steps_progress (h symbol openTime) (hdb.cases symbol openTime)⟩

theorem Remembered.set (h : Remembered m db) {name : JobName} {t : Time} {p : Option Pending}
    (hp : ∀ c, p = some c → Remembers db name t c.1) : Remembered (m.set name t p) db := by
  intro name' t' c hc
  unfold Memory.set at hc
  split_ifs at hc with hkey
  · obtain ⟨rfl, rfl⟩ := hkey
    exact hp c hc
  · exact h name' t' c hc

end Invariant

section Turns

variable {b : MarketEventBridge} {e : MarketEvent}

theorem toPending_eq {c : RecoveryContext} {p : Pending} (h : toPending c = some p) : p.1 = c := by
  unfold toPending at h
  split_ifs at h
  cases h
  rfl

theorem consulted_remembers (h : Orderly s.db)
    (hpending : ∀ c, b.recoveryPending = some c → Remembers s.db (b.jobName e) e.scheduledFor c.1) {p : Pending}
    (hp : consulted b e s = some p) : Remembers s.db (b.jobName e) e.scheduledFor p.1 := by
  obtain ⟨context, hcontext⟩ := activeRecoveryContext_run b (b.jobName e) e.scheduledFor s
  unfold consulted at hp
  rw [hcontext] at hp
  cases context with
  | none => cases hp
  | some c =>
    rw [toPending_eq hp]
    exact h.activeRecoveryContext_remembers hpending hcontext

theorem recoveryAfter_remembers (h : Orderly s.db)
    (hpending : ∀ c, b.recoveryPending = some c → Remembers s.db (b.jobName e) e.scheduledFor c.1)
    {result : Except Exc (MarketEvent × EventProcessOutcome)} {p : Pending}
    (hp : recoveryAfter b e s result = some p) : Remembers s.db (b.jobName e) e.scheduledFor p.1 := by
  unfold recoveryAfter at hp
  split_ifs at hp
  · cases result with
    | ok o =>
      dsimp only at hp
      split_ifs at hp
      exact consulted_remembers h hpending hp
    | error _ => exact consulted_remembers h hpending hp
  · exact consulted_remembers h hpending hp
  · exact hpending p hp

def IsOpenOf (symbol : Symbol) (openTime : Time) (e : MarketEvent) : Prop :=
  e.eventType = .dailyOpenAvailable ∧ e.symbol = symbol ∧ e.candleOpenTime = openTime

structure TurnsEffect (outcomes : List (MarketEvent × EventProcessOutcome)) (db db' : Db) : Prop where
  sound : Sound db'
  advances : Advances db db'
  acked : ∀ symbol openTime o a, Tracked symbol openTime o a (caseRuns symbol openTime db.schedulerRuns) →
    (∃ e ∈ eventsToAck outcomes, IsOpenOf symbol openTime e) →
    Closed symbol openTime o a (caseRuns symbol openTime db'.schedulerRuns)

theorem takeTurns_effect {turns : List Turn} {result : Except Exc (List (MarketEvent × EventProcessOutcome))}
    (h : Orderly s.db) (hm : Remembered m s.db) (hpermitted : PermittedTurns m turns s)
    (hrun : takeTurns m turns s = (result, m', s')) :
    Remembered m' s.db ∧ ∀ outcomes, result = .ok outcomes → TurnsEffect outcomes s.db s'.db := by
  induction turns generalizing m m' s s' result with
  | nil =>
    cases hrun
    refine ⟨hm, fun outcomes houtcomes => ?_⟩
    cases houtcomes
    refine ⟨h.sound, advances_refl _, fun _ _ _ _ _ hack => ?_⟩
    obtain ⟨e, he, _⟩ := hack
    cases he
  | cons turn turns ih =>
    obtain ⟨hunresolved, hnext⟩ := hpermitted
    have hpending : ∀ c, (remembering m turn).recoveryPending = some c →
        Remembers s.db ((remembering m turn).jobName turn.2) turn.2.scheduledFor c.1 :=
      fun c hc => hm _ _ c hc
    have hset : ∀ result, Remembered (m.set ((remembering m turn).jobName turn.2) turn.2.scheduledFor
        (recoveryAfter (remembering m turn) turn.2 s result)) s.db :=
      fun result => hm.set fun p hp => recoveryAfter_remembers h hpending hp
    simp only [takeTurns] at hrun
    rcases hturn : takeTurn (remembering m turn, turn.2) s with ⟨exc | out, s₁⟩
    · rw [hturn] at hrun
      cases hrun
      exact ⟨hset _, fun outcomes houtcomes => by cases houtcomes⟩
    · rw [hturn] at hrun
      obtain ⟨outcome, u, hprocess, hpure⟩ := bind_eq_ok.mp hturn
      cases hpure
      have heffect := turn_effect h hpending hunresolved hprocess
      have hadvances := turnEffect_advances heffect
      have horderly := hadvances.orderly heffect.sound h
      have hrest := hnext _ _ hturn
      dsimp only at hrun
      rcases htail : takeTurns (m.set ((remembering m turn).jobName turn.2) turn.2.scheduledFor
        (recoveryAfter (remembering m turn) turn.2 s (.ok (turn.2, outcome)))) turns s₁ with ⟨tail, m₁, s₂⟩
      obtain ⟨hmemory, htailEffect⟩ := ih horderly (hadvances.remembered.mpr (hset _)) hrest htail
      rw [htail] at hrun
      cases tail with
      | error exc =>
        cases hrun
        exact ⟨hadvances.remembered.mp hmemory, fun outcomes houtcomes => by cases houtcomes⟩
      | ok tail =>
        cases hrun
        refine ⟨hadvances.remembered.mp hmemory, fun outcomes houtcomes => ?_⟩
        cases houtcomes
        obtain ⟨hsound, hadvances', hacked⟩ := htailEffect tail rfl
        refine ⟨hsound, hadvances.trans hadvances', fun symbol openTime o a htracked hack => ?_⟩
        obtain ⟨e, he, htype, hsymbol, htime⟩ := hack
        simp only [eventsToAck, List.filter_cons] at he
        -- either this turn closes the case, or a later one finds it as it was
        have hlater : e ∈ eventsToAck tail → Closed symbol openTime o a
            (caseRuns symbol openTime s'.db.schedulerRuns) := by
          intro he
          rcases (heffect.follows symbol openTime).tracked htracked with htracked | hclosed
          · exact hacked symbol openTime o a htracked ⟨e, he, htype, hsymbol, htime⟩
          · exact steps_closed (hadvances' symbol openTime) hclosed
        split_ifs at he with hack
        · rcases List.mem_cons.mp he with rfl | he
          · subst hsymbol htime
            exact steps_closed (hadvances' _ _) (heffect.acked hack htype o a htracked)
          · exact hlater he
        · exact hlater he

end Turns

section Steps

theorem poll_effect {p : Poll} (h : Sane w) (hpermitted : PermittedTurns w.memory p.turns ⟨w.db, p.faults⟩) :
    Sane (w.poll p).2 ∧ Advances w.db (w.poll p).2.db ∧
      ∀ symbol openTime o a, Tracked symbol openTime o a (caseRuns symbol openTime w.db.schedulerRuns) →
        (∃ e ∈ (w.poll p).1, IsOpenOf symbol openTime e) →
        Closed symbol openTime o a (caseRuns symbol openTime (w.poll p).2.db.schedulerRuns) := by
  have hundone : ∀ m : Memory, Remembered m w.db → Sane ⟨w.db, m⟩ ∧ Advances w.db w.db :=
    fun m hm => ⟨⟨h.orderly, hm⟩, advances_refl _⟩
  unfold Worker.poll
  rcases hturns : takeTurns w.memory p.turns ⟨w.db, p.faults⟩ with ⟨result, m, s⟩
  obtain ⟨hmemory, heffect⟩ := takeTurns_effect h.orderly h.memory hpermitted hturns
  have hnone : ∀ symbol openTime, ¬ ∃ e ∈ ([] : List MarketEvent), IsOpenOf symbol openTime e := by
    rintro _ _ ⟨e, he, _⟩
    cases he
  cases result with
  | error exc =>
    obtain ⟨hsane, hadvances⟩ := hundone m hmemory
    exact ⟨hsane, hadvances, fun _ _ _ _ _ hack => absurd hack (hnone _ _)⟩
  | ok outcomes =>
    dsimp only
    split_ifs with hcommits
    · obtain ⟨hsound, hadvances, hacked⟩ := heffect outcomes rfl
      exact ⟨⟨hadvances.orderly hsound h.orderly, hadvances.remembered.mpr hmemory⟩, hadvances, hacked⟩
    · obtain ⟨hsane, hadvances⟩ := hundone m hmemory
      exact ⟨hsane, hadvances, fun _ _ _ _ _ hack => absurd hack (hnone _ _)⟩

def failOrphan (completedAt : Time) (r : SchedulerRun) : SchedulerRun :=
  if r.status = .running then
    { r with status := .failed, completedAt := some completedAt
             error := some "orphan_run_marked_failed_on_recovery" }
  else r

theorem failOrphan_same (completedAt : Time) (r : SchedulerRun) : SameRun r (failOrphan completedAt r) := by
  unfold failOrphan
  split_ifs
  · exact ⟨rfl, rfl, rfl, rfl⟩
  · exact .refl r

theorem failOrphan_resolved (completedAt : Time) (r : SchedulerRun) :
    (failOrphan completedAt r).resolvedByRunId = r.resolvedByRunId := by
  unfold failOrphan
  split_ifs
  · rfl
  · rfl

theorem map_failOrphan {earlier : List SchedulerRun} (h : Attempts symbol openTime o earlier a)
    (completedAt : Time) : (o :: (earlier ++ [a])).map (failOrphan completedAt) =
      o :: (earlier ++ [failOrphan completedAt a]) := by
  have hrest : ∀ r ∈ o :: earlier, failOrphan completedAt r = r := by
    intro r hr
    refine if_neg fun hrunning => ?_
    rcases List.mem_cons.mp hr with rfl | hr
    · rw [h.failed] at hrunning
      cases hrunning
    · have hover := (h.settled r hr).2
      simp [isActiveRecovery, hrunning] at hover
  have hkept : (o :: earlier).map (failOrphan completedAt) = o :: earlier :=
    (List.map_congr_left hrest).trans (List.map_id _)
  rw [← List.cons_append, List.map_append, hkept, List.map_singleton, List.cons_append]

/-- Of the runs of a case, only the open itself or the last attempt can be left running. -/
theorem failOrphans_follows (h : Progress symbol openTime rows) (completedAt : Time) :
    Follows symbol openTime rows (rows.map (failOrphan completedAt)) := by
  cases h with
  | idle h => exact .idle h (Idle.map h (failOrphan_same _) (failOrphan_resolved _))
  | attempted h hopen =>
    rw [map_failOrphan h]
    exact .attempted h hopen (failOrphan_same _ _)
  | @closed o a earlier h hresolved hdone =>
    have hlast : failOrphan completedAt a = a := if_neg (by rw [hdone]; decide)
    rw [map_failOrphan h, hlast]
    exact .same _

theorem failOrphans_effect (h : Orderly db) (completedAt : Time) :
    Sound (failOrphanSchedulerRuns completedAt ⟨db, []⟩).2.db ∧
      Advances db (failOrphanSchedulerRuns completedAt ⟨db, []⟩).2.db := by
  have hdb : (failOrphanSchedulerRuns completedAt ⟨db, []⟩).2.db =
      { db with schedulerRuns := db.schedulerRuns.map (failOrphan completedAt) } := rfl
  rw [hdb]
  refine ⟨h.sound.map (failOrphan_same _), fun symbol openTime => .single ?_⟩
  rw [caseRuns_map (failOrphan_same _)]
  exact failOrphans_follows (h.cases symbol openTime) completedAt

theorem recovery_name_of_none (job : SchedulerJobName) (h : (none : Option Id).isSome) :
    (JobName.scheduler job).isRecovery := by
  cases h

def cycleRow (db : Db) (job : SchedulerJobName) (t : Time) : SchedulerRun :=
  { runId := db.nextId
    jobName := .scheduler job
    scheduledFor := t
    status := .completed
    recovery_name := recovery_name_of_none job }

theorem insertOrGetSchedulerRun_run_nil (row : SchedulerRun) (db : Db) :
    ∃ r s', insertOrGetSchedulerRun row ⟨db, []⟩ = (.ok r, s') := by
  unfold insertOrGetSchedulerRun getSchedulerRun
  rw [read_bind]
  dsimp only
  cases db.schedulerRuns.find? (isRun row.jobName row.scheduledFor) with
  | none => exact ⟨_, _, rfl⟩
  | some _ => exact ⟨_, _, rfl⟩

theorem runCycle_effect (h : Orderly db) (job : SchedulerJobName) (t : Time) :
    Sound (controlRunCycle job t ⟨db, []⟩).2.db ∧ Advances db (controlRunCycle job t ⟨db, []⟩).2.db := by
  obtain ⟨r, s', hinsert⟩ :=
    insertOrGetSchedulerRun_run_nil (cycleRow db job t) { db with nextId := db.nextId + 1 }
  have hrun : controlRunCycle job t ⟨db, []⟩ = (.ok (), s') := by
    have hid : newId ⟨db, []⟩ = (.ok db.nextId, ⟨{ db with nextId := db.nextId + 1 }, []⟩) := rfl
    have hrest : (do
        let _ ← insertOrGetSchedulerRun (cycleRow db job t)
        pure () : Query Unit) ⟨{ db with nextId := db.nextId + 1 }, []⟩ = (.ok (), s') := by
      rw [bind_of_ok hinsert, pure_run]
    exact (bind_of_ok hid).trans hrest
  rw [hrun]
  dsimp only
  rcases insertOrGetSchedulerRun_ok hinsert with ⟨hsame, _⟩ | ⟨_, _, hnew⟩
  · rw [hsame]
    exact ⟨h.sound.ids_le (Nat.le_succ _), fun _ _ => .refl⟩
  · rw [hnew]
    refine ⟨h.sound.append rfl (fun hof => by cases hof), fun symbol openTime => ?_⟩
    rw [caseRuns_append]
    have hnone : caseRuns symbol openTime [cycleRow db job t] = [] := rfl
    rw [hnone, List.append_nil]

end Steps

section Recover

variable {call : RecoverCall} {earlier : List SchedulerRun}

/-- What the operator's call adds: one more attempt, after the ones that are over. -/
structure Starts (symbol : Symbol) (openTime : Time) (o a : SchedulerRun) (earlier : List SchedulerRun)
    (db db' : Db) : Prop where
  attempts : Attempts symbol openTime o earlier a
  opened : o.resolvedByRunId = none
  before : caseRuns symbol openTime db.schedulerRuns = o :: earlier
  after : Beside symbol openTime (· = o :: (earlier ++ [a])) db db'

theorem createRecoveryAttempt_ok {name : { name : JobName // name.isRecovery }} {startedAt : Time}
    {r : SchedulerRun × Bool} (h : Orderly s.db)
    (hrows : caseRuns symbol openTime s.db.schedulerRuns = o :: earlier) (hfailed : o.status = .failed)
    (hpermanent : isPermanentConfigurationError o.error) (hopen : o.resolvedByRunId = none)
    (hover : ∀ r ∈ earlier, isActiveRecovery r = false)
    (hname : name.1 = .recovery .dailyOpenAvailable symbol (wholeSeconds openTime) (earlier.length + 1))
    (hrun : createRecoveryAttempt o name startedAt s = (.ok r, s')) :
    r.1.jobName = name.1 ∧ Starts symbol openTime o r.1 earlier s.db s'.db := by
  have hprogress := h.cases symbol openTime
  rw [hrows] at hprogress
  obtain ⟨ho, htime⟩ := isRun_key hprogress.run
  obtain ⟨runId, u, hid, hinsert⟩ := bind_eq_ok.mp hrun
  cases hid
  have hin : inCase symbol openTime name.1 openTime = true := by simp [hname, inCase]
  have hnone : s.db.schedulerRuns.find? (isRun name.1 openTime) = none := by
    rw [find?_caseRuns hin, hrows]
    refine List.find?_eq_none.mpr fun r hr hrun => ?_
    obtain ⟨hr', _⟩ := isRun_key hrun
    rcases List.mem_cons.mp hr with rfl | hr
    · rw [ho, hname] at hr'
      cases hr'
    · obtain ⟨generation, hle, hgeneration⟩ := (hprogress.attemptAt hr).name
      rw [hgeneration, hname] at hr'
      injection hr' with _ _ _ heq
      omega
  rcases insertOrGetSchedulerRun_ok hinsert with ⟨_, _, hfind⟩ | ⟨_, rfl, hdb⟩
  · dsimp only at hfind
    rw [htime, hnone] at hfind
    cases hfind
  · refine ⟨rfl, ⟨⟨hprogress.run, hfailed, hpermanent, fun r hr => ⟨hprogress.attemptAt hr, hover r hr⟩, rfl,
      htime, hname⟩, hopen, hrows, ?_⟩⟩
    rw [hdb]
    refine ⟨h.sound.append rfl fun _ => ⟨symbol, openTime, by rw [htime]; exact hin⟩, ?_, fun symbol' openTime' hne => ?_⟩
    · rw [caseRuns_append, hrows]
      simp only [caseRuns, htime, hin, List.filter_cons, List.filter_nil, if_true, List.cons_append]
    · rw [caseRuns_append]
      have hout : inCase symbol' openTime' name.1 openTime = false := by
        rw [Bool.eq_false_iff]
        exact fun hin' => hne (inCase_unique hin' hin)
      simp only [caseRuns, htime, hout, List.filter_cons, List.filter_nil, Bool.false_eq_true, if_false,
        List.append_nil]

theorem clearTerminalFailed_ok {d d' : MarketEventDetector} {e : MarketEvent}
    (h : clearTerminalFailed d e s = (.ok d', s')) : s' = s := by
  unfold clearTerminalFailed at h
  cases htracker : (d.trackers e.symbol).clearTerminalFailed e with
  | none =>
    simp only [htracker] at h
    cases h
  | some tracker =>
    simp only [htracker] at h
    cases h
    rfl

theorem openRecoveryJobName {e : MarketEvent} (htype : e.eventType = .dailyOpenAvailable) (generation : ℕ) :
    marketEventRecoveryJobName e generation =
      .ok (.recovery .dailyOpenAvailable e.symbol (wholeSeconds e.candleOpenTime) generation) := by
  unfold marketEventRecoveryJobName
  rw [htype, if_neg (by decide)]

theorem recover_starts {d : MarketEventDetector} {c : RecoveryContext} (h : Orderly db)
    (hpermitted : PermittedRecovery call db) (hresult : call.result db = (.ok (d, c), s)) :
    ∃ o a earlier, Starts call.event.symbol call.event.candleOpenTime o a earlier db s.db ∧
      c = ⟨o.runId, a.jobName, a.runId⟩ := by
  obtain ⟨htype, hinactive⟩ := hpermitted
  have hrun := scope_eq_ok.mp hresult
  unfold recoverPermanentConfiguration at hrun
  split_ifs at hrun
  · cases hrun
  · unfold getSchedulerRun at hrun
    rw [read_bind] at hrun
    dsimp only at hrun
    cases hfind : db.schedulerRuns.find? (isRun (call.bridge.jobName call.event) call.event.scheduledFor) with
    | none =>
      rw [hfind] at hrun
      cases hrun
    | some o =>
      simp only [hfind] at hrun
      split_ifs at hrun with hfailed hpermanent hresolved
      · cases hrun
      · cases hrun
      · cases hrun
      · obtain ⟨constraints, u, hconstraints, hrun⟩ := bind_eq_ok.mp hrun
        obtain ⟨_, rfl⟩ := Effects.ofExcept_eq_ok.mp hconstraints
        obtain ⟨cleared, v, hcleared, hrun⟩ := bind_eq_ok.mp hrun
        obtain rfl := clearTerminalFailed_ok hcleared
        unfold countRecoveryAttempts at hrun
        rw [read_bind] at hrun
        have ho := List.mem_of_find?_eq_some hfind
        have hkey := List.find?_some hfind
        have hfind' := hfind
        rw [jobName_open call.bridge htype, show call.event.scheduledFor = call.event.candleOpenTime from rfl,
          find?_caseRuns inCase_openName] at hfind'
        obtain ⟨earlier, hrows⟩ := (h.cases _ _).first (List.mem_of_find?_eq_some hfind') (List.find?_some hfind')
        rw [h.attempts_filter hrows, openRecoveryJobName htype] at hrun
        dsimp only at hrun
        split_ifs at hrun with hname
        · obtain ⟨r, t, hcreate, hpure⟩ := bind_eq_ok.mp hrun
          cases hpure
          have hover : ∀ r ∈ earlier, isActiveRecovery r = false := by
            intro r hr
            have hprogress := h.cases call.event.symbol call.event.candleOpenTime
            rw [hrows] at hprogress
            exact hinactive o ho hkey r (mem_of_caseRuns (hrows ▸ List.mem_cons_of_mem _ hr))
              (hprogress.attemptAt hr).of
          obtain ⟨hjob, hstarts⟩ := createRecoveryAttempt_ok h hrows (not_not.mp hfailed)
            (by simpa using hpermanent) (by simpa using hresolved) hover rfl hcreate
          exact ⟨o, r.1, earlier, hstarts, by rw [hjob]⟩
        · cases hrun

theorem Starts.orderly (h : Starts symbol openTime o a earlier db db') (hdb : Orderly db) : Orderly db' := by
  refine h.after.orderly hdb fun rows hrows => ?_
  subst hrows
  exact .attempted h.attempts h.opened

theorem Starts.remembers (h : Starts symbol openTime o a earlier db db') :
    Remembers db' (openName symbol openTime) openTime ⟨o.runId, a.jobName, a.runId⟩ :=
  ⟨symbol, openTime, rfl, rfl, by rw [h.after.here, lastContext_attempts]⟩

theorem Starts.remembers_other (h : Starts symbol openTime o a earlier db db') {name : JobName} {t : Time}
    {c : RecoveryContext} (hne : ¬ (name = openName symbol openTime ∧ t = openTime))
    (hc : Remembers db name t c) : Remembers db' name t c := by
  obtain ⟨symbol', openTime', rfl, rfl, hcontext⟩ := hc
  refine ⟨symbol', t, rfl, rfl, ?_⟩
  rw [h.after.beside symbol' t fun hsame => hne ⟨by rw [hsame.1, hsame.2], hsame.2⟩]
  exact hcontext

theorem recover_cases (h : Sane w) (hpermitted : PermittedRecovery call w.db) :
    w.recover call = w ∨
    ∃ o a earlier, Starts call.event.symbol call.event.candleOpenTime o a earlier w.db (w.recover call).db ∧
      Sane (w.recover call) := by
  unfold Worker.recover
  rcases hresult : call.result w.db with ⟨exc | ⟨cleared, c⟩, s⟩
  · left
    dsimp only
    have hdb : s.db = w.db := scope_error_db hresult
    rw [hdb]
  · right
    obtain ⟨o, a, earlier, hstarts, rfl⟩ := recover_starts h.orderly hpermitted hresult
    refine ⟨o, a, earlier, hstarts, hstarts.orderly h.orderly, fun name t p hp => ?_⟩
    dsimp only [Memory.set] at hp
    split_ifs at hp with hkey
    · rw [toPending_eq hp, hkey.1, hkey.2, jobName_open _ hpermitted.1]
      exact hstarts.remembers
    · rw [jobName_open _ hpermitted.1] at hkey
      exact hstarts.remembers_other hkey (h.memory name t p hp)

end Recover

section Runs

variable {action : Action} {actions : List Action}

theorem step_sane (h : Sane w) (hpermitted : Permitted w action) : Sane (w.step action).2 := by
  cases action with
  | recover call =>
    rcases recover_cases h hpermitted with hsame | ⟨_, _, _, _, hsane⟩
    · rw [Worker.step, hsame]
      exact h
    · exact hsane
  | poll p => exact (poll_effect h hpermitted).1
  | restart => exact ⟨h.orderly, fun _ _ _ hc => by cases hc⟩
  | failOrphans t =>
    obtain ⟨hsound, hadvances⟩ := failOrphans_effect h.orderly t
    exact ⟨hadvances.orderly hsound h.orderly, hadvances.remembered.mpr h.memory⟩
  | runCycle job t =>
    obtain ⟨hsound, hadvances⟩ := runCycle_effect h.orderly job t
    exact ⟨hadvances.orderly hsound h.orderly, hadvances.remembered.mpr h.memory⟩
  | other db ids =>
    have hbelow := (h.orderly.sound.ids_le (Nat.le_add_right w.db.nextId ids))
    exact ⟨⟨⟨hbelow.ids, hbelow.below, hbelow.attempts⟩, h.orderly.cases⟩, h.memory⟩

theorem step_moves (h : Sane w) (hpermitted : Permitted w action)
    (hother : ∀ call, action = .recover call → ¬ IsOpenOf symbol openTime call.event) :
    Relation.ReflTransGen (Follows symbol openTime) (caseRuns symbol openTime w.db.schedulerRuns)
      (caseRuns symbol openTime (w.step action).2.db.schedulerRuns) := by
  cases action with
  | recover call =>
    rcases recover_cases h hpermitted with hsame | ⟨o, a, earlier, hstarts, _⟩
    · rw [Worker.step, hsame]
    · have hne : ¬ (symbol = call.event.symbol ∧ openTime = call.event.candleOpenTime) :=
        fun hcase => hother call rfl ⟨hpermitted.1, hcase.1.symm, hcase.2.symm⟩
      rw [Worker.step, hstarts.after.beside symbol openTime hne]
  | poll p => exact (poll_effect h hpermitted).2.1 symbol openTime
  | restart => exact .refl
  | failOrphans t => exact (failOrphans_effect h.orderly t).2 symbol openTime
  | runCycle job t => exact (runCycle_effect h.orderly job t).2 symbol openTime
  | other db ids => exact .refl

theorem step_closed (h : Sane w) (hpermitted : Permitted w action)
    (hrows : Closed symbol openTime o a (caseRuns symbol openTime w.db.schedulerRuns)) :
    Closed symbol openTime o a (caseRuns symbol openTime (w.step action).2.db.schedulerRuns) := by
  by_cases hcall : ∃ call, action = .recover call ∧ IsOpenOf symbol openTime call.event
  · obtain ⟨call, rfl, _, rfl, rfl⟩ := hcall
    rcases recover_cases h hpermitted with hsame | ⟨o', a', earlier', hstarts, _⟩
    · rw [Worker.step, hsame]
      exact hrows
    · obtain ⟨_, _, _, _, _, heq⟩ := hrows
      have hopened := hstarts.opened
      rw [hstarts.before] at heq
      rw [(List.cons.inj heq).1] at hopened
      cases hopened
  · exact steps_closed (step_moves h hpermitted fun call haction hevent => hcall ⟨call, haction, hevent⟩) hrows

theorem run_sane (h : Sane w) (hpermitted : PermittedRun w actions) : Sane (w.run actions) := by
  induction actions generalizing w with
  | nil => exact h
  | cons action actions ih => exact ih (step_sane h hpermitted.1) hpermitted.2

theorem run_closed (h : Sane w) (hpermitted : PermittedRun w actions)
    (hrows : Closed symbol openTime o a (caseRuns symbol openTime w.db.schedulerRuns)) :
    Closed symbol openTime o a (caseRuns symbol openTime (w.run actions).db.schedulerRuns) := by
  induction actions generalizing w with
  | nil => exact hrows
  | cons action actions ih =>
    exact ih (step_sane h hpermitted.1) hpermitted.2 (step_closed h hpermitted.1 hrows)

theorem run_tracked (h : Sane w) (hpermitted : PermittedRun w actions)
    (honly : ∀ call, .recover call ∈ actions → ¬ IsOpenOf symbol openTime call.event)
    (hrows : Tracked symbol openTime o a (caseRuns symbol openTime w.db.schedulerRuns)) :
    Tracked symbol openTime o a (caseRuns symbol openTime (w.run actions).db.schedulerRuns) ∨
    Closed symbol openTime o a (caseRuns symbol openTime (w.run actions).db.schedulerRuns) := by
  induction actions generalizing w with
  | nil => exact .inl hrows
  | cons action actions ih =>
    have hsane := step_sane h hpermitted.1
    have hstep : Relation.ReflTransGen (Follows symbol openTime)
        (caseRuns symbol openTime w.db.schedulerRuns)
        (caseRuns symbol openTime (w.step action).2.db.schedulerRuns) :=
      step_moves h hpermitted.1 fun call haction => honly call (haction ▸ List.mem_cons_self)
    rcases steps_tracked hstep hrows with htracked | hclosed
    · exact ih hsane hpermitted.2 (fun call hcall => honly call (List.mem_cons_of_mem _ hcall)) htracked
    · exact .inr (run_closed (w := (w.step action).2) hsane hpermitted.2 hclosed)

def started (db : Db) : Worker := ⟨db, fun _ _ => none⟩

theorem started_sane (hfresh : db.schedulerRuns = []) : Sane (started db) := by
  have hnone : ∀ {r : SchedulerRun}, r ∉ db.schedulerRuns := by simp [hfresh]
  refine ⟨⟨⟨by simp [started, hfresh], fun _ hr => (hnone hr).elim, fun _ hr => (hnone hr).elim⟩, fun _ _ => ?_⟩,
    fun _ _ _ hc => by cases hc⟩
  simp only [started, hfresh, caseRuns, List.filter_nil]
  exact .idle ⟨Nat.zero_le _, fun _ hr => by cases hr⟩

/-- The same event, whatever low it observed. -/
def SameEvent (e e' : MarketEvent) : Prop :=
  e.eventType = e'.eventType ∧ e.symbol = e'.symbol ∧ e.candleOpenTime = e'.candleOpenTime

/-- The attempt is completed, the failed run is marked as resolved by it and otherwise as it was, and no
attempt at repeating it is left running. -/
def ResolvedBy (c : RecoveryContext) (original : SchedulerRun) (db : Db) : Prop :=
  { original with resolvedByRunId := some c.recoveryRunId } ∈ db.schedulerRuns ∧
  (∃ a ∈ db.schedulerRuns, a.runId = c.recoveryRunId ∧ a.recoveryOfRunId = some c.originalRunId ∧
    a.status = .completed) ∧
  ∀ r ∈ db.schedulerRuns, r.recoveryOfRunId = some c.originalRunId → r.status ≠ .running

theorem orderly_resolvedBy (h : Orderly db)
    (hrows : Closed symbol openTime o a (caseRuns symbol openTime db.schedulerRuns)) :
    ResolvedBy ⟨o.runId, a.jobName, a.runId⟩ o db := by
  obtain ⟨earlier, a', hsame, hdone, hattempts, hrows⟩ := hrows
  refine ⟨mem_of_caseRuns (hrows ▸ List.mem_cons_self), ⟨a', ?_, hsame.id, hattempts.of, hdone⟩, fun r hr hof => ?_⟩
  · exact mem_of_caseRuns (hrows ▸ List.mem_cons_of_mem _ (List.mem_append_right _ List.mem_cons_self))
  · have hmem : r ∈ earlier ++ [a'] := by
      rw [← h.attempts_filter hrows]
      exact List.mem_filter.mpr ⟨hr, by simpa using hof⟩
    rcases List.mem_append.mp hmem with hmem | hmem
    · intro hrunning
      have hover := (hattempts.settled r hmem).2
      simp [isActiveRecovery, hrunning] at hover
    · rw [List.mem_singleton.mp hmem, hdone]
      decide

/-- In every run in which only opens are repeated, one attempt at a time, and no resolved run is processed
again: once a repeated open is acknowledged, its attempt is completed for good. -/
theorem recovery_closes_attempt {before between later : List Action} {call : RecoverCall} {p : Poll}
    {cleared : MarketEventDetector} {c : RecoveryContext} {e : MarketEvent} (hfresh : db.schedulerRuns = [])
    (hpermitted : PermittedRun (started db) (before ++ .recover call :: (between ++ .poll p :: later)))
    (hrecover : call.result ((started db).run before).db = (.ok (cleared, c), s))
    (honly : ∀ call', .recover call' ∈ between → ¬ SameEvent call'.event call.event)
    (hacked : e ∈ (((started db).run (before ++ .recover call :: between)).step (.poll p)).1)
    (hevent : SameEvent e call.event) :
    ∃ original ∈ ((started db).run before).db.schedulerRuns,
      isRun (call.bridge.jobName call.event) call.event.scheduledFor original ∧ original.status = .failed ∧
      ResolvedBy c original ((started db).run (before ++ .recover call :: (between ++ .poll p :: later))).db := by
  obtain ⟨hbefore, hcall, hrest⟩ := permittedRun_append.mp hpermitted
  obtain ⟨hbetween, hpoll, hlater⟩ := permittedRun_append.mp hrest
  have hw := run_sane (started_sane hfresh) hbefore
  obtain ⟨o, a, earlier, hstarts, rfl⟩ := recover_starts hw.orderly hcall hrecover
  have hdb : (((started db).run before).step (.recover call)).2.db = s.db := by
    simp only [Worker.step, Worker.recover, hrecover]
  have hw₁ := step_sane hw hcall
  have htracked : Tracked call.event.symbol call.event.candleOpenTime o a (caseRuns call.event.symbol
      call.event.candleOpenTime (((started db).run before).step (.recover call)).2.db.schedulerRuns) := by
    rw [hdb, hstarts.after.here]
    exact ⟨hstarts.opened, earlier, a, .refl a, hstarts.attempts, rfl⟩
  have hw₂ := run_sane hw₁ hbetween
  have hopen : IsOpenOf call.event.symbol call.event.candleOpenTime e :=
    ⟨hevent.1.trans hcall.1, hevent.2⟩
  rw [run_append] at hacked
  have hclosed : Closed call.event.symbol call.event.candleOpenTime o a (caseRuns call.event.symbol
      call.event.candleOpenTime (((((started db).run before).step (.recover call)).2.run between).step
        (.poll p)).2.db.schedulerRuns) := by
    rcases run_tracked hw₁ hbetween (fun call' hmem hsame => honly call' hmem ⟨hsame.1.trans hcall.1.symm,
      hsame.2⟩) htracked with htracked | hclosed
    · exact (poll_effect hw₂ hpoll).2.2 _ _ o a htracked ⟨e, hacked, hopen⟩
    · exact step_closed hw₂ hpoll hclosed
  have hfinal := run_closed (step_sane hw₂ hpoll) hlater hclosed
  have ho : o ∈ ((started db).run before).db.schedulerRuns :=
    mem_of_caseRuns (hstarts.before ▸ List.mem_cons_self)
  refine ⟨o, ho, by rw [jobName_open _ hcall.1]; exact hstarts.attempts.run, hstarts.attempts.failed, ?_⟩
  rw [run_append, Worker.run, run_append, Worker.run]
  exact orderly_resolvedBy (run_sane (step_sane hw₂ hpoll) hlater).orderly hfinal

end Runs

section Samples

def misconfigured (b : MarketEventBridge) : MarketEventBridge :=
  { b with builder := { b.builder with constraints := fun _ => none } }

def eveningBridge : MarketEventBridge :=
  { morningBridge with builder := { morningBuilder with candles := threeWeeks } }

def closeEvent : MarketEvent :=
  { eventType := .dailyClosed
    symbol := .BTC
    candleOpenTime := 19743 * day
    providerReceivedAt := 19744 * day + 5 * second }

def pollOf (b : MarketEventBridge) (e : MarketEvent) : Poll := { turns := [(b, e)] }

def correctedCall (b : MarketEventBridge) (e : MarketEvent) : RecoverCall :=
  { bridge := b
    lockHeld := true
    detector := { symbols := [.BTC] }
    event := e }

theorem result_of_isOk {call : RecoverCall} (h : (call.result db).1.isOk) :
    ∃ cleared c s, call.result db = (.ok (cleared, c), s) := by
  rcases hresult : call.result db with ⟨exc | ⟨cleared, c⟩, s⟩
  · rw [hresult] at h
    cases h
  · exact ⟨cleared, c, s, rfl⟩

/-- An open that failed without constraints is repeated with them. -/
theorem btc_open_recovered : ∃ c, ∃ original ∈ ((started startingDb).run
      [.poll (pollOf (misconfigured morningBridge) (openEvent .BTC))]).db.schedulerRuns,
    ResolvedBy c original ((started startingDb).run
      ([.poll (pollOf (misconfigured morningBridge) (openEvent .BTC))] ++
        .recover (correctedCall morningBridge (openEvent .BTC)) ::
          ([] ++ .poll (pollOf morningBridge (openEvent .BTC)) :: [.restart]))).db := by
  have hrecovers : ((correctedCall morningBridge (openEvent .BTC)).result ((started startingDb).run
      [.poll (pollOf (misconfigured morningBridge) (openEvent .BTC))]).db).1.isOk := by decide +kernel
  obtain ⟨cleared, c, s, hrecover⟩ := result_of_isOk hrecovers
  have hfirst : ∀ b : MarketEventBridge, Unresolved (b, openEvent .BTC) startingDb := fun _ r hr => by cases hr
  have hinactive : PermittedRecovery (correctedCall morningBridge (openEvent .BTC)) ((started startingDb).run
      [.poll (pollOf (misconfigured morningBridge) (openEvent .BTC))]).db := ⟨rfl, by decide +kernel⟩
  have hsecond : Unresolved (morningBridge, openEvent .BTC) ((started startingDb).run
      [.poll (pollOf (misconfigured morningBridge) (openEvent .BTC)),
        .recover (correctedCall morningBridge (openEvent .BTC))]).db := by
    unfold Unresolved
    decide +kernel
  have hpermitted : PermittedRun (started startingDb)
      ([.poll (pollOf (misconfigured morningBridge) (openEvent .BTC))] ++
        .recover (correctedCall morningBridge (openEvent .BTC)) ::
          ([] ++ .poll (pollOf morningBridge (openEvent .BTC)) :: [.restart])) :=
    ⟨⟨hfirst _, fun _ _ _ => trivial⟩, hinactive, ⟨hsecond, fun _ _ _ => trivial⟩, trivial, trivial⟩
  have honly : ∀ call', Action.recover call' ∈ ([] : List Action) →
      ¬ SameEvent call'.event (openEvent .BTC) := fun _ h => by cases h
  have hacked : openEvent .BTC ∈ (((started startingDb).run
      ([.poll (pollOf (misconfigured morningBridge) (openEvent .BTC))] ++
        .recover (correctedCall morningBridge (openEvent .BTC)) :: [])).step
          (.poll (pollOf morningBridge (openEvent .BTC)))).1 := by decide +kernel
  obtain ⟨original, hmem, _, _, hresolved⟩ :=
    recovery_closes_attempt rfl hpermitted hrecover honly hacked ⟨rfl, rfl, rfl⟩
  exact ⟨c, original, hmem, hresolved⟩

/-- A daily close is repeated under its own name: its attempt stays running. -/
theorem close_attempt_stays_running : ¬ ∀ (db : Db) (before between later : List Action) (call : RecoverCall)
    (p : Poll) (cleared : MarketEventDetector) (c : RecoveryContext) (s : Session Db) (e : MarketEvent),
    db.schedulerRuns = [] → call.result ((started db).run before).db = (.ok (cleared, c), s) →
    (∀ call', .recover call' ∈ between → ¬ SameEvent call'.event call.event) →
    e ∈ (((started db).run (before ++ .recover call :: between)).step (.poll p)).1 → SameEvent e call.event →
    ∃ original ∈ ((started db).run before).db.schedulerRuns,
      isRun (call.bridge.jobName call.event) call.event.scheduledFor original ∧ original.status = .failed ∧
      ResolvedBy c original
        ((started db).run (before ++ .recover call :: (between ++ .poll p :: later))).db := by
  intro h
  have hrecovers : ((correctedCall eveningBridge closeEvent).result ((started startingDb).run
      [.poll (pollOf (misconfigured eveningBridge) closeEvent)]).db).1.isOk := by decide +kernel
  obtain ⟨cleared, c, s, hrecover⟩ := result_of_isOk hrecovers
  have hacked : closeEvent ∈ (((started startingDb).run
      ([.poll (pollOf (misconfigured eveningBridge) closeEvent)] ++
        .recover (correctedCall eveningBridge closeEvent) :: [])).step
          (.poll (pollOf eveningBridge closeEvent))).1 := by decide +kernel
  have hnone : ∀ a ∈ ((started startingDb).run ([.poll (pollOf (misconfigured eveningBridge) closeEvent)] ++
      .recover (correctedCall eveningBridge closeEvent) ::
        ([] ++ .poll (pollOf eveningBridge closeEvent) :: []))).db.schedulerRuns,
      a.recoveryOfRunId.isSome → a.status ≠ .completed := by decide +kernel
  obtain ⟨original, _, _, _, _, ⟨a, ha, _, hof, hdone⟩, _⟩ := h startingDb _ [] [] _ _ cleared c s closeEvent rfl
    hrecover (fun _ hcall => by cases hcall) hacked ⟨rfl, rfl, rfl⟩
  exact hnone a ha (by rw [hof]; rfl) hdone

end Samples

end TradingBot.Paper.RecoveryClosure
