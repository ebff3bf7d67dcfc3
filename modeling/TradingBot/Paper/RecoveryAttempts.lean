import TradingBot.Paper.ConfigurationRecovery
import TradingBot.Paper.EventRules

namespace TradingBot.Paper.RecoveryAttempts

open Market.Models Exceptions Library.Transaction Paper.Models Paper.Repository Paper.MarketEvents
open Paper.Scheduler Paper.Scheduler.PaperTradingScheduler Paper.Bridge Paper.Bridge.MarketEventBridge
open Paper.Bookkeeping Paper.Polls Paper.EventRules Paper.ConfigurationRecovery

variable {symbol : Symbol} {openTime : Time} {db db' : Db} {own : JobName → Time → Prop}

structure SameRun (r r' : SchedulerRun) : Prop where
  id : r'.runId = r.runId
  name : r'.jobName = r.jobName
  time : r'.scheduledFor = r.scheduledFor
  of : r'.recoveryOfRunId = r.recoveryOfRunId

theorem SameRun.refl (r : SchedulerRun) : SameRun r r := ⟨rfl, rfl, rfl, rfl⟩

theorem SameRun.trans {r r' r'' : SchedulerRun} (h : SameRun r r') (h' : SameRun r' r'') : SameRun r r'' :=
  ⟨h'.id.trans h.id, h'.name.trans h.name, h'.time.trans h.time, h'.of.trans h.of⟩

theorem modifyRun_same {name : JobName} {t : Time} {f : SchedulerRun → SchedulerRun} (hf : ∀ r, SameRun r (f r))
    (r : SchedulerRun) : SameRun r (modifyRun name t f r) := by
  unfold modifyRun
  split_ifs
  · exact hf r
  · exact .refl r

theorem complete_same (status : SchedulerRunStatus) (completedAt : Time) (error : Option String)
    (r : SchedulerRun) :
    SameRun r { r with status := status, completedAt := some completedAt, error := error } := ⟨rfl, rfl, rfl, rfl⟩

theorem reactivate_same (startedAt : Time) (r : SchedulerRun) :
    SameRun r { r with status := .running, error := none, startedAt := some startedAt, completedAt := none } :=
  ⟨rfl, rfl, rfl, rfl⟩

section Cases

def openName (symbol : Symbol) (openTime : Time) : JobName :=
  .marketEvent .dailyOpenAvailable symbol (wholeSeconds openTime)

def inCase (symbol : Symbol) (openTime : Time) : JobName → Time → Bool
  | .marketEvent type s seconds, t =>
    type = .dailyOpenAvailable ∧ s = symbol ∧ seconds = wholeSeconds openTime ∧ t = openTime
  | .recovery type s seconds _, t =>
    type = .dailyOpenAvailable ∧ s = symbol ∧ seconds = wholeSeconds openTime ∧ t = openTime
  | _, _ => false

def caseRuns (symbol : Symbol) (openTime : Time) (runs : List SchedulerRun) : List SchedulerRun :=
  runs.filter fun r => inCase symbol openTime r.jobName r.scheduledFor

theorem inCase_openName : inCase symbol openTime (openName symbol openTime) openTime = true := by
  simp [inCase, openName]

theorem inCase_unique {symbol' : Symbol} {openTime' : Time} {name : JobName} {t : Time}
    (h : inCase symbol openTime name t) (h' : inCase symbol' openTime' name t) :
    symbol = symbol' ∧ openTime = openTime' := by
  cases name with
  | marketEvent type s seconds =>
    simp only [inCase, decide_eq_true_eq] at h h'
    exact ⟨h.2.1.symm.trans h'.2.1, h.2.2.2.symm.trans h'.2.2.2⟩
  | recovery type s seconds generation =>
    simp only [inCase, decide_eq_true_eq] at h h'
    exact ⟨h.2.1.symm.trans h'.2.1, h.2.2.2.symm.trans h'.2.2.2⟩
  | _ => cases h

theorem caseRuns_append (runs more : List SchedulerRun) :
    caseRuns symbol openTime (runs ++ more) = caseRuns symbol openTime runs ++ caseRuns symbol openTime more :=
  List.filter_append ..

theorem caseRuns_map {f : SchedulerRun → SchedulerRun} (hf : ∀ r, SameRun r (f r)) (runs : List SchedulerRun) :
    caseRuns symbol openTime (runs.map f) = (caseRuns symbol openTime runs).map f := by
  unfold caseRuns
  rw [List.filter_map]
  congr 1
  refine List.filter_congr fun r _ => ?_
  rw [Function.comp_apply, (hf r).name, (hf r).time]

theorem caseRuns_modify_other {name : JobName} {t : Time} {f : SchedulerRun → SchedulerRun}
    (hf : ∀ r, SameRun r (f r))
    (hother : inCase symbol openTime name t = false) (runs : List SchedulerRun) :
    caseRuns symbol openTime (runs.map (modifyRun name t f)) = caseRuns symbol openTime runs := by
  rw [caseRuns_map (modifyRun_same hf)]
  refine (List.map_congr_left fun r hr => ?_).trans (List.map_id _)
  have hcase : inCase symbol openTime r.jobName r.scheduledFor = true := (List.mem_filter.mp hr).2
  unfold modifyRun
  split_ifs with hrun
  · simp only [isRun, decide_eq_true_eq] at hrun
    rw [hrun.1, hrun.2, hother] at hcase
    cases hcase
  · rfl

theorem caseRuns_runOp (h : RunOp own db db') (hown : ∀ name t, own name t → inCase symbol openTime name t = false) :
    caseRuns symbol openTime db'.schedulerRuns = caseRuns symbol openTime db.schedulerRuns := by
  cases h with
  | insert name t startedAt h hnew =>
    rw [caseRuns_append]
    simp [caseRuns, runRow, hown _ _ h]
  | complete name t status completedAt error h hstatus hskipped =>
    exact caseRuns_modify_other (complete_same _ _ _) (hown _ _ h) _
  | reactivate name t startedAt h hskipped =>
    exact caseRuns_modify_other (reactivate_same _) (hown _ _ h) _
  | delete name t h hplain =>
    unfold caseRuns
    rw [List.filter_filter]
    refine List.filter_congr fun r _ => ?_
    by_cases hrun : isRun name t r = true
    · have hout : inCase symbol openTime r.jobName r.scheduledFor = false := by
        simp only [isRun, decide_eq_true_eq] at hrun
        rw [hrun.1, hrun.2]
        exact hown _ _ h
      rw [hout, Bool.false_and]
    · rw [Bool.not_eq_true] at hrun
      rw [hrun, Bool.false_and, Bool.not_false, Bool.and_true]

end Cases

section Identifiers

/-- The runs have identifiers of their own, and only opens are repeated. -/
structure Sound (db : Db) : Prop where
  ids : (db.schedulerRuns.map (·.runId)).Nodup
  below : ∀ r ∈ db.schedulerRuns, r.runId < db.nextId
  attempts : ∀ r ∈ db.schedulerRuns, r.recoveryOfRunId.isSome →
    ∃ symbol openTime, inCase symbol openTime r.jobName r.scheduledFor

theorem Sound.eq_of_id (h : Sound db) {r r' : SchedulerRun} (hr : r ∈ db.schedulerRuns)
    (hr' : r' ∈ db.schedulerRuns) (hid : r.runId = r'.runId) : r = r' :=
  List.inj_on_of_nodup_map h.ids hr hr' hid

theorem Sound.map (h : Sound db) {f : SchedulerRun → SchedulerRun} (hf : ∀ r, SameRun r (f r)) :
    Sound { db with schedulerRuns := db.schedulerRuns.map f } where
  ids := by
    have hids : (db.schedulerRuns.map f).map (·.runId) = db.schedulerRuns.map (·.runId) := by
      rw [List.map_map]
      exact List.map_congr_left fun r _ => (hf r).id
    rw [hids]
    exact h.ids
  below := by
    intro r' hr'
    obtain ⟨r, hr, rfl⟩ := List.mem_map.mp hr'
    rw [(hf r).id]
    exact h.below r hr
  attempts := by
    intro r' hr'
    obtain ⟨r, hr, rfl⟩ := List.mem_map.mp hr'
    rw [(hf r).name, (hf r).time, (hf r).of]
    exact h.attempts r hr

theorem Sound.append (h : Sound db) {row : SchedulerRun} (hid : row.runId = db.nextId)
    (hattempt : row.recoveryOfRunId.isSome →
      ∃ symbol openTime, inCase symbol openTime row.jobName row.scheduledFor) :
    Sound { db with nextId := db.nextId + 1, schedulerRuns := db.schedulerRuns ++ [row] } where
  ids := by
    rw [List.map_append, List.map_singleton, List.nodup_append]
    refine ⟨h.ids, List.nodup_singleton _, fun id hmem id' hid' heq => ?_⟩
    obtain ⟨r, hr, rfl⟩ := List.mem_map.mp hmem
    have hbelow := h.below r hr
    rw [heq, List.mem_singleton.mp hid', hid] at hbelow
    exact Nat.lt_irrefl _ hbelow
  below := by
    intro r hr
    rcases List.mem_append.mp hr with hr | hr
    · exact Nat.lt_succ_of_lt (h.below r hr)
    · rw [List.mem_singleton.mp hr, hid]
      exact Nat.lt_succ_self _
  attempts := by
    intro r hr
    rcases List.mem_append.mp hr with hr | hr
    · exact h.attempts r hr
    · rw [List.mem_singleton.mp hr]
      exact hattempt

theorem Sound.ids_le (h : Sound db) {nextId : ℕ} (hle : db.nextId ≤ nextId) : Sound { db with nextId } :=
  ⟨h.ids, fun r hr => (h.below r hr).trans_le hle, h.attempts⟩

theorem sound_runOp (h : RunOp own db db') (hdb : Sound db) : Sound db' := by
  cases h with
  | insert name t startedAt h hnew => exact hdb.append rfl fun h => by cases h
  | complete name t status completedAt error h hstatus hskipped =>
    exact hdb.map (modifyRun_same (complete_same _ _ _))
  | reactivate name t startedAt h hskipped => exact hdb.map (modifyRun_same (reactivate_same _))
  | delete name t h hplain =>
    exact ⟨hdb.ids.sublist (List.Sublist.map _ List.filter_sublist),
      fun r hr => hdb.below r (List.mem_of_mem_filter hr),
      fun r hr => hdb.attempts r (List.mem_of_mem_filter hr)⟩

end Identifiers

section Progress

structure Idle (symbol : Symbol) (openTime : Time) (rows : List SchedulerRun) : Prop where
  length : rows.length ≤ 1
  runs : ∀ r ∈ rows, isRun (openName symbol openTime) openTime r ∧ r.resolvedByRunId = none

/-- The run `r` is an attempt at repeating `o`, with a number up to `n`. -/
structure AttemptAt (symbol : Symbol) (openTime : Time) (o : SchedulerRun) (n : ℕ) (r : SchedulerRun) : Prop where
  of : r.recoveryOfRunId = some o.runId
  time : r.scheduledFor = openTime
  name : ∃ generation ≤ n, r.jobName = .recovery .dailyOpenAvailable symbol (wholeSeconds openTime) generation

structure Attempts (symbol : Symbol) (openTime : Time) (o : SchedulerRun) (earlier : List SchedulerRun)
    (a : SchedulerRun) : Prop where
  run : isRun (openName symbol openTime) openTime o
  failed : o.status = .failed
  permanent : isPermanentConfigurationError o.error
  settled : ∀ r ∈ earlier, AttemptAt symbol openTime o earlier.length r ∧ isActiveRecovery r = false
  of : a.recoveryOfRunId = some o.runId
  time : a.scheduledFor = openTime
  name : a.jobName = .recovery .dailyOpenAvailable symbol (wholeSeconds openTime) (earlier.length + 1)

/-- How far the repetition of an open has come. -/
inductive Progress (symbol : Symbol) (openTime : Time) : List SchedulerRun → Prop
  | idle {rows : List SchedulerRun} (h : Idle symbol openTime rows) : Progress symbol openTime rows
  | attempted {o a : SchedulerRun} {earlier : List SchedulerRun} (h : Attempts symbol openTime o earlier a)
      (hopen : o.resolvedByRunId = none) : Progress symbol openTime (o :: (earlier ++ [a]))
  | closed {o a : SchedulerRun} {earlier : List SchedulerRun} (h : Attempts symbol openTime o earlier a)
      (hresolved : o.resolvedByRunId = some a.runId) (hdone : a.status = .completed) :
    Progress symbol openTime (o :: (earlier ++ [a]))

structure Orderly (db : Db) : Prop where
  sound : Sound db
  cases : ∀ symbol openTime, Progress symbol openTime (caseRuns symbol openTime db.schedulerRuns)

def lastContext : List SchedulerRun → Option RecoveryContext
  | [] => none
  | o :: attempts => attempts.getLast?.map fun a => ⟨o.runId, a.jobName, a.runId⟩

variable {o a r : SchedulerRun} {earlier rows : List SchedulerRun}

theorem Idle.plain (h : Idle symbol openTime rows) (hr : r ∈ rows) : r.recoveryOfRunId = none := by
  by_contra hof
  have hname := r.recovery_name (Option.ne_none_iff_isSome.mp hof)
  have hrun := (h.runs r hr).1
  simp only [isRun, decide_eq_true_eq] at hrun
  rw [hrun.1] at hname
  cases hname

theorem Idle.lastContext (h : Idle symbol openTime rows) : lastContext rows = none := by
  have hlength := h.length
  match rows with
  | [] => rfl
  | [_] => rfl
  | _ :: _ :: _ => simp at hlength

theorem Attempts.plain (h : Attempts symbol openTime o earlier a) : o.recoveryOfRunId = none := by
  by_contra hof
  have hname := o.recovery_name (Option.ne_none_iff_isSome.mp hof)
  have hrun := h.run
  simp only [isRun, decide_eq_true_eq] at hrun
  rw [hrun.1] at hname
  cases hname

theorem lastContext_attempts : lastContext (o :: (earlier ++ [a])) = some ⟨o.runId, a.jobName, a.runId⟩ := by
  simp [lastContext]

theorem Progress.attempts_of (h : Progress symbol openTime rows) (hr : r ∈ rows)
    (hof : r.recoveryOfRunId.isSome) : ∃ o earlier a, Attempts symbol openTime o earlier a ∧
      rows = o :: (earlier ++ [a]) ∧ r ∈ earlier ++ [a] := by
  have hmem : ∀ {o a : SchedulerRun} {earlier : List SchedulerRun}, Attempts symbol openTime o earlier a →
      r ∈ o :: (earlier ++ [a]) → r ∈ earlier ++ [a] := by
    intro o a earlier hattempts hr
    rcases List.mem_cons.mp hr with rfl | hr
    · rw [hattempts.plain] at hof
      cases hof
    · exact hr
  cases h with
  | idle h =>
    rw [h.plain hr] at hof
    cases hof
  | attempted h _ => exact ⟨_, _, _, h, rfl, hmem h hr⟩
  | closed h _ _ => exact ⟨_, _, _, h, rfl, hmem h hr⟩

theorem Attempts.mem_of (h : Attempts symbol openTime o earlier a) (hr : r ∈ earlier ++ [a]) :
    r.recoveryOfRunId = some o.runId := by
  rcases List.mem_append.mp hr with hr | hr
  · exact (h.settled r hr).1.of
  · rw [List.mem_singleton.mp hr]
    exact h.of

theorem mem_of_caseRuns (h : r ∈ caseRuns symbol openTime db.schedulerRuns) : r ∈ db.schedulerRuns :=
  List.mem_of_mem_filter h

theorem Orderly.attempt_case (h : Orderly db) {r' : SchedulerRun} (hr : r ∈ db.schedulerRuns)
    (hr' : r' ∈ db.schedulerRuns) (hof : r'.recoveryOfRunId = some r.runId) :
    ∃ symbol openTime earlier a, Attempts symbol openTime r earlier a ∧
      caseRuns symbol openTime db.schedulerRuns = r :: (earlier ++ [a]) ∧ r' ∈ earlier ++ [a] := by
  have hsome : r'.recoveryOfRunId.isSome := by rw [hof]; rfl
  obtain ⟨symbol, openTime, hcase⟩ := h.sound.attempts r' hr' hsome
  have hmem : r' ∈ caseRuns symbol openTime db.schedulerRuns := List.mem_filter.mpr ⟨hr', hcase⟩
  obtain ⟨o, earlier, a, hattempts, hrows, hr'⟩ := (h.cases symbol openTime).attempts_of hmem hsome
  have hid : o.runId = r.runId := Option.some.inj ((hattempts.mem_of hr').symm.trans hof)
  have ho : o ∈ db.schedulerRuns := mem_of_caseRuns (hrows ▸ List.mem_cons_self)
  obtain rfl := h.sound.eq_of_id ho hr hid
  exact ⟨symbol, openTime, earlier, a, hattempts, hrows, hr'⟩

theorem isRun_key {name : JobName} {t : Time} (h : isRun name t r) : r.jobName = name ∧ r.scheduledFor = t := by
  simpa [isRun] using h

theorem find?_caseRuns {name : JobName} {t : Time} (h : inCase symbol openTime name t) (runs : List SchedulerRun) :
    runs.find? (isRun name t) = (caseRuns symbol openTime runs).find? (isRun name t) := by
  unfold caseRuns
  rw [List.find?_filter]
  congr 1
  funext r
  by_cases hrun : isRun name t r = true
  · obtain ⟨hname, ht⟩ := isRun_key hrun
    rw [hname, ht, h, hrun]
    rfl
  · rw [Bool.not_eq_true] at hrun
    rw [hrun]
    simp

theorem Attempts.inCase_name (h : Attempts symbol openTime o earlier a) :
    inCase symbol openTime a.jobName openTime := by
  rw [h.name]
  simp [inCase]

theorem Attempts.find_run (h : Attempts symbol openTime o earlier a) {runs : List SchedulerRun}
    (hrows : caseRuns symbol openTime runs = o :: (earlier ++ [a])) :
    runs.find? (isRun (openName symbol openTime) openTime) = some o := by
  rw [find?_caseRuns inCase_openName, hrows, List.find?_cons_of_pos h.run]

theorem Attempts.isRun_last (h : Attempts symbol openTime o earlier a) : isRun a.jobName openTime a := by
  simp [isRun, h.time]

theorem Attempts.not_isRun (h : Attempts symbol openTime o earlier a) (hr : r ∈ o :: earlier) :
    isRun a.jobName openTime r = false := by
  rw [Bool.eq_false_iff]
  intro hrun
  obtain ⟨hname, _⟩ := isRun_key hrun
  rcases List.mem_cons.mp hr with rfl | hr
  · rw [(isRun_key h.run).1, h.name] at hname
    cases hname
  · obtain ⟨generation, hle, hgeneration⟩ := (h.settled r hr).1.name
    rw [hgeneration, h.name] at hname
    injection hname with _ _ _ heq
    omega

theorem Attempts.find_last (h : Attempts symbol openTime o earlier a) {runs : List SchedulerRun}
    (hrows : caseRuns symbol openTime runs = o :: (earlier ++ [a])) :
    runs.find? (isRun a.jobName openTime) = some a := by
  rw [find?_caseRuns h.inCase_name, hrows, ← List.cons_append, List.find?_append]
  have hnone : (o :: earlier).find? (isRun a.jobName openTime) = none :=
    List.find?_eq_none.mpr fun r hr => by rw [h.not_isRun hr]; exact Bool.false_ne_true
  rw [hnone, Option.none_or, List.find?_cons_of_pos h.isRun_last]

theorem Progress.run (h : Progress symbol openTime (o :: earlier)) :
    isRun (openName symbol openTime) openTime o := by
  cases h with
  | idle h => exact (h.runs o List.mem_cons_self).1
  | attempted h _ => exact h.run
  | closed h _ _ => exact h.run

theorem Progress.attemptAt (h : Progress symbol openTime (o :: earlier)) {r : SchedulerRun} (hr : r ∈ earlier) :
    AttemptAt symbol openTime o earlier.length r := by
  have hattempt : ∀ {earlier : List SchedulerRun} {a : SchedulerRun}, Attempts symbol openTime o earlier a →
      r ∈ earlier ++ [a] → AttemptAt symbol openTime o (earlier ++ [a]).length r := by
    intro earlier a hattempts hr
    rw [List.length_append, List.length_singleton]
    rcases List.mem_append.mp hr with hr | hr
    · obtain ⟨hof, htime, generation, hle, hname⟩ := (hattempts.settled r hr).1
      exact ⟨hof, htime, generation, hle.trans (Nat.le_succ _), hname⟩
    · rw [List.mem_singleton.mp hr]
      exact ⟨hattempts.of, hattempts.time, _, le_rfl, hattempts.name⟩
  cases h with
  | idle h =>
    have hlength := h.length
    rw [List.length_cons] at hlength
    rw [List.length_eq_zero_iff.mp (by omega : earlier.length = 0)] at hr
    cases hr
  | attempted h _ => exact hattempt h hr
  | closed h _ _ => exact hattempt h hr

theorem Progress.plain (h : Progress symbol openTime (o :: earlier)) : o.recoveryOfRunId = none := by
  cases h with
  | idle h => exact h.plain List.mem_cons_self
  | attempted h _ => exact h.plain
  | closed h _ _ => exact h.plain

theorem Progress.first (h : Progress symbol openTime rows) (hr : r ∈ rows)
    (hrun : isRun (openName symbol openTime) openTime r) : ∃ earlier, rows = r :: earlier := by
  have hattempts : ∀ {o a : SchedulerRun} {earlier : List SchedulerRun}, Attempts symbol openTime o earlier a →
      r ∈ o :: (earlier ++ [a]) → o = r := by
    intro o a earlier h hr
    rcases List.mem_cons.mp hr with rfl | hr
    · rfl
    · have hname := r.recovery_name (by rw [h.mem_of hr]; rfl)
      rw [(isRun_key hrun).1] at hname
      cases hname
  cases h with
  | idle h =>
    have hlength := h.length
    match rows, hr with
    | [r'], hr =>
      rw [List.mem_singleton.mp hr]
      exact ⟨[], rfl⟩
    | _ :: _ :: _, _ => simp at hlength
  | attempted h _ =>
    obtain rfl := hattempts h hr
    exact ⟨_, rfl⟩
  | closed h _ _ =>
    obtain rfl := hattempts h hr
    exact ⟨_, rfl⟩

theorem Orderly.attempts_filter (h : Orderly db)
    (hrows : caseRuns symbol openTime db.schedulerRuns = o :: earlier) :
    db.schedulerRuns.filter (·.recoveryOfRunId = some o.runId) = earlier := by
  have hprogress := h.cases symbol openTime
  rw [hrows] at hprogress
  have ho : o ∈ db.schedulerRuns := mem_of_caseRuns (hrows ▸ List.mem_cons_self)
  have hcase : ∀ r ∈ db.schedulerRuns, decide (r.recoveryOfRunId = some o.runId) =
      (decide (r.recoveryOfRunId = some o.runId) && inCase symbol openTime r.jobName r.scheduledFor) := by
    intro r hr
    by_cases hof : r.recoveryOfRunId = some o.runId
    · obtain ⟨symbol', openTime', earlier', a, hattempts, hrows', hmem⟩ := h.attempt_case ho hr hof
      have hin : ∀ {r' : SchedulerRun}, r' ∈ caseRuns symbol' openTime' db.schedulerRuns →
          inCase symbol' openTime' r'.jobName r'.scheduledFor = true := fun hr' => (List.mem_filter.mp hr').2
      have hothers := hin (hrows' ▸ List.mem_cons_self)
      rw [(isRun_key hprogress.run).1, (isRun_key hprogress.run).2] at hothers
      obtain ⟨rfl, rfl⟩ := inCase_unique hothers inCase_openName
      rw [hin (hrows' ▸ List.mem_cons_of_mem _ hmem), Bool.and_true]
    · rw [decide_eq_false hof, Bool.false_and]
  rw [List.filter_congr hcase, ← List.filter_filter]
  change (caseRuns symbol openTime db.schedulerRuns).filter _ = earlier
  rw [hrows, List.filter_cons_of_neg (by simp [hprogress.plain])]
  exact List.filter_eq_self.mpr fun r hr => by simp [(hprogress.attemptAt hr).of]

end Progress

section Frame

/-- The case of the open may have become what `here` says, all others are as they were. -/
structure Beside (symbol : Symbol) (openTime : Time) (here : List SchedulerRun → Prop) (db₀ db : Db) : Prop where
  sound : Sound db
  here : here (caseRuns symbol openTime db.schedulerRuns)
  beside : ∀ symbol' openTime', ¬ (symbol' = symbol ∧ openTime' = openTime) →
    caseRuns symbol' openTime' db.schedulerRuns = caseRuns symbol' openTime' db₀.schedulerRuns

variable {db₀ : Db} {here : List SchedulerRun → Prop} {b : MarketEventBridge} {e : MarketEvent}

instance : Journals (Beside symbol openTime here db₀) where
  frame := fun {db db'} hruns _ hids h => by
    obtain ⟨hsound, hhere, hbeside⟩ := h
    rw [← hruns] at hhere hbeside
    refine ⟨?_, hhere, hbeside⟩
    refine ⟨hruns ▸ hsound.ids, fun r hr => ?_, fun r hr => hsound.attempts r (hruns ▸ hr)⟩
    exact (hsound.below r (hruns ▸ hr)).trans_le hids
  grows := fun _ h => ⟨⟨h.sound.ids, h.sound.below, h.sound.attempts⟩, h.here, h.beside⟩

theorem jobOwn_not_inCase {name : JobName} {t : Time} (h : JobOwn e name t) :
    inCase symbol openTime name t = false := by
  cases h with
  | job job t => rfl
  | subjob h =>
    simp only [Failures.openSubjobs, List.mem_cons, List.not_mem_nil, or_false] at h
    rcases h with rfl | rfl | rfl
    · rfl
    · rfl
    · rfl

theorem Beside.runOp (h : Beside symbol openTime here db₀ db) (hop : RunOp own db db')
    (hown : ∀ name t, own name t →
      inCase symbol openTime name t ∨ ∀ symbol' openTime', inCase symbol' openTime' name t = false)
    (hhere : here (caseRuns symbol openTime db'.schedulerRuns)) : Beside symbol openTime here db₀ db' := by
  refine ⟨sound_runOp hop h.sound, hhere, fun symbol' openTime' hne => ?_⟩
  rw [← h.beside symbol' openTime' hne]
  refine caseRuns_runOp hop fun name t hname => ?_
  rcases hown name t hname with hcase | hnone
  · rw [Bool.eq_false_iff]
    exact fun hcase' => hne (inCase_unique hcase' hcase)
  · exact hnone symbol' openTime'

theorem jobRules : JobRules b e (Beside symbol openTime here db₀) where
  ids := fun db h => ⟨h.sound.ids_le (Nat.le_succ _), h.here, h.beside⟩
  runs := fun db db' h hop => by
    refine h.runOp hop (fun _ _ hown => .inr fun _ _ => jobOwn_not_inCase hown) ?_
    rw [caseRuns_runOp hop fun _ _ hown => jobOwn_not_inCase hown]
    exact h.here
  handler := fun _ _ job _ => keeps_handler job

theorem Beside.orderly (h : Beside symbol openTime here db₀ db) (h₀ : Orderly db₀)
    (hhere : ∀ rows, here rows → Progress symbol openTime rows) : Orderly db := by
  refine ⟨h.sound, fun symbol' openTime' => ?_⟩
  by_cases hcase : symbol' = symbol ∧ openTime' = openTime
  · obtain ⟨rfl, rfl⟩ := hcase
    exact hhere _ h.here
  · rw [h.beside symbol' openTime' hcase]
    exact h₀.cases symbol' openTime'

theorem getActiveRecoveryAttempt_mem {runId : Id} {db : Db} {r : SchedulerRun}
    (h : (getActiveRecoveryAttempt runId ⟨db, []⟩).1 = .ok (some r)) :
    r ∈ db.schedulerRuns ∧ r.recoveryOfRunId = some runId ∧ isActiveRecovery r := by
  have hfind := Option.some.inj (congrArg some (Except.ok.inj h))
  have hmem := (List.mem_insertionSort _).mp (List.mem_of_find?_eq_some hfind)
  obtain ⟨hmem, hof⟩ := List.mem_filter.mp hmem
  exact ⟨hmem, by simpa using hof, List.find?_some hfind⟩

end Frame

section Context

variable {b : MarketEventBridge} {e : MarketEvent} {name : JobName} {t : Time} {s s' : Session Db}

/-- What the bridge remembers for a run is the last attempt at repeating it. -/
def Remembers (db : Db) (name : JobName) (t : Time) (c : RecoveryContext) : Prop :=
  ∃ symbol openTime, name = openName symbol openTime ∧ t = openTime ∧
    lastContext (caseRuns symbol openTime db.schedulerRuns) = some c

theorem activeRecoveryContext_run (b : MarketEventBridge) (name : JobName) (t : Time) (s : Session Db) :
    ∃ c, b.activeRecoveryContext name t s = (.ok c, s) := by
  unfold activeRecoveryContext
  cases b.recoveryPending with
  | some pending => exact ⟨_, rfl⟩
  | none =>
    dsimp only
    unfold getSchedulerRun
    rw [read_bind]
    cases s.db.schedulerRuns.find? (isRun name t) with
    | none => exact ⟨_, rfl⟩
    | some _ => exact ⟨_, rfl⟩

theorem Attempts.active_last {o a r : SchedulerRun} {earlier : List SchedulerRun}
    (h : Attempts symbol openTime o earlier a) (hr : r ∈ earlier ++ [a]) (hactive : isActiveRecovery r) :
    r = a := by
  rcases List.mem_append.mp hr with hr | hr
  · rw [(h.settled r hr).2] at hactive
    cases hactive
  · exact List.mem_singleton.mp hr

theorem Orderly.remembers_active (h : Orderly db) {r a : SchedulerRun}
    (hfind : db.schedulerRuns.find? (isRun name t) = some r)
    (hactive : (getActiveRecoveryAttempt r.runId ⟨db, []⟩).1 = .ok (some a)) :
    Remembers db name t ⟨r.runId, a.jobName, a.runId⟩ := by
  obtain ⟨hmem, hof, hactive⟩ := getActiveRecoveryAttempt_mem hactive
  obtain ⟨symbol, openTime, earlier, last, hattempts, hrows, ha⟩ :=
    h.attempt_case (List.mem_of_find?_eq_some hfind) hmem hof
  obtain rfl := hattempts.active_last ha hactive
  obtain ⟨hname, ht⟩ := isRun_key (List.find?_some hfind)
  obtain ⟨hname', ht'⟩ := isRun_key hattempts.run
  refine ⟨symbol, openTime, hname.symm.trans hname', ht.symm.trans ht', ?_⟩
  rw [hrows, lastContext_attempts]

theorem Orderly.activeRecoveryContext_remembers (h : Orderly s.db)
    (hpending : ∀ c, b.recoveryPending = some c → Remembers s.db name t c.1) {c : RecoveryContext}
    (hrun : b.activeRecoveryContext name t s = (.ok (some c), s')) : Remembers s.db name t c := by
  unfold activeRecoveryContext at hrun
  cases hmemory : b.recoveryPending with
  | some pending =>
    simp only [hmemory] at hrun
    cases hrun
    exact hpending pending hmemory
  | none =>
    simp only [hmemory, getSchedulerRun] at hrun
    rw [read_bind] at hrun
    cases hfind : s.db.schedulerRuns.find? (isRun name t) with
    | none =>
      simp only [hfind] at hrun
      cases hrun
    | some existing =>
      simp only [hfind, getActiveRecoveryAttempt] at hrun
      rw [read_bind] at hrun
      obtain ⟨hsome, _⟩ := pure_eq_ok.mp hrun
      obtain ⟨a, ha, rfl⟩ := Option.map_eq_some_iff.mp hsome
      exact h.remembers_active hfind (congrArg Except.ok ha)

end Context

end TradingBot.Paper.RecoveryAttempts
