import TradingBot.Paper.RecoveryAttempts

namespace TradingBot.Paper.RecoveryTurns

open Market.Models Exceptions Library.Transaction Paper.Models Paper.Repository Paper.MarketEvents
open Paper.Scheduler Paper.Scheduler.PaperTradingScheduler Paper.Bridge Paper.Bridge.MarketEventBridge
open Paper.Bookkeeping Paper.Polls Paper.EventRules Paper.ConfigurationRecovery Paper.RecoveryAttempts

variable {symbol : Symbol} {openTime : Time} {db₀ db db' : Db} {own : JobName → Time → Prop}
  {rows rows' : List SchedulerRun} {o a : SchedulerRun} {earlier : List SchedulerRun}
  {b : MarketEventBridge} {e : MarketEvent} {s s' : Session Db}

section Idle

theorem Idle.map (h : Idle symbol openTime rows) {f : SchedulerRun → SchedulerRun} (hf : ∀ r, SameRun r (f r))
    (hresolved : ∀ r, (f r).resolvedByRunId = r.resolvedByRunId) : Idle symbol openTime (rows.map f) := by
  refine ⟨by rw [List.length_map]; exact h.length, fun r' hr' => ?_⟩
  obtain ⟨r, hr, rfl⟩ := List.mem_map.mp hr'
  obtain ⟨hrun, hopen⟩ := h.runs r hr
  refine ⟨?_, (hresolved r).trans hopen⟩
  unfold isRun at hrun ⊢
  rwa [(hf r).name, (hf r).time]

theorem modifyRun_resolved {name : JobName} {t : Time} {f : SchedulerRun → SchedulerRun}
    (hf : ∀ r, (f r).resolvedByRunId = r.resolvedByRunId) (r : SchedulerRun) :
    (modifyRun name t f r).resolvedByRunId = r.resolvedByRunId := by
  unfold modifyRun
  split_ifs
  · exact hf r
  · rfl

theorem idle_runOp (h : Idle symbol openTime (caseRuns symbol openTime db.schedulerRuns))
    (hop : RunOp own db db')
    (hown : ∀ name t, own name t → name = openName symbol openTime ∧ t = openTime ∨ JobOwn e name t) :
    Idle symbol openTime (caseRuns symbol openTime db'.schedulerRuns) := by
  cases hop with
  | insert name t startedAt hname hnew =>
    rw [caseRuns_append]
    rcases hown name t hname with ⟨rfl, rfl⟩ | hjob
    · have hempty : caseRuns symbol t db.schedulerRuns = [] := by
        refine List.eq_nil_iff_forall_not_mem.mpr fun r hr => ?_
        exact List.find?_eq_none.mp hnew r (mem_of_caseRuns hr) (h.runs r hr).1
      rw [hempty, List.nil_append]
      refine ⟨List.length_filter_le _ _, fun r hr => ?_⟩
      rw [List.mem_singleton.mp (List.mem_of_mem_filter hr)]
      exact ⟨by simp [isRun, runRow], rfl⟩
    · have hnone : caseRuns symbol openTime [runRow t db.nextId name startedAt] = [] := by
        simp [caseRuns, runRow, jobOwn_not_inCase hjob]
      rw [hnone, List.append_nil]
      exact h
  | complete name t status completedAt error hname hstatus hskipped =>
    rw [caseRuns_map (modifyRun_same (complete_same _ _ _))]
    exact Idle.map h (modifyRun_same (complete_same _ _ _)) (modifyRun_resolved fun _ => rfl)
  | reactivate name t startedAt hname hskipped =>
    rw [caseRuns_map (modifyRun_same (reactivate_same _))]
    exact Idle.map h (modifyRun_same (reactivate_same _)) (modifyRun_resolved fun _ => rfl)
  | delete name t hname hplain =>
    dsimp only [caseRuns]
    rw [List.filter_comm]
    exact ⟨(List.length_filter_le _ _).trans h.length, fun r hr => h.runs r (List.mem_of_mem_filter hr)⟩

theorem jobName_open (b : MarketEventBridge) (htype : e.eventType = .dailyOpenAvailable) :
    b.jobName e = openName e.symbol e.candleOpenTime := by
  unfold MarketEventBridge.jobName marketEventJobName openName
  rw [htype]

theorem idle_rules (h₀ : Orderly db₀) (htype : e.eventType = .dailyOpenAvailable)
    (hpending : b.recoveryPending = none) :
    Rules b e (fun _ => False)
      (Beside e.symbol e.candleOpenTime (Idle e.symbol e.candleOpenTime) db₀) where
  ids := fun db h => ⟨h.sound.ids_le (Nat.le_succ _), h.here, h.beside⟩
  runs := fun db db' h hop => by
    have hown : ∀ name t, Own b e (fun _ => False) name t →
        name = openName e.symbol e.candleOpenTime ∧ t = e.candleOpenTime ∨ JobOwn e name t := by
      intro name t hname
      cases hname with
      | event => exact .inl ⟨jobName_open b htype, rfl⟩
      | handler hjob => exact .inr hjob
      | recovery h => exact h.elim
    refine h.runOp hop (fun name t hname => ?_) (idle_runOp h.here hop hown)
    rcases hown name t hname with ⟨rfl, rfl⟩ | hjob
    · exact .inl inCase_openName
    · exact .inr fun _ _ => jobOwn_not_inCase hjob
  pending := fun c hc => by
    rw [hpending] at hc
    cases hc
  found := fun db existing a h hfind hactive => by
    obtain ⟨symbol, openTime, hname, ht, hcontext⟩ :=
      (h.orderly h₀ fun _ => .idle).remembers_active hfind hactive
    have hsymbol : e.symbol = symbol := by
      rw [jobName_open b htype] at hname
      injection hname
    have hhere := h.here.lastContext
    rw [hsymbol, show e.candleOpenTime = openTime from ht, hcontext] at hhere
    cases hhere
  resolve := fun _ _ _ h => h.elim
  handler := fun _ _ job _ => keeps_handler job

end Idle

section Other

theorem other_rules (h₀ : Orderly db₀) (htype : e.eventType ≠ .dailyOpenAvailable)
    (hpending : b.recoveryPending = none) :
    Rules b e (fun _ => False)
      (Beside symbol openTime (· = caseRuns symbol openTime db₀.schedulerRuns) db₀) where
  ids := fun db h => ⟨h.sound.ids_le (Nat.le_succ _), h.here, h.beside⟩
  runs := fun db db' h hop => by
    have hown : ∀ symbol openTime name t, Own b e (fun _ => False) name t →
        inCase symbol openTime name t = false := by
      intro symbol openTime name t hname
      cases hname with
      | event =>
        unfold MarketEventBridge.jobName marketEventJobName
        split
        · rfl
        · simp [inCase, htype]
      | handler hjob => exact jobOwn_not_inCase hjob
      | recovery h => exact h.elim
    refine ⟨sound_runOp hop h.sound, ?_, fun symbol' openTime' hne => ?_⟩
    · rw [caseRuns_runOp hop (hown symbol openTime), h.here]
    · rw [caseRuns_runOp hop (hown symbol' openTime'), h.beside symbol' openTime' hne]
  pending := fun c hc => by
    rw [hpending] at hc
    cases hc
  found := fun db existing a h hfind hactive => by
    have hcases : ∀ rows, rows = caseRuns symbol openTime db₀.schedulerRuns → Progress symbol openTime rows := by
      rintro _ rfl
      exact h₀.cases symbol openTime
    obtain ⟨_, _, hname, _, _⟩ := (h.orderly h₀ hcases).remembers_active hfind hactive
    unfold MarketEventBridge.jobName marketEventJobName openName at hname
    split at hname
    · cases hname
    · injection hname with htype'
      exact htype htype'
  resolve := fun _ _ _ h => h.elim
  handler := fun _ _ job _ => keeps_handler job

end Other

section Trying

/-- The case of the open while its last attempt is made. -/
def Trying (o : SchedulerRun) (earlier : List SchedulerRun) (a : SchedulerRun) (rows : List SchedulerRun) : Prop :=
  ∃ a', SameRun a a' ∧ rows = o :: (earlier ++ [a'])

theorem Attempts.same {a' : SchedulerRun} (h : Attempts symbol openTime o earlier a) (hsame : SameRun a a') :
    Attempts symbol openTime o earlier a' where
  run := h.run
  failed := h.failed
  permanent := h.permanent
  settled := h.settled
  of := hsame.of.trans h.of
  time := hsame.time.trans h.time
  name := hsame.name.trans h.name

theorem map_last (h : Attempts symbol openTime o earlier a) (f : SchedulerRun → SchedulerRun) :
    (o :: (earlier ++ [a])).map (modifyRun a.jobName openTime f) = o :: (earlier ++ [f a]) := by
  have hrest : (o :: earlier).map (modifyRun a.jobName openTime f) = o :: earlier := by
    refine (List.map_congr_left fun r hr => ?_).trans (List.map_id _)
    unfold modifyRun
    rw [if_neg (by rw [h.not_isRun hr]; exact Bool.false_ne_true)]
    rfl
  rw [← List.cons_append, List.map_append, hrest, List.map_singleton, modifyRun, if_pos h.isRun_last]
  rfl

theorem caseRuns_modify_last (h : Attempts symbol openTime o earlier a) {f : SchedulerRun → SchedulerRun}
    (hf : ∀ r, SameRun r (f r)) {runs : List SchedulerRun}
    (hrows : caseRuns symbol openTime runs = o :: (earlier ++ [a])) :
    caseRuns symbol openTime (runs.map (modifyRun a.jobName openTime f)) = o :: (earlier ++ [f a]) := by
  rw [caseRuns_map (modifyRun_same hf), hrows, map_last h]

theorem trying_modify (h : Attempts symbol openTime o earlier a) {f : SchedulerRun → SchedulerRun}
    (hf : ∀ r, SameRun r (f r)) (hhere : Trying o earlier a (caseRuns symbol openTime db.schedulerRuns)) :
    Trying o earlier a
      (caseRuns symbol openTime (db.schedulerRuns.map (modifyRun a.jobName openTime f))) := by
  obtain ⟨a', hsame, hrows⟩ := hhere
  rw [← hsame.name, caseRuns_modify_last (Attempts.same h hsame) hf hrows]
  exact ⟨f a', hsame.trans (hf a'), rfl⟩

/-- The attempt is ended, put aside and taken up again, but never deleted. -/
theorem trying_rules (h : Attempts symbol openTime o earlier a) :
    RunRules (fun name t => name = a.jobName ∧ t = openTime)
      (Beside symbol openTime (Trying o earlier a) db₀) where
  ids := fun db hdb => ⟨hdb.sound.ids_le (Nat.le_succ _), hdb.here, hdb.beside⟩
  runs := fun db db' hdb hop => by
    refine hdb.runOp hop ?_ ?_
    · rintro name t ⟨rfl, rfl⟩
      exact .inl h.inCase_name
    · obtain ⟨a', hsame, hrows⟩ := hdb.here
      have hfind : db.schedulerRuns.find? (isRun a.jobName openTime) = some a' := by
        rw [← hsame.name]
        exact (Attempts.same h hsame).find_last hrows
      cases hop with
      | insert name t startedAt hname hnew =>
        obtain ⟨rfl, rfl⟩ := hname
        rw [hfind] at hnew
        cases hnew
      | complete name t status completedAt error hname hstatus hskipped =>
        obtain ⟨rfl, rfl⟩ := hname
        exact trying_modify h (complete_same _ _ _) hdb.here
      | reactivate name t startedAt hname hskipped =>
        obtain ⟨rfl, rfl⟩ := hname
        exact trying_modify h (reactivate_same _) hdb.here
      | delete name t hname hplain =>
        obtain ⟨rfl, rfl⟩ := hname
        obtain ⟨r, hr, hplain⟩ := hplain
        rw [hfind] at hr
        cases hr
        rw [(Attempts.same h hsame).of] at hplain
        cases hplain

theorem completeMarketEvent_ok {name : JobName} {t : Time} {status : SchedulerRunStatus} {error : Option String}
    {u : Unit} (h : b.completeMarketEvent name t status error s = (.ok u, s')) :
    s'.db = { s.db with schedulerRuns := s.db.schedulerRuns.map (modifyRun name t fun r =>
      { r with status := status, completedAt := some (b.scheduler.now .eventCompleted), error := error }) } := by
  obtain ⟨row, u, hcomplete, hpure⟩ := bind_eq_ok.mp (scope_eq_ok.mp h)
  cases hpure
  obtain ⟨_, v, hwrite, hread⟩ := bind_eq_ok.mp hcomplete
  unfold updateSchedulerRun execute at hwrite
  rw [← write_ok_db hwrite]
  unfold getSchedulerRun at hread
  rw [read_bind] at hread
  cases hfind : v.db.schedulerRuns.find? (isRun name t) with
  | none =>
    rw [hfind] at hread
    cases hread
  | some _ =>
    rw [hfind] at hread
    cases hread
    rfl

end Trying

section Resolve

def resolveRun (originalRunId recoveryRunId : Id) (r : SchedulerRun) : SchedulerRun :=
  if r.runId = originalRunId ∧ r.resolvedByRunId = none
  then { r with resolvedByRunId := some recoveryRunId } else r

theorem markRunResolved_ok {originalRunId recoveryRunId : Id} {u : Unit}
    (h : markRunResolved originalRunId recoveryRunId s = (.ok u, s')) :
    s'.db = { s.db with schedulerRuns := s.db.schedulerRuns.map (resolveRun originalRunId recoveryRunId) } := by
  unfold markRunResolved execute at h
  exact write_ok_db h

theorem resolveRun_same (originalRunId recoveryRunId : Id) (r : SchedulerRun) :
    SameRun r (resolveRun originalRunId recoveryRunId r) := by
  unfold resolveRun
  split_ifs
  · exact ⟨rfl, rfl, rfl, rfl⟩
  · exact .refl r

theorem map_resolveRun_of_ne {originalRunId recoveryRunId : Id} (h : ∀ r ∈ rows, r.runId ≠ originalRunId) :
    rows.map (resolveRun originalRunId recoveryRunId) = rows := by
  refine (List.map_congr_left fun r hr => ?_).trans (List.map_id _)
  unfold resolveRun
  rw [if_neg fun hid => h r hr hid.1]
  rfl

theorem beside_resolve (hdb : Beside symbol openTime (· = o :: (earlier ++ [a])) db₀ db)
    (h : Attempts symbol openTime o earlier a) (hopen : o.resolvedByRunId = none) (recoveryRunId : Id) :
    Beside symbol openTime (· = { o with resolvedByRunId := some recoveryRunId } :: (earlier ++ [a])) db₀
      { db with schedulerRuns := db.schedulerRuns.map (resolveRun o.runId recoveryRunId) } := by
  have hrows := hdb.here
  have ho : o ∈ db.schedulerRuns := mem_of_caseRuns (hrows ▸ List.mem_cons_self)
  refine ⟨hdb.sound.map (resolveRun_same _ _), ?_, fun symbol' openTime' hne => ?_⟩
  · have hrest : ∀ r ∈ earlier ++ [a], r.runId ≠ o.runId := by
      intro r hr hid
      have hmem : r ∈ db.schedulerRuns := mem_of_caseRuns (hrows ▸ List.mem_cons_of_mem _ hr)
      have hof := h.mem_of hr
      rw [hdb.sound.eq_of_id hmem ho hid, h.plain] at hof
      cases hof
    have hfirst : resolveRun o.runId recoveryRunId o = { o with resolvedByRunId := some recoveryRunId } :=
      if_pos ⟨rfl, hopen⟩
    rw [caseRuns_map (resolveRun_same _ _), hrows, List.map_cons, map_resolveRun_of_ne hrest, hfirst]
  · rw [caseRuns_map (resolveRun_same _ _), ← hdb.beside symbol' openTime' hne]
    refine map_resolveRun_of_ne fun r hr hid => hne ?_
    have heq := hdb.sound.eq_of_id (mem_of_caseRuns hr) ho hid
    have hcase : inCase symbol' openTime' r.jobName r.scheduledFor = true := (List.mem_filter.mp hr).2
    rw [heq, (isRun_key h.run).1, (isRun_key h.run).2] at hcase
    exact inCase_unique hcase inCase_openName

end Resolve

section Recovery

/-- The turn of an open that is repeated ends with the attempt, which may be made once more, or it closes
the case. -/
theorem processDailyOpenRecovery_ok {earlier : List SchedulerRun} {outcome : EventProcessOutcome}
    (h : Attempts e.symbol e.candleOpenTime o earlier a) (hopen : o.resolvedByRunId = none)
    (htype : e.eventType = .dailyOpenAvailable)
    (hs : Beside e.symbol e.candleOpenTime (Trying o earlier a) db₀ s.db)
    (hrun : b.processDailyOpenRecovery e ⟨o.runId, a.jobName, a.runId⟩ s = (.ok outcome, s')) :
    (Beside e.symbol e.candleOpenTime (Trying o earlier a) db₀ s'.db ∧ shouldAck outcome = false) ∨
    ∃ a', SameRun a a' ∧ a'.status = .completed ∧ Beside e.symbol e.candleOpenTime
      (· = { o with resolvedByRunId := some a.runId } :: (earlier ++ [a'])) db₀ s'.db := by
  have hrules : RunRules (fun name t => name = a.jobName ∧ t = e.candleOpenTime)
      (Beside e.symbol e.candleOpenTime (Trying o earlier a) db₀) := trying_rules h
  have hown : a.jobName = a.jobName ∧ e.scheduledFor = e.candleOpenTime := ⟨rfl, rfl⟩
  obtain ⟨_, s₁, hreactivate, hrun⟩ := bind_eq_ok.mp hrun
  have hs₁ := (keeps_reactivateRecoveryAttempt hrules hown).of_ok hs hreactivate
  obtain ⟨result, s₂, hattempt, hrun⟩ := bind_eq_ok.mp hrun
  rw [attempt_eq_ok] at hattempt
  cases result with
  | ok u =>
    cases hrun
    obtain ⟨_, t₁, hhandle, hattempt⟩ := bind_eq_ok.mp hattempt
    obtain ⟨_, t₂, hcomplete, hresolve⟩ := bind_eq_ok.mp hattempt
    have ht₁ := (keeps_handleDailyOpen jobRules htype).of_ok hs₁ hhandle
    have ht₂ := (keeps_endRun hrules hown (.inl rfl) _).of_ok ht₁ hcomplete
    obtain ⟨a₁, hsame, hrows⟩ := ht₁.here
    have ha₁ := Attempts.same h hsame
    let a₂ : SchedulerRun :=
      { a₁ with status := .completed, completedAt := some (b.scheduler.now .eventCompleted), error := none }
    have hsame₂ : SameRun a a₂ := hsame.trans (complete_same _ _ _ a₁)
    have hclosing : Beside e.symbol e.candleOpenTime (· = o :: (earlier ++ [a₂])) db₀ t₂.db := by
      refine ⟨ht₂.sound, ?_, ht₂.beside⟩
      rw [completeMarketEvent_ok hcomplete, ← hsame.name]
      exact caseRuns_modify_last ha₁ (complete_same _ _ _) hrows
    refine .inr ⟨a₂, hsame₂, rfl, ?_⟩
    rw [markRunResolved_ok hresolve]
    exact beside_resolve hclosing (Attempts.same h hsame₂) hopen a.runId
  | error exc =>
    have hs₂ : Beside e.symbol e.candleOpenTime (Trying o earlier a) db₀ s₂.db := by
      rcases bind_eq_error.mp hattempt with hhandle | ⟨_, t₁, hhandle, hattempt⟩
      · exact (keeps_handleDailyOpen jobRules htype).of_error hs₁ hhandle
      · have ht₁ := (keeps_handleDailyOpen jobRules htype).of_ok hs₁ hhandle
        rcases bind_eq_error.mp hattempt with hcomplete | ⟨_, t₂, hcomplete, hresolve⟩
        · exact (keeps_endRun hrules hown (.inl rfl) _).of_error ht₁ hcomplete
        · unfold markRunResolved execute at hresolve
          rw [write_error_db hresolve]
          exact (keeps_endRun hrules hown (.inl rfl) _).of_ok ht₁ hcomplete
    -- put off or failed, the attempt is ended under its own name
    have hdeferred : ∀ {exc : Exc}, isRetryableMarketEventError (some (errorCode exc)) →
        b.deferredOutcome e exc a.jobName s₂ = (.ok outcome, s') →
        Beside e.symbol e.candleOpenTime (Trying o earlier a) db₀ s'.db ∧ shouldAck outcome = false := by
      intro exc hcode hrun
      refine ⟨(keeps_deferredRecovery hrules hown hcode).of_ok hs₂ hrun, ?_⟩
      obtain ⟨_, u, _, hpure⟩ := bind_eq_ok.mp hrun
      cases hpure
      rfl
    have hfailed : ∀ {error : String} {terminal : Bool},
        b.recoveryFailed e ⟨o.runId, a.jobName, a.runId⟩ error terminal s₂ = (.ok outcome, s') →
        Beside e.symbol e.candleOpenTime (Trying o earlier a) db₀ s'.db ∧ shouldAck outcome = false := by
      intro error terminal hrun
      refine ⟨(keeps_recoveryFailed hrules hown error terminal).of_ok hs₂ hrun, ?_⟩
      obtain ⟨_, u, _, hpure⟩ := bind_eq_ok.mp hrun
      cases hpure
      rfl
    refine .inl ?_
    cases exc with
    | fillNotDue => exact hdeferred rfl hrun
    | retryableContextNotReady m => exact hdeferred rfl hrun
    | retryableSchedulerDeferred m => exact hdeferred rfl hrun
    | _ => exact hfailed hrun

end Recovery

section Turns

/-- What one turn may make of the runs of a case. -/
inductive Follows (symbol : Symbol) (openTime : Time) : List SchedulerRun → List SchedulerRun → Prop
  | same (rows : List SchedulerRun) : Follows symbol openTime rows rows
  | idle {rows rows' : List SchedulerRun} (h : Idle symbol openTime rows) (h' : Idle symbol openTime rows') :
    Follows symbol openTime rows rows'
  | attempted {o a a' : SchedulerRun} {earlier : List SchedulerRun} (h : Attempts symbol openTime o earlier a)
      (hopen : o.resolvedByRunId = none) (hsame : SameRun a a') :
    Follows symbol openTime (o :: (earlier ++ [a])) (o :: (earlier ++ [a']))
  | closed {o a a' : SchedulerRun} {earlier : List SchedulerRun} (h : Attempts symbol openTime o earlier a)
      (hopen : o.resolvedByRunId = none) (hsame : SameRun a a') (hdone : a'.status = .completed) :
    Follows symbol openTime (o :: (earlier ++ [a]))
      ({ o with resolvedByRunId := some a.runId } :: (earlier ++ [a']))

/-- The attempt `a` at repeating `o` is the last one, and it did not end well yet. -/
def Tracked (symbol : Symbol) (openTime : Time) (o a : SchedulerRun) (rows : List SchedulerRun) : Prop :=
  o.resolvedByRunId = none ∧
    ∃ earlier a', SameRun a a' ∧ Attempts symbol openTime o earlier a' ∧ rows = o :: (earlier ++ [a'])

def Closed (symbol : Symbol) (openTime : Time) (o a : SchedulerRun) (rows : List SchedulerRun) : Prop :=
  ∃ earlier a', SameRun a a' ∧ a'.status = .completed ∧ Attempts symbol openTime o earlier a' ∧
    rows = { o with resolvedByRunId := some a.runId } :: (earlier ++ [a'])

theorem attempts_inj {o' a' : SchedulerRun} {earlier' : List SchedulerRun}
    (h : o :: (earlier ++ [a]) = o' :: (earlier' ++ [a'])) : o = o' ∧ earlier = earlier' ∧ a = a' := by
  obtain ⟨ho, hrest⟩ := List.cons.inj h
  obtain ⟨hearlier, hlast⟩ := List.append_inj' hrest rfl
  exact ⟨ho, hearlier, List.singleton_inj.mp hlast⟩

theorem Attempts.not_idle (h : Idle symbol openTime (o :: (earlier ++ [a]))) : False := by
  have hlength := h.length
  simp at hlength

theorem attempts_resolved (h : Attempts symbol openTime o earlier a) (recoveryRunId : Id) :
    Attempts symbol openTime { o with resolvedByRunId := some recoveryRunId } earlier a where
  run := h.run
  failed := h.failed
  permanent := h.permanent
  settled := fun r hr => ⟨⟨(h.settled r hr).1.of, (h.settled r hr).1.time, (h.settled r hr).1.name⟩, (h.settled r hr).2⟩
  of := h.of
  time := h.time
  name := h.name

theorem Follows.lastContext_eq (h : Follows symbol openTime rows rows') : lastContext rows' = lastContext rows := by
  cases h with
  | same => rfl
  | idle h h' => rw [h.lastContext, h'.lastContext]
  | attempted h hopen hsame => rw [lastContext_attempts, lastContext_attempts, hsame.name, hsame.id]
  | closed h hopen hsame hdone => rw [lastContext_attempts, lastContext_attempts, hsame.name, hsame.id]

theorem Follows.progress (h : Follows symbol openTime rows rows') (hrows : Progress symbol openTime rows) :
    Progress symbol openTime rows' := by
  cases h with
  | same => exact hrows
  | idle h h' => exact .idle h'
  | attempted h hopen hsame => exact .attempted (Attempts.same h hsame) hopen
  | closed h hopen hsame hdone =>
    exact .closed (attempts_resolved (Attempts.same h hsame) _) (congrArg some hsame.id.symm) hdone

theorem Follows.tracked (h : Follows symbol openTime rows rows') (hrows : Tracked symbol openTime o a rows) :
    Tracked symbol openTime o a rows' ∨ Closed symbol openTime o a rows' := by
  obtain ⟨hnone, earlier, a', hsame, hattempts, rfl⟩ := hrows
  generalize heq : o :: (earlier ++ [a']) = rows at h
  cases h with
  | same => exact .inl ⟨hnone, earlier, a', hsame, hattempts, heq.symm⟩
  | idle h h' => exact (Attempts.not_idle (heq ▸ h)).elim
  | attempted h hopen hnext =>
    obtain ⟨rfl, rfl, rfl⟩ := attempts_inj heq
    exact .inl ⟨hnone, _, _, hsame.trans hnext, Attempts.same hattempts hnext, rfl⟩
  | closed h hopen hnext hdone =>
    obtain ⟨rfl, rfl, rfl⟩ := attempts_inj heq
    refine .inr ⟨_, _, hsame.trans hnext, hdone, Attempts.same hattempts hnext, ?_⟩
    rw [hsame.id]

theorem Follows.closed_stays (h : Follows symbol openTime rows rows') (hrows : Closed symbol openTime o a rows) :
    Closed symbol openTime o a rows' := by
  obtain ⟨earlier, a', hsame, hdone, hattempts, rfl⟩ := hrows
  generalize heq : { o with resolvedByRunId := some a.runId } :: (earlier ++ [a']) = rows at h
  cases h with
  | same => exact ⟨earlier, a', hsame, hdone, hattempts, heq.symm⟩
  | idle h h' => exact (Attempts.not_idle (heq ▸ h)).elim
  | attempted h hopen hnext =>
    obtain ⟨rfl, _, _⟩ := attempts_inj heq
    cases hopen
  | closed h hopen hnext _ =>
    obtain ⟨rfl, _, _⟩ := attempts_inj heq
    cases hopen

/-- No run whose case is closed is processed once more. -/
def Unresolved (turn : Turn) (db : Db) : Prop :=
  ∀ r ∈ db.schedulerRuns, isRun (turn.1.jobName turn.2) turn.2.scheduledFor r → r.resolvedByRunId = none

structure TurnEffect (e : MarketEvent) (outcome : EventProcessOutcome) (db db' : Db) : Prop where
  sound : Sound db'
  follows : ∀ symbol openTime, Follows symbol openTime (caseRuns symbol openTime db.schedulerRuns)
    (caseRuns symbol openTime db'.schedulerRuns)
  acked : shouldAck outcome → e.eventType = .dailyOpenAvailable → ∀ o a,
    Tracked e.symbol e.candleOpenTime o a (caseRuns e.symbol e.candleOpenTime db.schedulerRuns) →
    Closed e.symbol e.candleOpenTime o a (caseRuns e.symbol e.candleOpenTime db'.schedulerRuns)

theorem Beside.follows {here : List SchedulerRun → Prop} (h : Beside symbol openTime here db₀ db)
    (hhere : Follows symbol openTime (caseRuns symbol openTime db₀.schedulerRuns)
      (caseRuns symbol openTime db.schedulerRuns)) (symbol' : Symbol) (openTime' : Time) :
    Follows symbol' openTime' (caseRuns symbol' openTime' db₀.schedulerRuns)
      (caseRuns symbol' openTime' db.schedulerRuns) := by
  by_cases hcase : symbol' = symbol ∧ openTime' = openTime
  · obtain ⟨rfl, rfl⟩ := hcase
    exact hhere
  · rw [h.beside symbol' openTime' hcase]
    exact .same _

theorem beside_refl (h : Sound db) {here : List SchedulerRun → Prop}
    (hhere : here (caseRuns symbol openTime db.schedulerRuns)) : Beside symbol openTime here db db :=
  ⟨h, hhere, fun _ _ _ => rfl⟩

theorem remembers_open {t : Time} {c : RecoveryContext} (h : Remembers db (b.jobName e) t c) :
    e.eventType = .dailyOpenAvailable := by
  obtain ⟨_, _, hname, _, _⟩ := h
  unfold MarketEventBridge.jobName marketEventJobName openName at hname
  split at hname
  · cases hname
  · injection hname

theorem remembers_here {c : RecoveryContext} (h : Remembers db (b.jobName e) e.scheduledFor c) :
    lastContext (caseRuns e.symbol e.candleOpenTime db.schedulerRuns) = some c := by
  have htype := remembers_open h
  obtain ⟨symbol, openTime, hname, ht, hcontext⟩ := h
  rw [jobName_open b htype] at hname
  injection hname with _ hsymbol _
  rw [hsymbol, show e.candleOpenTime = openTime from ht]
  exact hcontext

theorem other_turn {outcome : EventProcessOutcome} (h : Orderly s.db) (htype : e.eventType ≠ .dailyOpenAvailable)
    (hpending : ∀ c, b.recoveryPending = some c → Remembers s.db (b.jobName e) e.scheduledFor c.1)
    (hrun : b.processEvent e s = (.ok outcome, s')) : TurnEffect e outcome s.db s'.db := by
  have hnone : b.recoveryPending = none := by
    cases hmemory : b.recoveryPending with
    | none => rfl
    | some c => exact absurd (remembers_open (hpending c hmemory)) htype
  have hrules : Rules b e (fun _ => False) (Beside e.symbol e.candleOpenTime
      (· = caseRuns e.symbol e.candleOpenTime s.db.schedulerRuns) s.db) := other_rules h htype hnone
  have hs' := (keeps_processEvent hrules).of_ok (beside_refl h.sound rfl) hrun
  refine ⟨hs'.sound, Beside.follows hs' ?_, fun _ hopen => absurd hopen htype⟩
  rw [hs'.here]
  exact .same _

def terminalFailure (b : MarketEventBridge) (e : MarketEvent) (o : SchedulerRun) : EventProcessOutcome :=
  { event := e
    jobName := b.jobName e
    status := .failed
    skipped := true
    error := o.error
    terminalFailed := true }

theorem attempted_turn {outcome : EventProcessOutcome} (h : Orderly s.db)
    (hattempts : Attempts e.symbol e.candleOpenTime o earlier a) (hopen : o.resolvedByRunId = none)
    (hrows : caseRuns e.symbol e.candleOpenTime s.db.schedulerRuns = o :: (earlier ++ [a]))
    (htype : e.eventType = .dailyOpenAvailable)
    (hpending : ∀ c, b.recoveryPending = some c → Remembers s.db (b.jobName e) e.scheduledFor c.1)
    (hrun : b.processEvent e s = (.ok outcome, s')) : TurnEffect e outcome s.db s'.db := by
  obtain ⟨context, hcontext⟩ := activeRecoveryContext_run b (b.jobName e) e.scheduledFor s
  have hfind : s.db.schedulerRuns.find? (isRun (b.jobName e) e.scheduledFor) = some o := by
    rw [jobName_open b htype]
    exact hattempts.find_run hrows
  have hfailed : ¬ (o.status ≠ .failed ∨ !isPermanentConfigurationError o.error ∨ o.resolvedByRunId.isSome) := by
    simp [hattempts.failed, hattempts.permanent, hopen]
  have hshort : b.maybeShortCircuitPermanentFailure e (b.jobName e) e.scheduledFor s =
      (.ok (if context.isSome then none else some (terminalFailure b e o)), s) := by
    unfold maybeShortCircuitPermanentFailure getSchedulerRun
    rw [read_bind]
    simp only [hfind, if_neg hfailed]
    rw [bind_of_ok hcontext]
    split_ifs <;> rfl
  unfold processEvent at hrun
  rw [if_neg (by rw [htype]; simp), if_pos htype] at hrun
  unfold processDailyOpen at hrun
  rw [bind_of_ok hshort] at hrun
  cases context with
  | none =>
    cases hrun
    exact ⟨h.sound, fun _ _ => .same _, fun hack => by simp [shouldAck, terminalFailure] at hack⟩
  | some c =>
    have hc := remembers_here (h.activeRecoveryContext_remembers hpending hcontext)
    rw [hrows, lastContext_attempts] at hc
    cases hc
    simp only [Option.isSome_some, if_true] at hrun
    rw [bind_of_ok hcontext] at hrun
    have htrying : Beside e.symbol e.candleOpenTime (Trying o earlier a) s.db s.db :=
      beside_refl h.sound ⟨a, .refl a, hrows⟩
    rcases processDailyOpenRecovery_ok hattempts hopen htype htrying hrun with
      ⟨hs', hnack⟩ | ⟨a', hsame, hdone, hs'⟩
    · obtain ⟨a', hsame, hrows'⟩ := hs'.here
      refine ⟨hs'.sound, Beside.follows hs' ?_, fun hack => by rw [hnack] at hack; cases hack⟩
      rw [hrows, hrows']
      exact .attempted hattempts hopen hsame
    · refine ⟨hs'.sound, Beside.follows hs' ?_, fun _ _ o₁ a₁ htracked => ?_⟩
      · rw [hrows, hs'.here]
        exact .closed hattempts hopen hsame hdone
      · obtain ⟨_, earlier₁, a₂, hsame₁, hattempts₁, heq⟩ := htracked
        rw [hrows] at heq
        obtain ⟨rfl, rfl, rfl⟩ := attempts_inj heq
        refine ⟨_, a', hsame₁.trans hsame, hdone, Attempts.same hattempts₁ hsame, ?_⟩
        rw [hs'.here, hsame₁.id]

theorem turn_effect {outcome : EventProcessOutcome} (h : Orderly s.db)
    (hpending : ∀ c, b.recoveryPending = some c → Remembers s.db (b.jobName e) e.scheduledFor c.1)
    (hunresolved : Unresolved (b, e) s.db) (hrun : b.processEvent e s = (.ok outcome, s')) :
    TurnEffect e outcome s.db s'.db := by
  by_cases htype : e.eventType = .dailyOpenAvailable
  · generalize hrows : caseRuns e.symbol e.candleOpenTime s.db.schedulerRuns = rows
    have hprogress := h.cases e.symbol e.candleOpenTime
    rw [hrows] at hprogress
    cases hprogress with
    | idle hidle =>
      have hnone : b.recoveryPending = none := by
        cases hmemory : b.recoveryPending with
        | none => rfl
        | some c =>
          have hc := remembers_here (hpending c hmemory)
          rw [hrows, hidle.lastContext] at hc
          cases hc
      have hs' := (keeps_processEvent (idle_rules h htype hnone)).of_ok
        (beside_refl h.sound (hrows ▸ hidle)) hrun
      refine ⟨hs'.sound, Beside.follows hs' ?_, fun _ _ o a htracked => ?_⟩
      · rw [hrows]
        exact .idle hidle hs'.here
      · obtain ⟨_, _, _, _, _, heq⟩ := htracked
        rw [hrows] at heq
        exact (Attempts.not_idle (heq ▸ hidle)).elim
    | attempted hattempts hopen => exact attempted_turn h hattempts hopen hrows htype hpending hrun
    | closed hattempts hresolved hdone =>
      have hmem := mem_of_caseRuns (hrows ▸ List.mem_cons_self)
      have hnone := hunresolved _ hmem (by rw [jobName_open b htype]; exact hattempts.run)
      rw [hnone] at hresolved
      cases hresolved
  · exact other_turn h htype hpending hrun

end Turns

end TradingBot.Paper.RecoveryTurns
