import TradingBot.Market.BundleFacts
import TradingBot.Paper.WorkJournal

namespace TradingBot.Paper.OwnWork

open Market.Models Market.Timeframes Market.Repository Market.Bundle Market.BundleFacts Exceptions
open Backtester.Lifecycle Library.Transaction Paper.Models Paper.Repository Paper.MarketEvents
open Paper.SchedulerContext Paper.Scheduler Paper.Scheduler.PaperTradingScheduler Paper.Bookkeeping
open Paper.Lifecycle Paper.Bridge Paper.WorkJournal

variable {symbol : Symbol} {openTime t : Time} {kept : List WorkEntry} {s : Session Db}
  {b : MarketEventBridge} {sched : PaperTradingScheduler} {ctx : JobContexts} {job : SchedulerJobName}
  {jobName : JobName} {e : MarketEvent}

theorem ofExcept_bind_leaves {α β : Type} {inv : Db → Prop} {post : β → Db → Prop} {x : Except Exc α}
    {f : α → Query β} (hs : inv s.db) (h : ∀ a, x = .ok a → Leaves inv post (f a) s) :
    Leaves inv post (ofExcept x >>= f) s := by
  cases x with
  | ok a => exact h a rfl
  | error e => exact leaves_raise hs

theorem complete_leaves (hs : Evidenced symbol openTime kept s.db)
    (hwork : requiredWork symbol jobName t ⊆ s.db.work) :
    Leaves (Evidenced symbol openTime kept) (fun _ db => requiredWork symbol jobName t ⊆ db.work)
      (b.completeMarketEvent jobName t .completed none) s := by
  refine (completeMarketEvent_leaves b (hs.add hwork) fun _ _ => hwork).mono (fun _ h => h.drop) ?_
  exact fun _ _ h _ => (List.append_subset.mp h.kept).1

section Subjobs

theorem runOpenSubsequence_leaves (hctx : ContextFor symbol ctx job)
    (hs : Evidenced symbol openTime kept s.db) :
    Leaves (Evidenced symbol openTime kept)
      (fun outcomes db => outcomes.all isTerminalJobSuccess → Concerns openTime t →
        requiredWork symbol (.scheduler job) t ⊆ db.work)
      (sched.runOpenSubsequence ctx t job) s := by
  unfold runOpenSubsequence
  split_ifs
  · refine (runJob_leaves hctx hs).bind fun o t₁ ht₁ ho => leaves_pure ht₁ fun hall => ho ?_
    simp only [List.all_cons, List.all_nil, Bool.and_true, isTerminalJobSuccess, isIdempotentCompleted,
      isFreshCompleted, Bool.or_eq_true, decide_eq_true_eq] at hall
    exact hall.elim (·.1) (·.1)
  · exact leaves_pure hs fun hall => by simp [isTerminalJobSuccess, isIdempotentCompleted,
      isFreshCompleted, skippedOutcome] at hall

theorem runOpenSubjob_leaves {runner : Query (List JobRunOutcome)}
    (hrunner : ∀ u : Session Db, Evidenced symbol openTime kept u.db →
      Leaves (Evidenced symbol openTime kept)
        (fun outcomes db => outcomes.all isTerminalJobSuccess → Concerns openTime t →
          requiredWork symbol jobName t ⊆ db.work) runner u)
    (ht : Concerns openTime t) (hs : Evidenced symbol openTime kept s.db) :
    Leaves (Evidenced symbol openTime kept) (fun _ db => requiredWork symbol jobName t ⊆ db.work)
      (b.runOpenSubjob jobName t runner) s := by
  have hbody : ∀ u : Session Db, Evidenced symbol openTime kept u.db →
      Leaves (Evidenced symbol openTime kept) (fun _ db => requiredWork symbol jobName t ⊆ db.work)
        (b.subjobBody jobName t runner) u := by
    intro u hu
    refine (hrunner u hu).bind fun outcomes u₁ hu₁ hdone => ofExcept_bind_leaves hu₁ fun _ _ => ?_
    split_ifs with hall
    · exact complete_leaves hu₁ (hdone hall ht)
    · exact leaves_raise hu₁
  refine leaves_read_bind ?_
  split_ifs with hexisting
  · exact leaves_pure hs (hs.of_any hexisting ht)
  · refine ((ensureSchedulerRun_keeps b).leaves hs).bind fun _ u hu _ => ?_
    refine (hbody u hu).attempt_bind (fun _ u₁ hu₁ hwork => leaves_pure hu₁ hwork) fun exc u₁ hu₁ => ?_
    split
    next heq => cases heq
    · refine ((releaseUncommittedSchedulerRun_keeps b _).leaves hu₁).bind fun _ u₂ hu₂ _ => ?_
      exact leaves_raise hu₂
    · exact leaves_raise hu₁
    · exact leaves_raise hu₁

theorem openSubjob_leaves (hctx : ContextFor symbol ctx job)
    (hsame : requiredWork symbol jobName t = requiredWork symbol (.scheduler job) t)
    (ht : Concerns openTime t) (hs : Evidenced symbol openTime kept s.db) :
    Leaves (Evidenced symbol openTime kept) (fun _ db => requiredWork symbol jobName t ⊆ db.work)
      (b.runOpenSubjob jobName t (b.scheduler.runOpenSubsequence ctx t job)) s := by
  refine runOpenSubjob_leaves (fun u hu => ?_) ht hs
  rw [hsame]
  exact runOpenSubsequence_leaves hctx hu

end Subjobs

section Contexts

theorem candleFor_leaves {message : String} (hs : Evidenced symbol openTime kept s.db) :
    Leaves (Evidenced symbol openTime kept)
      (fun candle _ => b.latestDaily e.symbol = some candle ∧ candle.openTime = e.candleOpenTime)
      (b.candleFor e message) s := by
  unfold MarketEventBridge.candleFor
  rcases hlatest : b.latestDaily e.symbol with _ | candle
  · exact leaves_raise hs
  · dsimp only
    split_ifs with hopen
    · exact leaves_raise hs
    · exact leaves_pure hs ⟨rfl, not_not.mp hopen⟩

theorem buildOpenContexts_leaves {builder : ContextBuilder} {candle : Candle}
    (hs : Evidenced symbol openTime kept s.db) :
    Leaves (Evidenced symbol openTime kept)
      (fun r _ => (r.1 symbol).isSome ∧
        ∃ gap constraints, r.2 = .atOpen gap constraints ∧ (gap symbol).isSome)
      (builder.buildOpenContexts symbol candle) s := by
  refine ofExcept_bind_leaves hs fun constraints _ => ofExcept_bind_leaves hs fun bundle _ => ?_
  split_ifs
  · exact leaves_raise hs
  · refine ofExcept_bind_leaves hs fun evaluation _ => ?_
    split
    · exact leaves_raise hs
    · split_ifs
      · exact leaves_raise hs
      · exact leaves_pure hs ⟨by simp [BySymbol.single], _, _, rfl, by simp [BySymbol.single]⟩

end Contexts

section Open

variable (b e)

theorem handleDailyOpen_leaves (hs : Evidenced e.symbol e.candleOpenTime kept s.db) :
    Leaves (Evidenced e.symbol e.candleOpenTime kept)
      (fun _ db => openWork e.symbol e.candleOpenTime ⊆ db.work) (b.handleDailyOpen e) s := by
  have hconcerns : Concerns e.candleOpenTime e.candleOpenTime := .inl rfl
  refine (candleFor_leaves hs).bind fun candle s₁ hs₁ _ => ?_
  refine (buildOpenContexts_leaves hs₁).bind fun r s₂ hs₂ hr => ?_
  obtain ⟨fill, stop⟩ := r
  obtain ⟨hfill, gap, constraints, rfl, hgap⟩ := hr
  dsimp only
  have hgapCtx : ContextFor e.symbol { fill, stop := some (.atOpen gap constraints) }
      .stopTriggerProcessing := by
    intro candles constraints' hstop
    cases hstop
    exact hgap
  have hgapJob : Leaves (Evidenced e.symbol e.candleOpenTime kept)
      (fun _ db => [⟨.stopTriggerProcessing, e.candleOpenTime, e.symbol⟩] ⊆ db.work)
      (b.runOpenSubjob (dailyOpenGapJobName e.symbol e.candleOpenTime) e.candleOpenTime
        (b.scheduler.runDailyOpenGapStop { fill, stop := some (.atOpen gap constraints) }
          e.candleOpenTime)) s₂ :=
    openSubjob_leaves hgapCtx rfl hconcerns hs₂
  refine (Leaves.scope hs₂ hgapJob).bind fun _ s₃ hs₃ hgapWork => ?_
  split_ifs
  · exact leaves_raise hs₃
  · -- the gap work stays in the journal while the fills are processed
    have hkept := hs₃.add hgapWork
    refine (Leaves.scope hkept ?_).mono (fun _ h => h.drop) fun _ _ _ h => h
    have hfillJob : Leaves (Evidenced e.symbol e.candleOpenTime
          ([⟨.stopTriggerProcessing, e.candleOpenTime, e.symbol⟩] ++ kept))
        (fun _ db => [⟨.nextOpenFillProcessing, e.candleOpenTime, e.symbol⟩] ⊆ db.work)
        (b.runOpenSubjob (dailyOpenFillJobName e.symbol e.candleOpenTime) e.candleOpenTime
          (b.scheduler.runDailyOpenFill { fill, stop := some (.atOpen gap constraints) }
            e.candleOpenTime)) s₃ :=
      openSubjob_leaves hfill rfl hconcerns hkept
    refine hfillJob.bind fun _ s₄ hs₄ hfillWork => ?_
    have hsnapshotJob : Leaves (Evidenced e.symbol e.candleOpenTime
          ([⟨.nextOpenFillProcessing, e.candleOpenTime, e.symbol⟩] ++
            ([⟨.stopTriggerProcessing, e.candleOpenTime, e.symbol⟩] ++ kept)))
        (fun _ db => [] ⊆ db.work)
        (b.runOpenSubjob (dailyOpenSnapshotJobName e.symbol e.candleOpenTime) e.candleOpenTime
          (b.scheduler.runDailyOpenSnapshot { fill, stop := some (.atOpen gap constraints) }
            e.candleOpenTime)) s₄ :=
      openSubjob_leaves trivial rfl hconcerns (hs₄.add hfillWork)
    refine hsnapshotJob.mono (fun _ h => h.drop) fun _ db h _ => ?_
    obtain ⟨hfillIn, hrest⟩ := List.append_subset.mp h.kept
    exact List.cons_subset.mpr ⟨hrest List.mem_cons_self, hfillIn⟩

theorem failDailyOpenParent_keeps (message : String) :
    Keeps (Evidenced symbol openTime kept) (b.failDailyOpenParent jobName t message) := by
  refine keeps_bind (keeps_read _) fun existing => ?_
  split_ifs
  · exact keeps_pure _
  · refine keeps_bind (ensureSchedulerRun_keeps b) fun _ => ?_
    exact completeMarketEvent_keeps b (by decide) _
  · exact keeps_bind (keeps_pure _) fun _ => completeMarketEvent_keeps b (by decide) _

theorem persistDailyOpenFailureAudit_keeps (subjob : JobName) (message : String) :
    Keeps (Evidenced symbol openTime kept)
      (b.persistDailyOpenFailureAudit jobName t subjob message) := by
  refine keeps_bind (failDailyOpenParent_keeps b message) fun _ => ?_
  split_ifs
  · refine keeps_bind (keeps_read _) fun existing => ?_
    split_ifs
    · refine keeps_bind (ensureSchedulerRun_keeps b) fun _ => ?_
      exact completeMarketEvent_keeps b (by decide) _
    · exact keeps_bind (keeps_pure _) fun _ => completeMarketEvent_keeps b (by decide) _
  · exact keeps_pure _

theorem reactivateRecoveryAttempt_keeps :
    Keeps (Evidenced symbol openTime kept) (b.reactivateRecoveryAttempt jobName t) := by
  refine keeps_bind (keeps_read _) fun existing => ?_
  cases existing with
  | none => exact keeps_bind (ensureSchedulerRun_keeps b) fun _ => keeps_pure _
  | some existing =>
    dsimp only
    split_ifs
    · refine Keeps.scope fun u hu => ?_
      exact updateSchedulerRun_leaves (fun _ => ⟨rfl, rfl⟩) hu fun _ _ hc => by cases hc
    · exact keeps_bind (ensureSchedulerRun_keeps b) fun _ => keeps_pure _
    · exact keeps_pure _

theorem markRunResolved_keeps (originalRunId recoveryRunId : Id) :
    Keeps (Evidenced symbol openTime kept) (markRunResolved originalRunId recoveryRunId) := by
  refine keeps_write _ fun db hdb => hdb.of_runs fun r hr => ?_
  obtain ⟨r₀, hr₀, rfl⟩ := List.mem_map.mp hr
  split_ifs
  · exact hdb.runs r₀ hr₀
  · exact hdb.runs r₀ hr₀

theorem requiredWork_recovery (h : jobName.isRecovery) : requiredWork symbol jobName t = [] := by
  cases jobName <;> first | rfl | cases h

def ownWork (e : MarketEvent) : List WorkEntry :=
  match e.eventType with
  | .dailyOpenAvailable => openWork e.symbol e.candleOpenTime
  | .dailyClosed => closeWork e.symbol e.candleOpenTime
  | _ => []

def WorkDone (e : MarketEvent) (o : EventProcessOutcome) (db : Db) : Prop :=
  o.status = .completed → ownWork e ⊆ db.work

theorem leaves_workDone_of_ne {m : Query EventProcessOutcome}
    (h : Leaves (Evidenced symbol openTime kept) (fun o _ => o.status ≠ .completed) m s) :
    Leaves (Evidenced symbol openTime kept) (WorkDone e) m s :=
  h.mono (fun _ h => h) fun _ _ _ hne hc => absurd hc hne

theorem deferredOutcome_leaves (exc : Exc) (release : JobName)
    (hs : Evidenced symbol openTime kept s.db) :
    Leaves (Evidenced symbol openTime kept) (WorkDone e) (b.deferredOutcome e exc release) s := by
  apply leaves_workDone_of_ne
  refine ((releaseUncommittedSchedulerRun_keeps b _).leaves hs).bind fun _ u hu _ => ?_
  exact leaves_pure hu (by simp)

theorem markPermanentFailure_leaves (code : String) (hs : Evidenced symbol openTime kept s.db) :
    Leaves (Evidenced symbol openTime kept) (WorkDone e) (b.markPermanentFailure jobName t e code) s := by
  apply leaves_workDone_of_ne
  refine ((completeMarketEvent_keeps b (by decide) _).leaves hs).bind fun _ u hu _ => ?_
  exact leaves_pure hu (by simp)

theorem recoveryFailed_leaves (recovery : RecoveryContext) (error : String) (terminal : Bool)
    (hs : Evidenced symbol openTime kept s.db) :
    Leaves (Evidenced symbol openTime kept) (WorkDone e) (b.recoveryFailed e recovery error terminal) s := by
  apply leaves_workDone_of_ne
  refine ((completeMarketEvent_keeps b (by decide) _).leaves hs).bind fun _ u hu _ => ?_
  exact leaves_pure hu (by simp)

theorem jobName_of_open (htype : e.eventType = .dailyOpenAvailable) :
    b.jobName e = .marketEvent .dailyOpenAvailable e.symbol (wholeSeconds e.candleOpenTime) := by
  simp [MarketEventBridge.jobName, marketEventJobName, htype]

theorem requiredWork_of_open (htype : e.eventType = .dailyOpenAvailable) :
    requiredWork e.symbol (b.jobName e) e.candleOpenTime = ownWork e := by
  rw [jobName_of_open b e htype, ownWork, htype]
  rfl

theorem requiredWork_of_closed (htype : e.eventType = .dailyClosed) :
    requiredWork e.symbol (b.jobName e) e.candleOpenTime = ownWork e := by
  rw [ownWork, htype, MarketEventBridge.jobName, marketEventJobName, htype]
  rfl

theorem persisted_leaves {skipped : Bool}
    (hwork : requiredWork e.symbol (b.jobName e) e.candleOpenTime = ownWork e)
    (hs : Evidenced e.symbol e.candleOpenTime kept s.db) :
    Leaves (Evidenced e.symbol e.candleOpenTime kept) (WorkDone e)
      (MarketEventBridge.persistedOutcome (b.jobName e) e.scheduledFor e skipped) s := by
  refine (persistedOutcome_leaves hs).mono (fun _ h => h) fun o db _ hbacked hc => ?_
  rw [← hwork]
  exact hbacked hc (.inl rfl)

theorem runDailyOpen_leaves (htype : e.eventType = .dailyOpenAvailable)
    (hs : Evidenced e.symbol e.candleOpenTime kept s.db) :
    Leaves (Evidenced e.symbol e.candleOpenTime kept) (WorkDone e) (b.runDailyOpen e) s := by
  have hwork := requiredWork_of_open b e htype
  refine ((ensureSchedulerRun_keeps b).leaves hs).bind fun _ s₁ hs₁ _ => ?_
  refine Leaves.attempt_bind (p := WorkDone e) ?_ (fun o u hu ho => leaves_pure hu ho) fun exc u hu => ?_
  · refine (handleDailyOpen_leaves b e hs₁).bind fun _ s₂ hs₂ hdone => ?_
    rw [ownWork, htype] at hwork
    refine (complete_leaves hs₂ (hwork ▸ hdone)).bind fun _ s₃ hs₃ _ => ?_
    exact persisted_leaves b e (requiredWork_of_open b e htype) hs₃
  · split
    next heq => cases heq
    · exact deferredOutcome_leaves b e _ _ hu
    · exact deferredOutcome_leaves b e _ _ hu
    · exact deferredOutcome_leaves b e _ _ hu
    · exact markPermanentFailure_leaves b e _ hu
    · refine ((persistDailyOpenFailureAudit_keeps b _ _).leaves hu).bind fun _ u₁ hu₁ _ => ?_
      exact persisted_leaves b e hwork hu₁
    · refine ((persistDailyOpenFailureAudit_keeps b _ _).leaves hu).bind fun _ u₁ hu₁ _ => ?_
      exact persisted_leaves b e hwork hu₁

theorem processDailyOpenRecovery_leaves {recovery : RecoveryContext}
    (htype : e.eventType = .dailyOpenAvailable) (hname : recovery.recoveryJobName.isRecovery)
    (hs : Evidenced e.symbol e.candleOpenTime kept s.db) :
    Leaves (Evidenced e.symbol e.candleOpenTime kept) (WorkDone e)
      (b.processDailyOpenRecovery e recovery) s := by
  refine ((reactivateRecoveryAttempt_keeps b).leaves hs).bind fun _ s₁ hs₁ _ => ?_
  refine Leaves.attempt_bind (p := fun _ db => ownWork e ⊆ db.work) ?_
    (fun o u hu ho => leaves_pure hu fun _ => ho) fun exc u hu => ?_
  · refine (handleDailyOpen_leaves b e hs₁).bind fun _ s₂ hs₂ hdone => ?_
    -- the attempt stands for no work of its own; the work of the open is kept
    have hnone : requiredWork e.symbol recovery.recoveryJobName e.scheduledFor ⊆ s₂.db.work := by
      rw [requiredWork_recovery hname]
      exact List.nil_subset _
    have hrest : Leaves (Evidenced e.symbol e.candleOpenTime
          (openWork e.symbol e.candleOpenTime ++ kept)) (fun _ _ => True) (do
        b.completeMarketEvent recovery.recoveryJobName e.scheduledFor .completed none
        markRunResolved recovery.originalRunId recovery.recoveryRunId) s₂ :=
      (complete_leaves (hs₂.add hdone) hnone).bind fun _ _ hs₃ _ => (markRunResolved_keeps _ _).leaves hs₃
    refine hrest.mono (fun _ h => h.drop) fun _ db h _ => ?_
    rw [ownWork, htype]
    exact (List.append_subset.mp h.kept).1
  · split
    next heq => cases heq
    · exact deferredOutcome_leaves b e _ _ hu
    · exact deferredOutcome_leaves b e _ _ hu
    · exact deferredOutcome_leaves b e _ _ hu
    · exact recoveryFailed_leaves b e _ _ _ hu
    · exact recoveryFailed_leaves b e _ _ _ hu
    · exact recoveryFailed_leaves b e _ _ _ hu

theorem activeRecoveryContext_leaves (hs : Evidenced symbol openTime kept s.db) :
    Leaves (Evidenced symbol openTime kept)
      (fun r _ => ∀ recovery, r = some recovery → recovery.recoveryJobName.isRecovery)
      (b.activeRecoveryContext jobName t) s := by
  unfold MarketEventBridge.activeRecoveryContext
  rcases b.recoveryPending with _ | pending
  · refine leaves_read_bind ?_
    rcases s.db.schedulerRuns.find? (isRun jobName t) with _ | existing
    · exact leaves_pure hs fun _ h => by cases h
    · refine leaves_read_bind (leaves_pure hs fun recovery hrecovery => ?_)
      obtain ⟨attempt, hfind, rfl⟩ := Option.map_eq_some_iff.mp hrecovery
      have hmem := List.mem_of_find?_eq_some hfind
      rw [List.mem_insertionSort, List.mem_filter] at hmem
      exact attempt.recovery_name (by simp [of_decide_eq_true hmem.2])
  · refine leaves_pure hs fun recovery h => ?_
    cases h
    exact pending.2

theorem maybeShortCircuitPermanentFailure_leaves (hs : Evidenced symbol openTime kept s.db) :
    Leaves (Evidenced symbol openTime kept) (fun r _ => ∀ o, r = some o → o.status ≠ .completed)
      (b.maybeShortCircuitPermanentFailure e jobName t) s := by
  refine leaves_read_bind ?_
  rcases s.db.schedulerRuns.find? (isRun jobName t) with _ | existing
  · exact leaves_pure hs fun _ h => by cases h
  · dsimp only
    split_ifs
    · exact leaves_pure hs fun _ h => by cases h
    · refine (activeRecoveryContext_leaves b hs).bind fun recovery u hu _ => ?_
      split_ifs
      · exact leaves_pure hu fun _ h => by cases h
      · refine leaves_pure hu fun o h => ?_
        cases h
        simp

theorem isCompleted_bind_leaves {α : Type} {inv : Db → Prop} {post : α → Db → Prop} {f : Bool → Query α}
    (h : Leaves inv post
      (f ((s.db.schedulerRuns.find? (isRun jobName t)).any (·.status = .completed))) s) :
    Leaves inv post (MarketEventBridge.isCompleted jobName t >>= f) s := h

theorem dailyOpenTerminalComplete_leaves (hs : Evidenced symbol openTime kept s.db) :
    Leaves (Evidenced symbol openTime kept)
      (fun completed db => completed = true → openWork symbol openTime ⊆ db.work)
      (MarketEventBridge.dailyOpenTerminalComplete symbol openTime) s := by
  refine isCompleted_bind_leaves (isCompleted_bind_leaves (isCompleted_bind_leaves ?_))
  refine leaves_pure hs fun h => ?_
  simp only [Bool.and_eq_true] at h
  have hgap : requiredWork symbol (dailyOpenGapJobName symbol openTime) openTime ⊆ s.db.work :=
    hs.of_any h.1.1 (.inl rfl)
  have hfill : requiredWork symbol (dailyOpenFillJobName symbol openTime) openTime ⊆ s.db.work :=
    hs.of_any h.1.2 (.inl rfl)
  exact List.cons_subset.mpr ⟨hgap List.mem_cons_self, hfill⟩

theorem ensureParentRunCompleted_leaves (hs : Evidenced symbol openTime kept s.db)
    (hwork : requiredWork symbol jobName t ⊆ s.db.work) :
    Leaves (Evidenced symbol openTime kept) (fun _ _ => True) (b.ensureParentRunCompleted jobName t) s := by
  refine leaves_read_bind ?_
  split_ifs
  · exact leaves_pure hs trivial
  · have hensured : Leaves (Evidenced symbol openTime (requiredWork symbol jobName t ++ kept))
        (fun _ _ => True) (b.ensureSchedulerRun jobName t) s :=
      (ensureSchedulerRun_keeps b).leaves (hs.add hwork)
    refine Leaves.mono (p := fun _ db => requiredWork symbol jobName t ⊆ db.work)
      (hensured.bind fun _ u hu _ => ?_) (fun _ h => h.drop) fun _ _ _ _ => trivial
    exact complete_leaves hu (List.append_subset.mp hu.kept).1
  · exact (complete_leaves hs hwork).mono (fun _ h => h) fun _ _ _ _ => trivial

theorem processDailyOpen_leaves (htype : e.eventType = .dailyOpenAvailable)
    (hs : Evidenced e.symbol e.candleOpenTime kept s.db) :
    Leaves (Evidenced e.symbol e.candleOpenTime kept) (WorkDone e) (b.processDailyOpen e) s := by
  have hwork := requiredWork_of_open b e htype
  refine (maybeShortCircuitPermanentFailure_leaves b e hs).bind fun r s₁ hs₁ hr => ?_
  cases r with
  | some o => exact leaves_pure hs₁ fun hc => absurd hc (hr o rfl)
  | none =>
    refine (activeRecoveryContext_leaves b hs₁).bind fun r s₂ hs₂ hr => ?_
    cases r with
    | some recovery => exact processDailyOpenRecovery_leaves b e htype (hr recovery rfl) hs₂
    | none =>
      refine (dailyOpenTerminalComplete_leaves hs₂).bind fun completed s₃ hs₃ hdone => ?_
      split_ifs with hcompleted
      · have hown : requiredWork e.symbol (b.jobName e) e.candleOpenTime ⊆ s₃.db.work := by
          rw [hwork, ownWork, htype]
          exact hdone hcompleted
        refine (ensureParentRunCompleted_leaves b hs₃ hown).bind fun _ s₄ hs₄ _ => ?_
        exact persisted_leaves b e hwork hs₄
      · exact runDailyOpen_leaves b e htype hs₃

end Open

section Outcomes

theorem isRun_modifyRun {f : SchedulerRun → SchedulerRun}
    (hkey : ∀ r, (f r).jobName = r.jobName ∧ (f r).scheduledFor = r.scheduledFor) (r : SchedulerRun) :
    isRun jobName t (modifyRun jobName t f r) = isRun jobName t r := by
  unfold modifyRun
  split_ifs
  · simp [isRun, hkey r]
  · rfl

theorem completeSchedulerRun_status {status : SchedulerRunStatus} {now : Time} {error : Option String} :
    Leaves (fun _ => True) (fun _ db => ∃ r,
        db.schedulerRuns.find? (isRun jobName t) = some r ∧ r.status = status)
      (completeSchedulerRun jobName t status now error) s := by
  refine ⟨trivial, fun row u h => ?_⟩
  obtain ⟨_, s₁, hupdate, h⟩ := bind_eq_ok.mp h
  rw [updateSchedulerRun, execute] at hupdate
  have hdb := write_ok_db hupdate
  obtain ⟨found, s₂, hread, h⟩ := bind_eq_ok.mp h
  obtain ⟨rfl, rfl⟩ := read_eq_ok.mp hread
  have hruns : s₁.db.schedulerRuns = s.db.schedulerRuns.map (modifyRun jobName t fun r =>
      { r with status := status, completedAt := some now, error := error }) := by rw [hdb]
  have hfind : s₁.db.schedulerRuns.find? (isRun jobName t) =
      (s.db.schedulerRuns.find? (isRun jobName t)).map (modifyRun jobName t fun r =>
        { r with status := status, completedAt := some now, error := error }) := by
    rw [hruns, List.find?_map]
    congr 2
    funext r
    refine isRun_modifyRun ?_ r
    exact fun _ => ⟨rfl, rfl⟩
  rcases hold : s.db.schedulerRuns.find? (isRun jobName t) with _ | r
  · simp [hfind, hold] at h
  · have hrun : isRun jobName t r = true := List.find?_some hold
    rw [hold] at hfind
    simp only [hfind, Option.map_some] at h
    obtain ⟨_, rfl⟩ := pure_eq_ok.mp h
    exact ⟨_, hfind, by simp [modifyRun, hrun]⟩

theorem completeRun_persisted {status : SchedulerRunStatus} {error error' : Option String} :
    Leaves (fun _ => True) (fun o _ => o.status = status)
      (do
        let _ ← sched.completeRun t job status error
        persistedJobOutcome t job error') s := by
  refine (Leaves.scope trivial completeSchedulerRun_status).bind fun _ u _ hstored => ?_
  obtain ⟨r, hfind, hstatus⟩ := hstored
  unfold persistedJobOutcome getSchedulerRun
  refine leaves_read_bind ?_
  rw [hfind]
  exact leaves_pure trivial hstatus

theorem runJob_settles :
    Leaves (fun _ => True) (fun o _ => o.status = .completed ∨ o.status = .failed ∨ isRetryableSkip o)
      (sched.runJob ctx t job) s := by
  have hexecute : ∀ u : Session Db, Leaves (fun _ => True)
      (fun o _ => o.status = .completed ∨ o.status = .failed ∨ isRetryableSkip o)
      (sched.executeJob ctx t job) u := by
    intro u
    have htrue : Leaves (fun _ => True) (fun _ _ => True) (sched.handler ctx t job) u :=
      ⟨trivial, fun _ _ _ => trivial⟩
    refine Leaves.attempt_bind (p := fun o _ => o.status = .completed)
      (htrue.bind fun _ u₁ _ _ => completeRun_persisted) (fun o u₁ _ ho => ?_) fun exc u₁ _ => ?_
    · exact leaves_pure trivial (.inl ho)
    · exact completeRun_persisted.mono (fun _ h => h) fun _ _ _ h => .inr (.inl h)
  have hstart : ∀ u : Session Db, Leaves (fun _ => True)
      (fun o _ => o.status = .completed ∨ o.status = .failed ∨ isRetryableSkip o)
      (sched.startJob ctx t job) u := by
    intro u
    have hid : Leaves (fun _ => True) (fun _ _ => True) newId u := ⟨trivial, fun _ _ _ => trivial⟩
    refine hid.bind fun runId u₁ _ _ => ?_
    have hinsert : Leaves (fun _ => True) (fun _ _ => True) (scope (insertOrGetSchedulerRun
        (runRow t runId (.scheduler job) (sched.now .jobStarted)))) u₁ := ⟨trivial, fun _ _ _ => trivial⟩
    refine hinsert.bind fun r u₂ _ _ => ?_
    obtain ⟨run, created⟩ := r
    dsimp only
    split_ifs
    · exact leaves_pure trivial (.inl rfl)
    · exact hexecute u₂
  unfold runJob
  split_ifs
  · exact leaves_pure trivial (.inr (.inr (by simp [isRetryableSkip, skippedOutcome,
      retryableSkipErrors])))
  · refine leaves_read_bind ?_
    split_ifs
    · exact leaves_pure trivial (.inl rfl)
    · exact leaves_pure trivial (.inr (.inr (by simp [isRetryableSkip, skippedOutcome,
      retryableSkipErrors])))
    · exact hstart s

end Outcomes

section Close

variable (b e)

theorem requireSuccessfulJobs_eq_ok {outcomes : List JobRunOutcome} :
    requireSuccessfulJobs outcomes = .ok () ↔
      ∀ o ∈ outcomes, o.status ≠ .failed ∧ isRetryableSkip o = false := by
  induction outcomes with
  | nil => simp [requireSuccessfulJobs]
  | cons o rest ih =>
    unfold requireSuccessfulJobs
    split_ifs with hfailed hskip
    · simp [hfailed]
    · simp [hskip]
    · simp [hfailed, hskip, ih]

theorem closeJob_leaves (hctx : ContextFor symbol ctx job) (ht : Concerns openTime t)
    (hs : Evidenced symbol openTime kept s.db) :
    Leaves (Evidenced symbol openTime kept)
      (fun o db => (o.status ≠ .failed ∧ isRetryableSkip o = false) →
        requiredWork symbol (.scheduler job) t ⊆ db.work)
      (sched.runJob ctx t job) s := by
  refine ((runJob_leaves hctx hs).and runJob_settles).mono (fun _ h => h) ?_
  rintro o db _ ⟨hbacked, hsettled⟩ ⟨hfailed, hskip⟩
  rcases hsettled with hc | hf | hr
  · exact hbacked hc ht
  · exact absurd hf hfailed
  · rw [hskip] at hr
    cases hr

theorem closeJobs_leaves {jobs : List SchedulerJobName} (hctx : ∀ job ∈ jobs, ContextFor symbol ctx job)
    (ht : Concerns openTime t) (hs : Evidenced symbol openTime kept s.db) :
    Leaves (Evidenced symbol openTime kept)
      (fun outcomes db => requireSuccessfulJobs outcomes = .ok () →
        ∀ job ∈ jobs, requiredWork symbol (.scheduler job) t ⊆ db.work)
      (forEach jobs (sched.runJob ctx t)) s := by
  induction jobs generalizing kept s with
  | nil => exact leaves_pure hs fun _ _ h => by cases h
  | cons job jobs ih =>
    have hrest := fun job' h => hctx job' (List.mem_cons_of_mem _ h)
    refine (closeJob_leaves (hctx job List.mem_cons_self) ht hs).bind fun o s₁ hs₁ hfirst => ?_
    by_cases hok : o.status ≠ .failed ∧ isRetryableSkip o = false
    · -- the work of the first job stays in the journal while the others run
      have hadded := ih hrest (hs₁.add (hfirst hok))
      refine Leaves.mono (hadded.bind fun outcomes s₂ hs₂ hjobs => leaves_pure
        (p := fun outcomes db => requireSuccessfulJobs outcomes = .ok () →
          ∀ job' ∈ job :: jobs, requiredWork symbol (.scheduler job') t ⊆ db.work) hs₂ fun hall => ?_)
        (fun _ h => h.drop) fun _ _ _ h => h
      rw [requireSuccessfulJobs_eq_ok] at hall
      have hothers := hjobs (requireSuccessfulJobs_eq_ok.mpr fun o' h => hall o' (List.mem_cons_of_mem _ h))
      exact List.forall_mem_cons.mpr ⟨(List.append_subset.mp hs₂.kept).1, hothers⟩
    · refine (ih hrest hs₁).bind fun outcomes s₂ hs₂ _ => leaves_pure hs₂ fun hall => ?_
      exact absurd (requireSuccessfulJobs_eq_ok.mp hall o List.mem_cons_self) hok

theorem runDailyCloseSequence_leaves (heval : ContextFor symbol ctx .dailySignalEvaluation)
    (hstop : ContextFor symbol ctx .dailyStopUpdate) (hs : Evidenced symbol openTime kept s.db) :
    Leaves (Evidenced symbol openTime kept)
      (fun outcomes db => requireSuccessfulJobs outcomes = .ok () → closeWork symbol openTime ⊆ db.work)
      (sched.runDailyCloseSequence ctx (dailyClose openTime)) s := by
  unfold runDailyCloseSequence
  split_ifs
  · refine leaves_pure hs fun h => ?_
    simp [requireSuccessfulJobs, skippedOutcome, isRetryableSkip, retryableSkipErrors] at h
  · refine leaves_pure hs fun h => ?_
    simp [requireSuccessfulJobs, skippedOutcome, isRetryableSkip, retryableSkipErrors] at h
  · have hctx : ∀ job ∈ [.dailySignalEvaluation, .dailyStopUpdate, .portfolioSnapshot],
        ContextFor symbol ctx job := by
      simp only [List.forall_mem_cons, List.not_mem_nil, false_imp_iff, implies_true, and_true]
      exact ⟨heval, hstop, trivial⟩
    refine (closeJobs_leaves hctx (.inr rfl) hs).mono (fun _ h => h) fun outcomes db _ hjobs hall => ?_
    have hevaluated := hjobs hall .dailySignalEvaluation List.mem_cons_self
    have hupdated := hjobs hall .dailyStopUpdate (List.mem_cons_of_mem _ List.mem_cons_self)
    exact List.cons_subset.mpr ⟨hevaluated List.mem_cons_self, hupdated⟩

theorem buildEvaluationContext_leaves {builder : ContextBuilder} (hs : Evidenced symbol openTime kept s.db) :
    Leaves (Evidenced symbol openTime kept)
      (fun _ _ => ∃ bundle, paperBundle builder.candles e.symbol t = .ok bundle ∧ bundle.isUsable)
      (builder.buildEvaluationContext e.symbol t) s := by
  refine ofExcept_bind_leaves hs fun constraints _ => ofExcept_bind_leaves hs fun bundle hbundle => ?_
  split_ifs with husable
  · exact leaves_raise hs
  · have hgates : Keeps (Evidenced symbol openTime kept) ContextBuilder.runtimeGates :=
      keeps_bind (keeps_read _) fun r => by cases r <;> exact keeps_pure _
    refine (hgates.leaves hs).bind fun r s₁ hs₁ _ => ?_
    obtain ⟨entryReady, paused, kill⟩ := r
    have hcontext : Keeps (Evidenced symbol openTime kept) (buildEntryGateContext e.symbol
        entryReady builder.marketDataReady paused kill) :=
      keeps_buildEntryGateContext _ _ _ _ _
    refine (hcontext.leaves hs₁).bind fun gates s₂ hs₂ _ => leaves_pure hs₂ ⟨bundle, hbundle, ?_⟩
    simpa using husable

theorem buildStopContextForClose_leaves {builder : ContextBuilder}
    (hs : Evidenced symbol openTime kept s.db) :
    Leaves (Evidenced symbol openTime kept)
      (fun stop _ => ∀ candles atrs constraints params,
        stop = .atClose candles atrs constraints params → (candles e.symbol).isSome)
      (builder.buildStopContextForClose e.symbol t) s := by
  refine ofExcept_bind_leaves hs fun constraints _ => ofExcept_bind_leaves hs fun bundle _ => ?_
  split
  · exact leaves_raise hs
  · split_ifs
    · exact leaves_raise hs
    · have hposition : Keeps (Evidenced symbol openTime kept) (getOpenPositionForSymbol e.symbol) :=
        keeps_getOpenPositionForSymbol _
      refine (hposition.leaves hs).bind fun position s₁ hs₁ _ => leaves_read_bind (leaves_pure hs₁ ?_)
      rintro candles atrs constraints' params heq
      cases heq
      simp [BySymbol.single]

theorem handleDailyClosed_leaves (hs : Evidenced e.symbol e.candleOpenTime kept s.db) :
    Leaves (Evidenced e.symbol e.candleOpenTime kept)
      (fun _ db => closeWork e.symbol e.candleOpenTime ⊆ db.work) (b.handleDailyClosed e) s := by
  refine (candleFor_leaves hs).bind fun candle s₁ hs₁ hcandle => ?_
  obtain ⟨hlatest, hopen⟩ := hcandle
  dsimp only
  split_ifs with hdue
  · exact leaves_raise hs₁
  · refine (buildEvaluationContext_leaves e hs₁).bind fun evaluation s₂ hs₂ husable => ?_
    -- the latest candle is in the usable bundle, so it closes at the end of its day
    have hclose : candle.closeTime = dailyClose e.candleOpenTime := by
      obtain ⟨bundle, hbundle, husable⟩ := husable
      obtain ⟨hmem, _⟩ := CandleRepository.getLatest_eq_some_iff.mp hlatest
      obtain ⟨hstore, hsymbol, htimeframe⟩ := CandleRepository.mem_ofSeries.mp hmem
      rw [← hopen]
      refine closeTime_of_validateSingleCandle htimeframe ((paperBundle_single hbundle husable).1 .daily candle ?_)
      refine mem_getClosedBefore.mpr ⟨hstore, hsymbol, htimeframe, ?_⟩
      have hdelay : 0 ≤ (b.scheduler.config.evaluationDelaySeconds : ℤ) * second :=
        mul_nonneg (Int.natCast_nonneg _) (by decide)
      exact le_add_of_nonneg_right hdelay
    refine (buildStopContextForClose_leaves e hs₂).bind fun stop s₃ hs₃ hstop => ?_
    rw [hclose]
    have hevalCtx : ContextFor e.symbol
        { evaluation := BySymbol.single e.symbol evaluation, stop := some stop } .dailySignalEvaluation := by
      simp [ContextFor, BySymbol.single]
    have hstopCtx : ContextFor e.symbol
        { evaluation := BySymbol.single e.symbol evaluation, stop := some stop } .dailyStopUpdate :=
      fun candles atrs constraints params h => hstop candles atrs constraints params (Option.some.inj h)
    refine (runDailyCloseSequence_leaves hevalCtx hstopCtx hs₃).bind fun outcomes s₄ hs₄ hwork => ?_
    cases hall : requireSuccessfulJobs outcomes with
    | ok u => exact leaves_pure hs₄ (hwork hall)
    | error exc => exact leaves_raise hs₄

theorem runEvent_leaves {handle : Query Unit}
    (hwork : requiredWork e.symbol (b.jobName e) e.candleOpenTime = ownWork e)
    (hhandle : Leaves (Evidenced e.symbol e.candleOpenTime kept) (fun _ db => ownWork e ⊆ db.work) handle s) :
    Leaves (Evidenced e.symbol e.candleOpenTime kept) (WorkDone e) (b.runEvent e handle) s := by
  refine Leaves.attempt_bind (p := WorkDone e) ?_ (fun o u hu ho => leaves_pure hu ho) fun exc u hu => ?_
  · refine hhandle.bind fun _ s₁ hs₁ hdone => ?_
    refine (complete_leaves hs₁ (hwork ▸ hdone)).bind fun _ s₂ hs₂ _ => ?_
    exact persisted_leaves b e hwork hs₂
  · split
    next heq => cases heq
    · exact deferredOutcome_leaves b e _ _ hu
    · exact deferredOutcome_leaves b e _ _ hu
    · exact deferredOutcome_leaves b e _ _ hu
    · exact markPermanentFailure_leaves b e _ hu
    · refine ((completeMarketEvent_keeps b (by decide) _).leaves hu).bind fun _ u₁ hu₁ _ => ?_
      exact persisted_leaves b e hwork hu₁

theorem processClosed_leaves (htype : e.eventType = .dailyClosed)
    (hs : Evidenced e.symbol e.candleOpenTime kept s.db) :
    Leaves (Evidenced e.symbol e.candleOpenTime kept) (WorkDone e)
      (b.processLiveOrClosed e (b.handleDailyClosed e)) s := by
  have hwork := requiredWork_of_closed b e htype
  refine (ensureSchedulerRun_leaves b hs).bind fun r s₁ hs₁ hbacked => ?_
  obtain ⟨run, created⟩ := r
  dsimp only
  split_ifs with hcompleted
  · simp only [Bool.and_eq_true, decide_eq_true_eq] at hcompleted
    refine leaves_pure hs₁ fun _ => ?_
    rw [← hwork]
    exact hbacked hcompleted.2 (.inl rfl)
  · refine runEvent_leaves b e hwork ?_
    rw [ownWork, htype]
    exact handleDailyClosed_leaves b e hs₁

theorem processEvent_leaves (htype : e.eventType = .dailyOpenAvailable ∨ e.eventType = .dailyClosed)
    (hs : Evidenced e.symbol e.candleOpenTime kept s.db) :
    Leaves (Evidenced e.symbol e.candleOpenTime kept) (WorkDone e) (b.processEvent e) s := by
  unfold MarketEventBridge.processEvent
  rcases htype with htype | htype
  · rw [if_neg (by simp [htype]), if_pos htype]
    exact processDailyOpen_leaves b e htype hs
  · rw [if_neg (by simp [htype]), if_neg (by simp [htype])]
    refine (maybeShortCircuitPermanentFailure_leaves b e hs).bind fun r s₁ hs₁ hr => ?_
    cases r with
    | some o => exact leaves_pure hs₁ fun hc => absurd hc (hr o rfl)
    | none =>
      refine isCompleted_bind_leaves ?_
      split_ifs with hcompleted
      · refine leaves_pure hs₁ fun _ => ?_
        rw [← requiredWork_of_closed b e htype]
        exact hs₁.of_any hcompleted (.inl rfl)
      · simp only [htype]
        exact processClosed_leaves b e htype hs₁

end Close

end TradingBot.Paper.OwnWork
