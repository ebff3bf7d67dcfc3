import TradingBot.Paper.Effects
import TradingBot.Paper.Recovery

namespace TradingBot.Paper.RecoverySoundness

open Market.Models Exceptions Library.Transaction Library.Outcome Paper.Models Paper.Repository
open Paper.Lifecycle Paper.Stops Paper.PositionTable Paper.Effects Paper.AccountingVerification
open Paper.Runtime Paper.Recovery Paper.Recovery.RecoveryService

section Path

/-- The changes lead from one status to another over allowed transitions. -/
def StatusPath : RuntimeStatus → List StatusChange → RuntimeStatus → Prop
  | start, [], status => start = status
  | start, c :: changes, status => c.previous = start ∧
    validateRuntimeTransition c.previous c.current = .ok () ∧ StatusPath c.current changes status

theorem StatusPath.append {start middle target : RuntimeStatus} {changes : List StatusChange}
    (h : StatusPath start changes middle) (hlegal : validateRuntimeTransition middle target = .ok ()) :
    StatusPath start (changes ++ [⟨middle, target⟩]) target := by
  induction changes generalizing start with
  | nil =>
    have hstart : start = middle := h
    exact ⟨hstart.symm, hlegal, rfl⟩
  | cons c changes ih => exact ⟨h.1, h.2.1, ih h.2.2⟩

def Pathed (start : RuntimeStatus) (old : List StatusChange) (db : Db) : Prop :=
  ∃ row new, db.runtimeState = some row ∧ db.statusChanges = old ++ new ∧ StatusPath start new row.status

variable {start : RuntimeStatus} {old : List StatusChange} {s s' : Session Db}

def OfStatus (inv : Db → Prop) : Prop :=
  ∀ db db', db'.runtimeState.map (·.status) = db.runtimeState.map (·.status) →
    db'.statusChanges = db.statusChanges → inv db → inv db'

theorem ofStatus_pathed : OfStatus (Pathed start old) := by
  rintro db db' hstatus hchanges ⟨row, new, hrow, hnew, hpath⟩
  rw [hrow, Option.map_some] at hstatus
  obtain ⟨row', hrow', hsame⟩ := Option.map_eq_some_iff.mp hstatus
  exact ⟨row', new, hrow', hchanges.trans hnew, hsame ▸ hpath⟩

section Unchanged

variable {inv : Db → Prop} (hinv : OfStatus inv)

include hinv

theorem keeps_execute {f : Db → Db} (hruntime : ∀ db, (f db).runtimeState = db.runtimeState)
    (hchanges : ∀ db, (f db).statusChanges = db.statusChanges) : Keeps inv (execute f) :=
  keeps_write _ fun db hdb => hinv _ _ (by rw [hruntime]) (hchanges db) hdb

omit hinv in
theorem keeps_ofExcept {α : Type} (x : Except Exc α) : Keeps inv (ofExcept x) := by
  cases x with
  | ok a => exact keeps_pure a
  | error e => exact keeps_raise e

omit hinv in
theorem keeps_getState : Keeps inv getState := by
  refine keeps_bind (keeps_read _) fun row => ?_
  cases row with
  | none => exact keeps_raise _
  | some row => exact keeps_pure row

theorem keeps_updateRuntimeState {u : RuntimeUpdate} (hu : u.status = none) (version : Option ℕ) :
    Keeps inv (updateRuntimeState u version) := by
  refine keeps_read_bind fun s hs => ?_
  cases hrow : s.db.runtimeState with
  | none => exact hs
  | some row =>
    dsimp only
    split_ifs
    · exact hs
    · refine bind_keeps ?_ fun _ => keeps_pure _
      unfold execute write flush
      simp only [bind]
      split <;> rename_i h <;> split at h <;> cases h
      · refine hinv s.db _ ?_ rfl hs
        simp [hrow, RuntimeUpdate.apply, hu]
      · exact hs

theorem keeps_captureSnapshot (time : Time) (event : String) :
    Keeps inv (captureSnapshot time event) := by
  refine captureSnapshot_keeps ?_ time event
  rintro db db' ⟨snapshots, nextId, rfl⟩ hdb
  exact hinv db _ rfl rfl hdb

theorem keeps_repair (now : Time) (issue : ConsistencyIssue) :
    Keeps inv (repair now issue) := by
  unfold repair
  split_ifs
  · exact keeps_pure _
  · split
    · refine keeps_bind (keeps_bind (keeps_read _) fun _ => ?_) fun _ => keeps_pure _
      exact keeps_bind (keeps_execute hinv (fun _ => rfl) fun _ => rfl) fun _ => keeps_pure _
    · refine keeps_bind (keeps_read _) fun found => keeps_bind (keeps_ofExcept found) fun consistent => ?_
      split_ifs
      · exact keeps_pure _
      · refine keeps_bind (keeps_bind (keeps_execute hinv (fun _ => rfl) fun _ => rfl) fun _ => ?_) fun _ =>
          keeps_pure _
        refine keeps_bind (keeps_read _) fun row => ?_
        unfold require
        split_ifs
        · exact keeps_pure _
        · exact keeps_raise _
    · refine keeps_bind (keeps_read _) fun found => keeps_bind (keeps_ofExcept found) fun consistent => ?_
      split_ifs
      · exact keeps_pure _
      · refine keeps_bind (keeps_bind (keeps_execute hinv (fun _ => rfl) fun _ => rfl) fun _ => ?_) fun _ =>
          keeps_pure _
        refine keeps_bind (keeps_read _) fun row => ?_
        cases row with
        | none => exact keeps_raise _
        | some row => exact keeps_pure _
    · refine keeps_bind (keeps_read _) fun row => ?_
      cases row with
      | none => exact keeps_pure _
      | some row => exact keeps_bind (keeps_updateRuntimeState hinv rfl _) fun _ => keeps_pure _
    · exact keeps_pure _

theorem keeps_checkAndRepair (r : RecoveryService) : Keeps inv r.checkAndRepair := by
  have hchecks : ∀ now, Keeps inv (runConsistencyChecks r.config now) :=
    fun now => keeps_bind (keeps_read _) fun issues => keeps_ofExcept issues
  have hverify : Keeps inv (runAccountingVerification r.config) := by
    refine keeps_bind (keeps_bind (keeps_read _) fun wallet => ?_) fun _ => keeps_pure _
    cases wallet with
    | none => exact keeps_pure _
    | some wallet => exact fun _ h => h
  refine keeps_bind (hchecks _) fun found => keeps_bind ?_ fun repairs => keeps_bind (hchecks _) fun _ => ?_
  · refine Keeps.scope (keeps_bind (keeps_forEach fun issue _ => keeps_repair hinv _ issue) fun _ => keeps_pure _)
  · refine keeps_bind hverify fun issue => ?_
    cases issue with
    | none => exact keeps_pure _
    | some issue =>
      refine keeps_bind (keeps_bind keeps_getState fun _ => ?_) fun _ => keeps_pure _
      exact Keeps.scope (keeps_flush _)

omit hinv in
theorem keeps_buildResult (status : RuntimeStatus) (issues : List ConsistencyIssue) (repairs : List Repair) :
    Keeps inv (buildResult status issues repairs) :=
  keeps_bind keeps_getState fun _ => keeps_pure _

end Unchanged

theorem transition_ok {now : Time} {target : RuntimeStatus} {lastError : Option String}
    {u : RuntimeState} (h : transition now target lastError s = (.ok u, s')) :
    ∃ row updated, s.db.runtimeState = some row ∧ updated.status = target ∧
      validateRuntimeTransition row.status target = .ok () ∧
      s'.db = { s.db with runtimeState := some updated
                          statusChanges := s.db.statusChanges ++ [⟨row.status, target⟩] } := by
  obtain ⟨row, s₁, hstate, h⟩ := bind_eq_ok.mp (scope_eq_ok.mp h)
  obtain ⟨found, s₂, hread, hstate⟩ := bind_eq_ok.mp hstate
  obtain ⟨hfound, rfl⟩ := read_eq_ok.mp hread
  cases found with
  | none => exact absurd hstate raise_ne_ok
  | some found =>
    obtain ⟨rfl, rfl⟩ := pure_eq_ok.mp hstate
    obtain ⟨_, s₃, hvalid, h⟩ := bind_eq_ok.mp h
    cases hlegal : validateRuntimeTransition found.status target with
    | error e =>
      rw [hlegal] at hvalid
      exact absurd hvalid raise_ne_ok
    | ok v =>
      rw [hlegal] at hvalid
      obtain ⟨_, rfl⟩ := pure_eq_ok.mp hvalid
      obtain ⟨updated, s₄, hupdate, h⟩ := bind_eq_ok.mp h
      obtain ⟨_, s₅, hwrite, h⟩ := bind_eq_ok.mp h
      obtain ⟨_, rfl⟩ := pure_eq_ok.mp h
      obtain ⟨row', s₆, hread', hupdate⟩ := bind_eq_ok.mp hupdate
      obtain ⟨hrow', rfl⟩ := read_eq_ok.mp hread'
      rw [hfound] at hrow'
      subst hrow'
      simp only [Option.any_some, bne_self_eq_false, Bool.false_eq_true, if_false] at hupdate
      obtain ⟨_, s₇, hset, hupdate⟩ := bind_eq_ok.mp hupdate
      obtain ⟨rfl, rfl⟩ := pure_eq_ok.mp hupdate
      have hset := write_ok_db hset
      have hlog := write_ok_db hwrite
      exact ⟨found, _, hfound, rfl, hlegal, by rw [hlog, hset]⟩

theorem keeps_transition (now : Time) (target : RuntimeStatus) (lastError : Option String) :
    Keeps (Pathed start old) (transition now target lastError) := by
  refine keeps_scope fun s u s' hs hm => ?_
  have h : transition now target lastError s = (.ok u, s') := scope_eq_ok.mpr hm
  obtain ⟨row, updated, hrow, hstatus, hlegal, hdb⟩ := transition_ok h
  obtain ⟨row', new, hrow', hchanges, hpath⟩ := hs
  rw [hrow] at hrow'
  cases hrow'
  refine ⟨updated, new ++ [⟨row.status, target⟩], by rw [hdb], by rw [hdb, hchanges, List.append_assoc], ?_⟩
  rw [hstatus]
  exact hpath.append hlegal

theorem keeps_failRecovery (r : RecoveryService) (code : IssueCode) :
    Keeps (Pathed start old) (r.failRecovery code) := by
  refine keeps_bind (keeps_transition _ _ _) fun _ => keeps_bind keeps_getState fun _ => ?_
  exact Keeps.scope (keeps_flush _)

theorem keeps_degrade (now : Time) (error : String) (issues : List ConsistencyIssue)
    (repairs : List Repair) :
    Keeps (Pathed start old) (do
      let _ ← transition now .degraded (some error)
      buildResult .degraded issues repairs) :=
  keeps_bind (keeps_transition _ _ _) fun _ => keeps_buildResult _ _ _

theorem keeps_fail (r : RecoveryService) (code : IssueCode) (issues : List ConsistencyIssue)
    (repairs : List Repair) :
    Keeps (Pathed start old) (do
      r.failRecovery code
      buildResult .failed issues repairs) :=
  keeps_bind (keeps_failRecovery _ _) fun _ => keeps_buildResult _ _ _

theorem keeps_synchronize (r : RecoveryService) (marketDataReady : Bool)
    (issues : List ConsistencyIssue) (repairs : List Repair) :
    Keeps (Pathed start old) (r.synchronize marketDataReady issues repairs) := by
  refine keeps_bind (keeps_transition _ _ _) fun _ => ?_
  split_ifs
  · exact keeps_degrade _ _ _ _
  · split
    · exact keeps_degrade _ _ _ _
    · refine keeps_bind (keeps_transition _ _ _) fun _ => ?_
      exact keeps_bind (keeps_captureSnapshot ofStatus_pathed _ _) fun _ => keeps_buildResult _ _ _

theorem keeps_recover (r : RecoveryService) (status : RuntimeStatus) (marketDataReady : Bool) :
    Keeps (Pathed start old) (r.recover status marketDataReady) := by
  have hrest : Keeps (Pathed start old) (r.recover .recovering marketDataReady) := by
    unfold recover
    rw [if_neg (by decide)]
    refine keeps_bind (keeps_transition _ _ _) fun _ => keeps_bind (keeps_ofExcept _) fun atHead => ?_
    split_ifs
    · exact keeps_fail _ _ _ _
    · refine keeps_bind (keeps_checkAndRepair ofStatus_pathed r) fun checked => ?_
      obtain ⟨issues, repairs⟩ := checked
      dsimp only
      split
      · exact keeps_fail _ _ _ _
      · exact keeps_synchronize _ _ _ _
  unfold recover
  split_ifs
  · exact keeps_bind (keeps_transition _ _ _) fun _ => hrest
  · exact hrest

theorem keeps_recheckReady (r : RecoveryService) (marketDataReady : Bool) :
    Keeps (Pathed start old) (r.recheckReady marketDataReady) := by
  refine keeps_bind (keeps_checkAndRepair ofStatus_pathed r) fun checked => ?_
  obtain ⟨issues, repairs⟩ := checked
  dsimp only
  split
  · exact keeps_fail _ _ _ _
  · exact keeps_degrade _ _ _ _
  · split_ifs
    · exact keeps_degrade _ _ _ _
    · exact keeps_buildResult _ _ _

theorem keeps_recoverOnStartup (r : RecoveryService) (marketDataReady : Bool) :
    Keeps (Pathed start old) (r.recoverOnStartup marketDataReady) := by
  unfold recoverOnStartup
  split_ifs
  · exact keeps_raise _
  · exact keeps_raise _
  · refine keeps_bind (Keeps.scope (keeps_flush _)) fun _ => keeps_bind keeps_getState fun runtime => ?_
    split_ifs
    · exact keeps_recheckReady _ _
    · exact keeps_recover _ _ _

end Path

section Ready

variable {r : RecoveryService} {marketDataReady : Bool} {s s' : Session Db} {db : Db}

/-- Whenever the checks are made, they find nothing that is fatal or left to an operator. -/
def NoSeriousIssue (config : PaperTradingConfig) (db : Db) : Prop :=
  ∀ now, ∃ issues, consistencyIssues config now db = .ok issues ∧
    ∀ issue ∈ issues, issue.severity = .autoRepairable

/-- The wallet rebuilt from the fills is the stored one. -/
def NoMismatch (config : PaperTradingConfig) (db : Db) : Prop :=
  (verifyAccountingIndependent config.paperInitialEquity ⟨db, []⟩).1 = .ok []

/-- The checks and the verification find nothing serious. -/
structure Sound (config : PaperTradingConfig) (db : Db) : Prop where
  issues : NoSeriousIssue config db
  accounting : NoMismatch config db

def HasStatus (status : RuntimeStatus) (db : Db) : Prop :=
  ∃ row, db.runtimeState = some row ∧ row.status = status

theorem checkStaleHeartbeat_auto (config : PaperTradingConfig) (now : Time) (db : Db) :
    ∀ issue ∈ checkStaleHeartbeat config now db, issue.severity = .autoRepairable := by
  unfold checkStaleHeartbeat issueWhen
  split
  · simp
  · dsimp only
    split_ifs <;> simp

theorem noSeriousIssue_of {config : PaperTradingConfig} {now : Time} {issues : List ConsistencyIssue}
    (h : consistencyIssues config now db = .ok issues)
    (hauto : ∀ issue ∈ issues, issue.severity = .autoRepairable) : NoSeriousIssue config db := by
  obtain ⟨account, haccount, h⟩ := except_bind_eq_ok.mp h
  cases h
  intro now'
  refine ⟨_, except_bind_eq_ok.mpr ⟨account, haccount, rfl⟩, ?_⟩
  simp only [List.forall_mem_append] at hauto ⊢
  exact ⟨⟨hauto.1.1, checkStaleHeartbeat_auto _ _ _⟩, hauto.2⟩

theorem Sound.of_runtime {config : PaperTradingConfig} (h : Sound config db)
    (runtimeState : Option RuntimeState) (statusChanges : List StatusChange)
    (snapshots : List PortfolioSnapshot) (nextId : Id) :
    Sound config { db with runtimeState, statusChanges, snapshots, nextId } := by
  refine ⟨fun now => ?_, ?_⟩
  · obtain ⟨issues, hissues, hauto⟩ := h.issues now
    obtain ⟨account, haccount, hissues⟩ := except_bind_eq_ok.mp hissues
    cases hissues
    refine ⟨_, except_bind_eq_ok.mpr ⟨account, haccount, rfl⟩, ?_⟩
    simp only [List.forall_mem_append] at hauto ⊢
    exact ⟨⟨hauto.1.1, checkStaleHeartbeat_auto _ _ _⟩, hauto.2⟩
  · have haccounting := h.accounting
    unfold NoMismatch verifyAccountingIndependent getWallet at haccounting ⊢
    rw [read_bind] at haccounting ⊢
    rcases hw : db.wallet with _ | wallet <;> simp only [hw] at haccounting ⊢ <;> exact haccounting

theorem firstOf_eq_none {severity : IssueSeverity} {issues : List ConsistencyIssue}
    (h : firstOf severity issues = none) : ∀ issue ∈ issues, issue.severity ≠ severity := by
  simpa [firstOf, List.find?_eq_none] using h

theorem checkAndRepair_sound {issues : List ConsistencyIssue} {repairs : List Repair}
    (h : r.checkAndRepair s = (.ok (issues, repairs), s')) (hfatal : firstOf .fatal issues = none)
    (hmanual : firstOf .manual issues = none) : Sound r.config s'.db := by
  obtain ⟨found, s₁, _, h⟩ := bind_eq_ok.mp h
  obtain ⟨repaired, s₂, _, h⟩ := bind_eq_ok.mp h
  obtain ⟨remaining, s₃, hremaining, h⟩ := bind_eq_ok.mp h
  obtain ⟨checked, s₅, hread, hremaining⟩ := bind_eq_ok.mp hremaining
  obtain ⟨hchecked, rfl⟩ := read_eq_ok.mp hread
  cases checked with
  | error e => exact absurd hremaining raise_ne_ok
  | ok checked =>
    obtain ⟨rfl, rfl⟩ := pure_eq_ok.mp hremaining
    obtain ⟨accounting, s₄, haccounting, hlast⟩ := bind_eq_ok.mp h
    obtain ⟨mismatches, s₆, hverify, haccounting⟩ := bind_eq_ok.mp haccounting
    obtain ⟨rfl, rfl⟩ := pure_eq_ok.mp haccounting
    have hsame : s₆ = s₂ ∧ (verifyAccountingIndependent r.config.paperInitialEquity ⟨s₂.db, []⟩).1 =
        .ok mismatches := by
      unfold verifyAccountingIndependent getWallet at hverify ⊢
      rw [read_bind] at hverify ⊢
      rcases hw : s₂.db.wallet with _ | wallet <;> simp only [hw] at hverify ⊢
      · obtain ⟨rfl, rfl⟩ := pure_eq_ok.mp hverify
        exact ⟨rfl, rfl⟩
      · cases hverify
        exact ⟨rfl, rfl⟩
    obtain ⟨rfl, hresult⟩ := hsame
    by_cases hempty : mismatches = []
    · rw [if_pos hempty] at hlast
      cases hlast
      refine ⟨noSeriousIssue_of hchecked fun issue hissue => ?_, by rw [NoMismatch, hresult, hempty]⟩
      have hnotFatal := firstOf_eq_none hfatal issue hissue
      have hnotManual := firstOf_eq_none hmanual issue hissue
      cases hseverity : issue.severity with
      | autoRepairable => rfl
      | manual => exact absurd hseverity hnotManual
      | fatal => exact absurd hseverity hnotFatal
    · rw [if_neg hempty] at hlast
      obtain ⟨_, s₇, _, hlast⟩ := bind_eq_ok.mp hlast
      cases hlast
      exact absurd rfl (firstOf_eq_none hmanual (accountingIssue mismatches) (by simp))

theorem ofStatus_hasStatus (status : RuntimeStatus) : OfStatus (HasStatus status) := by
  rintro db db' hstatus _ ⟨row, hrow, hsame⟩
  rw [hrow, Option.map_some] at hstatus
  obtain ⟨row', hrow', hsame'⟩ := Option.map_eq_some_iff.mp hstatus
  exact ⟨row', hrow', hsame'.trans hsame⟩

def Unpromoted (start : Option RuntimeStatus) (db : Db) : Prop :=
  HasStatus .ready db → start = some .ready

theorem ofStatus_unpromoted (start : Option RuntimeStatus) : OfStatus (Unpromoted start) := by
  intro db db' hstatus hchanges h hready
  obtain ⟨row, hrow, hrowReady⟩ := hready
  rw [hrow, Option.map_some] at hstatus
  obtain ⟨row', hrow', hsame⟩ := Option.map_eq_some_iff.mp hstatus.symm
  exact h ⟨row', hrow', hsame.trans hrowReady⟩

/-- The runtime is ready only if it already was, or if everything is in order. -/
def Justified (start : Option RuntimeStatus) (config : PaperTradingConfig) (marketDataReady : Bool)
    (db : Db) : Prop :=
  HasStatus .ready db → start = some .ready ∨ (marketDataReady = true ∧ Sound config db)

/-- How a recovery that returns leaves the runtime. -/
structure Settled (config : PaperTradingConfig) (marketDataReady : Bool) (result : RecoveryResult)
    (db : Db) : Prop where
  stored : HasStatus result.finalStatus db
  ready : result.finalStatus = .ready → marketDataReady = true ∧ Sound config db
  status : result.finalStatus = .ready ∨ result.finalStatus = .degraded ∨ result.finalStatus = .failed

variable {start : Option RuntimeStatus}

theorem HasStatus.unique {status status' : RuntimeStatus} (h : HasStatus status db)
    (h' : HasStatus status' db) : status = status' := by
  obtain ⟨row, hrow, rfl⟩ := h
  obtain ⟨row', hrow', rfl⟩ := h'
  rw [hrow] at hrow'
  cases hrow'
  rfl

theorem Unpromoted.justified {config : PaperTradingConfig} (h : Unpromoted start db) :
    Justified start config marketDataReady db := fun hready => .inl (h hready)

theorem getState_leaves {inv : Db → Prop} (hs : inv s.db) :
    Leaves inv (fun row db => db.runtimeState = some row ∧ db = s.db) getState s := by
  refine leaves_read_bind ?_
  cases hrow : s.db.runtimeState with
  | none => exact leaves_raise hs
  | some row => exact leaves_pure hs ⟨hrow, rfl⟩

theorem transition_leaves {now : Time} {target : RuntimeStatus} {lastError : Option String}
    (hs : Unpromoted start s.db) (htarget : target ≠ .ready) :
    Leaves (Unpromoted start) (fun _ db => HasStatus target db ∧
        (Sound r.config s.db → Sound r.config db)) (transition now target lastError) s := by
  have hok : ∀ u s', transition now target lastError s = (.ok u, s') →
      HasStatus target s'.db ∧ (Sound r.config s.db → Sound r.config s'.db) := by
    intro u s' h
    obtain ⟨row, updated, _, hstatus, _, hdb⟩ := transition_ok h
    rw [hdb]
    exact ⟨⟨updated, rfl, hstatus⟩, fun hsound => hsound.of_runtime _ _ s.db.snapshots s.db.nextId⟩
  refine ⟨?_, hok⟩
  refine scope_keeps hs fun u s' h hready => ?_
  exact absurd ((hok u s' (scope_eq_ok.mpr h)).1.unique hready) htarget

theorem buildResult_leaves {config : PaperTradingConfig} {status : RuntimeStatus}
    {issues : List ConsistencyIssue} {repairs : List Repair}
    (hjustified : Justified start config marketDataReady s.db) (hstored : HasStatus status s.db)
    (hready : status = .ready → marketDataReady = true ∧ Sound config s.db)
    (hstatus : status = .ready ∨ status = .degraded ∨ status = .failed) :
    Leaves (Justified start config marketDataReady) (Settled config marketDataReady)
      (buildResult status issues repairs) s := by
  refine (getState_leaves hjustified).bind fun row t ht h => leaves_pure ht ?_
  rw [h.2]
  exact ⟨hstored, hready, hstatus⟩

theorem degrade_leaves {now : Time} {error : String} {issues : List ConsistencyIssue}
    {repairs : List Repair} (hs : Unpromoted start s.db) :
    Leaves (Justified start r.config marketDataReady) (Settled r.config marketDataReady) (do
      let _ ← transition now .degraded (some error)
      buildResult .degraded issues repairs) s := by
  refine (transition_leaves (r := r) hs ?_).bind_mono (fun _ => Unpromoted.justified) fun _ t ht h => ?_
  · decide
  · exact buildResult_leaves ht.justified h.1 (fun hready => by cases hready) (.inr (.inl rfl))

theorem fail_leaves {code : IssueCode} {issues : List ConsistencyIssue} {repairs : List Repair}
    (hs : Unpromoted start s.db) :
    Leaves (Justified start r.config marketDataReady) (Settled r.config marketDataReady) (do
      r.failRecovery code
      buildResult .failed issues repairs) s := by
  have hfail : Leaves (Unpromoted start) (fun _ db => HasStatus .failed db) (r.failRecovery code) s := by
    refine (transition_leaves (r := r) hs ?_).bind fun _ t ht h => ?_
    · decide
    · have hrest : ∀ inv : Db → Prop, Keeps inv (do
          let _ ← getState
          scope (flush .databaseError)) :=
        fun inv => keeps_bind keeps_getState fun _ => Keeps.scope (keeps_flush _)
      exact ⟨hrest _ t ht, fun _ _ hrun => (hrest _).of_ok h.1 hrun⟩
  refine hfail.bind_mono (fun _ => Unpromoted.justified) fun _ t ht h => ?_
  exact buildResult_leaves ht.justified h (fun hready => by cases hready) (.inr (.inr rfl))

theorem checkAndRepair_leaves {p : Db → Prop} (hp : OfStatus p) (hs : p s.db) :
    Leaves p (fun checked db => firstOf .fatal checked.1 = none →
      firstOf .manual checked.1 = none → Sound r.config db) r.checkAndRepair s :=
  ⟨keeps_checkAndRepair hp r s hs, fun _ _ h hfatal hmanual => checkAndRepair_sound h hfatal hmanual⟩

theorem promote_leaves {issues : List ConsistencyIssue} {repairs : List Repair}
    (hs : Unpromoted start s.db) (hmarket : marketDataReady = true) (hsound : Sound r.config s.db) :
    Leaves (Justified start r.config marketDataReady) (Settled r.config marketDataReady) (do
      let _ ← transition (r.now .outcome) .ready (some "")
      let _ ← captureSnapshot (r.now .snapshot) "recovery"
      buildResult .ready issues repairs) s := by
  have hready : Leaves (Justified start r.config marketDataReady)
      (fun _ db => HasStatus .ready db ∧ Sound r.config db)
      (transition (r.now .outcome) .ready (some "")) s := by
    have hok : ∀ u s', transition (r.now .outcome) .ready (some "") s = (.ok u, s') →
        HasStatus .ready s'.db ∧ Sound r.config s'.db := by
      intro u s' h
      obtain ⟨row, updated, _, hstatus, _, hdb⟩ := transition_ok h
      rw [hdb]
      exact ⟨⟨updated, rfl, hstatus⟩, hsound.of_runtime _ _ s.db.snapshots s.db.nextId⟩
    refine ⟨scope_keeps hs.justified fun u s' h _ => .inr ⟨hmarket, ?_⟩, hok⟩
    exact (hok u s' (scope_eq_ok.mpr h)).2
  refine hready.bind fun _ t _ ht => ?_
  have hsnapshot : Leaves (Justified start r.config marketDataReady)
      (fun _ db => HasStatus .ready db ∧ Sound r.config db)
      (captureSnapshot (r.now .snapshot) "recovery") t := by
    have hkeeps : Keeps (fun db => HasStatus .ready db ∧ Sound r.config db)
        (captureSnapshot (r.now .snapshot) "recovery") := by
      refine captureSnapshot_keeps ?_ _ _
      rintro db db' ⟨snapshots, nextId, rfl⟩ ⟨hstatus, hdb⟩
      exact ⟨hstatus, hdb.of_runtime db.runtimeState db.statusChanges snapshots nextId⟩
    exact ⟨fun _ => .inr ⟨hmarket, (hkeeps t ht).2⟩, fun _ _ hrun => hkeeps.of_ok ht hrun⟩
  refine hsnapshot.bind fun _ t' ht' h => ?_
  exact buildResult_leaves ht' h.1 (fun _ => ⟨hmarket, h.2⟩) (.inl rfl)

theorem synchronize_leaves {issues : List ConsistencyIssue} {repairs : List Repair}
    (hs : Unpromoted start s.db) (hsound : firstOf .manual issues = none → Sound r.config s.db) :
    Leaves (Justified start r.config marketDataReady) (Settled r.config marketDataReady)
      (r.synchronize marketDataReady issues repairs) s := by
  refine (transition_leaves (r := r) hs ?_).bind_mono (fun _ => Unpromoted.justified)
    fun _ s₁ hs₁ hsync => ?_
  · decide
  · split_ifs with hmarket
    · exact degrade_leaves hs₁
    · split
      · exact degrade_leaves hs₁
      · rename_i hmanual
        exact promote_leaves hs₁ (by simpa using hmarket) (hsync.2 (hsound hmanual))

theorem recheckReady_leaves (hs : Unpromoted start s.db) (hready : HasStatus .ready s.db) :
    Leaves (Justified start r.config marketDataReady) (Settled r.config marketDataReady)
      (r.recheckReady marketDataReady) s := by
  have hboth : OfStatus fun db => Unpromoted start db ∧ HasStatus .ready db :=
    fun db db' hstatus hchanges h => ⟨ofStatus_unpromoted start db db' hstatus hchanges h.1,
      ofStatus_hasStatus .ready db db' hstatus hchanges h.2⟩
  refine (checkAndRepair_leaves hboth ⟨hs, hready⟩).bind_mono (fun _ h => h.1.justified)
    fun checked t ht hsound => ?_
  obtain ⟨issues, repairs⟩ := checked
  dsimp only at hsound ⊢
  split
  · exact fail_leaves ht.1
  · exact degrade_leaves ht.1
  · rename_i hfatal hmanual
    split_ifs with hmarket
    · exact degrade_leaves ht.1
    · have hmarket : marketDataReady = true := by simpa using hmarket
      exact buildResult_leaves ht.1.justified ht.2 (fun _ => ⟨hmarket, hsound hfatal hmanual⟩) (.inl rfl)

theorem recover_leaves (hs : Unpromoted start s.db) (status : RuntimeStatus) :
    Leaves (Justified start r.config marketDataReady) (Settled r.config marketDataReady)
      (r.recover status marketDataReady) s := by
  have hrest : ∀ t : Session Db, Unpromoted start t.db →
      Leaves (Justified start r.config marketDataReady) (Settled r.config marketDataReady)
        (r.recover .recovering marketDataReady) t := by
    intro t ht
    unfold recover
    rw [if_neg (by decide)]
    refine (transition_leaves (r := r) ht ?_).bind_mono (fun _ => Unpromoted.justified) fun _ t ht _ => ?_
    · decide
    · refine ((keeps_ofExcept _).leaves ht).bind_mono (fun _ => Unpromoted.justified) fun atHead t ht _ => ?_
      split_ifs
      · exact fail_leaves ht
      · refine (checkAndRepair_leaves (ofStatus_unpromoted start) ht).bind_mono
          (fun _ => Unpromoted.justified) fun checked t ht hsound => ?_
        obtain ⟨issues, repairs⟩ := checked
        dsimp only at hsound ⊢
        split
        · exact fail_leaves ht
        · rename_i hfatal
          exact synchronize_leaves ht (hsound hfatal)
  unfold recover
  split_ifs
  · refine (transition_leaves (r := r) hs ?_).bind_mono (fun _ => Unpromoted.justified) fun _ t ht _ => ?_
    · decide
    · exact hrest t ht
  · exact hrest s hs

theorem recoverOnStartup_leaves :
    Leaves (Justified (s.db.runtimeState.map (·.status)) r.config marketDataReady)
      (Settled r.config marketDataReady) (r.recoverOnStartup marketDataReady) s := by
  have hs : Unpromoted (s.db.runtimeState.map (·.status)) s.db := by
    rintro ⟨row, hrow, hready⟩
    simp [hrow, hready]
  unfold recoverOnStartup
  split_ifs
  · exact leaves_raise hs.justified
  · exact leaves_raise hs.justified
  · refine ((Keeps.scope (keeps_flush _)).leaves hs).bind_mono (fun _ => Unpromoted.justified)
      fun _ t ht _ => ?_
    refine (getState_leaves ht).bind_mono (fun _ => Unpromoted.justified) fun row t ht hrow => ?_
    split_ifs with hready
    · exact recheckReady_leaves ht ⟨row, hrow.1, hready⟩
    · exact recover_leaves ht _

/-- However a recovery ends, the runtime is ready only if market data is, the checks made after the
repairs find nothing fatal or manual and the accounting has no mismatch; a runtime that was ready before
may also stay so when the recovery raises. Every change of the status on the way is allowed. -/
theorem recovery_ready_sound (r : RecoveryService) (marketDataReady : Bool) (s : Session Db) :
    (∀ result s', r.recoverOnStartup marketDataReady s = (.ok result, s') →
      Settled r.config marketDataReady result s'.db) ∧
    (∀ e s', r.recoverOnStartup marketDataReady s = (.error e, s') → HasStatus .ready s'.db →
      HasStatus .ready s.db ∨ (marketDataReady = true ∧ Sound r.config s'.db)) ∧
    ∀ row, s.db.runtimeState = some row →
      Pathed row.status s.db.statusChanges (r.recoverOnStartup marketDataReady s).2.db := by
  obtain ⟨hjustified, hsettled⟩ := recoverOnStartup_leaves (r := r) (s := s)
  refine ⟨hsettled, fun e s' h hready => ?_, fun row hrow => ?_⟩
  · rw [h] at hjustified
    refine (hjustified hready).imp_left fun hstart => ?_
    exact Option.map_eq_some_iff.mp hstart
  · exact keeps_recoverOnStartup r marketDataReady s ⟨row, [], hrow, (List.append_nil _).symm, rfl⟩

def stoppedDb : Db :=
  { runtimeState := some { status := .stopped, heartbeatAt := 0 }
    wallet := some { cash := 100000 } }

def morningRecovery : RecoveryService := { config := .defaults, now := fun _ => 5 * second }

theorem recovery_of_stopped :
    ((morningRecovery.recoverOnStartup true ⟨stoppedDb, []⟩).1.map (·.finalStatus)).toOption = some .ready ∧
    (∀ result s', morningRecovery.recoverOnStartup true ⟨stoppedDb, []⟩ = (.ok result, s') →
      Settled {} true result s'.db) ∧
    Pathed .stopped [] (morningRecovery.recoverOnStartup true ⟨stoppedDb, []⟩).2.db :=
  have h := recovery_ready_sound morningRecovery true ⟨stoppedDb, []⟩
  ⟨by decide +kernel, h.1, h.2.2 _ rfl⟩

end Ready

end TradingBot.Paper.RecoverySoundness
