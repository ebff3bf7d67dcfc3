import TradingBot.Research.GateEvaluator
import TradingBot.Research.JobStore

namespace TradingBot.Research.JobRegistry

open Market.Models Library.Dictionary Library.Trace Research.Artifacts Research.Registry Research.JobStore
open Research.GateEvaluator (reprText)
open Research.Robustness (errorText)
open Library.Outcome (except_bind_eq_ok)

/-- The fields that only the job of an experiment has. -/
structure RunFields where
  runId : Option String := none
  attemptId : Option String := none
  datasetCatalogId : Option String := none
  name : Option String := none
deriving DecidableEq, Repr

abbrev ResearchJob := Job RunFields

structure RunOutcome where
  experimentId : String
  runId : String
  attemptId : String
  artifactPath : Option RelPath
  status : String
  error : Option String := none
deriving DecidableEq, Repr

/-- What the worker has in hand when it finishes: the outcome of its run, or an exception. -/
inductive Work
  | outcome (outcome : RunOutcome)
  | raised (message detail : String)
deriving DecidableEq, Repr

/-- The run that a job is about, if it came to one. -/
def Work.run : Work → Option String
  | .outcome o => some o.runId
  | .raised _ _ => none

/-- The files of the runs, and what the worker of a job goes by. -/
structure Context where
  sha256 : Content → String
  artifacts : ArtifactStore
  limits : StaleLimits := {}
  workerId : String
  leaseId : String
  leaseSeconds : ℤ
  strategyVersion : String
  datasetId : String
  benchmark : String

def errorRepr : ResearchError → String
  | .valueError message => "ValueError(" ++ reprText message ++ ")"
  | .keyError message => "KeyError(" ++ reprText message ++ ")"
  | .fileNotFoundError message => "FileNotFoundError(" ++ reprText message ++ ")"
  | .fileExistsError message => "FileExistsError(" ++ reprText message ++ ")"

section Model

variable (ctx : Context)

/-- The registration that `_finish` makes from the files of the run. -/
def registration (outcome : RunOutcome) (path : RelPath) (createdAt : String) : Except ResearchError Registration := do
  let tree := (ctx.artifacts.get? path).getD {}
  let costModelVersion ← ExperimentRegistry.readCostModelVersion tree
  let checksums ← loadChecksums tree
  pure
    { experimentId := outcome.experimentId, runId := outcome.runId, attemptId := outcome.attemptId
      strategyVersion := ctx.strategyVersion, datasetVersion := ctx.datasetId, costModelVersion
      benchmarkRef := ctx.benchmark, createdAt, artifactPath := path, checksums }

def finishOutcome (registry : ExperimentRegistry) (now : Time) (createdAt : String) (outcome : RunOutcome)
    (job : ResearchJob) : Except ResearchError (ExperimentRegistry × ResearchJob) :=
  let ended : ResearchJob :=
    { job with
      details := { job.details with runId := some outcome.runId, attemptId := some outcome.attemptId }
      updatedAt := now, finishedAt := some now }
  match outcome.artifactPath.filter fun _ => outcome.status = "complete" with
  | some path => do
    let r ← registration ctx outcome path createdAt
    let registry' ← registry.registerComplete ctx.sha256 ctx.artifacts r
    pure (registry', { ended with status := .completed, error := none, errorDetail := none })
  | none =>
    .ok (registry, { ended with
      status := .failed, error := some ((outcome.error.filter (· ≠ "")).getD ("Run status: " ++ outcome.status))
      errorDetail := outcome.error })

/-- How far the worker is. From `holding` to its write it is inside `finish` and has both locks of the job. -/
inductive Phase
  | claiming (work : Work)
  | pending (work : Work)
  | holding (work : Work) (job : ResearchJob)
  | writing (job : ResearchJob)
  | ended

def Phase.inFinish : Phase → Bool
  | .holding _ _ | .writing _ => true
  | _ => false

/-- The job file, the registry, the worker, and the jobs that the watchdogs of other processes are about to write. -/
structure State (P : Type) where
  now : Time
  job : Read RunFields
  registry : ExperimentRegistry
  worker : Phase
  watchdogs : P → Option ResearchJob := fun _ => none

/-- A step of the worker, a crash of its process, a heartbeat, or a recovery by any process. The watchdog takes no file
lock; its write is a step of its own. -/
inductive Event (P : Type)
  | tick (elapsed : ℕ)
  | claim
  | renew
  | enterFinish
  | mutate (createdAt : String)
  | write
  | crash
  | recoverOrphans
  | watch (p : P) (thread : WorkerThread)
  | watchWrite (p : P)

def written (job : Read RunFields) : Decision RunFields → Read RunFields
  | .write job' => some job'
  | _ => job

variable {P : Type} [DecidableEq P]

def step (s : State P) : Event P → Option (State P)
  | .tick elapsed => some { s with now := s.now + elapsed }
  | .claim =>
    match s.worker with
    | .claiming work =>
      match JobStore.claim s.now ctx.workerId ctx.leaseId ctx.leaseSeconds s.job with
      | .write job => some { s with job := some job, worker := .pending work }
      | _ => some { s with worker := .ended }
    | _ => none
  | .renew =>
    match s.worker with
    | .pending _ =>
      some { s with job := written s.job (renewLease s.now ctx.workerId ctx.leaseId ctx.leaseSeconds s.job) }
    | _ => none
  | .enterFinish =>
    match s.worker with
    | .pending work =>
      match finish s.now ctx.workerId ctx.leaseId .ok s.job with
      | .write job => some { s with worker := .holding work job }
      | _ => some { s with worker := .ended }
    | _ => none
  | .mutate createdAt =>
    match s.worker with
    | .holding (.outcome outcome) job =>
      match finishOutcome ctx s.registry s.now createdAt outcome job with
      | .ok (registry, job) => some { s with registry, worker := .writing job }
      | .error (.keyError _) => some { s with worker := .ended }
      | .error e => some { s with worker := .pending (.raised (errorText e) (errorRepr e)) }
    | .holding (.raised message detail) job => some { s with worker := .writing (job.fail s.now message detail) }
    | _ => none
  | .write =>
    match s.worker with
    | .writing job => some { s with job := some job, worker := .ended }
    | _ => none
  | .crash => some { s with worker := .ended }
  | .recoverOrphans =>
    if s.worker.inFinish then none else some { s with job := written s.job (recoverOrphan researchJobs s.now s.job) }
  | .watch p thread =>
    match s.watchdogs p, markStaleIfNeeded researchJobs ctx.limits s.now thread s.job with
    | none, .write job => some { s with watchdogs := Function.update s.watchdogs p (some job) }
    | _, _ => none
  | .watchWrite p =>
    match s.watchdogs p with
    | some job => some { s with job := some job, watchdogs := Function.update s.watchdogs p none }
    | none => none

def start (P : Type) (now : Time) (job : ResearchJob) (registry : ExperimentRegistry) (work : Work) : State P where
  now := now
  job := some { job with status := .queued }
  registry := registry
  worker := .claiming work

end Model

section Agreement

variable {P : Type}

def RegisteredComplete (registry : ExperimentRegistry) (run : Option String) : Prop :=
  ∃ e ∈ registry.listEntries, run = some e.runId ∧ e.status = .complete

def Completed (job : Read RunFields) : Prop := ∃ j, job = some j ∧ j.status = .completed

def Agrees (run : Option String) (s : State P) : Prop :=
  s.worker.inFinish = false → (Completed s.job ↔ RegisteredComplete s.registry run)

def Clean (s : State P) : Event P → Prop
  | .crash => ∀ job, s.worker = .writing job → job.status ≠ .completed
  | .watchWrite _ => ¬ Completed s.job
  | _ => True

def PhaseInv (run : Option String) (completed registered : Prop) : Phase → Prop
  | .claiming work | .pending work => (work.run = run ∨ work.run = none) ∧ ¬ completed ∧ ¬ registered
  | .holding work job =>
    (work.run = run ∨ work.run = none) ∧ ¬ completed ∧ ¬ registered ∧ job.status ≠ .completed
  | .writing job => ¬ completed ∧ (job.status = .completed ↔ registered)
  | .ended => completed ↔ registered

structure Inv (run : Option String) (s : State P) : Prop where
  phase : PhaseInv run (Completed s.job) (RegisteredComplete s.registry run) s.worker
  watchdogs : ∀ p job, s.watchdogs p = some job → job.status = .failed

variable {ctx : Context} {run : Option String} {s s' : State P} {e : Event P} {job : ResearchJob}
  {file : Read RunFields} {registry registry' : ExperimentRegistry} {now : Time} {createdAt : String}
  {outcome : RunOutcome}

theorem completed_some : Completed (some job) ↔ job.status = .completed := by
  unfold Completed
  constructor
  · rintro ⟨j, hj, hstatus⟩
    cases hj
    exact hstatus
  · exact fun h => ⟨job, rfl, h⟩

theorem completed_written {decision : Decision RunFields} (h : ∀ job, decision = .write job →
    ¬ Completed file ∧ job.status ≠ .completed) : Completed (written file decision) ↔ Completed file := by
  cases decision with
  | write job =>
    obtain ⟨hfile, hjob⟩ := h job rfl
    rw [written, completed_some]
    exact ⟨fun hc => absurd hc hjob, fun hc => absurd hc hfile⟩
  | done => rfl
  | raise error => rfl
  | recheck => rfl

theorem claim_write {workerId leaseId : String} {leaseSeconds : ℤ}
    (h : claim now workerId leaseId leaseSeconds file = .write job) : job.status ≠ .completed := by
  cases file with
  | none => cases h
  | some current =>
    simp only [claim] at h
    split_ifs at h
    cases h
    exact JobStatus.noConfusion

theorem renewLease_write {workerId leaseId : String} {leaseSeconds : ℤ}
    (h : renewLease now workerId leaseId leaseSeconds file = .write job) :
    ¬ Completed file ∧ job.status ≠ .completed := by
  cases file with
  | none => cases h
  | some current =>
    simp only [renewLease] at h
    split_ifs at h with howner
    cases h
    simp only [not_or, ne_eq, not_not] at howner
    rw [completed_some, howner.1]
    exact ⟨JobStatus.noConfusion, JobStatus.noConfusion⟩

theorem recoverOrphan_write (h : recoverOrphan researchJobs now file = .write job) :
    ¬ Completed file ∧ job.status ≠ .completed := by
  cases file with
  | none => cases h
  | some current =>
    simp only [recoverOrphan] at h
    split_ifs at h with hleft hqueued howner
    · cases h
      rw [completed_some, hqueued]
      exact ⟨JobStatus.noConfusion, JobStatus.noConfusion⟩
    · cases h
      simp only [not_or, Bool.not_eq_true, Bool.not_eq_false'] at hleft
      refine ⟨fun hc => ?_, JobStatus.noConfusion⟩
      rw [completed_some.mp hc] at hleft
      cases hleft.1

theorem markStale_write {limits : StaleLimits} {thread : WorkerThread}
    (h : markStaleIfNeeded researchJobs limits now thread file = .write job) : job.status = .failed := by
  cases file with
  | none => cases h
  | some current =>
    simp only [markStaleIfNeeded] at h
    split_ifs at h
    cases hstale : staleJob researchJobs limits now thread current with
    | none =>
      rw [hstale] at h
      cases h
    | some failed =>
      rw [hstale] at h
      cases h
      simp only [staleJob] at hstale
      split_ifs at hstale <;> cases hstale <;> rfl

theorem finish_write {workerId leaseId : String} (h : finish now workerId leaseId .ok file = .write job) :
    job.status ≠ .completed := by
  cases file with
  | none => cases h
  | some current =>
    simp only [finish] at h
    split_ifs at h with hterminal
    cases h
    intro hstatus
    rw [hstatus] at hterminal
    exact hterminal rfl

theorem registeredComplete_of_ok {r : Registration} {sha256 : Content → String} {artifacts : ArtifactStore}
    (h : registry.registerComplete sha256 artifacts r = .ok registry') :
    RegisteredComplete registry' (some r.runId) := by
  obtain ⟨hmarked, rfl⟩ := ExperimentRegistry.registerComplete_ok h
  refine ⟨_, List.mem_map_of_mem (List.mem_append_right _ (List.mem_singleton_self _)), ?_, ?_⟩
  · rw [ExperimentRegistry.applySidecar_runId]
  · unfold ExperimentRegistry.applySidecar Library.OverlayLog.overlay
    rw [ExperimentRegistry.runMarked_eq]
    change (if (registry.sidecars r.runId).isSome = true then _ else _ : RegistryEntry).status = _
    rw [hmarked]
    rfl

theorem registration_runId {r : Registration} {path : RelPath} (h : registration ctx outcome path createdAt = .ok r) :
    r.runId = outcome.runId := by
  obtain ⟨_, -, h⟩ := except_bind_eq_ok.mp h
  obtain ⟨_, -, h⟩ := except_bind_eq_ok.mp h
  cases h
  rfl

theorem finishOutcome_ok {job' : ResearchJob} (hregistry : ¬ RegisteredComplete registry (some outcome.runId))
    (h : finishOutcome ctx registry now createdAt outcome job = .ok (registry', job')) :
    job'.status = .completed ↔ RegisteredComplete registry' (some outcome.runId) := by
  unfold finishOutcome at h
  split at h
  · obtain ⟨r, hr, h⟩ := except_bind_eq_ok.mp h
    obtain ⟨registered, hregistered, h⟩ := except_bind_eq_ok.mp h
    cases h
    have hcomplete := registeredComplete_of_ok hregistered
    rw [registration_runId hr] at hcomplete
    exact ⟨fun _ => hcomplete, fun _ => rfl⟩
  · cases h
    exact ⟨fun hstatus => (JobStatus.noConfusion hstatus), fun hr => absurd hr hregistry⟩

theorem Inv.setJob (h : Inv run s) (hfile : Completed file ↔ Completed s.job) : Inv run { s with job := file } := by
  refine ⟨?_, h.watchdogs⟩
  have hphase := h.phase
  unfold PhaseInv at hphase ⊢
  rw [hfile]
  exact hphase

theorem inv_start {work : Work} (hregistry : ¬ RegisteredComplete registry work.run) :
    Inv work.run (start P now job registry work) := by
  refine ⟨⟨.inl rfl, ?_, hregistry⟩, fun p job hp => nomatch hp⟩
  rw [start, completed_some]
  exact JobStatus.noConfusion

theorem inv_agrees (h : Inv run s) : Agrees run s := by
  intro hphase
  have hinv := h.phase
  cases hworker : s.worker with
  | claiming work =>
    rw [hworker] at hinv
    exact iff_of_false hinv.2.1 hinv.2.2
  | pending work =>
    rw [hworker] at hinv
    exact iff_of_false hinv.2.1 hinv.2.2
  | holding work job =>
    rw [hworker] at hphase
    cases hphase
  | writing job =>
    rw [hworker] at hphase
    cases hphase
  | ended =>
    rw [hworker] at hinv
    exact hinv

theorem Inv.setEnded (h : Inv run s) (hagrees : Completed s.job ↔ RegisteredComplete s.registry run) :
    Inv run { s with worker := .ended } := ⟨hagrees, h.watchdogs⟩

variable [DecidableEq P]

theorem inv_claim (h : Inv run s) (hstep : step ctx s .claim = some s') : Inv run s' := by
  have hinv := h.phase
  simp only [step] at hstep
  split at hstep
  · next work hworker =>
    rw [hworker] at hinv
    split at hstep
    · next job hclaim =>
      cases hstep
      exact ⟨⟨hinv.1, fun hc => claim_write hclaim (completed_some.mp hc), hinv.2.2⟩, h.watchdogs⟩
    · cases hstep
      exact h.setEnded (iff_of_false hinv.2.1 hinv.2.2)
  · cases hstep

theorem inv_enterFinish (h : Inv run s) (hstep : step ctx s .enterFinish = some s') : Inv run s' := by
  have hinv := h.phase
  simp only [step] at hstep
  split at hstep
  · next work hworker =>
    rw [hworker] at hinv
    split at hstep
    · next job hfinish =>
      cases hstep
      exact ⟨⟨hinv.1, hinv.2.1, hinv.2.2, finish_write hfinish⟩, h.watchdogs⟩
    · cases hstep
      exact h.setEnded (iff_of_false hinv.2.1 hinv.2.2)
  · cases hstep

theorem inv_mutate (h : Inv run s) (hstep : step ctx s (.mutate createdAt) = some s') : Inv run s' := by
  have hinv := h.phase
  simp only [step] at hstep
  split at hstep
  · next outcome job hworker =>
    rw [hworker] at hinv
    obtain ⟨hrun, hcompleted, hregistered, -⟩ := hinv
    have hid : run = some outcome.runId := by
      rcases hrun with hrun | hrun
      · exact hrun.symm
      · cases hrun
    split at hstep
    · next registry' job' hmutation =>
      cases hstep
      subst hid
      exact ⟨⟨hcompleted, finishOutcome_ok hregistered hmutation⟩, h.watchdogs⟩
    · cases hstep
      exact h.setEnded (iff_of_false hcompleted hregistered)
    · cases hstep
      exact ⟨⟨.inr rfl, hcompleted, hregistered⟩, h.watchdogs⟩
  · next message detail job hworker =>
    cases hstep
    rw [hworker] at hinv
    obtain ⟨-, hcompleted, hregistered, -⟩ := hinv
    exact ⟨⟨hcompleted, iff_of_false JobStatus.noConfusion hregistered⟩, h.watchdogs⟩
  · cases hstep

theorem inv_step (h : Inv run s) (hclean : Clean s e) (hstep : step ctx s e = some s') : Inv run s' := by
  have hinv := h.phase
  cases e with
  | tick elapsed =>
    cases hstep
    exact ⟨h.phase, h.watchdogs⟩
  | claim => exact inv_claim h hstep
  | renew =>
    simp only [step] at hstep
    split at hstep <;> cases hstep
    exact h.setJob (completed_written fun _ => renewLease_write)
  | enterFinish => exact inv_enterFinish h hstep
  | mutate createdAt => exact inv_mutate h hstep
  | write =>
    simp only [step] at hstep
    split at hstep
    · next job hworker =>
      cases hstep
      rw [hworker] at hinv
      exact ⟨completed_some.trans hinv.2, h.watchdogs⟩
    · cases hstep
  | crash =>
    cases hstep
    cases hworker : s.worker with
    | claiming work =>
      rw [hworker] at hinv
      exact h.setEnded (iff_of_false hinv.2.1 hinv.2.2)
    | pending work =>
      rw [hworker] at hinv
      exact h.setEnded (iff_of_false hinv.2.1 hinv.2.2)
    | holding work job =>
      rw [hworker] at hinv
      exact h.setEnded (iff_of_false hinv.2.1 hinv.2.2.1)
    | writing job =>
      rw [hworker] at hinv
      exact h.setEnded (iff_of_false hinv.1 fun hr => hclean job hworker (hinv.2.mpr hr))
    | ended =>
      rw [hworker] at hinv
      exact h.setEnded hinv
  | recoverOrphans =>
    simp only [step] at hstep
    split_ifs at hstep
    cases hstep
    exact h.setJob (completed_written fun _ => recoverOrphan_write)
  | watch p thread =>
    simp only [step] at hstep
    split at hstep
    · next job _ hwatch =>
      cases hstep
      refine ⟨h.phase, fun q job' hq => ?_⟩
      simp only [Function.update_apply] at hq
      split_ifs at hq
      · cases hq
        exact markStale_write hwatch
      · exact h.watchdogs q job' hq
    · cases hstep
  | watchWrite p =>
    simp only [step] at hstep
    split at hstep
    · next job hp =>
      cases hstep
      have hfailed : ¬ Completed (some job) := by
        rw [completed_some, h.watchdogs p job hp]
        exact JobStatus.noConfusion
      have hset := h.setJob (iff_of_false hfailed hclean)
      refine ⟨hset.phase, fun q job' hq => ?_⟩
      simp only [Function.update_apply] at hq
      split_ifs at hq
      exact h.watchdogs q job' hq
    · cases hstep

theorem not_agrees_of_defect (h : Inv run s) (hdefect : ¬ Clean s e) (hstep : step ctx s e = some s') :
    ¬ Agrees run s' := by
  have hinv := h.phase
  cases e with
  | crash =>
    simp only [Clean, not_forall, not_not] at hdefect
    obtain ⟨job, hworker, hcompleted⟩ := hdefect
    cases hstep
    rw [hworker] at hinv
    exact fun hagrees => hinv.1 ((hagrees rfl).mpr (hinv.2.mp hcompleted))
  | watchWrite p =>
    simp only [Clean, not_not] at hdefect
    simp only [step] at hstep
    split at hstep
    · next job hp =>
      cases hstep
      cases hworker : s.worker with
      | ended =>
        rw [hworker] at hinv
        intro hagrees
        have hcompleted := (hagrees rfl).mpr (hinv.mp hdefect)
        rw [completed_some, h.watchdogs p job hp] at hcompleted
        cases hcompleted
      | claiming work =>
        rw [hworker] at hinv
        exact absurd hdefect hinv.2.1
      | pending work =>
        rw [hworker] at hinv
        exact absurd hdefect hinv.2.1
      | holding work job =>
        rw [hworker] at hinv
        exact absurd hdefect hinv.2.1
      | writing job =>
        rw [hworker] at hinv
        exact absurd hdefect hinv.1
    · cases hstep
  | tick elapsed => exact absurd trivial hdefect
  | claim => exact absurd trivial hdefect
  | renew => exact absurd trivial hdefect
  | enterFinish => exact absurd trivial hdefect
  | mutate createdAt => exact absurd trivial hdefect
  | write => exact absurd trivial hdefect
  | recoverOrphans => exact absurd trivial hdefect
  | watch p thread => exact absurd trivial hdefect

/-- Job and registry agree on the whole way of a run exactly if the run was not registered before, its worker does not
crash between the registration and the write of the job, and no watchdog writes over the completed job. -/
theorem job_registry_agree_iff (ctx : Context) (now : Time) (job : ResearchJob) (registry : ExperimentRegistry)
    (work : Work) (events : List (Event P)) :
    (∀ t, Reached (step ctx) (start P now job registry work) events t → Agrees work.run t) ↔
      ¬ RegisteredComplete registry work.run ∧
        ∀ t e u, Taken (step ctx) (start P now job registry work) events t e u → Clean t e := by
  have hiff (hregistry : ¬ RegisteredComplete registry work.run) :
      (∀ t e u, Taken (step ctx) (start P now job registry work) events t e u → Clean t e) ↔
        ∀ t, Reached (step ctx) (start P now job registry work) events t → Agrees work.run t :=
    forall_taken_iff_forall_reached (inv_start hregistry) (fun _ _ _ => inv_step) (fun _ => inv_agrees)
      fun _ _ _ => not_agrees_of_defect
  constructor
  · intro h
    have hregistry : ¬ RegisteredComplete registry work.run := by
      intro hregistered
      have hcompleted := (h _ reached_start rfl).mpr hregistered
      rw [start, completed_some] at hcompleted
      cases hcompleted
    exact ⟨hregistry, (hiff hregistry).mpr h⟩
  · exact fun h => (hiff h.1).mp h.2

section Sample

def sampleTree : Tree := Dict.set {} checksumsJson (.checksums {})

def sampleContext : Context where
  sha256 _ := "digest"
  artifacts := Dict.set {} ["exp-1", "run-1"] sampleTree
  workerId := "worker"
  leaseId := "lease"
  leaseSeconds := 45
  strategyVersion := "1.0"
  datasetId := "btc"
  benchmark := "buy_and_hold"

def sampleJob : ResearchJob where
  status := .queued
  createdAt := 0
  updatedAt := 0
  details := {}

def sampleOutcome : RunOutcome where
  experimentId := "exp-1"
  runId := "run-1"
  attemptId := "attempt-1"
  artifactPath := some ["exp-1", "run-1"]
  status := "complete"

def crashed : List (Event Unit) :=
  [.claim, .enterFinish, .mutate "2024-05-01T00:00:00Z", .crash, .tick 45000000, .recoverOrphans]

/-- The job ends failed, and its run is registered as complete. -/
theorem crashed_job_fails_registered_run : ∃ t,
    Reached (step sampleContext) (start Unit 0 sampleJob {} (.outcome sampleOutcome)) crashed t ∧
      t.worker.inFinish = false ∧ t.job.map (·.status) = some .failed ∧
      RegisteredComplete t.registry (Work.outcome sampleOutcome).run ∧
      ¬ Agrees (Work.outcome sampleOutcome).run t := by
  refine ⟨_, ⟨crashed, List.prefix_rfl, rfl⟩, rfl, rfl, ?_, ?_⟩
  · exact ⟨_, List.mem_singleton_self _, rfl, rfl⟩
  · intro hagrees
    obtain ⟨job, hjob, hstatus⟩ := (hagrees rfl).mpr ⟨_, List.mem_singleton_self _, rfl, rfl⟩
    cases hjob
    cases hstatus

end Sample

end Agreement

end TradingBot.Research.JobRegistry
