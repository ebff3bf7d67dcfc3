import TradingBot.Library.ReadModifyWrite
import TradingBot.Market.Models

namespace TradingBot.Research.JobStore

open Market.Models

inductive JobStatus
  | created | queued | running | completed | failed
deriving DecidableEq, Repr

def JobStatus.value : JobStatus → String
  | .created => "created"
  | .queued => "queued"
  | .running => "running"
  | .completed => "completed"
  | .failed => "failed"

/-- `TerminalStatus`. -/
def JobStatus.isTerminal : JobStatus → Bool
  | .completed | .failed => true
  | _ => false

/-- The statuses that `mark_stale_if_needed` and `recover_orphans` look at. -/
def JobStatus.isPending : JobStatus → Bool
  | .queued | .running => true
  | _ => false

/-- The content of a job file; `details` are the fields that only one kind of job has. -/
structure Job (α : Type) where
  status : JobStatus
  createdAt : Time
  updatedAt : Time
  startedAt : Option Time := none
  finishedAt : Option Time := none
  error : Option String := none
  errorDetail : Option String := none
  workerId : Option String := none
  leaseId : Option String := none
  leaseExpiresAt : Option Time := none
  details : α
deriving DecidableEq, Repr

inductive JobError
  | transition (message : String) (currentStatus : Option JobStatus)
  | keyError
  | writeError (message field reason : String)
  | raised (message : String)
deriving DecidableEq, Repr

/-- What the experiments and the robustness suites do not share: their texts, and whether a queued job loses the
owner it had. -/
structure JobFamily where
  leaseExpired : String
  leaseExpiredDetail : String
  queuedStale : String
  runningStale : String
  staleDetail : String
  orphaned : String
  orphanedDetail : String
  unrunnableDetail : String → String
  alreadyRunning : String
  idField : String
  queuedClearsOwner : Bool

def researchJobs : JobFamily where
  leaseExpired := "Research-Lauf unterbrochen (Ownership-Lease abgelaufen; kein Wiederaufnahme möglich)."
  leaseExpiredDetail := "V1 limitation: research jobs do not resume mid-run once their ownership lease expires " ++
    "(Issue #245 fail-closed contract). Create a new experiment run instead."
  queuedStale := "Research-Lauf blieb in queued hängen (Prozessneustart vor Worker-Start)."
  runningStale := "Research-Lauf unterbrochen (Prozessneustart oder Worker verloren)."
  staleDetail := "V1 limitation: in-process research jobs do not resume after restart. " ++
    "Create a new experiment (new semantic Spec) or use the CLI; explicit Retry/Re-run is not supported yet."
  orphaned :=
    "Research-Lauf durch Prozessneustart unterbrochen (verwaister Job, Lease abgelaufen oder fehlend)."
  orphanedDetail := "V1 limitation: running jobs do not resume mid-run after a process restart. " ++
    "Fail-closed by design (Issue #245); create a new experiment run instead."
  unrunnableDetail reason := reason
  alreadyRunning := "Experiment läuft bereits"
  idField := "experiment_id"
  queuedClearsOwner := false

def robustnessJobs : JobFamily where
  leaseExpired := "Robustheitstest unterbrochen (Ownership-Lease abgelaufen; kein Wiederaufnahme möglich)."
  leaseExpiredDetail := "V1 limitation: robustness jobs do not resume mid-run once their ownership lease expires " ++
    "(Issue #245/#247 fail-closed contract). Create a new robustness test instead."
  queuedStale := "Robustheitstest blieb in queued hängen (Prozessneustart vor Worker-Start)."
  runningStale := "Robustheitstest unterbrochen (Prozessneustart oder Worker verloren)."
  staleDetail := "V1 limitation: in-process robustness jobs do not resume after restart. " ++
    "Create a new robustness test (new config) instead."
  orphaned :=
    "Robustheitstest durch Prozessneustart unterbrochen (verwaister Job, Lease abgelaufen oder fehlend)."
  orphanedDetail := "V1 limitation: running robustness jobs do not resume mid-run after a process restart. " ++
    "Fail-closed by design (Issue #245/#247); create a new robustness test instead."
  unrunnableDetail _ := "V1 limitation: orphaned queued robustness job could not be redispatched after restart."
  alreadyRunning := "Robustheitstest läuft bereits"
  idField := "robustness_id"
  queuedClearsOwner := true

/-- The ages, from the environment, from which on a job without a live lease counts as stale. -/
structure StaleLimits where
  queued : Time := 60 * second
  running : Time := 900 * second
  grace : Time := 5 * second
deriving DecidableEq, Repr

/-- The worker thread of a job in the process that looks at it. -/
inductive WorkerThread
  | absent | dead | alive
deriving DecidableEq, Repr

def leaseExpired (now : Time) : Option Time → Bool
  | none => true
  | some expires => expires ≤ now

section Operations

variable {α : Type} (family : JobFamily) (limits : StaleLimits) (now : Time)

/-- A read of the file that is not there, or is no object, gives `none`. -/
abbrev Read (α : Type) := Option (Job α)

/-- What an operation does with what it has read: it returns, it raises, it writes, or it reads again. -/
inductive Decision (α : Type)
  | done
  | raise (error : JobError)
  | write (job : Job α)
  | recheck

def Job.fail (job : Job α) (error detail : String) : Job α :=
  { job with
    status := .failed, finishedAt := some now, updatedAt := now, error := some error, errorDetail := some detail }

/-- The part of `mark_stale_if_needed` under the lock, for a job that is queued or running. -/
def staleJob (thread : WorkerThread) (current : Job α) : Option (Job α) :=
  if current.status = .running ∧ current.leaseExpiresAt.isSome then
    if leaseExpired now current.leaseExpiresAt then
      some (current.fail now family.leaseExpired family.leaseExpiredDetail)
    else none
  else if thread = .alive then none
  else if current.status = .queued then
    if now - current.updatedAt < limits.queued then none
    else some (current.fail now family.queuedStale family.staleDetail)
  else
    let age := now - current.startedAt.getD current.updatedAt
    if age < limits.grace then none
    else if age < limits.running ∧ thread ≠ .absent then none
    else some (current.fail now family.runningStale family.staleDetail)

def markStaleIfNeeded (thread : WorkerThread) : Read α → Decision α
  | none => .done
  | some current =>
    if !current.status.isPending then .done
    else
      match staleJob family limits now thread current with
      | none => .done
      | some failed => .write failed

def createdJob (existing : Read α) (details : α) : Job α where
  status := .created
  createdAt := (existing.map (·.createdAt)).getD now
  updatedAt := now
  details := details

def alreadyRunning : Decision α := .raise (.writeError family.alreadyRunning family.idField "Doppelstart verhindert")

/-- `create`, up to its watchdog: a queued or running job is read again. -/
def create (details : α) : Read α → Decision α
  | none => .write (createdJob now none details)
  | some existing =>
    if existing.status.isPending then .recheck
    else if existing.status.isTerminal then .done
    else .write (createdJob now (some existing) details)

def createChecked (details : α) (thread : WorkerThread) : Read α → Decision α
  | none => alreadyRunning family
  | some current =>
    if current.status.isTerminal then .done
    else if current.status = .created then .write (createdJob now (some current) details)
    else
      match staleJob family limits now thread current with
      | none => alreadyRunning family
      | some failed => .write failed

def compareAndSet (expectedStatus : JobStatus) (mutate : Job α → Job α) : Read α → Decision α
  | none => .raise (.transition "job not found" none)
  | some job =>
    if job.status ≠ expectedStatus then
      .raise (.transition ("expected status '" ++ expectedStatus.value ++ "', found '" ++ job.status.value ++ "'")
        (some job.status))
    else .write (mutate job)

def toQueued (job : Job α) : Job α :=
  { job with
    status := .queued, updatedAt := now, error := none, errorDetail := none, finishedAt := none, startedAt := none
    workerId := if family.queuedClearsOwner then none else job.workerId
    leaseId := if family.queuedClearsOwner then none else job.leaseId
    leaseExpiresAt := if family.queuedClearsOwner then none else job.leaseExpiresAt }

def claim (workerId leaseId : String) (leaseSeconds : ℤ) : Read α → Decision α
  | none => .raise (.transition "job not found" none)
  | some job =>
    if job.status ≠ .queued then
      .raise (.transition ("expected status 'queued', found '" ++ job.status.value ++ "'") (some job.status))
    else if !leaseExpired now job.leaseExpiresAt then
      .raise (.transition "job already claimed by a live worker lease" (some job.status))
    else
      .write { job with
        status := .running, workerId := some workerId, leaseId := some leaseId
        leaseExpiresAt := some (now + leaseSeconds * second), startedAt := some now, updatedAt := now }

def renewLease (workerId leaseId : String) (leaseSeconds : ℤ) : Read α → Decision α
  | none => .raise .keyError
  | some job =>
    if job.status ≠ .running ∨ job.workerId ≠ some workerId ∨ job.leaseId ≠ some leaseId then
      .raise (.transition "lease is no longer owned by this worker/attempt" (some job.status))
    else if leaseExpired now job.leaseExpiresAt then
      .raise (.transition "lease expired; refusing renewal" (some job.status))
    else .write { job with leaseExpiresAt := some (now + leaseSeconds * second), updatedAt := now }

/-- The change that a worker makes at its end may raise. -/
def finish (workerId leaseId : String) (mutate : Job α → Except JobError (Job α)) : Read α → Decision α
  | none => .raise .keyError
  | some job =>
    if job.status.isTerminal then
      .raise (.transition "job already terminal; refusing overwrite" (some job.status))
    else if job.workerId ≠ some workerId ∨ job.leaseId ≠ some leaseId then
      .raise (.transition "stale worker/lease; refusing terminal write" (some job.status))
    else if leaseExpired now job.leaseExpiresAt then
      .raise (.transition "lease expired; refusing terminal write" (some job.status))
    else
      match mutate job with
      | .error e => .raise e
      | .ok finished => .write finished

def recoverOrphan : Read α → Decision α
  | none => .done
  | some current =>
    if !current.status.isPending ∨ !leaseExpired now current.leaseExpiresAt then .done
    else if current.status = .queued then
      if current.workerId.isSome ∨ current.leaseId.isSome then
        .write { current with workerId := none, leaseId := none, leaseExpiresAt := none, updatedAt := now }
      else .done
    else .write (current.fail now family.orphaned family.orphanedDetail)

/-- The calls that read and write a job file. A mutation gets the time of its call. -/
inductive Operation (α : Type)
  | create (details : α) (thread : WorkerThread)
  | createChecked (details : α) (thread : WorkerThread)
  | start
  | markUnrunnable (reason : String)
  | markStaleIfNeeded (job : Job α) (thread : WorkerThread)
  | claim (workerId leaseId : String) (leaseSeconds : ℤ)
  | renewLease (workerId leaseId : String) (leaseSeconds : ℤ)
  | finish (workerId leaseId : String) (mutate : Time → Job α → Except JobError (Job α))
  | recoverOrphans (listed : Job α)

namespace Operation

def decide (seen : Read α) : Operation α → Decision α
  | .create details _ => JobStore.create now details seen
  | .createChecked details thread => JobStore.createChecked family limits now details thread seen
  | .start => compareAndSet .created (toQueued family now) seen
  | .markUnrunnable reason => compareAndSet .queued (·.fail now reason (family.unrunnableDetail reason)) seen
  | .markStaleIfNeeded _ thread => JobStore.markStaleIfNeeded family limits now thread seen
  | .claim workerId leaseId leaseSeconds => JobStore.claim now workerId leaseId leaseSeconds seen
  | .renewLease workerId leaseId leaseSeconds => JobStore.renewLease now workerId leaseId leaseSeconds seen
  | .finish workerId leaseId mutate => JobStore.finish now workerId leaseId (mutate now) seen
  | .recoverOrphans _ => recoverOrphan family now seen

/-- What the call reads next when it reads again. -/
def rechecked : Operation α → Operation α
  | .create details thread => .createChecked details thread
  | operation => operation

/-- A job that was neither queued nor running when it was read before is not looked at. -/
def enters : Operation α → Bool
  | .markStaleIfNeeded job _ => job.status.isPending
  | .recoverOrphans listed => listed.status.isPending
  | _ => true

/-- Whether the call takes the interprocess lock of the job besides the lock of its process. -/
def takesFileLock : Operation α → Bool
  | .claim .. | .renewLease .. | .finish .. | .recoverOrphans .. => true
  | _ => false

/-- The worker and the lease under which a call writes. -/
def owner : Operation α → Option (String × String)
  | .renewLease workerId leaseId _ => some (workerId, leaseId)
  | .finish workerId leaseId _ => some (workerId, leaseId)
  | _ => none

end Operation

end Operations

section Rules

variable {α : Type} {family : JobFamily} {limits : StaleLimits} {now : Time} {thread : WorkerThread}
  {current old job : Job α} {operation : Operation α}

def Job.owner (job : Job α) : Option (String × String) :=
  job.workerId.bind fun workerId => job.leaseId.map fun leaseId => (workerId, leaseId)

def Job.Live (now : Time) (job : Job α) : Prop := job.status = .running ∧ leaseExpired now job.leaseExpiresAt = false

theorem leaseExpired_mono {later : Time} (hle : now ≤ later) {lease : Option Time}
    (h : leaseExpired now lease = true) : leaseExpired later lease = true := by
  cases lease with
  | none => rfl
  | some expires =>
    simp only [leaseExpired, decide_eq_true_eq] at h ⊢
    exact h.trans hle

theorem Job.Live.before {later : Time} (h : job.Live later) (hle : now ≤ later) : job.Live now := by
  refine ⟨h.1, ?_⟩
  by_contra hexpired
  rw [Bool.not_eq_false] at hexpired
  have hlive := h.2
  rw [leaseExpired_mono hle hexpired] at hlive
  cases hlive

theorem JobStatus.not_terminal_of_pending {status : JobStatus} (h : status.isPending = true) :
    status.isTerminal = false := by
  cases status with
  | queued => rfl
  | running => rfl
  | created => cases h
  | completed => cases h
  | failed => cases h

theorem not_live_of_staleJob (h : staleJob family limits now thread current = some job) : ¬ current.Live now := by
  rintro ⟨hrunning, hlive⟩
  have hlease : current.leaseExpiresAt.isSome = true := by
    cases hexpires : current.leaseExpiresAt with
    | none =>
      rw [hexpires] at hlive
      cases hlive
    | some expires => rfl
  unfold staleJob at h
  rw [if_pos ⟨hrunning, hlease⟩, if_neg (by rw [hlive]; exact Bool.false_ne_true)] at h
  cases h

def MayWrite (now : Time) (owner : Option (String × String)) (old : Job α) : Prop :=
  old.status.isTerminal = false ∧ (old.Live now → owner = old.owner)

theorem mayWrite_of_status {owner : Option (String × String)} (hterminal : old.status.isTerminal = false)
    (hrunning : old.status ≠ .running) : MayWrite now owner old :=
  ⟨hterminal, fun hlive => absurd hlive.1 hrunning⟩

theorem MayWrite.later {owner : Option (String × String)} {later : Time} (h : MayWrite now owner old)
    (hle : now ≤ later) : MayWrite later owner old :=
  ⟨h.1, fun hlive => h.2 (hlive.before hle)⟩

theorem decide_write (h : operation.decide family limits now (some old) = .write job) :
    MayWrite now operation.owner old := by
  cases operation with
  | create details thread =>
    simp only [Operation.decide, create] at h
    split_ifs at h with hpending hterminal
    refine mayWrite_of_status (Bool.eq_false_iff.mpr hterminal) fun hrunning => hpending ?_
    rw [hrunning]
    rfl
  | createChecked details thread =>
    simp only [Operation.decide, createChecked] at h
    split_ifs at h with hterminal hcreated
    · exact mayWrite_of_status (Bool.eq_false_iff.mpr hterminal) (by rw [hcreated]; exact JobStatus.noConfusion)
    · cases hstale : staleJob family limits now thread old with
      | none =>
        rw [hstale] at h
        cases h
      | some failed => exact ⟨Bool.eq_false_iff.mpr hterminal, fun hlive => absurd hlive (not_live_of_staleJob hstale)⟩
  | start =>
    simp only [Operation.decide, compareAndSet] at h
    split_ifs at h with hstatus
    rw [ne_eq, not_not] at hstatus
    exact mayWrite_of_status (by rw [hstatus]; rfl) (by rw [hstatus]; exact JobStatus.noConfusion)
  | markUnrunnable reason =>
    simp only [Operation.decide, compareAndSet] at h
    split_ifs at h with hstatus
    rw [ne_eq, not_not] at hstatus
    exact mayWrite_of_status (by rw [hstatus]; rfl) (by rw [hstatus]; exact JobStatus.noConfusion)
  | markStaleIfNeeded job thread =>
    simp only [Operation.decide, markStaleIfNeeded] at h
    split_ifs at h with hpending
    rw [Bool.not_eq_true, Bool.not_eq_false'] at hpending
    cases hstale : staleJob family limits now thread old with
    | none =>
      rw [hstale] at h
      cases h
    | some failed =>
      exact ⟨JobStatus.not_terminal_of_pending hpending, fun hlive => absurd hlive (not_live_of_staleJob hstale)⟩
  | claim workerId leaseId leaseSeconds =>
    simp only [Operation.decide, claim] at h
    split_ifs at h with hstatus
    rw [ne_eq, not_not] at hstatus
    exact mayWrite_of_status (by rw [hstatus]; rfl) (by rw [hstatus]; exact JobStatus.noConfusion)
  | renewLease workerId leaseId leaseSeconds =>
    simp only [Operation.decide, renewLease] at h
    split_ifs at h with howner hexpired
    simp only [not_or, ne_eq, not_not] at howner
    obtain ⟨hstatus, hworker, hlease⟩ := howner
    exact ⟨by rw [hstatus]; rfl, fun _ => by simp [Operation.owner, Job.owner, hworker, hlease]⟩
  | finish workerId leaseId mutate =>
    simp only [Operation.decide, finish] at h
    split_ifs at h with hterminal howner hexpired
    simp only [not_or, ne_eq, not_not] at howner
    exact ⟨Bool.eq_false_iff.mpr hterminal, fun _ => by simp [Operation.owner, Job.owner, howner.1, howner.2]⟩
  | recoverOrphans listed =>
    simp only [Operation.decide, recoverOrphan] at h
    split_ifs at h with hleft
    all_goals
      simp only [not_or, Bool.not_eq_true, Bool.not_eq_false'] at hleft
      refine ⟨JobStatus.not_terminal_of_pending hleft.1, fun hlive => ?_⟩
      have hexpired := hlive.2
      rw [hleft.2] at hexpired
      cases hexpired

end Rules

end TradingBot.Research.JobStore

namespace TradingBot.Research.JobInterleaving

open Market.Models Library.Trace Research.JobStore
open Library.ReadModifyWrite

variable {P α : Type} [DecidableEq P] (family : JobFamily) (limits : StaleLimits)

def jobCalls : Calls (Operation α) (Read α) where
  enters operation := operation.enters
  locked operation := operation.takesFileLock
  decide now operation seen :=
    match operation.decide family limits now seen with
    | .done | .raise _ => .done
    | .write job => .write (some job)
    | .recheck => .again operation.rechecked

def JobStep (now : Time) (file : Read α) (actions : List (Action P (Operation α)))
    (w : World P (Operation α) (Read α)) (action : Action P (Operation α)) (w' : World P (Operation α) (Read α)) :
    Prop :=
  Taken (World.step (jobCalls family limits)) (idle now file) actions w action w'

/-- A job that has ended is not written over, and a running job whose lease has not expired only by its owner. -/
def RespectsOwners (w : World P (Operation α) (Read α)) (action : Action P (Operation α)) : Prop :=
  ∀ operation seen next old, Writes w action operation seen next → w.content = some old →
    old.status.isTerminal = false ∧ (old.Live w.now → operation.owner = old.owner)

/-- The calls by which workers take, keep and end the ownership of a job, and the recovery at the start. -/
def Owning : Operation α → Prop
  | .claim .. | .renewLease .. | .finish .. | .recoverOrphans .. => True
  | _ => False

/-- An operation writes the job after another one wrote it since it was read, where not both are of the owning kind,
and the other one has ended the job or holds it under a lease that is still live. -/
def LosesUpdate (now : Time) (file : Read α) (actions : List (Action P (Operation α))) : Prop :=
  ∃ done p operation other seen next job w,
    done ++ [.write p] <+: actions ∧ run (World.step (jobCalls family limits)) (idle now file) done = some w ∧
    w.calls p = some (operation, .ready seen next) ∧
    Overtaken (jobCalls family limits) (idle now file) done p operation other (some job) ∧
    ¬(Owning operation ∧ Owning other) ∧
    (job.status.isTerminal = true ∨ job.Live w.now ∧ operation.owner ≠ job.owner)

variable {family} {limits} {now : Time} {file : Read α} {actions : List (Action P (Operation α))}
  {w w' : World P (Operation α) (Read α)} {action : Action P (Operation α)}

omit [DecidableEq P] in
theorem jobCalls_write {operation : Operation α} {seen next : Read α}
    (h : (jobCalls family limits).decide now operation seen = .write next) :
    ∃ job, operation.decide family limits now seen = .write job ∧ next = some job := by
  simp only [jobCalls] at h
  split at h <;> cases h
  next job hdecide => exact ⟨job, hdecide, rfl⟩

theorem mayWrite_of_unchanged {operation : Operation α} {seen next : Read α} {old : Job α}
    (h : JobStep family limits now file actions w action w') (hwrite : Writes w action operation seen next)
    (hold : w.content = some old) (hseen : seen = w.content) : MayWrite w.now operation.owner old := by
  obtain ⟨t, ht, hdecide⟩ := writes_decided h hwrite
  obtain ⟨job, hjob, -⟩ := jobCalls_write hdecide
  rw [hseen, hold] at hjob
  exact (decide_write hjob).later ht

theorem Owning.locked {operation : Operation α} (h : Owning operation) : operation.takesFileLock = true := by
  cases operation <;> first | rfl | cases h

theorem rechecked_locked (operation : Operation α) :
    operation.rechecked.takesFileLock = operation.takesFileLock := by
  cases operation <;> rfl

theorem jobCalls_again {t : Time} {operation operation' : Operation α} {seen : Read α}
    (h : (jobCalls family limits).decide t operation seen = .again operation') :
    operation.decide family limits t seen = .recheck ∧ operation' = operation.rechecked := by
  simp only [jobCalls] at h
  split at h <;> cases h
  next hdecide => exact ⟨hdecide, rfl⟩

/-- The file lock keeps the calls that take it from coming between each other. -/
theorem not_owning_of_overtaken {done : List (Action P (Operation α))} {p : P} {operation other : Operation α}
    {next : Read α} (h : Overtaken (jobCalls family limits) (idle now file) done p operation other next) :
    ¬(Owning operation ∧ Owning other) := by
  rintro ⟨hmine, hother⟩
  obtain ⟨before, since, rest, q, u, stage, seen, -, hq, -, -, hrun, hp, hready⟩ := h
  have hexclusive := exclusive_of_run
    (fun _ _ _ _ hagain => by rw [(jobCalls_again hagain).2]; exact rechecked_locked _) hrun
  have hlock := hexclusive p operation stage hp hmine.locked
  rw [hexclusive q other _ hready hother.locked] at hlock
  exact hq (Option.some.inj hlock)

/-- In every interleaving the writes respect the owners of the job exactly if none of them comes after the write of
an operation that the file lock does not exclude and that has ended the job or holds it. -/
theorem job_writes_respect_owners (family : JobFamily) (limits : StaleLimits) (now : Time) (file : Read α)
    (actions : List (Action P (Operation α))) :
    (∀ w action w', JobStep family limits now file actions w action w' → RespectsOwners w action) ↔
      ¬LosesUpdate family limits now file actions := by
  constructor
  · rintro h ⟨done, p, operation, other, seen, next, job, w, hdone, hrun, hcall, hovertaken, -, hheld⟩
    have hstep : w.step (jobCalls family limits) (.write p) = some { w.leave p with content := next } := by
      simp only [World.step, hcall]
    have hrespects := h w _ _ ⟨done, hdone, hrun, hstep⟩ operation seen next job ⟨p, rfl, hcall⟩
      (hovertaken.content hrun)
    rcases hheld with hended | ⟨hlive, howner⟩
    · rw [hended] at hrespects
      cases hrespects.1
    · exact howner (hrespects.2 hlive)
  · intro h w action w' hstep operation seen next old hwrite hold
    by_cases hseen : w.content = seen
    · exact mayWrite_of_unchanged hstep hwrite hold hseen.symm
    · obtain ⟨done, hdone, hrun, -⟩ := hstep
      obtain ⟨p, rfl, hcall⟩ := hwrite
      obtain ⟨-, hsame | ⟨other, hovertaken⟩⟩ := exists_read hrun hcall rfl
      · exact absurd hsame hseen
      · rw [hold] at hovertaken
        have hsafe : ¬(old.status.isTerminal = true ∨ old.Live w.now ∧ operation.owner ≠ old.owner) := fun hheld =>
          h ⟨done, p, operation, other, seen, next, old, w, hdone, hrun, hcall, hovertaken,
            not_owning_of_overtaken hovertaken, hheld⟩
        rw [not_or, not_and, not_not] at hsafe
        exact ⟨Bool.eq_false_iff.mpr hsafe.1, hsafe.2⟩

section Sample

def orphan : Job Unit where
  status := .queued
  createdAt := 0
  updatedAt := 0
  details := ()

def complete (now : Time) (job : Job Unit) : Except JobError (Job Unit) :=
  .ok { job with status := .completed, updatedAt := now, finishedAt := some now }

def overtaking : List (Action Bool (Operation Unit)) :=
  [.enter false (.markStaleIfNeeded orphan .absent), .read false, .decide false,
    .enter true (.claim "worker" "lease" 45), .read true, .decide true, .write true,
    .enter true (.finish "worker" "lease" complete), .read true, .decide true, .write true, .write false]

/-- The watchdog of one process fails a job that another one has completed. -/
theorem watchdog_overwrites_completed : ∃ w action w', JobStep researchJobs {} (60 * second) (some orphan) overtaking
    w action w' ∧ w.content.map (·.status) = some .completed ∧ w'.content.map (·.status) = some .failed ∧
    ¬ RespectsOwners w action := by
  refine ⟨_, .write false, _, ⟨overtaking.dropLast, List.prefix_rfl, rfl, rfl⟩, rfl, rfl, fun h => ?_⟩
  have hended := (h _ _ _ _ ⟨false, rfl, rfl⟩ rfl).1
  cases hended

end Sample

end TradingBot.Research.JobInterleaving
