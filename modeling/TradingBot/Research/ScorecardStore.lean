import TradingBot.Research.RecordVerification

namespace TradingBot.Research.ScorecardStore

open Library.Dictionary Library.OverlayLog Research.Artifacts Research.Registry Research.GateStore
open Research.Robustness Research.GateEvaluator
open Research.Registry.ExperimentRegistry (sidecarRecord)
open Library.Outcome (except_bind_eq_ok mapM_ok_mem mapM_mem_ok)

/-- A persisted scorecard; its commits, its dataset and its limitations are left out. -/
structure ScorecardRecord extends RecordVerification.ScorecardRecord where
  policyVersion : String
  policyContentHash : String
  evaluatedAt : String
  status : GateStatus := .active
  invalidationReason : Option String := none
deriving DecidableEq, Repr

/-- The lines of `scorecards/registry.jsonl`, and the sidecars by scorecard id. -/
structure ScorecardResultStore where
  lines : List ScorecardRecord := []
  sidecars : String → Option Sidecar := fun _ => none

namespace ScorecardResultStore

def listEntries (store : ScorecardResultStore) : List ScorecardRecord := store.lines

def get (store : ScorecardResultStore) (scorecardId : String) : Option ScorecardRecord :=
  newest (·.scorecardId) scorecardId store.listEntries

def appendLine (store : ScorecardResultStore) (record : ScorecardRecord) : ScorecardResultStore :=
  { store with lines := store.lines ++ [record] }

def append (store : ScorecardResultStore) (record : ScorecardRecord) : Except ResearchError ScorecardResultStore :=
  match store.get record.scorecardId with
  | none => .ok (store.appendLine record)
  | some existing =>
    match existing.status, record.status with
    | .active, _ => .error (.valueError ("duplicate active scorecard_id forbidden: " ++ record.scorecardId))
    | .invalidated, .active =>
      .error (.valueError ("cannot reactivate invalidated scorecard_id: " ++ record.scorecardId))
    | .invalidated, .invalidated => .ok (store.appendLine record)

def writeSidecar (store : ScorecardResultStore) (scorecardId : String) (written : List SidecarLine) :
    ScorecardResultStore where
  lines := store.lines
  sidecars :=
    Function.update store.sidecars scorecardId (some (appendSidecar written (store.sidecars scorecardId)))

def checkNotInvalidated (store : ScorecardResultStore) (scorecardId : String) :
    Except ResearchError ScorecardRecord :=
  match store.get scorecardId with
  | none => .error (.keyError scorecardId)
  | some entry =>
    match entry.status with
    | .invalidated => .error (.valueError ("scorecard already invalidated: " ++ scorecardId))
    | .active => .ok entry

def invalidate (store : ScorecardResultStore) (scorecardId reason : String) :
    Except ResearchError ScorecardResultStore := do
  let entry ← store.checkNotInvalidated scorecardId
  pure ((store.writeSidecar scorecardId [sidecarRecord scorecardId]).appendLine
    { entry with status := .invalidated, invalidationReason := some reason })

def invalidateCrashed (store : ScorecardResultStore) (scorecardId : String) (written : List SidecarLine) :
    Except ResearchError ScorecardResultStore := do
  let _ ← store.checkNotInvalidated scorecardId
  pure (store.writeSidecar scorecardId written)

section List

/-- What a listed record is checked against: the hashes of the registered policies by their versions, and the
verification of its artifacts. -/
structure Trust where
  policyContentHash : String → Option String
  verifyArtifacts : RecordVerification.ScorecardRecord → Except EvaluationError Unit

def assertRecordPolicyTrusted (trust : Trust) (record : ScorecardRecord) : Except EvaluationError Unit :=
  let untrusted message := EvaluationError.scorecardEvaluationError message "policy_content_hash"
    "mismatch — scorecard record untrusted under current policy"
  match trust.policyContentHash record.policyVersion with
  | none => .error (untrusted ("unknown scorecard policy version: " ++ reprText record.policyVersion))
  | some actual =>
    reject (actual ≠ record.policyContentHash) (untrusted ("scorecard policy content hash mismatch for version " ++
      reprText record.policyVersion ++ ": persisted=" ++ reprText record.policyContentHash ++ " current=" ++
      reprText actual))

/-- A record as it is given out, and the error of its `evidence_integrity`. -/
structure PublicRecord where
  record : ScorecardRecord
  evidenceIntegrity : Option String
deriving DecidableEq, Repr

def recordToPublicDict (trust : Trust) (record : ScorecardRecord) : Except EvaluationError PublicRecord := do
  assertRecordPolicyTrusted trust record
  match trust.verifyArtifacts record.toScorecardRecord with
  | .ok () => pure { record, evidenceIntegrity := none }
  | .error (.scorecardEvaluationError message _ _) =>
    if record.status = .active then
      .error (.scorecardEvaluationError message "artifact_checksums"
        "mismatch — scorecard record evidence untrusted")
    else pure { record, evidenceIntegrity := some message }
  | .error e => .error e

def listAll (store : ScorecardResultStore) (trust : Trust) (runId : Option String) :
    Except EvaluationError (List PublicRecord) := do
  let items ← (byKey (·.scorecardId) store.listEntries).values.mapM (recordToPublicDict trust)
  let items := match runId with
    | none | some "" => items
    | some runId => items.filter (·.record.runId = runId)
  pure (items.insertionSort fun a b => b.record.evaluatedAt ≤ a.record.evaluatedAt)

end List

/-- What is done to the store, with a crash possible between the two writes of an invalidation. -/
inductive Op
  | append (record : ScorecardRecord)
  | invalidate (scorecardId reason : String)
  | invalidateCrashed (scorecardId : String) (written : List SidecarLine)

def exec (store : ScorecardResultStore) : Op → Except ResearchError ScorecardResultStore
  | .append record => store.append record
  | .invalidate scorecardId reason => store.invalidate scorecardId reason
  | .invalidateCrashed scorecardId written => store.invalidateCrashed scorecardId written

def apply (store : ScorecardResultStore) (op : Op) : ScorecardResultStore :=
  match store.exec op with
  | .ok store' => store'
  | .error _ => store

def run (ops : List Op) : ScorecardResultStore := ops.foldl apply {}

/-- Every reader reports the scorecard as invalidated, and none returns it as active. -/
structure ReportsInvalidated (store : ScorecardResultStore) (scorecardId : String) : Prop where
  got : ∃ record, store.get scorecardId = some record ∧ record.status = .invalidated
  listed : ∀ trust runId items, store.listAll trust runId = .ok items →
    ∀ item ∈ items, item.record.scorecardId = scorecardId → item.record.status = .invalidated
  present : ∀ trust items, store.listAll trust none = .ok items →
    ∃ item ∈ items, item.record.scorecardId = scorecardId

def SidecarsBind (store : ScorecardResultStore) : Prop :=
  ∀ scorecardId, (store.sidecars scorecardId).isSome = true → store.ReportsInvalidated scorecardId

/-- An invalidation that writes its sidecar and no more. -/
def CutShort (store : ScorecardResultStore) : Op → Prop
  | .invalidateCrashed scorecardId _ => ∃ record, store.get scorecardId = some record ∧ record.status = .active
  | _ => False

variable {store store' : ScorecardResultStore} {scorecardId : String} {record entry : ScorecardRecord} {op : Op}
  {trust : Trust} {item : PublicRecord} {items : List PublicRecord}

theorem get_appendLine : (store.appendLine record).get scorecardId =
    if record.scorecardId = scorecardId then some record else store.get scorecardId :=
  newest_append

@[simp] theorem get_writeSidecar {written : List SidecarLine} {scorecardId' : String} :
    (store.writeSidecar scorecardId written).get scorecardId' = store.get scorecardId' := rfl

theorem get_scorecardId (h : store.get scorecardId = some record) : record.scorecardId = scorecardId :=
  (newest_mem h).2

theorem checkNotInvalidated_ok_iff : store.checkNotInvalidated scorecardId = .ok entry ↔
    store.get scorecardId = some entry ∧ entry.status = .active := by
  unfold checkNotInvalidated
  cases hget : store.get scorecardId with
  | none => simp
  | some e =>
    cases hstatus : e.status with
    | active =>
      simp only [hstatus, Except.ok.injEq, Option.some.injEq]
      constructor
      · rintro rfl
        exact ⟨rfl, hstatus⟩
      · exact fun h => h.1
    | invalidated =>
      simp only [hstatus, reduceCtorEq, Option.some.injEq, false_iff, not_and]
      rintro rfl
      simp [hstatus]

theorem append_ok (h : store.append record = .ok store') :
    store' = store.appendLine record ∧
      ∀ existing, store.get record.scorecardId = some existing → record.status = .invalidated := by
  unfold append at h
  cases hget : store.get record.scorecardId with
  | none =>
    rw [hget] at h
    cases h
    simp
  | some existing =>
    cases hstatus : existing.status with
    | active => simp [hget, hstatus] at h
    | invalidated =>
      cases hnew : record.status with
      | active => simp [hget, hstatus, hnew] at h
      | invalidated =>
        simp only [hget, hstatus, hnew, Except.ok.injEq] at h
        exact ⟨h.symm, fun _ _ => rfl⟩

theorem recordToPublicDict_record (h : recordToPublicDict trust record = .ok item) : item.record = record := by
  obtain ⟨_, -, h⟩ := except_bind_eq_ok.mp h
  split at h
  · cases h
    rfl
  · split_ifs at h
    cases h
    rfl
  · cases h

theorem listAll_get {runId : Option String} (h : store.listAll trust runId = .ok items) (hitem : item ∈ items) :
    store.get item.record.scorecardId = some item.record := by
  obtain ⟨all, hall, h⟩ := except_bind_eq_ok.mp h
  cases h
  have hmem : item ∈ all := by
    rw [List.mem_insertionSort] at hitem
    split at hitem
    · exact hitem
    · exact hitem
    · exact (List.mem_filter.mp hitem).1
  obtain ⟨record, hrecord, hpublic⟩ := mapM_ok_mem hall hmem
  rw [recordToPublicDict_record hpublic]
  exact byKey_values_iff.mp hrecord

theorem listAll_present (h : store.listAll trust none = .ok items)
    (hget : store.get scorecardId = some record) : ∃ item ∈ items, item.record = record := by
  obtain ⟨all, hall, h⟩ := except_bind_eq_ok.mp h
  cases h
  have hrecord : record ∈ (byKey (·.scorecardId) store.listEntries).values := by
    refine byKey_values_iff.mpr ?_
    rw [get_scorecardId hget]
    exact hget
  obtain ⟨item, hitem, hpublic⟩ := mapM_mem_ok hall hrecord
  exact ⟨item, (List.mem_insertionSort _).mpr hitem, recordToPublicDict_record hpublic⟩

theorem reportsInvalidated_iff : store.ReportsInvalidated scorecardId ↔
    ∃ record, store.get scorecardId = some record ∧ record.status = .invalidated := by
  constructor
  · exact fun h => h.got
  · rintro ⟨record, hget, hstatus⟩
    refine ⟨⟨record, hget, hstatus⟩, ?_, ?_⟩
    · intro trust runId items hitems item hitem hid
      have hnewest := listAll_get hitems hitem
      rw [hid, hget, Option.some.injEq] at hnewest
      rw [← hnewest, hstatus]
    · intro trust items hitems
      obtain ⟨item, hitem, rfl⟩ := listAll_present hitems hget
      exact ⟨item, hitem, get_scorecardId hget⟩

theorem sidecarsBind_empty : SidecarsBind {} := fun _ h => absurd h Bool.false_ne_true

theorem SidecarsBind.appendLine (hstore : store.SidecarsBind)
    (hrecord : (store.sidecars record.scorecardId).isSome = true → record.status = .invalidated) :
    (store.appendLine record).SidecarsBind := by
  intro scorecardId hmarked
  rw [reportsInvalidated_iff, get_appendLine]
  by_cases hid : record.scorecardId = scorecardId
  · subst hid
    rw [if_pos rfl]
    exact ⟨record, rfl, hrecord hmarked⟩
  · rw [if_neg hid]
    exact (hstore scorecardId hmarked).got

theorem SidecarsBind.invalidated (hstore : store.SidecarsBind) {written : List SidecarLine}
    (hid : record.scorecardId = scorecardId) (hstatus : record.status = .invalidated) :
    ((store.writeSidecar scorecardId written).appendLine record).SidecarsBind := by
  intro scorecardId' hmarked
  rw [reportsInvalidated_iff, get_appendLine]
  by_cases hid' : record.scorecardId = scorecardId'
  · rw [if_pos hid']
    exact ⟨record, rfl, hstatus⟩
  · rw [if_neg hid', get_writeSidecar]
    refine (hstore scorecardId' ?_).got
    rw [hid] at hid'
    simpa [ScorecardResultStore.appendLine, writeSidecar, Ne.symm hid'] using hmarked

theorem SidecarsBind.apply (hstore : store.SidecarsBind) (hop : ¬ store.CutShort op) :
    (store.apply op).SidecarsBind := by
  unfold ScorecardResultStore.apply
  cases h : store.exec op with
  | error e => exact hstore
  | ok store' =>
    cases op with
    | append record =>
      obtain ⟨rfl, hover⟩ := append_ok h
      refine hstore.appendLine fun hmarked => ?_
      obtain ⟨existing, hget, -⟩ := (hstore record.scorecardId hmarked).got
      exact hover existing hget
    | invalidate scorecardId reason =>
      obtain ⟨entry, hentry, h⟩ := except_bind_eq_ok.mp h
      cases h
      have hid := get_scorecardId (checkNotInvalidated_ok_iff.mp hentry).1
      exact hstore.invalidated hid rfl
    | invalidateCrashed scorecardId written =>
      obtain ⟨entry, hentry, -⟩ := except_bind_eq_ok.mp h
      exact absurd ⟨entry, checkNotInvalidated_ok_iff.mp hentry⟩ hop

theorem not_sidecarsBind_of_cutShort (hop : store.CutShort op) : ¬ (store.apply op).SidecarsBind := by
  cases op with
  | append record => exact hop.elim
  | invalidate scorecardId reason => exact hop.elim
  | invalidateCrashed scorecardId written =>
    obtain ⟨record, hget, hactive⟩ := hop
    have hcheck := checkNotInvalidated_ok_iff.mpr ⟨hget, hactive⟩
    have happly : store.apply (.invalidateCrashed scorecardId written) = store.writeSidecar scorecardId written := by
      simp [ScorecardResultStore.apply, exec, invalidateCrashed, hcheck, bind, Except.bind, pure, Except.pure]
    rw [happly]
    intro hbind
    obtain ⟨record', hget', hinvalidated⟩ := (hbind scorecardId (by simp [writeSidecar])).got
    rw [get_writeSidecar, hget, Option.some.injEq] at hget'
    rw [← hget', hactive] at hinvalidated
    cases hinvalidated

theorem run_append (ops : List Op) (op : Op) : run (ops ++ [op]) = (run ops).apply op := by
  rw [run, List.foldl_append]
  rfl

/-- Once a scorecard has a sidecar, every reader reports it as invalidated in every later state of a run, exactly if
no invalidation of the run stops between its two writes. -/
theorem scorecard_invalidation_crash_safe (ops : List Op) :
    (∀ done, done <+: ops → (run done).SidecarsBind) ↔
      ∀ done op, done ++ [op] <+: ops → ¬ (run done).CutShort op := by
  constructor
  · intro h done op hop hcut
    refine not_sidecarsBind_of_cutShort hcut ?_
    rw [← run_append]
    exact h _ hop
  · intro h done hdone
    induction done using List.reverseRecOn with
    | nil => exact sidecarsBind_empty
    | append_singleton done op ih =>
      rw [run_append]
      exact (ih ((List.prefix_append done [op]).trans hdone)).apply (h done op hdone)

section Sample

def scorecard : ScorecardRecord where
  scorecardId := "sc_1"
  evidenceContentHash := "e1"
  runId := "run-1"
  gateRunId := none
  robustnessRunIds := []
  artifactChecksums := {}
  gateEvidenceContentHash := none
  parameterAreaRobustnessId := none
  parameterArea := none
  sealedOverallStatus := none
  policyVersion := "1.0"
  policyContentHash := "p1"
  evaluatedAt := "2024-05-01T00:00:00Z"

/-- After the crash the sidecar is there and the scorecard is still active. -/
theorem crashed_invalidation_stays_active :
    ∃ ops : List Op, ((run ops).sidecars "sc_1").isSome = true ∧ (run ops).get "sc_1" = some scorecard ∧
      scorecard.status = .active ∧ ¬ (run ops).ReportsInvalidated "sc_1" := by
  refine ⟨[.append scorecard, .invalidateCrashed "sc_1" [sidecarRecord "sc_1"]], by decide +kernel, by decide +kernel,
    rfl, ?_⟩
  intro h
  obtain ⟨record, hget, hstatus⟩ := h.got
  have hnewest : (run [.append scorecard, .invalidateCrashed "sc_1" [sidecarRecord "sc_1"]]).get "sc_1" =
      some scorecard := by decide +kernel
  rw [hnewest, Option.some.injEq] at hget
  rw [← hget] at hstatus
  cases hstatus

end Sample

end ScorecardResultStore

end TradingBot.Research.ScorecardStore
