import TradingBot.Research.Gates
import TradingBot.Research.Registry

namespace TradingBot.Research.GateStore

open Library.Dictionary Library.OverlayLog Research.Artifacts Research.Registry Research.Gates
open Research.Registry.ExperimentRegistry (sidecarRecord)
open Library.Outcome (except_bind_eq_ok)

inductive GateStatus
  | active | invalidated
deriving DecidableEq, Repr

/-- A persisted evaluation; its commits and its integrity profile are left out. -/
structure GateRunRecord where
  gateRunId : String
  policyVersion : String
  policyContentHash : String
  evaluatedAt : String
  experimentId : String
  runId : String
  robustnessRunIds : List String
  datasetId : String
  datasetContentHash : String
  artifactChecksums : Checksums
  measurements : Measurements
  gates : List GateEvaluationResult
  overallStatus : GateOverallStatus
  status : GateStatus := .active
  invalidationReason : Option String := none
deriving DecidableEq, Repr

structure GateResultStore where
  lines : List GateRunRecord := []
  sidecars : String → Option Sidecar := fun _ => none

namespace GateResultStore

def gateMarked (store : GateResultStore) (gateRunId : String) : Bool :=
  sidecarMarksInvalidated gateRunId (store.sidecars gateRunId)

def listEntries (store : GateResultStore) : List GateRunRecord := store.lines

def reasonOf (entry : GateRunRecord) : String :=
  match entry.invalidationReason with
  | none | some "" => "invalidation_sidecar"
  | some reason => reason

def applySidecar (store : GateResultStore) (entry : GateRunRecord) : GateRunRecord :=
  overlay (·.gateRunId) store.gateMarked
    (fun entry => { entry with status := .invalidated, invalidationReason := some (reasonOf entry) }) entry

def get (store : GateResultStore) (gateRunId : String) : Option GateRunRecord :=
  (newest (·.gateRunId) gateRunId store.listEntries).map store.applySidecar

def listLatest (store : GateResultStore) : List GateRunRecord :=
  (byKey (·.gateRunId) store.listEntries).values.map store.applySidecar

def listForRun (store : GateResultStore) (runId : String) : List GateRunRecord :=
  store.listLatest.filter (·.runId = runId)

def appendLine (store : GateResultStore) (record : GateRunRecord) : GateResultStore :=
  { store with lines := store.lines ++ [record] }

def reactivationForbidden (gateRunId : String) : ResearchError :=
  .valueError ("gate_run_id invalidated — reactivation forbidden: " ++ gateRunId)

def append (store : GateResultStore) (record : GateRunRecord) : Except ResearchError GateResultStore :=
  if store.gateMarked record.gateRunId then .error (reactivationForbidden record.gateRunId)
  else
    match store.get record.gateRunId with
    | none => .ok (store.appendLine record)
    | some existing =>
      match existing.status with
      | .active => .error (.valueError ("duplicate active gate_run_id forbidden: " ++ record.gateRunId))
      | .invalidated => .error (reactivationForbidden record.gateRunId)

def writeSidecar (store : GateResultStore) (gateRunId : String) (written : List SidecarLine) :
    GateResultStore where
  lines := store.lines
  sidecars := Function.update store.sidecars gateRunId (some (appendSidecar written (store.sidecars gateRunId)))

def checkNotInvalidated (store : GateResultStore) (gateRunId : String) : Except ResearchError GateRunRecord :=
  match store.get gateRunId with
  | none => .error (.keyError gateRunId)
  | some entry =>
    match entry.status with
    | .invalidated => .error (.valueError ("gate result already invalidated: " ++ gateRunId))
    | .active => .ok entry

def invalidate (store : GateResultStore) (gateRunId reason : String) : Except ResearchError GateResultStore := do
  let entry ← store.checkNotInvalidated gateRunId
  pure ((store.writeSidecar gateRunId [sidecarRecord gateRunId]).appendLine
    { entry with status := .invalidated, invalidationReason := some reason })

def invalidateCrashed (store : GateResultStore) (gateRunId : String) (written : List SidecarLine) :
    Except ResearchError GateResultStore := do
  let _ ← store.checkNotInvalidated gateRunId
  pure (store.writeSidecar gateRunId written)

inductive Op
  | append (record : GateRunRecord)
  | invalidate (gateRunId reason : String)
  | invalidateCrashed (gateRunId : String) (written : List SidecarLine)

def exec (store : GateResultStore) : Op → Except ResearchError GateResultStore
  | .append record => store.append record
  | .invalidate gateRunId reason => store.invalidate gateRunId reason
  | .invalidateCrashed gateRunId written => store.invalidateCrashed gateRunId written

def apply (store : GateResultStore) (op : Op) : GateResultStore :=
  match store.exec op with
  | .ok store' => store'
  | .error _ => store

def marks (store : GateResultStore) : Store String GateRunRecord :=
  ⟨store.lines, fun gateRunId => (store.sidecars gateRunId).isSome⟩

variable {store store' : GateResultStore} {gateRunId : String} {entry record : GateRunRecord}

@[simp] theorem gateMarked_eq : store.gateMarked gateRunId = (store.sidecars gateRunId).isSome :=
  sidecarMarksInvalidated_eq _ _

@[simp] theorem applySidecar_gateRunId : (store.applySidecar entry).gateRunId = entry.gateRunId := by
  refine key_overlay (fun e : GateRunRecord => e.gateRunId) ?_ entry
  intro e
  rfl

theorem applySidecar_status (h : (store.sidecars entry.gateRunId).isSome = true) :
    (store.applySidecar entry).status = .invalidated := by
  rw [applySidecar, overlay_of_marked (by rw [gateMarked_eq, h])]

theorem append_ok (h : store.append record = .ok store') :
    store.sidecars record.gateRunId = none ∧ store.get record.gateRunId = none ∧
      store' = store.appendLine record := by
  unfold append at h
  split_ifs at h with hmarked
  rw [gateMarked_eq, Bool.not_eq_true, Option.isSome_eq_false_iff, Option.isNone_iff_eq_none] at hmarked
  cases hget : store.get record.gateRunId with
  | none =>
    rw [hget] at h
    cases h
    exact ⟨hmarked, rfl, rfl⟩
  | some existing =>
    rw [hget] at h
    cases hstatus : existing.status <;> simp [hstatus] at h

theorem checkNotInvalidated_ok (h : store.checkNotInvalidated gateRunId = .ok entry) :
    ∃ e ∈ store.lines, e.gateRunId = gateRunId := by
  unfold checkNotInvalidated at h
  cases hget : store.get gateRunId with
  | none =>
    rw [hget] at h
    cases h
  | some e =>
    obtain ⟨e', he', -⟩ := Option.map_eq_some_iff.mp hget
    exact ⟨e', newest_mem he'⟩

theorem marks_writeSidecar_extends (hlogged : ∃ e ∈ store.lines, e.gateRunId = gateRunId)
    (written : List SidecarLine) :
    (marks store).Extends (·.gateRunId) (marks (store.writeSidecar gateRunId written)) := by
  refine Store.extends_mark hlogged fun gateRunId' => ?_
  by_cases h : gateRunId' = gateRunId
  · simp [writeSidecar, h]
  · simp [writeSidecar, h]

theorem exec_extends {op : Op} (h : store.exec op = .ok store') :
    (marks store).Extends (·.gateRunId) (marks store') := by
  cases op with
  | append record =>
    rw [(append_ok h).2.2]
    exact Store.extends_append _ _ _
  | invalidate gateRunId reason =>
    obtain ⟨entry, hentry, h⟩ := except_bind_eq_ok.mp h
    cases h
    exact (marks_writeSidecar_extends (checkNotInvalidated_ok hentry) _).trans (Store.extends_append _ _ _)
  | invalidateCrashed gateRunId written =>
    obtain ⟨entry, hentry, h⟩ := except_bind_eq_ok.mp h
    cases h
    exact marks_writeSidecar_extends (checkNotInvalidated_ok hentry) _

theorem apply_extends (store : GateResultStore) (op : Op) :
    (marks store).Extends (·.gateRunId) (marks (store.apply op)) := by
  unfold apply
  cases h : store.exec op with
  | ok store' => exact exec_extends h
  | error e => exact Store.Extends.refl _

structure Invalidated (store : GateResultStore) (gateRunId : String) : Prop where
  got : ∃ entry, store.get gateRunId = some entry ∧ entry.gateRunId = gateRunId ∧ entry.status = .invalidated
  latest : ∃ entry ∈ store.listLatest, entry.gateRunId = gateRunId
  latestInvalidated : ∀ entry ∈ store.listLatest, entry.gateRunId = gateRunId → entry.status = .invalidated
  forRun : ∃ runId, ∃ entry ∈ store.listForRun runId, entry.gateRunId = gateRunId
  forRunInvalidated : ∀ runId, ∀ entry ∈ store.listForRun runId, entry.gateRunId = gateRunId →
    entry.status = .invalidated
  refused : ∀ record, record.gateRunId = gateRunId →
    store.append record = .error (reactivationForbidden gateRunId)

theorem invalidated_of_sidecar (hmarked : (store.sidecars gateRunId).isSome = true)
    (hlogged : ∃ e ∈ store.lines, e.gateRunId = gateRunId) : Invalidated store gateRunId := by
  have hview : ∀ e, (store.applySidecar e).gateRunId = gateRunId →
      (store.applySidecar e).status = .invalidated := by
    intro e he
    rw [applySidecar_gateRunId] at he
    exact applySidecar_status (he ▸ hmarked)
  have hlatest : ∀ entry ∈ store.listLatest, entry.gateRunId = gateRunId → entry.status = .invalidated := by
    intro entry hentry
    obtain ⟨e, -, rfl⟩ := List.mem_map.mp hentry
    exact hview e
  obtain ⟨e, he⟩ := Option.isSome_iff_exists.mp (newest_isSome_iff.mpr hlogged)
  have hid : (store.applySidecar e).gateRunId = gateRunId := applySidecar_gateRunId.trans (newest_mem he).2
  have hmem : store.applySidecar e ∈ store.listLatest := by
    refine List.mem_map_of_mem (byKey_values_iff.mpr ?_)
    rw [(newest_mem he).2]
    exact he
  refine ⟨⟨store.applySidecar e, ?_, hid, hview e hid⟩, ⟨_, hmem, hid⟩, hlatest,
    ⟨(store.applySidecar e).runId, _, ?_, hid⟩, ?_, ?_⟩
  · rw [get, listEntries, he]
    rfl
  · exact List.mem_filter.mpr ⟨hmem, decide_eq_true rfl⟩
  · intro runId entry hentry
    exact hlatest entry (List.mem_filter.mp hentry).1
  · rintro record rfl
    unfold append
    rw [gateMarked_eq, hmarked]
    rfl

end GateResultStore

end TradingBot.Research.GateStore

namespace TradingBot.Research.Invalidation

open Library.Dictionary Library.OverlayLog Research.Artifacts Research.Registry Research.GateStore

structure ResearchStores where
  registry : ExperimentRegistry := {}
  gates : GateResultStore := {}

inductive Op
  | registry (op : ExperimentRegistry.Op)
  | gates (op : GateResultStore.Op)

variable (sha256 : Content → String)

def apply (stores : ResearchStores) : Op → ResearchStores
  | .registry op => { stores with registry := stores.registry.apply sha256 op }
  | .gates op => { stores with gates := stores.gates.apply op }

def run (ops : List Op) : ResearchStores := ops.foldl (apply sha256) {}

theorem foldl_extends (stores : ResearchStores) (ops : List Op) :
    stores.registry.store.Extends (·.runId) (ops.foldl (apply sha256) stores).registry.store ∧
      stores.gates.marks.Extends (·.gateRunId) (ops.foldl (apply sha256) stores).gates.marks := by
  constructor
  · refine Store.extends_foldl (fun s : ResearchStores => s.registry.store) (fun s op => ?_) stores ops
    cases op with
    | registry op => exact ExperimentRegistry.apply_extends s.registry op
    | gates op => exact Store.Extends.refl _
  · refine Store.extends_foldl (fun s : ResearchStores => s.gates.marks) (fun s op => ?_) stores ops
    cases op with
    | registry op => exact Store.Extends.refl _
    | gates op => exact GateResultStore.apply_extends s.gates op

theorem run_wellMarked (ops : List Op) :
    (run sha256 ops).registry.store.WellMarked (·.runId) ∧
      (run sha256 ops).gates.marks.WellMarked (·.gateRunId) := by
  obtain ⟨hregistry, hgates⟩ := foldl_extends sha256 {} ops
  exact ⟨(Store.wellMarked_of_unmarked fun _ => rfl).extends hregistry,
    (Store.wellMarked_of_unmarked fun _ => rfl).extends hgates⟩

/-- Once the sidecar of an id is there, every later reader reports the id as invalidated, and nothing
registers it again. -/
theorem invalidation_permanent (ops later : List Op) :
    (∀ runId, ((run sha256 ops).registry.sidecars runId).isSome →
      (run sha256 (ops ++ later)).registry.Invalidated sha256 runId) ∧
    ∀ gateRunId, ((run sha256 ops).gates.sidecars gateRunId).isSome →
      (run sha256 (ops ++ later)).gates.Invalidated gateRunId := by
  obtain ⟨hregistry, hgates⟩ := foldl_extends sha256 (run sha256 ops) later
  rw [run, ← List.foldl_append] at hregistry hgates
  obtain ⟨hlogged, hlogged'⟩ := run_wellMarked sha256 (ops ++ later)
  constructor
  · intro runId hmarked
    have hkept := hregistry.kept runId hmarked
    exact ExperimentRegistry.invalidated_of_sidecar sha256 hkept (hlogged runId hkept)
  · intro gateRunId hmarked
    have hkept := hgates.kept gateRunId hmarked
    exact GateResultStore.invalidated_of_sidecar hkept (hlogged' gateRunId hkept)

def sampleDigest : Content → String := fun _ => "digest"

def sampleTree : Tree := Dict.set {} ["metrics.json"] (.bytes [])

def sampleRegistration : Registration where
  experimentId := "exp"
  runId := "run"
  attemptId := "1"
  strategyVersion := "v1"
  datasetVersion := "d1"
  costModelVersion := "1.1"
  benchmarkRef := "buy_and_hold_BTC"
  createdAt := "2024-01-01"
  artifactPath := ["exp", "run"]
  checksums := Dict.set {} ["metrics.json"] "digest"

def sampleArtifacts : ArtifactStore := Dict.set {} ["exp", "run"] sampleTree

def sampleOps : List Op :=
  [.registry (.registerComplete sampleArtifacts sampleRegistration), .registry (.invalidateCrashed "run" [])]

def sampleRetry : List Op := [.registry (.registerComplete sampleArtifacts sampleRegistration)]

theorem crashed_invalidation_binds :
    (run sampleDigest (sampleOps ++ sampleRetry)).registry.Invalidated sampleDigest "run" :=
  (invalidation_permanent sampleDigest sampleOps sampleRetry).1 "run" (by decide +kernel)

end TradingBot.Research.Invalidation
