import TradingBot.Library.OverlayLog
import TradingBot.Research.Artifacts

namespace TradingBot.Research.Registry

open Library.Dictionary Library.OverlayLog Research.Artifacts
open Library.Outcome (except_bind_eq_ok mapM_ok_mem)

inductive SidecarLine
  | blank
  | undecodable
  | notObject
  | record (status id : String)
deriving DecidableEq, Repr

inductive Sidecar
  | unreadable
  | text (lines : List SidecarLine)
deriving DecidableEq, Repr

/-- The loop over the lines; a text without a decisive line fails closed. -/
def scanSidecar (id : String) : List SidecarLine → Bool
  | [] => true
  | .blank :: lines => scanSidecar id lines
  | .undecodable :: _ => true
  | .notObject :: _ => true
  | .record status recordId :: lines =>
    if status = "invalidated" then true
    else if recordId = id then true
    else scanSidecar id lines

def sidecarMarksInvalidated (id : String) : Option Sidecar → Bool
  | none => false
  | some .unreadable => true
  | some (.text lines) => if lines.all (· = .blank) then true else scanSidecar id lines

theorem scanSidecar_eq (id : String) (lines : List SidecarLine) : scanSidecar id lines = true := by
  induction lines with
  | nil => rfl
  | cons line lines ih =>
    cases line with
    | blank => exact ih
    | undecodable => rfl
    | notObject => rfl
    | record status recordId => simp [scanSidecar, ih]

@[simp] theorem sidecarMarksInvalidated_eq (id : String) (sidecar : Option Sidecar) :
    sidecarMarksInvalidated id sidecar = sidecar.isSome := by
  cases sidecar with
  | none => rfl
  | some sidecar =>
    cases sidecar with
    | unreadable => rfl
    | text lines => simp [sidecarMarksInvalidated, scanSidecar_eq]

def appendSidecar (written : List SidecarLine) : Option Sidecar → Sidecar
  | none => .text written
  | some .unreadable => .unreadable
  | some (.text lines) => .text (lines ++ written)

inductive Status
  | complete | failed | invalidated
deriving DecidableEq, Repr

structure Registration where
  experimentId : String
  runId : String
  attemptId : String
  strategyVersion : String
  datasetVersion : String
  costModelVersion : String
  benchmarkRef : String
  createdAt : String
  artifactPath : RelPath
  checksums : Checksums
deriving DecidableEq, Repr

structure RegistryEntry extends Registration where
  status : Status
deriving DecidableEq, Repr

/-- The lines of `registry.jsonl`, and the sidecars by run id. -/
structure ExperimentRegistry where
  lines : List RegistryEntry := []
  sidecars : String → Option Sidecar := fun _ => none

/-- The directories below `artifacts/research` that hold files. -/
abbrev ArtifactStore := Dict RelPath Tree

namespace ExperimentRegistry

def runMarked (registry : ExperimentRegistry) (runId : String) : Bool :=
  sidecarMarksInvalidated runId (registry.sidecars runId)

def append (registry : ExperimentRegistry) (record : RegistryEntry) : Except ResearchError ExperimentRegistry :=
  if record.runId ≠ "" ∧ record.status ≠ .invalidated ∧ registry.runMarked record.runId then
    .error (.valueError ("run_id invalidated — reactivation forbidden: " ++ record.runId))
  else .ok { registry with lines := registry.lines ++ [record] }

def applySidecar (registry : ExperimentRegistry) (entry : RegistryEntry) : RegistryEntry :=
  overlay (·.runId) registry.runMarked (fun entry => { entry with status := .invalidated }) entry

def listEntries (registry : ExperimentRegistry) : List RegistryEntry := registry.lines.map registry.applySidecar

def findEntry (registry : ExperimentRegistry) (runId : String) : Except ResearchError RegistryEntry :=
  match newest (·.runId) runId registry.listEntries with
  | none => .error (.keyError ("run_id not found: " ++ runId))
  | some entry => .ok entry

variable (sha256 : Content → String) (artifacts : ArtifactStore)

def verifyEntryArtifacts (entry : RegistryEntry) : Except ResearchError Unit :=
  match artifacts.get? entry.artifactPath with
  | none => .error (.fileNotFoundError ("missing or deleted artifacts for " ++ entry.runId ++ ": " ++
      posix entry.artifactPath))
  | some tree =>
    if entry.checksums.entries = [] then
      .error (.valueError ("registry entry for " ++ entry.runId ++ " has empty trusted checksums"))
    else verifyChecksumsAgainst sha256 tree entry.checksums

def showEntry (registry : ExperimentRegistry) (runId : String) (verify : Bool) :
    Except ResearchError RegistryEntry := do
  let entry ← registry.findEntry runId
  if verify ∧ entry.status = .complete then
    verifyEntryArtifacts sha256 artifacts entry
  pure entry

def checkSeal (directory : Option Tree) (onDisk : Checksums) : Except ResearchError Unit :=
  match directory.bind (·.get? checksumsJson) with
  | none => .ok ()
  | some _ => do
    let sealed ← loadChecksums (directory.getD {})
    refuseIf (!sealed.sameItems onDisk) (.valueError "checksums.json seal disagrees with artifact files")

def registerComplete (registry : ExperimentRegistry) (r : Registration) :
    Except ResearchError ExperimentRegistry := do
  refuseIf (registry.runMarked r.runId)
    (.valueError ("run_id invalidated — reactivation forbidden: " ++ r.runId))
  refuseIf (registry.listEntries.any fun e => e.runId = r.runId ∧ e.status = .complete)
    (.valueError ("duplicate complete run_id forbidden: " ++ r.runId))
  let directory := artifacts.get? r.artifactPath
  let onDisk := computeArtifactChecksums sha256 directory
  refuseIf (!r.checksums.sameItems onDisk)
    (.valueError "provided checksums do not match finalized artifact set")
  checkSeal directory onDisk
  verifyChecksumsAgainst sha256 (directory.getD {}) r.checksums
  registry.append { r with status := .complete }

/-- The record that `invalidate` writes; the reason, the actor and the replacement are left out. -/
def sidecarRecord (runId : String) : SidecarLine := .record "invalidated" runId

def writeSidecar (registry : ExperimentRegistry) (runId : String) (written : List SidecarLine) :
    ExperimentRegistry where
  lines := registry.lines
  sidecars :=
    Function.update registry.sidecars runId (some (appendSidecar written (registry.sidecars runId)))

def checkNotInvalidated (registry : ExperimentRegistry) (runId : String) :
    Except ResearchError RegistryEntry := do
  let entry ← registry.findEntry runId
  refuseIf (entry.status = .invalidated) (.valueError ("run already invalidated: " ++ runId))
  pure entry

/-- The sidecar is written first, then the superseding line. -/
def invalidate (registry : ExperimentRegistry) (runId createdAt : String) :
    Except ResearchError ExperimentRegistry := do
  let entry ← registry.checkNotInvalidated runId
  (registry.writeSidecar runId [sidecarRecord runId]).append
    { entry with createdAt := createdAt, status := .invalidated }

def invalidateCrashed (registry : ExperimentRegistry) (runId : String) (written : List SidecarLine) :
    Except ResearchError ExperimentRegistry := do
  let _ ← registry.checkNotInvalidated runId
  pure (registry.writeSidecar runId written)

section Reconstruct

def readRunManifest (tree : Tree) : Except ResearchError RunManifestDocument :=
  match tree.get? ["run_manifest.json"] with
  | none => .error (.fileNotFoundError "No such file or directory: 'run_manifest.json'")
  | some (.runManifest document) => .ok document
  | some (.bytes _) => .error (.valueError "Expecting value")
  | some _ => .ok {}

def readExperiment (tree : Tree) : Except ResearchError ExperimentDocument :=
  match tree.get? ["experiment.json"] with
  | none => .error (.fileNotFoundError "No such file or directory: 'experiment.json'")
  | some (.experiment document) => .ok document
  | some (.bytes _) => .error (.valueError "Expecting value")
  | some _ => .ok {}

def readCostModelVersion (tree : Tree) : Except ResearchError String :=
  match tree.get? ["costs.json"] with
  | some (.costs (some version)) => .ok version
  | some (.bytes _) => .error (.valueError "Expecting value")
  | _ => .ok "1.0"

def required (key : String) : Option String → Except ResearchError String
  | some value => .ok value
  | none => .error (.keyError key)

/-- The entry that the files of a run directory give. -/
def rebuildEntry (path : RelPath) (tree : Tree) : Except ResearchError RegistryEntry := do
  let manifest ← readRunManifest tree
  let experiment ← readExperiment tree
  let costModelVersion ← readCostModelVersion tree
  let experimentId ← required "experiment_id" manifest.experimentId
  let runId ← required "run_id" manifest.runId
  let attemptId ← required "attempt_id" manifest.attemptId
  let checksums ← loadChecksums tree
  pure
    { experimentId, runId, attemptId, costModelVersion, checksums
      status := if manifest.status = some "complete" then .complete else .failed
      strategyVersion := manifest.strategyVersion.getD ""
      datasetVersion := experiment.datasetId.getD ""
      benchmarkRef := experiment.benchmark.getD ""
      createdAt := manifest.createdAtUtc.getD ""
      artifactPath := path }

/-- The run directories: two levels below the root, but not among the invalidations. -/
def isRunDir : RelPath → Bool
  | [experimentDir, _] => experimentDir ≠ "invalidations" ∧ !experimentDir.endsWith ".jsonl"
  | _ => false

/-- A directory without a manifest, or whose files do not fit their seal, is passed over. -/
def rebuildRun (registry : ExperimentRegistry) (directory : RelPath × Tree) :
    Except ResearchError (Option RegistryEntry) :=
  if (directory.2.get? ["run_manifest.json"]).isNone then .ok none
  else
    match verifyChecksums sha256 directory.2 with
    | .error _ => .ok none
    | .ok () => do
      let entry ← rebuildEntry directory.1 directory.2
      pure (some (registry.applySidecar entry))

def reconstructFromArtifacts (registry : ExperimentRegistry) : Except ResearchError (List RegistryEntry) := do
  let directories := (artifacts.entries.filter fun d => isRunDir d.1).insertionSort fun a b => a.1 ≤ b.1
  let entries ← directories.mapM (rebuildRun sha256 registry)
  pure entries.reduceOption

end Reconstruct

inductive Op
  | registerComplete (artifacts : ArtifactStore) (r : Registration)
  | invalidate (runId createdAt : String)
  | invalidateCrashed (runId : String) (written : List SidecarLine)

def exec (registry : ExperimentRegistry) : Op → Except ResearchError ExperimentRegistry
  | .registerComplete artifacts r => registry.registerComplete sha256 artifacts r
  | .invalidate runId createdAt => registry.invalidate runId createdAt
  | .invalidateCrashed runId written => registry.invalidateCrashed runId written

/-- An operation that raises leaves the files as they are. -/
def apply (registry : ExperimentRegistry) (op : Op) : ExperimentRegistry :=
  match registry.exec sha256 op with
  | .ok registry' => registry'
  | .error _ => registry

def store (registry : ExperimentRegistry) : Store String RegistryEntry :=
  ⟨registry.lines, fun runId => (registry.sidecars runId).isSome⟩

variable {sha256 : Content → String} {artifacts : ArtifactStore} {registry registry' : ExperimentRegistry}
  {runId : String} {entry : RegistryEntry}

@[simp] theorem runMarked_eq : registry.runMarked runId = (registry.sidecars runId).isSome :=
  sidecarMarksInvalidated_eq _ _

@[simp] theorem applySidecar_runId : (registry.applySidecar entry).runId = entry.runId := by
  refine key_overlay (fun e : RegistryEntry => e.runId) ?_ entry
  intro e
  rfl

theorem applySidecar_status (h : (registry.sidecars entry.runId).isSome = true) :
    (registry.applySidecar entry).status = .invalidated := by
  rw [applySidecar, overlay_of_marked (by rw [runMarked_eq, h])]

theorem findEntry_ok_iff :
    registry.findEntry runId = .ok entry ↔ newest (·.runId) runId registry.listEntries = some entry := by
  unfold findEntry
  cases newest (·.runId) runId registry.listEntries with
  | none => simp
  | some e => simp

theorem newest_listEntries :
    newest (·.runId) runId registry.listEntries =
      (newest (·.runId) runId registry.lines).map registry.applySidecar :=
  newest_map fun _ => applySidecar_runId

theorem checkNotInvalidated_ok (h : registry.checkNotInvalidated runId = .ok entry) :
    ∃ e ∈ registry.lines, e.runId = runId := by
  obtain ⟨e, he, -⟩ := except_bind_eq_ok.mp h
  rw [findEntry_ok_iff, newest_listEntries] at he
  obtain ⟨e', he', -⟩ := Option.map_eq_some_iff.mp he
  exact ⟨e', newest_mem he'⟩

theorem append_ok (h : registry.append entry = .ok registry') :
    registry' = { registry with lines := registry.lines ++ [entry] } := by
  unfold append at h
  split_ifs at h
  cases h
  rfl

theorem store_writeSidecar_extends (hlogged : ∃ e ∈ registry.lines, e.runId = runId)
    (written : List SidecarLine) :
    (store registry).Extends (·.runId) (store (registry.writeSidecar runId written)) := by
  refine Store.extends_mark hlogged fun runId' => ?_
  by_cases h : runId' = runId
  · simp [writeSidecar, h]
  · simp [writeSidecar, h]

theorem registerComplete_ok {r : Registration}
    (h : registry.registerComplete sha256 artifacts r = .ok registry') :
    registry.sidecars r.runId = none ∧
      registry' = { registry with lines := registry.lines ++ [{ r with status := .complete }] } := by
  obtain ⟨_, hmarked, h⟩ := except_bind_eq_ok.mp h
  obtain ⟨_, _, h⟩ := except_bind_eq_ok.mp h
  obtain ⟨_, _, h⟩ := except_bind_eq_ok.mp h
  obtain ⟨_, _, h⟩ := except_bind_eq_ok.mp h
  obtain ⟨_, _, h⟩ := except_bind_eq_ok.mp h
  rw [refuseIf_ok_iff, runMarked_eq, Option.isSome_eq_false_iff, Option.isNone_iff_eq_none] at hmarked
  exact ⟨hmarked, append_ok h⟩

theorem exec_extends {op : Op} (h : registry.exec sha256 op = .ok registry') :
    (store registry).Extends (·.runId) (store registry') := by
  cases op with
  | registerComplete artifacts r =>
    rw [(registerComplete_ok h).2]
    exact Store.extends_append _ _ _
  | invalidate runId createdAt =>
    obtain ⟨entry, hentry, h⟩ := except_bind_eq_ok.mp h
    rw [append_ok h]
    exact (store_writeSidecar_extends (checkNotInvalidated_ok hentry) _).trans (Store.extends_append _ _ _)
  | invalidateCrashed runId written =>
    obtain ⟨entry, hentry, h⟩ := except_bind_eq_ok.mp h
    cases h
    exact store_writeSidecar_extends (checkNotInvalidated_ok hentry) _

theorem apply_extends (registry : ExperimentRegistry) (op : Op) :
    (store registry).Extends (·.runId) (store (registry.apply sha256 op)) := by
  unfold apply
  cases h : registry.exec sha256 op with
  | ok registry' => exact exec_extends h
  | error e => exact Store.Extends.refl _

structure Invalidated (sha256 : Content → String) (registry : ExperimentRegistry) (runId : String) : Prop where
  shown : ∀ artifacts verify, ∃ entry, registry.showEntry sha256 artifacts runId verify = .ok entry ∧
    entry.runId = runId ∧ entry.status = .invalidated
  listed : ∃ entry ∈ registry.listEntries, entry.runId = runId
  listedInvalidated : ∀ entry ∈ registry.listEntries, entry.runId = runId → entry.status = .invalidated
  rebuiltInvalidated : ∀ artifacts entries, registry.reconstructFromArtifacts sha256 artifacts = .ok entries →
    ∀ entry ∈ entries, entry.runId = runId → entry.status = .invalidated
  refused : ∀ artifacts r, r.runId = runId → registry.registerComplete sha256 artifacts r =
    .error (.valueError ("run_id invalidated — reactivation forbidden: " ++ runId))

theorem rebuildRun_ok {directory : RelPath × Tree}
    (h : rebuildRun sha256 registry directory = .ok (some entry)) : ∃ e, entry = registry.applySidecar e := by
  unfold rebuildRun at h
  split_ifs at h
  · cases h
  · cases hverify : verifyChecksums sha256 directory.2 with
    | error e =>
      rw [hverify] at h
      cases h
    | ok u =>
      rw [hverify] at h
      obtain ⟨e, -, h⟩ := except_bind_eq_ok.mp h
      cases h
      exact ⟨e, rfl⟩

theorem mem_reconstruct {entries : List RegistryEntry}
    (h : registry.reconstructFromArtifacts sha256 artifacts = .ok entries) (hentry : entry ∈ entries) :
    ∃ e, entry = registry.applySidecar e := by
  obtain ⟨rebuilt, hrebuilt, h⟩ := except_bind_eq_ok.mp h
  cases h
  obtain ⟨directory, -, hdirectory⟩ := mapM_ok_mem hrebuilt (List.reduceOption_mem_iff.mp hentry)
  exact rebuildRun_ok hdirectory

theorem invalidated_of_sidecar (sha256 : Content → String) (hmarked : (registry.sidecars runId).isSome = true)
    (hlogged : ∃ e ∈ registry.lines, e.runId = runId) : Invalidated sha256 registry runId := by
  have hview : ∀ e, (registry.applySidecar e).runId = runId → (registry.applySidecar e).status = .invalidated := by
    intro e he
    rw [applySidecar_runId] at he
    exact applySidecar_status (he ▸ hmarked)
  obtain ⟨newestEntry, hnewest⟩ := Option.isSome_iff_exists.mp (newest_isSome_iff.mpr hlogged)
  have hfound : registry.findEntry runId = .ok (registry.applySidecar newestEntry) := by
    rw [findEntry_ok_iff, newest_listEntries, hnewest]
    rfl
  have hid : (registry.applySidecar newestEntry).runId = runId :=
    applySidecar_runId.trans (newest_mem hnewest).2
  have hstatus := hview newestEntry hid
  refine ⟨fun artifacts verify => ?_, ?_, ?_, ?_, ?_⟩
  · refine ⟨registry.applySidecar newestEntry, ?_, hid, hstatus⟩
    unfold showEntry
    rw [hfound]
    simp [bind, Except.bind, pure, Except.pure, hstatus]
  · exact ⟨_, List.mem_map_of_mem (newest_mem hnewest).1, hid⟩
  · intro entry hentry
    obtain ⟨e, -, rfl⟩ := List.mem_map.mp hentry
    exact hview e
  · intro artifacts entries hentries entry hentry
    obtain ⟨e, rfl⟩ := mem_reconstruct hentries hentry
    exact hview e
  · rintro artifacts r rfl
    unfold registerComplete
    rw [runMarked_eq, hmarked]
    rfl

end ExperimentRegistry

end TradingBot.Research.Registry
