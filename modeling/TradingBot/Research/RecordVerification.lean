import TradingBot.Research.GateEvaluator

namespace TradingBot.Research.RecordVerification

open Market.Models Exceptions Library.Dictionary Library.OverlayLog
open Research.Metrics Research.Artifacts Research.Registry Research.Gates Research.GateStore Research.Robustness
open Research.GateEvaluator
open Library.Outcome (except_bind_eq_ok mapError_eq_ok_iff forM_eq_ok_iff)

def isRobustnessKey (key : RelPath) : Bool := key.head? = some "robustness" ∧ 2 ≤ key.length

def isManifestKey (key : RelPath) : Bool := isRobustnessKey key ∧ key.getLast? = some "manifest.json"

def isScorecardKey (key : RelPath) : Bool := key.head? = some "scorecard" ∧ 2 ≤ key.length

/-- What the two kinds of persisted records do not share: the names in the texts of their errors, the error, and
the keys of the files of the run. -/
structure RecordFamily where
  subject : String
  recordName : String
  raise : String → String → EvaluationError
  isRunFile : RelPath → Bool

def gateRecords : RecordFamily where
  subject := "gate record"
  recordName := "gate record"
  raise message reason := .gateEvaluationError message "artifact_checksums" reason
  isRunFile key := !isRobustnessKey key

def scorecardRecords : RecordFamily where
  subject := "scorecard"
  recordName := "scorecard record"
  raise message reason := .scorecardEvaluationError message "artifact_checksums" reason
  isRunFile key := !isScorecardKey key && !isRobustnessKey key

section Checksums

variable (family : RecordFamily) (ctx : EvaluationContext) (lookup : RunLookup) (files : RobustnessFiles)

/-- One turn of the loop over the checksums. -/
def verifyPinnedManifest (pinned : RelPath × String) : Except EvaluationError Unit :=
  if !isManifestKey pinned.1 then .ok ()
  else
    match pinned.1 with
    | [_, robustnessId, _] => do
      let _ ← (files.verifyRobustnessManifestSeal ctx.digest robustnessId (some pinned.2)).mapError fun e =>
        family.raise (family.subject ++ " robustness manifest seal failed for " ++ robustnessId ++ ": " ++ errorText e)
          "robustness seal mismatch"
      pure ()
    | key => .error (family.raise (family.recordName ++ " has malformed robustness checksum key: " ++
        reprText (posix key)) "malformed robustness key")

def verifyPinnedArtifacts (runId : String) (checksums : Checksums) (robustnessRunIds : List String) :
    Except EvaluationError Unit := do
  let run ← (lookup runId).mapError fun
    | .keyError _ => family.raise (family.subject ++ " run_id not in registry: " ++ runId) "run missing"
    | e => family.raise (family.subject ++ " run artifact seal failed: " ++ errorText e) "run checksum mismatch"
  let runChecksums := checksums.filterKeys family.isRunFile
  reject (runChecksums.entries = []) (family.raise (family.recordName ++ " has no run artifact_checksums")
    "empty run checksums")
  (verifyChecksumsAgainst ctx.sha256 run.directory runChecksums).mapError fun e =>
    family.raise (family.subject ++ " artifact_checksums mismatch vs current run files: " ++ errorText e)
      "run file mismatch"
  forM checksums.entries (verifyPinnedManifest family ctx files)
  forM robustnessRunIds fun robustnessId =>
    reject (robustnessKey robustnessId ∉ checksums.keys) (family.raise (family.recordName ++
      " missing checksum for robustness " ++ robustnessId) "robustness checksum missing")

end Checksums

def verifyGateRecordArtifactChecksums (ctx : EvaluationContext) (lookup : RunLookup) (files : RobustnessFiles)
    (record : GateRunRecord) : Except EvaluationError Unit :=
  verifyPinnedArtifacts gateRecords ctx lookup files record.runId record.artifactChecksums record.robustnessRunIds

section ParameterArea

/-- A point of the neighbourhood of the frozen parameters. -/
structure OatVariant where
  childId : String
  label : String
  parameters : List (String × String)
deriving DecidableEq, Repr

structure NeighborObservation where
  childId : String
  label : String
  parameters : List (String × String)
  status : String
  netPnl : Option Decimal := none
  totalCosts : Option Decimal := none
  gatePass : Option Bool := none
deriving DecidableEq, Repr

structure AreaEvidence where
  robustnessId : String
  frozenParameters : List (String × String)
  observations : List NeighborObservation
  neighborhoodConfig : RobustnessConfig
  policyVersion : String
  trustedManifestHash : String

structure ParameterAreaResult where
  parameterAreaId : String
  classification : String
deriving DecidableEq, Repr

/-- The parts of a parameter area evaluation that read no file: the neighbourhood, the classification, and the
hashes of the registered policies by their versions. -/
structure AreaContext where
  reconstructOatVariants : List (String × String) → RobustnessConfig → Except EvaluationError (List OatVariant)
  evaluateParameterArea : AreaEvidence → Except EvaluationError ParameterAreaResult
  policyContentHash : String → Option String

variable (area : AreaContext) (ctx : EvaluationContext) (lookup : RunLookup) (files : RobustnessFiles)

/-- `_load_frozen_parameters_from_base_run`. -/
def loadFrozenParameters (baseRunId : String) : Except EvaluationError (List (String × String)) := do
  let run ← (lookup baseRunId).mapError .research
  let missing := .parameterAreaError ("base run " ++ baseRunId ++ " missing parameters in experiment.json")
  match run.directory.get? ["experiment.json"] with
  | none => .error (.parameterAreaError ("missing sealed experiment.json for base_run_id=" ++ baseRunId))
  | some (.bytes _) => .error (.research (.valueError "Expecting value"))
  | some (.experiment document) => if document.parameters = [] then .error missing else .ok document.parameters
  | some _ => .error missing

def loadVerifiedRunMetrics (childId runId : String) : Except EvaluationError (Decimal × Decimal) := do
  let run ← (lookup runId).mapError .research
  match run.directory.get? ["metrics.json"] with
  | none => .error (.parameterAreaError ("missing sealed metrics.json for run_id=" ++ runId))
  | some (.bytes _) => .error (.research (.valueError "Expecting value"))
  | some (.metrics m) => .ok (m.netPnl, m.fees + m.slippageCosts + m.fundingCosts)
  | some _ => .error (.parameterAreaError ("sealed metrics missing net_pnl for child " ++ reprText childId))

def observeChild (robustnessId : String) (variants : List OatVariant) (child : RobustnessChild) :
    Except EvaluationError NeighborObservation := do
  let childId := child.childId.getD ""
  match newest (·.childId) childId variants with
  | none => .error (.parameterAreaError ("manifest child " ++ reprText childId ++
      " not in reconstructed OAT neighborhood"))
  | some variant => do
    let status := child.status.getD ""
    let observed : NeighborObservation :=
      { childId, label := (child.label.filter (· ≠ "")).getD variant.label, parameters := variant.parameters, status }
    if status ≠ "complete" then pure observed
    else
      match childRunId child with
      | none => .error (.parameterAreaError ("complete child " ++ reprText childId ++
          " missing run_id (robustness=" ++ robustnessId ++ ")"))
      | some runId => do
        let (netPnl, totalCosts) ← loadVerifiedRunMetrics lookup childId runId
        pure { observed with netPnl := some netPnl, totalCosts := some totalCosts, gatePass := some (0 ≤ netPnl) }

def objectChildren (manifest : RobustnessManifest) : List RobustnessChild :=
  (manifest.children.getD []).filterMap fun
    | .object child => some child
    | .other => none

def observationsFromSealedManifest (manifest : RobustnessManifest) (frozen : List (String × String)) :
    Except EvaluationError (List NeighborObservation × RobustnessConfig) := do
  reject (manifest.testType ≠ some "parameter_stability") (.parameterAreaError
    ("expected test_type=parameter_stability, got " ++ reprText manifest.testType))
  let config := manifest.config.getD {}
  let variants ← area.reconstructOatVariants frozen config
  let observations ← (objectChildren manifest).mapM
    (observeChild lookup (manifest.robustnessId.getD "") variants)
  pure (observations, config)

def evaluateParameterAreaFromRobustness (robustnessId trustedManifestHash policyVersion : String) :
    Except EvaluationError ParameterAreaResult := do
  let trusted := strip trustedManifestHash
  reject (trusted = "") (.parameterAreaError
    "trusted_manifest_hash required — refuse unpinned robustness evaluation")
  let _ ← (files.verifyRobustnessManifestSeal ctx.digest robustnessId (some trusted)).mapError fun e =>
    .parameterAreaError ("robustness seal verify failed: " ++ errorText e)
  let loaded ← (files.loadRobustnessManifest robustnessId).mapError .research
  match loaded with
  | none => .error (.parameterAreaError ("missing robustness manifest for " ++ robustnessId))
  | some manifest =>
    match manifest.baseRunId.filter (· ≠ "") with
    | none => .error (.parameterAreaError ("robustness " ++ robustnessId ++
        " missing base_run_id for frozen parameters"))
    | some baseRunId => do
      let frozenParameters ← loadFrozenParameters lookup baseRunId
      let (observations, neighborhoodConfig) ← observationsFromSealedManifest area lookup manifest frozenParameters
      area.evaluateParameterArea
        { robustnessId := (manifest.robustnessId.filter (· ≠ "")).getD robustnessId
          frozenParameters, observations, neighborhoodConfig, policyVersion, trustedManifestHash := trusted }

end ParameterArea

section Scorecard

structure AreaProfile where
  evidenceTrusted : Bool := false
  trustedManifestHash : Option String := none
  robustnessId : Option String := none
  policyVersion : Option String := none
  policyContentHash : Option String := none
  parameterAreaId : Option String := none
  classification : Option String := none
deriving DecidableEq, Repr

/-- A scorecard record by the fields that its verification reads. -/
structure ScorecardRecord where
  scorecardId : String
  evidenceContentHash : String
  runId : String
  gateRunId : Option String
  robustnessRunIds : List String
  artifactChecksums : Checksums
  gateEvidenceContentHash : Option String
  parameterAreaRobustnessId : Option String
  parameterArea : Option AreaProfile
  sealedOverallStatus : Option String
deriving DecidableEq, Repr

structure RecordHashes where
  scorecardEvidence : ScorecardRecord → String
  gateEvidence : GateRunRecord → String

def gateStatusValue : GateStatus → String
  | .active => "active"
  | .invalidated => "invalidated"

def overallStatusValue : GateOverallStatus → String
  | .pass => "pass"
  | .fail => "fail"

variable (area : AreaContext) (ctx : EvaluationContext) (hashes : RecordHashes) (lookup : RunLookup)
  (files : RobustnessFiles) (store : GateResultStore)

def verifyPolicyContentHash (version expected : String) : Except String Unit :=
  match getPolicy version with
  | .error e => .error e.str
  | .ok policy =>
    if ctx.policyContentHash policy = expected then .ok ()
    else .error ("policy content hash mismatch for version " ++ reprText version ++ ": persisted=" ++
      reprText expected ++ " current=" ++ reprText (ctx.policyContentHash policy) ++
      " (policy content changed under the same version number)")

def gateError (message reason : String) : EvaluationError :=
  .scorecardEvaluationError message "gate_run_id" reason

def hashError (message reason : String) : EvaluationError :=
  .scorecardEvaluationError message "evidence_content_hash" reason

def areaError (message reason : String) : EvaluationError :=
  .scorecardEvaluationError message "parameter_area" reason

def verifyBoundGate (record : ScorecardRecord) (gateRunId : String) : Except EvaluationError Unit :=
  match store.get gateRunId with
  | none => .error (gateError ("scorecard gate_run_id not found: " ++ gateRunId) "missing")
  | some gate => do
    let status := gateStatusValue gate.status
    reject (gate.status ≠ .active) (gateError ("scorecard bound gate is not active (status=" ++ status ++ ")")
      ("status=" ++ status))
    (verifyPolicyContentHash ctx gate.policyVersion gate.policyContentHash).mapError fun text =>
      gateError ("scorecard bound gate policy untrusted: " ++ text) "policy_content_hash mismatch"
    (verifyGateRecordArtifactChecksums ctx lookup files gate).mapError fun
      | .gateEvaluationError message _ _ =>
        gateError ("scorecard bound gate evidence untrusted: " ++ message) "checksum mismatch"
      | e => e
    let expected := strip (record.gateEvidenceContentHash.getD "")
    reject (expected = "") (gateError "scorecard missing sealed gate_evidence_content_hash pin"
      "gate_evidence_content_hash missing")
    reject (hashes.gateEvidence gate ≠ expected) (gateError
      "scorecard gate_evidence_content_hash mismatch — gate outcomes tampered or unbound"
      "gate_evidence_content_hash mismatch")
    reject (record.sealedOverallStatus.any (· ≠ overallStatusValue gate.overallStatus)) (gateError
      "scorecard sealed gate overall_status disagrees with gate store" "overall_status mismatch")

/-- `_parameter_area_robustness_id`. -/
def areaRobustnessId (record : ScorecardRecord) : Option String :=
  (record.parameterAreaRobustnessId.filter (· ≠ "")).or
    ((record.parameterArea.filter (·.evidenceTrusted)).bind fun profile => profile.robustnessId.filter (· ≠ ""))

def verifyParameterAreaJobAndSeal (runId robustnessId trusted : String) : Except EvaluationError Unit :=
  match files.jobs robustnessId with
  | none => .error (areaError ("parameter_area robustness job missing: " ++ robustnessId) "job missing")
  | some job => do
    reject (job.status ≠ .completed) (areaError ("parameter_area robustness job not completed (status=" ++
      job.status.value ++ ")") ("status=" ++ job.status.value))
    reject (job.baseRunId ≠ runId) (areaError ("parameter_area robustness base_run_id=" ++ reprText job.baseRunId ++
      " does not match scorecard run_id=" ++ reprText runId) "base_run_id mismatch")
    reject (job.seal ≠ trusted) (areaError
      "parameter_area trusted_manifest_hash does not match completed job.manifest_content_hash" "job seal mismatch")
    let _ ← (files.verifyRobustnessManifestSeal ctx.digest robustnessId (some trusted)).mapError fun e =>
      areaError ("parameter_area trusted_manifest_hash seal failed: " ++ errorText e) "manifest seal mismatch"
    pure ()

def verifyParameterAreaPolicyContentHash (version expected : String) : Except String Unit :=
  match area.policyContentHash version with
  | none => .error ("unknown parameter-area policy version: " ++ reprText version)
  | some actual =>
    if actual = expected then .ok ()
    else .error ("parameter-area policy content hash mismatch for " ++ reprText version ++ ": expected " ++
      expected ++ ", got " ++ actual)

def stripped (value : Option String) : String := strip (value.getD "")

def bindTrustedParameterArea (runId : String) (profile : AreaProfile) : Except EvaluationError Unit := do
  reject (!profile.evidenceTrusted) (areaError ("parameter_area.json is not trusted evidence (evidence_trusted " ++
    "must be true; produce via evaluate_parameter_area_from_robustness with a sealed manifest pin)") "untrusted")
  let trusted := stripped profile.trustedManifestHash
  let robustnessId := stripped profile.robustnessId
  reject (trusted = "") (areaError "parameter_area.json missing trusted_manifest_hash pin"
    "missing trusted_manifest_hash")
  reject (robustnessId = "") (areaError "parameter_area.json missing robustness_id" "missing robustness_id")
  verifyParameterAreaJobAndSeal ctx files runId robustnessId trusted
  let policyVersion := stripped profile.policyVersion
  let policyHash := stripped profile.policyContentHash
  reject (policyVersion = "" || policyHash = "") (areaError
    "parameter_area.json missing policy_version / policy_content_hash" "missing policy pin")
  (verifyParameterAreaPolicyContentHash area policyVersion policyHash).mapError fun text =>
    areaError ("parameter_area policy untrusted: " ++ text) "policy_content_hash mismatch"
  let recomputed ←
    (evaluateParameterAreaFromRobustness area ctx lookup files robustnessId trusted policyVersion).mapError fun
      | .parameterAreaError message =>
        areaError ("parameter_area recompute from sealed robustness failed: " ++ message) "recompute failed"
      | e => e
  let storedId := stripped profile.parameterAreaId
  reject (storedId ≠ recomputed.parameterAreaId) (areaError
    ("parameter_area_id does not match sealed robustness recompute (stored=" ++ reprText storedId ++ " recomputed=" ++
      reprText recomputed.parameterAreaId ++ ")") "parameter_area_id mismatch")
  reject (profile.classification.getD "" ≠ recomputed.classification) (areaError
    "parameter_area classification does not match sealed recompute" "classification mismatch")

def verifyParameterArea (record : ScorecardRecord) : Except EvaluationError Unit :=
  match areaRobustnessId record with
  | none => .ok ()
  | some robustnessId =>
    match (record.artifactChecksums.get? (robustnessKey robustnessId)).filter (· ≠ "") with
    | none => .error (areaError ("scorecard record missing sealed checksum for parameter_area robustness " ++
        robustnessId) "robustness checksum missing")
    | some trusted => do
      verifyParameterAreaJobAndSeal ctx files record.runId robustnessId trusted
      match record.parameterArea.filter (·.evidenceTrusted) with
      | none => .ok ()
      | some profile => bindTrustedParameterArea area ctx lookup files record.runId profile

def verifyScorecardRecordArtifactChecksums (record : ScorecardRecord) : Except EvaluationError Unit := do
  reject (strip record.evidenceContentHash = "") (hashError "scorecard record missing evidence_content_hash"
    "missing")
  reject (hashes.scorecardEvidence record ≠ record.evidenceContentHash) (hashError
    "scorecard evidence_content_hash mismatch — record fields tampered" "mismatch")
  verifyPinnedArtifacts scorecardRecords ctx lookup files record.runId record.artifactChecksums
    record.robustnessRunIds
  verifyParameterArea area ctx lookup files record
  match record.gateRunId.filter (· ≠ "") with
  | none => .ok ()
  | some gateRunId => verifyBoundGate ctx hashes lookup files store record gateRunId

end Scorecard

section Accepted

/-- The files of a directory are those of the checksums, under their digests; only the seal may be there
besides. -/
def Holds (sha256 : Content → String) (tree : Tree) (expected : Checksums) : Prop :=
  (∀ rel ∈ tree.keys, rel ≠ checksumsJson → rel ∈ expected.keys) ∧
    ∀ rel digest, expected.get? rel = some digest → ∃ c, tree.get? rel = some c ∧ sha256 c = digest

def VerifiedRun (sha256 : Content → String) (artifacts : ArtifactStore) (registry : ExperimentRegistry)
    (runId : String) : Prop :=
  ∃ entry tree, registry.findEntry runId = .ok entry ∧ entry.status = .complete ∧
    artifacts.get? entry.artifactPath = some tree ∧ entry.checksums.entries ≠ [] ∧
    Holds sha256 tree entry.checksums

structure PinnedFiles (family : RecordFamily) (ctx : EvaluationContext) (files : RobustnessFiles) (directory : Tree)
    (checksums : Checksums) (robustnessRunIds : List String) : Prop where
  pinned : (checksums.filterKeys family.isRunFile).entries ≠ []
  run : Holds ctx.sha256 directory (checksums.filterKeys family.isRunFile)
  manifests : ∀ e ∈ checksums.entries, isManifestKey e.1 = true → ∃ first robustnessId last current,
    e.1 = [first, robustnessId, last] ∧
      files.verifyRobustnessManifestSeal ctx.digest robustnessId (some e.2) = .ok current
  robustness : ∀ robustnessId ∈ robustnessRunIds, robustnessKey robustnessId ∈ checksums.keys

def PinnedRun (family : RecordFamily) (ctx : EvaluationContext) (found : Surroundings)
    (registry : ExperimentRegistry) (runId : String) (checksums : Checksums) (robustnessRunIds : List String) : Prop :=
  ∃ entry, registry.findEntry runId = .ok entry ∧
    (entry.status = .complete → VerifiedRun ctx.sha256 found.artifacts registry runId) ∧
    PinnedFiles family ctx found.robustness ((found.artifacts.get? entry.artifactPath).getD {}) checksums
      robustnessRunIds

variable {family : RecordFamily} {ctx : EvaluationContext} {lookup : RunLookup} {files : RobustnessFiles}
  {found : Surroundings} {registry : ExperimentRegistry} {runId : String} {checksums : Checksums}
  {robustnessRunIds : List String} {run : ShownRun}

theorem verifyChecksums_iff_holds {sha256 : Content → String} {tree : Tree} :
    verifyChecksumsAgainst sha256 tree checksums = .ok () ↔ Holds sha256 tree checksums :=
  verifyChecksumsAgainst_ok_iff

theorem verifyEntryArtifacts_ok_iff {sha256 : Content → String} {artifacts : ArtifactStore} {entry : RegistryEntry} :
    ExperimentRegistry.verifyEntryArtifacts sha256 artifacts entry = .ok () ↔
      ∃ tree, artifacts.get? entry.artifactPath = some tree ∧ entry.checksums.entries ≠ [] ∧
        Holds sha256 tree entry.checksums := by
  unfold ExperimentRegistry.verifyEntryArtifacts
  cases artifacts.get? entry.artifactPath with
  | none => simp
  | some tree =>
    by_cases hempty : entry.checksums.entries = []
    · simp [hempty]
    · simp [hempty, verifyChecksums_iff_holds]

theorem showRun_ok_iff {sha256 : Content → String} {artifacts : ArtifactStore} :
    showRun sha256 artifacts registry runId = .ok run ↔
      registry.findEntry runId = .ok run.entry ∧
        run.directory = (artifacts.get? run.entry.artifactPath).getD {} ∧
        (run.entry.status = .complete →
          ExperimentRegistry.verifyEntryArtifacts sha256 artifacts run.entry = .ok ()) := by
  unfold showRun ExperimentRegistry.showEntry
  cases hentry : registry.findEntry runId with
  | error e => simp [bind, Except.bind]
  | ok entry =>
    by_cases hstatus : entry.status = .complete
    · cases hverify : ExperimentRegistry.verifyEntryArtifacts sha256 artifacts entry with
      | error e =>
        simp only [bind, Except.bind, hstatus, hverify, and_self, if_true, reduceCtorEq, false_iff, Except.ok.injEq]
        rintro ⟨rfl, -, hok⟩
        rw [hok hstatus] at hverify
        cases hverify
      | ok u =>
        simp only [bind, Except.bind, pure, Except.pure, hstatus, hverify, and_self, if_true, Except.ok.injEq]
        constructor
        · rintro rfl
          exact ⟨rfl, rfl, fun _ => hverify⟩
        · rintro ⟨rfl, hdirectory, -⟩
          rw [← hdirectory]
    · simp only [bind, Except.bind, pure, Except.pure, hstatus, and_false, if_false, Except.ok.injEq]
      constructor
      · rintro rfl
        exact ⟨rfl, rfl, fun hcomplete => absurd hcomplete hstatus⟩
      · rintro ⟨rfl, hdirectory, -⟩
        rw [← hdirectory]

theorem verifiedRun_of_shown {sha256 : Content → String} {artifacts : ArtifactStore}
    (h : ShownComplete (showRun sha256 artifacts registry) runId) : VerifiedRun sha256 artifacts registry runId := by
  obtain ⟨run, hrun, hstatus⟩ := h
  obtain ⟨hentry, -, hverify⟩ := showRun_ok_iff.mp hrun
  obtain ⟨tree, htree, hne, hholds⟩ := verifyEntryArtifacts_ok_iff.mp (hverify hstatus)
  exact ⟨run.entry, tree, hentry, hstatus, htree, hne, hholds⟩

theorem showRun_of_agree {sha256 : Content → String} {artifacts artifacts' : ArtifactStore}
    (h : showRun sha256 artifacts registry runId = .ok run)
    (hagree : artifacts'.get? run.entry.artifactPath = artifacts.get? run.entry.artifactPath) :
    showRun sha256 artifacts' registry runId = .ok run := by
  obtain ⟨hentry, hdirectory, hverify⟩ := showRun_ok_iff.mp h
  refine showRun_ok_iff.mpr ⟨hentry, by rw [hagree, hdirectory], fun hcomplete => ?_⟩
  rw [verifyEntryArtifacts_ok_iff, hagree, ← verifyEntryArtifacts_ok_iff]
  exact hverify hcomplete

theorem verifyPinnedManifest_ok_iff {e : RelPath × String} :
    verifyPinnedManifest family ctx files e = .ok () ↔ (isManifestKey e.1 = true →
      ∃ first robustnessId last current, e.1 = [first, robustnessId, last] ∧
        files.verifyRobustnessManifestSeal ctx.digest robustnessId (some e.2) = .ok current) := by
  unfold verifyPinnedManifest
  by_cases hkey : isManifestKey e.1 = true
  · simp only [hkey, Bool.not_true, Bool.false_eq_true, if_false, true_imp_iff]
    split
    · next first robustnessId last heq =>
      rw [except_bind_eq_ok]
      constructor
      · rintro ⟨current, hcurrent, -⟩
        exact ⟨first, robustnessId, last, current, heq, mapError_eq_ok_iff.mp hcurrent⟩
      · rintro ⟨first', robustnessId', last', current, heq', hcurrent⟩
        rw [heq, List.cons.injEq, List.cons.injEq] at heq'
        obtain ⟨-, rfl, -⟩ := heq'
        exact ⟨current, mapError_eq_ok_iff.mpr hcurrent, rfl⟩
    · next hother =>
      simp only [reduceCtorEq, false_iff, not_exists, not_and]
      intro first robustnessId last current heq
      exact absurd heq (hother first robustnessId last)
  · simp [hkey]

theorem verifyPinnedArtifacts_ok_iff :
    verifyPinnedArtifacts family ctx lookup files runId checksums robustnessRunIds = .ok () ↔
      ∃ run, lookup runId = .ok run ∧ PinnedFiles family ctx files run.directory checksums robustnessRunIds := by
  unfold verifyPinnedArtifacts
  constructor
  · intro h
    obtain ⟨run, hrun, h⟩ := except_bind_eq_ok.mp h
    obtain ⟨_, hpinned, h⟩ := except_bind_eq_ok.mp h
    obtain ⟨_, hholds, h⟩ := except_bind_eq_ok.mp h
    obtain ⟨_, hmanifests, hrobustness⟩ := except_bind_eq_ok.mp h
    rw [reject_ok_iff, decide_eq_false_iff_not] at hpinned
    refine ⟨run, mapError_eq_ok_iff.mp hrun, hpinned, verifyChecksums_iff_holds.mp (mapError_eq_ok_iff.mp hholds), ?_, ?_⟩
    · exact fun e he => verifyPinnedManifest_ok_iff.mp (forM_eq_ok_iff.mp hmanifests e he)
    · intro robustnessId hid
      simpa [reject_ok_iff] using forM_eq_ok_iff.mp hrobustness robustnessId hid
  · rintro ⟨run, hrun, hfiles⟩
    refine except_bind_eq_ok.mpr ⟨run, mapError_eq_ok_iff.mpr hrun, ?_⟩
    refine except_bind_eq_ok.mpr ⟨(), reject_ok_iff.mpr (decide_eq_false hfiles.pinned), ?_⟩
    refine except_bind_eq_ok.mpr ⟨(), mapError_eq_ok_iff.mpr (verifyChecksums_iff_holds.mpr hfiles.run), ?_⟩
    refine except_bind_eq_ok.mpr ⟨(), forM_eq_ok_iff.mpr fun e he => ?_, forM_eq_ok_iff.mpr fun robustnessId hid => ?_⟩
    · exact verifyPinnedManifest_ok_iff.mpr (hfiles.manifests e he)
    · simpa [reject_ok_iff] using hfiles.robustness robustnessId hid

theorem pinnedRun_iff :
    verifyPinnedArtifacts family ctx (showRun ctx.sha256 found.artifacts registry) found.robustness runId checksums
      robustnessRunIds = .ok () ↔ PinnedRun family ctx found registry runId checksums robustnessRunIds := by
  rw [verifyPinnedArtifacts_ok_iff]
  constructor
  · rintro ⟨run, hrun, hfiles⟩
    obtain ⟨hentry, hdirectory, -⟩ := showRun_ok_iff.mp hrun
    rw [hdirectory] at hfiles
    exact ⟨run.entry, hentry, fun hcomplete => verifiedRun_of_shown ⟨run, hrun, hcomplete⟩, hfiles⟩
  · rintro ⟨entry, hentry, hverified, hfiles⟩
    refine ⟨⟨entry, (found.artifacts.get? entry.artifactPath).getD {}⟩,
      showRun_ok_iff.mpr ⟨hentry, rfl, fun hcomplete => ?_⟩, hfiles⟩
    obtain ⟨entry', tree, hentry', -, htree, hne, hholds⟩ := hverified hcomplete
    obtain rfl : entry = entry' := Except.ok.inj (hentry.symm.trans hentry')
    exact verifyEntryArtifacts_ok_iff.mpr ⟨tree, htree, hne, hholds⟩

def RestsOnGate (ctx : EvaluationContext) (hashes : RecordHashes) (found : Surroundings)
    (registry : ExperimentRegistry) (store : GateResultStore) (record : ScorecardRecord) : Prop :=
  ∀ gateRunId, record.gateRunId = some gateRunId → gateRunId ≠ "" → ∃ gate, store.get gateRunId = some gate ∧
    gate.status = .active ∧ hashes.gateEvidence gate = strip (record.gateEvidenceContentHash.getD "") ∧
    PinnedRun gateRecords ctx found registry gate.runId gate.artifactChecksums gate.robustnessRunIds

variable {area : AreaContext} {hashes : RecordHashes} {store : GateResultStore} {record : ScorecardRecord}

theorem verifyBoundGate_ok {gateRunId : String} {u : Unit}
    (h : verifyBoundGate ctx hashes (showRun ctx.sha256 found.artifacts registry) found.robustness store record
      gateRunId = .ok u) :
    ∃ gate, store.get gateRunId = some gate ∧ gate.status = .active ∧
      hashes.gateEvidence gate = strip (record.gateEvidenceContentHash.getD "") ∧
      PinnedRun gateRecords ctx found registry gate.runId gate.artifactChecksums gate.robustnessRunIds := by
  unfold verifyBoundGate at h
  cases hgate : store.get gateRunId with
  | none =>
    rw [hgate] at h
    cases h
  | some gate =>
    rw [hgate] at h
    obtain ⟨_, hstatus, h⟩ := except_bind_eq_ok.mp h
    obtain ⟨_, -, h⟩ := except_bind_eq_ok.mp h
    obtain ⟨_, hartifacts, h⟩ := except_bind_eq_ok.mp h
    obtain ⟨_, -, h⟩ := except_bind_eq_ok.mp h
    obtain ⟨_, hpin, -⟩ := except_bind_eq_ok.mp h
    rw [reject_ok_iff, decide_eq_false_iff_not, not_not] at hstatus hpin
    exact ⟨gate, rfl, hstatus, hpin, pinnedRun_iff.mp (mapError_eq_ok_iff.mp hartifacts)⟩

theorem verifyScorecardRecord_ok {u : Unit}
    (h : verifyScorecardRecordArtifactChecksums area ctx hashes (showRun ctx.sha256 found.artifacts registry)
      found.robustness store record = .ok u) :
    hashes.scorecardEvidence record = record.evidenceContentHash ∧
      PinnedRun scorecardRecords ctx found registry record.runId record.artifactChecksums record.robustnessRunIds ∧
      RestsOnGate ctx hashes found registry store record := by
  obtain ⟨_, -, h⟩ := except_bind_eq_ok.mp h
  obtain ⟨_, hevidence, h⟩ := except_bind_eq_ok.mp h
  obtain ⟨_, hartifacts, h⟩ := except_bind_eq_ok.mp h
  obtain ⟨_, -, h⟩ := except_bind_eq_ok.mp h
  rw [reject_ok_iff, decide_eq_false_iff_not, not_not] at hevidence
  refine ⟨hevidence, pinnedRun_iff.mp hartifacts, fun gateRunId hgate hne => ?_⟩
  rw [hgate, Option.filter_some, if_pos (decide_eq_true hne)] at h
  exact verifyBoundGate_ok h

end Accepted

end TradingBot.Research.RecordVerification
