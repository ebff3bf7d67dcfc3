import TradingBot.Research.GateStore
import TradingBot.Research.Robustness

namespace TradingBot.Research.GateEvaluator

open Market.Models Exceptions Library.Dictionary Library.OverlayLog
open Research.Metrics Research.Artifacts Research.Registry Research.Gates Research.GateStore Research.Robustness
open Research.Registry.ExperimentRegistry (readRunManifest)
open Library.Outcome (except_bind_eq_ok mapError_eq_ok_iff forM_eq_ok_iff foldlM_ok_mem foldlM_preserves_mem
  foldlM_congr mapM_congr forM_congr)

/-- What an evaluation raises: an exception with the field it names, or one that it does not catch. -/
inductive EvaluationError
  | gateEvaluationError (message field reason : String)
  | scorecardEvaluationError (message field reason : String)
  | parameterAreaError (message : String)
  | research (error : ResearchError)
  | attributeError (message : String)
deriving DecidableEq, Repr

def reject (rejected : Bool) (error : EvaluationError) : Except EvaluationError Unit :=
  if rejected then .error error else .ok ()

theorem reject_ok_iff {rejected : Bool} {error : EvaluationError} {u : Unit} :
    reject rejected error = .ok u ↔ rejected = false := by
  cases rejected with
  | true => simp [reject]
  | false => simp [reject]

section Shown

/-- The entry that `show(run_id, verify=True)` gives, and the files of its directory. -/
structure ShownRun where
  entry : RegistryEntry
  directory : Tree
deriving DecidableEq, Repr

abbrev RunLookup := String → Except ResearchError ShownRun

def showRun (sha256 : Content → String) (artifacts : ArtifactStore) (registry : ExperimentRegistry) : RunLookup :=
  fun runId => do
    let entry ← registry.showEntry sha256 artifacts runId true
    pure ⟨entry, (artifacts.get? entry.artifactPath).getD {}⟩

/-- The fields of a run manifest that evaluations compare. -/
structure RunManifest where
  datasetId : String
  datasetContentHash : String
deriving DecidableEq, Repr

def loadRunManifest (tree : Tree) : Except ResearchError RunManifest := do
  let document ← readRunManifest tree
  match document.experimentId, document.runId, document.attemptId, document.strategyVersion,
    document.createdAtUtc, document.gitCommit, document.datasetId, document.datasetContentHash with
  | some _, some _, some _, some _, some _, some _, some datasetId, some datasetContentHash =>
    .ok ⟨datasetId, datasetContentHash⟩
  | _, _, _, _, _, _, _, _ => .error (.valueError "validation error for RunManifest")

def loadMetrics (tree : Tree) : Except ResearchError (Option ResearchMetrics) :=
  match tree.get? ["metrics.json"] with
  | none => .error (.fileNotFoundError "No such file or directory: 'metrics.json'")
  | some (.bytes _) => .error (.valueError "Expecting value")
  | some (.metrics document) => .ok (some document)
  | some _ => .ok none

def validateLoaded : Option ResearchMetrics → Except Exc ResearchMetrics
  | none => .error (.valueError "metrics schema/run validation failed")
  | some document => validateMetricsOrMarkInvalid document

end Shown

def statusValue : Research.Registry.Status → String
  | .complete => "complete"
  | .failed => "failed"
  | .invalidated => "invalidated"

def reprText : Option String → String
  | none => "None"
  | some text => "'" ++ text ++ "'"

def strText : Option String → String
  | none => "None"
  | some text => text

structure DatasetCatalogEntry where
  id : String
  datasetId : String
  contentHash : String
deriving DecidableEq, Repr

/-- The parts of an evaluation that no file and no run changes: the digests, and the lower quantile that the
bootstrap draws from an `equity.json` for a block length, a number of simulations, a seed and quantiles. -/
structure EvaluationContext where
  sha256 : Content → String
  digest : ManifestContent → String
  policyContentHash : GatePolicy → String
  gateRunId : String → String → String → List String → String
  bootstrapQ05 : Option Content → ℤ → ℤ → ℤ → List String → Except ResearchError (Option Decimal)

/-- What an evaluation finds besides the registry and the gate store. -/
structure Surroundings where
  artifacts : ArtifactStore := {}
  robustness : RobustnessFiles := {}
  catalog : List DatasetCatalogEntry := []
  evaluationCodeCommit : Except EvaluationError String := .ok ""
  utcNow : String := ""

structure GateRequest where
  runId : String
  policyVersion : String
  robustnessRunIds : List String := []
deriving DecidableEq, Repr

def evidenceError (message reason : String) : EvaluationError :=
  .gateEvaluationError message "robustness_run_ids" reason

def robustnessManifestSchemaVersion : String := "1.0"

section Seal

variable (digest : ManifestContent → String) (files : RobustnessFiles) (robustnessId : String)

def verifyRobustnessJobCompleted : Except EvaluationError Unit :=
  match files.jobs robustnessId with
  | none => .error (evidenceError ("robustness job " ++ robustnessId ++
      " is not registered (completed job with sealed manifest required)") "job missing")
  | some job => do
    reject (job.status ≠ .completed) (evidenceError ("robustness job " ++ robustnessId ++
      " is not completed (status=" ++ job.status.value ++ ")") ("status=" ++ job.status.value))
    reject (job.seal = "") (evidenceError ("robustness job " ++ robustnessId ++
      " has no manifest_content_hash seal") "manifest_content_hash missing")

/-- `_verify_robustness_manifest_seal`. -/
def verifyJobSeal : Except EvaluationError String :=
  match (files.jobs robustnessId).filter (·.seal ≠ "") with
  | none => .error (evidenceError ("robustness " ++ robustnessId ++
      " has no completed job seal (manifest_content_hash required; sidecar-only is not enough)") "job seal missing")
  | some job =>
    (files.verifyRobustnessManifestSeal digest robustnessId job.manifestContentHash).mapError fun e =>
      evidenceError ("robustness " ++ robustnessId ++ " manifest seal verification failed: " ++ errorText e)
        "manifest seal mismatch"

end Seal

section Evaluate

variable (lookup : RunLookup)

def resolveRun (runId : String) : Except EvaluationError (ShownRun × RunManifest × ResearchMetrics) := do
  let run ← (lookup runId).mapError fun
    | .keyError _ => .gateEvaluationError ("run_id not found in registry: " ++ runId) "run_id" "not found"
    | e => .research e
  let status := statusValue run.entry.status
  reject (run.entry.status ≠ .complete) (.gateEvaluationError ("run_id " ++ runId ++
    " is not in status 'complete' (status=" ++ status ++ ")") "run_id" ("status=" ++ status))
  let manifest ← (loadRunManifest run.directory).mapError .research
  let raw ← (loadMetrics run.directory).mapError .research
  let metrics ← (validateLoaded raw).mapError fun e =>
    .gateEvaluationError ("metrics.json failed contract validation for run_id " ++ runId ++ ": " ++ e.str)
      "run_id" "invalid metrics contract"
  pure (run, manifest, metrics)

variable (robustnessId : String)

def verifyRobustnessDatasetBinding (catalog : List DatasetCatalogEntry) (manifest : RobustnessManifest)
    (base : RunManifest) : Except EvaluationError Unit :=
  match manifest.datasetCatalogId.filter (strip · ≠ "") with
  | none => .ok ()
  | some catalogId =>
    match newest (·.id) catalogId catalog with
    | none => .error (evidenceError ("robustness " ++ robustnessId ++
        " references unknown dataset_catalog_id=" ++ reprText catalogId) "unknown dataset_catalog_id")
    | some entry => do
      reject (entry.datasetId ≠ base.datasetId) (evidenceError ("robustness " ++ robustnessId ++
        " dataset_id mismatch: catalog=" ++ reprText entry.datasetId ++ " base_run=" ++ reprText base.datasetId)
        "dataset_id mismatch")
      reject (entry.contentHash ≠ base.datasetContentHash) (evidenceError ("robustness " ++ robustnessId ++
        " dataset_content_hash mismatch: catalog=" ++ reprText entry.contentHash ++ " base_run=" ++
        reprText base.datasetContentHash) "dataset_content_hash mismatch")

def childStatus : ChildEntry → Except EvaluationError (Option String)
  | .object child => .ok child.status
  | .other => .error (.attributeError "object has no attribute 'get'")

def failedChildren (manifest : RobustnessManifest) (children : List ChildEntry) : Except EvaluationError ℤ :=
  match manifest.nFailed with
  | some n => .ok n
  | none => do
    let statuses ← children.mapM childStatus
    pure (statuses.countP (· ≠ some "complete"))

def childRunId (child : RobustnessChild) : Option String := child.runId.filter (· ≠ "")

def verifyChildRun (base : RunManifest) (runId : String) : Except EvaluationError Unit := do
  let run ← (lookup runId).mapError fun
    | .keyError _ => evidenceError ("robustness " ++ robustnessId ++ " child run_id not in registry: " ++ runId)
        "child run missing"
    | .valueError message => evidenceError ("robustness " ++ robustnessId ++ " child run_id checksum verify failed: " ++
        runId ++ ": " ++ message) "child checksum mismatch"
    | e => .research e
  reject (run.entry.status ≠ .complete) (evidenceError ("robustness " ++ robustnessId ++ " child run_id " ++ runId ++
    " is not complete (status=" ++ statusValue run.entry.status ++ ")") "child run incomplete")
  let manifest ← (loadRunManifest run.directory).mapError .research
  reject (manifest.datasetId ≠ base.datasetId) (evidenceError ("robustness " ++ robustnessId ++ " child " ++ runId ++
    " dataset_id mismatch vs base run") "child dataset_id mismatch")
  reject (manifest.datasetContentHash ≠ base.datasetContentHash) (evidenceError ("robustness " ++ robustnessId ++
    " child " ++ runId ++ " dataset_content_hash mismatch vs base run") "child dataset_content_hash mismatch")

def verifyRobustnessChild (base : RunManifest) : ChildEntry → Except EvaluationError Unit
  | .other => .error (evidenceError ("robustness " ++ robustnessId ++ " has invalid child entry") "invalid child")
  | .object child => do
    reject (child.status ≠ some "complete") (evidenceError ("robustness " ++ robustnessId ++ " child " ++
      reprText child.childId ++ " is not complete (status=" ++ strText child.status ++ ")") "incomplete children")
    match childRunId child with
    | none => .error (evidenceError ("robustness " ++ robustnessId ++ " complete child " ++ reprText child.childId ++
        " is missing run_id") "child run_id missing")
    | some runId => verifyChildRun lookup robustnessId base runId

def verifyRobustnessChildren (manifest : RobustnessManifest) (base : RunManifest) : Except EvaluationError Unit :=
  match manifest.children with
  | none => .error (evidenceError ("robustness " ++ robustnessId ++ " has invalid children payload")
      "invalid children")
  | some children => do
    let nFailed ← failedChildren manifest children
    reject (0 < nFailed) (evidenceError ("robustness " ++ robustnessId ++ " has incomplete children (n_failed=" ++
      toString nFailed ++ "); gate evaluation fails closed") "incomplete children")
    forM children (verifyRobustnessChild lookup robustnessId base)

def validateRobustnessManifest (catalog : List DatasetCatalogEntry) (manifest : RobustnessManifest)
    (runId : String) (base : RunManifest) : Except EvaluationError Unit := do
  let schemaVersion := manifest.schemaVersion.getD ""
  reject (schemaVersion ≠ robustnessManifestSchemaVersion) (evidenceError ("robustness " ++ robustnessId ++
    " has unsupported schema_version=" ++ reprText schemaVersion ++ " (expected " ++
    reprText robustnessManifestSchemaVersion ++ ")") "unsupported schema_version")
  let manifestId := manifest.robustnessId.getD ""
  reject (manifestId ≠ robustnessId) (evidenceError ("robustness manifest id mismatch: path=" ++
    reprText robustnessId ++ " manifest=" ++ reprText manifestId) "robustness_id mismatch")
  reject (manifest.baseRunId ≠ some runId) (evidenceError ("robustness " ++ robustnessId ++ " base_run_id=" ++
    reprText manifest.baseRunId ++ " does not match evaluated run_id=" ++ reprText runId ++
    " (cross-run evidence rejected)") "base_run_id mismatch")
  verifyRobustnessDatasetBinding robustnessId catalog manifest base
  verifyRobustnessChildren lookup robustnessId manifest base

structure RobustnessEvidence where
  robustnessId : String
  testType : String
  manifest : RobustnessManifest
  digest : String
deriving DecidableEq, Repr

variable (ctx : EvaluationContext) (found : Surroundings)

/-- One turn of the loop over the ids. -/
def loadEvidence (runId : String) (base : RunManifest) (seen : List RobustnessEvidence) :
    Except EvaluationError (List RobustnessEvidence) :=
  match found.robustness.manifests robustnessId with
  | none => .error (evidenceError ("robustness manifest not found: " ++ robustnessId) ("missing: " ++ robustnessId))
  | some content => do
    verifyRobustnessJobCompleted found.robustness robustnessId
    let digest ← verifyJobSeal ctx.digest found.robustness robustnessId
    match content with
    | .bytes _ => .error (.research (.valueError "Expecting value"))
    | .notAnObject => .error (evidenceError ("robustness manifest is not an object: " ++ robustnessId)
        "invalid manifest")
    | .object manifest => do
      validateRobustnessManifest lookup robustnessId found.catalog manifest runId base
      let testType := manifest.testType.getD ""
      reject (testType = "") (evidenceError ("robustness " ++ robustnessId ++ " is missing test_type")
        "missing test_type")
      match newest (·.testType) testType seen with
      | some prior => .error (evidenceError ("duplicate robustness test_type=" ++ reprText testType ++ ": " ++
          prior.robustnessId ++ " and " ++ robustnessId ++ " (refusing silent overwrite)")
          ("duplicate test_type=" ++ testType))
      | none => .ok (seen ++ [⟨robustnessId, testType, manifest, digest⟩])

def loadRobustnessEvidence (robustnessRunIds : List String) (runId : String) (base : RunManifest) :
    Except EvaluationError (List RobustnessEvidence) := do
  reject (¬robustnessRunIds.Nodup) (evidenceError "duplicate robustness_run_ids are not allowed" "duplicates")
  robustnessRunIds.foldlM (fun seen robustnessId => loadEvidence lookup robustnessId ctx found runId base seen) []

/-- The result that counts is the sealed one of the child, not the copy in the manifest. The two numbers are
left out of the text of the mismatch, as they are below. -/
def childNetPnlFromVerifiedRun (child : RobustnessChild) : Except EvaluationError Decimal :=
  match childRunId child with
  | none => .error (evidenceError ("robustness " ++ robustnessId ++ " child " ++ reprText child.childId ++
      " is missing run_id") "child run_id missing")
  | some runId => do
    let run ← (lookup runId).mapError fun
      | .keyError _ => evidenceError ("robustness " ++ robustnessId ++ " child run_id not in registry: " ++ runId)
          "child run missing"
      | e => evidenceError ("robustness " ++ robustnessId ++ " child run_id checksum verify failed: " ++ runId ++
          ": " ++ errorText e) "child checksum mismatch"
    let invalid := fun text => evidenceError ("robustness " ++ robustnessId ++ " child " ++ runId ++
      " metrics.json failed validation: " ++ text) "child metrics invalid"
    let raw ← (loadMetrics run.directory).mapError fun e => invalid (errorText e)
    let metrics ← (validateLoaded raw).mapError fun e => invalid e.str
    reject (child.netPnl.any (· ≠ metrics.netPnl)) (evidenceError ("robustness " ++ robustnessId ++ " child " ++
      reprText child.childId ++ " manifest net_pnl disagrees with sealed metrics.json net_pnl (fail closed)")
      "child net_pnl mismatch")
    pure metrics.netPnl

def bootstrapQ05FromSealedEquity (manifest : RobustnessManifest) (baseRunId : String) :
    Except EvaluationError Decimal := do
  let fail := fun message reason => evidenceError ("robustness " ++ robustnessId ++ message) reason
  match manifest.config with
  | none => .error (fail " bootstrap config is invalid" "invalid bootstrap config")
  | some config =>
    match config.blockLength, config.nSimulations, config.seed with
    | some blockLength, some nSimulations, some seed =>
      match config.quantiles with
      | none => .error (fail " bootstrap quantiles invalid" "invalid bootstrap quantiles")
      | some quantiles => do
        let run ← (lookup baseRunId).mapError fun
          | .keyError _ => fail (" base_run_id not in registry: " ++ baseRunId) "base run missing"
          | e => fail (" base_run_id checksum verify failed: " ++ baseRunId ++ ": " ++ errorText e)
              "base checksum mismatch"
        let recomputed ← (ctx.bootstrapQ05 (run.directory.get? ["equity.json"]) blockLength nSimulations seed
          quantiles).mapError fun e => fail (" bootstrap recompute from equity.json failed: " ++ errorText e)
            "bootstrap recompute failed"
        match recomputed, manifest.bootstrapQ05 with
        | none, _ => .error (fail " bootstrap recompute missing q05" "bootstrap q05 missing")
        | some _, none => .error (fail " sealed bootstrap_result missing q05" "sealed bootstrap q05 missing")
        | some recomputed, some sealedQ05 => do
          reject (1 / 10 ^ 9 < |sealedQ05 - recomputed|)
            (fail " sealed bootstrap q05 disagrees with recomputation (fail closed)" "bootstrap q05 mismatch")
          pure recomputed
    | _, _, _ => .error (fail " bootstrap config missing block_length/n_simulations/seed"
        "incomplete bootstrap config")

def completeChildren (manifest : RobustnessManifest) : List RobustnessChild :=
  (manifest.children.getD []).filterMap fun
    | .object child => if child.status = some "complete" then some child else none
    | .other => none

def passRatio (pnls : List Decimal) : Option Decimal :=
  if pnls = [] then none else some (decimalResult (pnls.countP (0 ≤ ·) / pnls.length))

def measurementsFromRobustnessManifest (evidence : RobustnessEvidence) (baseRunId : String) :
    Except EvaluationError (List (RobustnessTest × Decimal)) := do
  let complete := completeChildren evidence.manifest
  let netPnl := childNetPnlFromVerifiedRun lookup evidence.robustnessId
  match evidence.testType with
  | "walk_forward" => do
    let pnls ← complete.mapM netPnl
    pure ((passRatio pnls).toList.map (.walkForward, ·))
  | "cost_stress" => do
    let pnls ← (complete.filter (·.childId = some "combined_elevated")).mapM netPnl
    pure (pnls.getLast?.toList.map (.costStress, ·))
  | "parameter_stability" => do
    let pnls ← (complete.filter (·.childId ≠ some "frozen")).mapM netPnl
    pure ((passRatio pnls).toList.map (.parameterStability, ·))
  | "bootstrap" => do
    let q05 ← bootstrapQ05FromSealedEquity lookup evidence.robustnessId ctx evidence.manifest baseRunId
    pure [(.bootstrap, q05)]
  | _ => pure []

end Evaluate

def robustnessKey (robustnessId : String) : RelPath :=
  "robustness" :: (robustnessId.toList.splitOn '/').map String.ofList ++ ["manifest.json"]

def boundChecksums (checksums : Checksums) (evidence : List RobustnessEvidence) : Checksums :=
  evidence.foldl (fun checksums e => checksums.set (robustnessKey e.robustnessId) e.digest) checksums

section Record

variable (lookup : RunLookup) (ctx : EvaluationContext) (found : Surroundings) (request : GateRequest)

def evaluateRecord : Except EvaluationError GateRunRecord := do
  let policy ← (getPolicy request.policyVersion).mapError fun e =>
    .gateEvaluationError e.str "policy_version" "unknown"
  let (run, manifest, metrics) ← resolveRun lookup request.runId
  let evidence ← loadRobustnessEvidence lookup ctx found request.robustnessRunIds request.runId manifest
  let measured ← (evidence.insertionSort fun a b => a.testType ≤ b.testType).mapM fun e =>
    measurementsFromRobustnessManifest lookup ctx e request.runId
  let measurements := mergeMeasurements (measurementsFromMetrics metrics) measured.flatten
  let gates := evaluateGates policy measurements
  let _ ← found.evaluationCodeCommit
  let policyContentHash := ctx.policyContentHash policy
  let robustnessRunIds := request.robustnessRunIds.insertionSort (· ≤ ·)
  pure
    { gateRunId := ctx.gateRunId request.runId request.policyVersion policyContentHash robustnessRunIds
      policyVersion := request.policyVersion
      policyContentHash
      evaluatedAt := found.utcNow
      experimentId := run.entry.experimentId
      runId := request.runId
      robustnessRunIds
      datasetId := manifest.datasetId
      datasetContentHash := manifest.datasetContentHash
      artifactChecksums := boundChecksums run.entry.checksums evidence
      measurements
      gates
      overallStatus := overallStatusFromGates gates }

/-- What becomes of a record: the active one under its id is handed out, else it is appended. -/
def storeRecord (store : GateResultStore) (record : GateRunRecord) :
    Except EvaluationError (GateRunRecord × GateResultStore) :=
  match store.get record.gateRunId with
  | some existing =>
    match existing.status with
    | .active => .ok (existing, store)
    | .invalidated => .error (.gateEvaluationError ("gate_run_id " ++ record.gateRunId ++
        " was invalidated; re-evaluate of the same evidence is refused") "gate_run_id" "invalidated")
  | none => do
    let store' ← (store.append record).mapError fun e =>
      .gateEvaluationError (errorText e) "gate_run_id" "append rejected"
    pure (record, store')

end Record

def evaluate (ctx : EvaluationContext) (registry : ExperimentRegistry) (store : GateResultStore)
    (found : Surroundings) (request : GateRequest) : Except EvaluationError (GateRunRecord × GateResultStore) := do
  let record ← evaluateRecord (showRun ctx.sha256 found.artifacts registry) ctx found request
  storeRecord store record

section UsedRuns

def childRunIds : ManifestContent → List String
  | .object manifest => (manifest.children.getD []).filterMap fun
    | .object child => childRunId child
    | .other => none
  | _ => []

def usedRuns (found : Surroundings) (request : GateRequest) : List String :=
  request.runId :: request.robustnessRunIds.flatMap fun robustnessId =>
    ((found.robustness.manifests robustnessId).map childRunIds).getD []

variable {lookup lookup' : RunLookup} {ctx : EvaluationContext} {found : Surroundings} {request : GateRequest}
  {runId robustnessId : String} {base : RunManifest} {manifest : RobustnessManifest} {child : RobustnessChild}

theorem mem_childRunIds (hchild : .object child ∈ manifest.children.getD []) (hrun : childRunId child = some runId) :
    runId ∈ childRunIds (.object manifest) :=
  List.mem_filterMap.mpr ⟨.object child, hchild, hrun⟩

theorem mem_usedRuns (hid : robustnessId ∈ request.robustnessRunIds)
    (hmanifest : found.robustness.manifests robustnessId = some (.object manifest))
    (hrun : runId ∈ childRunIds (.object manifest)) : runId ∈ usedRuns found request := by
  refine List.mem_cons_of_mem _ (List.mem_flatMap.mpr ⟨robustnessId, hid, ?_⟩)
  rw [hmanifest]
  exact hrun

def ShownComplete (lookup : RunLookup) (runId : String) : Prop :=
  ∃ run, lookup runId = .ok run ∧ run.entry.status = .complete

def ShownBound (lookup : RunLookup) (base : RunManifest) (runId : String) : Prop :=
  ∃ run, lookup runId = .ok run ∧ run.entry.status = .complete ∧ loadRunManifest run.directory = .ok base

theorem ShownBound.complete (h : ShownBound lookup base runId) : ShownComplete lookup runId := by
  obtain ⟨run, hrun, hstatus, -⟩ := h
  exact ⟨run, hrun, hstatus⟩

def SealedMetrics (lookup : RunLookup) (runId : String) (metrics : ResearchMetrics) : Prop :=
  ∃ run document, lookup runId = .ok run ∧ loadMetrics run.directory = .ok document ∧
    validateLoaded document = .ok metrics

theorem resolveRun_ok {run : ShownRun} {metrics : ResearchMetrics}
    (h : resolveRun lookup runId = .ok (run, base, metrics)) :
    ShownBound lookup base runId ∧ SealedMetrics lookup runId metrics := by
  obtain ⟨run', hrun, h⟩ := except_bind_eq_ok.mp h
  obtain ⟨_, hstatus, h⟩ := except_bind_eq_ok.mp h
  obtain ⟨manifest, hmanifest, h⟩ := except_bind_eq_ok.mp h
  obtain ⟨document, hdocument, h⟩ := except_bind_eq_ok.mp h
  obtain ⟨_, hmetrics, h⟩ := except_bind_eq_ok.mp h
  cases h
  rw [reject_ok_iff, decide_eq_false_iff_not, not_not] at hstatus
  have hrun := mapError_eq_ok_iff.mp hrun
  exact ⟨⟨run, hrun, hstatus, mapError_eq_ok_iff.mp hmanifest⟩,
    run, document, hrun, mapError_eq_ok_iff.mp hdocument, mapError_eq_ok_iff.mp hmetrics⟩

theorem verifyChildRun_ok {u : Unit} (h : verifyChildRun lookup robustnessId base runId = .ok u) :
    ShownBound lookup base runId := by
  obtain ⟨run, hrun, h⟩ := except_bind_eq_ok.mp h
  obtain ⟨_, hstatus, h⟩ := except_bind_eq_ok.mp h
  obtain ⟨manifest, hmanifest, h⟩ := except_bind_eq_ok.mp h
  obtain ⟨_, hdataset, hhash⟩ := except_bind_eq_ok.mp h
  rw [reject_ok_iff, decide_eq_false_iff_not, not_not] at hstatus hdataset hhash
  have hsame : manifest = base := by
    cases manifest
    cases base
    exact congrArg₂ RunManifest.mk hdataset hhash
  rw [← hsame]
  exact ⟨run, mapError_eq_ok_iff.mp hrun, hstatus, mapError_eq_ok_iff.mp hmanifest⟩

theorem verifyRobustnessChildren_ok {u : Unit}
    (h : verifyRobustnessChildren lookup robustnessId manifest base = .ok u) :
    ∀ runId ∈ childRunIds (.object manifest), ShownBound lookup base runId := by
  intro runId hrun
  obtain ⟨entry, hentry, hentryRun⟩ := List.mem_filterMap.mp hrun
  unfold verifyRobustnessChildren at h
  cases hchildren : manifest.children with
  | none =>
    rw [hchildren] at hentry
    exact absurd hentry List.not_mem_nil
  | some children =>
    rw [hchildren] at h hentry
    obtain ⟨_, -, h⟩ := except_bind_eq_ok.mp h
    obtain ⟨_, -, h⟩ := except_bind_eq_ok.mp h
    have hentryOk := forM_eq_ok_iff.mp h entry hentry
    cases entry with
    | other => cases hentryRun
    | object child =>
      obtain ⟨_, -, hchild⟩ := except_bind_eq_ok.mp hentryOk
      rw [show childRunId child = some runId from hentryRun] at hchild
      exact verifyChildRun_ok hchild

structure Loaded (lookup : RunLookup) (ctx : EvaluationContext) (found : Surroundings) (runId : String)
    (base : RunManifest) (robustnessId : String) (e : RobustnessEvidence) : Prop where
  id : e.robustnessId = robustnessId
  manifest : found.robustness.manifests robustnessId = some (.object e.manifest)
  completed : verifyRobustnessJobCompleted found.robustness robustnessId = .ok ()
  sealed : verifyJobSeal ctx.digest found.robustness robustnessId = .ok e.digest
  valid : validateRobustnessManifest lookup robustnessId found.catalog e.manifest runId base = .ok ()
  testType : e.testType = e.manifest.testType.getD ""
  tested : e.testType ≠ ""

theorem loadEvidence_ok_iff {seen seen' : List RobustnessEvidence} :
    loadEvidence lookup robustnessId ctx found runId base seen = .ok seen' ↔
      ∃ e, Loaded lookup ctx found runId base robustnessId e ∧ newest (·.testType) e.testType seen = none ∧
        seen' = seen ++ [e] := by
  unfold loadEvidence
  constructor
  · intro h
    cases hcontent : found.robustness.manifests robustnessId with
    | none =>
      rw [hcontent] at h
      cases h
    | some content =>
      rw [hcontent] at h
      obtain ⟨_, hcompleted, h⟩ := except_bind_eq_ok.mp h
      obtain ⟨digest, hsealed, h⟩ := except_bind_eq_ok.mp h
      cases content with
      | bytes data => cases h
      | notAnObject => cases h
      | object manifest =>
        obtain ⟨_, hvalid, h⟩ := except_bind_eq_ok.mp h
        obtain ⟨_, htested, h⟩ := except_bind_eq_ok.mp h
        rw [reject_ok_iff, decide_eq_false_iff_not] at htested
        cases hprior : newest (·.testType) (manifest.testType.getD "") seen with
        | some prior =>
          simp only [hprior] at h
          cases h
        | none =>
          simp only [hprior] at h
          cases h
          exact ⟨⟨robustnessId, manifest.testType.getD "", manifest, digest⟩,
            ⟨rfl, hcontent, hcompleted, hsealed, hvalid, rfl, htested⟩, hprior, rfl⟩
  · rintro ⟨e, he, hnew, rfl⟩
    obtain ⟨rfl, hmanifest, hcompleted, hsealed, hvalid, htype, htested⟩ := he
    rw [hmanifest]
    refine except_bind_eq_ok.mpr ⟨(), hcompleted, except_bind_eq_ok.mpr ⟨e.digest, hsealed, ?_⟩⟩
    refine except_bind_eq_ok.mpr ⟨(), hvalid, ?_⟩
    simp only [← htype]
    refine except_bind_eq_ok.mpr ⟨(), reject_ok_iff.mpr (decide_eq_false htested), ?_⟩
    simp only [hnew]

theorem Loaded.bound {e : RobustnessEvidence} (h : Loaded lookup ctx found runId base robustnessId e) :
    e.manifest.baseRunId = some runId ∧
      ∀ childRunId ∈ childRunIds (.object e.manifest), ShownBound lookup base childRunId := by
  obtain ⟨_, -, hvalid⟩ := except_bind_eq_ok.mp h.valid
  obtain ⟨_, -, hvalid⟩ := except_bind_eq_ok.mp hvalid
  obtain ⟨_, hbase, hvalid⟩ := except_bind_eq_ok.mp hvalid
  obtain ⟨_, -, hvalid⟩ := except_bind_eq_ok.mp hvalid
  rw [reject_ok_iff, decide_eq_false_iff_not, not_not] at hbase
  exact ⟨hbase, verifyRobustnessChildren_ok hvalid⟩

def FromManifests (found : Surroundings) (ids : List String) (evidence : List RobustnessEvidence) : Prop :=
  ∀ e ∈ evidence, e.robustnessId ∈ ids ∧ found.robustness.manifests e.robustnessId = some (.object e.manifest)

theorem loadRobustnessEvidence_from {ids : List String} {evidence : List RobustnessEvidence}
    (h : loadRobustnessEvidence lookup ctx found ids runId base = .ok evidence) : FromManifests found ids evidence := by
  obtain ⟨_, -, h⟩ := except_bind_eq_ok.mp h
  have hturns : ∀ seen, ∀ robustnessId ∈ ids, ∀ seen', FromManifests found ids seen →
      loadEvidence lookup robustnessId ctx found runId base seen = .ok seen' → FromManifests found ids seen' := by
    intro seen robustnessId hid seen' hseen hturn
    obtain ⟨new, hnew, -, rfl⟩ := loadEvidence_ok_iff.mp hturn
    intro e he
    rcases List.mem_append.mp he with he | he
    · exact hseen e he
    · rw [List.mem_singleton.mp he, hnew.id]
      exact ⟨hid, hnew.manifest⟩
  exact foldlM_preserves_mem hturns (by simp [FromManifests]) h

theorem evaluateRecord_bound {record : GateRunRecord} {run : ShownRun} {metrics : ResearchMetrics}
    (hresolved : resolveRun lookup request.runId = .ok (run, base, metrics))
    (h : evaluateRecord lookup ctx found request = .ok record) :
    ∀ runId ∈ usedRuns found request, ShownBound lookup base runId := by
  obtain ⟨policy, -, h⟩ := except_bind_eq_ok.mp h
  obtain ⟨_, hagain, h⟩ := except_bind_eq_ok.mp h
  obtain rfl := Except.ok.inj (hresolved.symm.trans hagain)
  obtain ⟨evidence, hevidence, -⟩ := except_bind_eq_ok.mp h
  obtain ⟨_, -, hloop⟩ := except_bind_eq_ok.mp hevidence
  refine List.forall_mem_cons.mpr ⟨(resolveRun_ok hresolved).1, fun runId hrun => ?_⟩
  obtain ⟨robustnessId, hid, hrun⟩ := List.mem_flatMap.mp hrun
  obtain ⟨seen, seen', hturn⟩ := foldlM_ok_mem hloop hid
  obtain ⟨e, he, -⟩ := loadEvidence_ok_iff.mp hturn
  rw [he.manifest] at hrun
  exact he.bound.2 runId hrun

theorem evaluateRecord_ok {record : GateRunRecord} (h : evaluateRecord lookup ctx found request = .ok record) :
    ∃ base, ∀ runId ∈ usedRuns found request, ShownBound lookup base runId := by
  obtain ⟨_, -, hresolved⟩ := except_bind_eq_ok.mp h
  obtain ⟨⟨run, base, metrics⟩, hresolved, -⟩ := except_bind_eq_ok.mp hresolved
  exact ⟨base, evaluateRecord_bound hresolved h⟩

end UsedRuns

section Congruence

variable {lookup lookup' : RunLookup} {ctx : EvaluationContext} {found : Surroundings} {request : GateRequest}
  {runId robustnessId : String} {base : RunManifest} {manifest : RobustnessManifest} {child : RobustnessChild}

theorem resolveRun_congr (h : lookup runId = lookup' runId) : resolveRun lookup runId = resolveRun lookup' runId := by
  unfold resolveRun
  rw [h]

theorem verifyRobustnessChildren_congr (h : ∀ runId ∈ childRunIds (.object manifest), lookup runId = lookup' runId) :
    verifyRobustnessChildren lookup robustnessId manifest base =
      verifyRobustnessChildren lookup' robustnessId manifest base := by
  unfold verifyRobustnessChildren
  cases hchildren : manifest.children with
  | none => rfl
  | some children =>
    have hturns : ∀ entry ∈ children, verifyRobustnessChild lookup robustnessId base entry =
        verifyRobustnessChild lookup' robustnessId base entry := by
      intro entry hentry
      cases entry with
      | other => rfl
      | object child =>
        cases hrun : childRunId child with
        | none => simp only [verifyRobustnessChild, hrun]
        | some runId =>
          have hmem : runId ∈ childRunIds (.object manifest) := mem_childRunIds (by rwa [hchildren]) hrun
          simp only [verifyRobustnessChild, hrun, verifyChildRun, h runId hmem]
    simp only [forM_congr hturns]

theorem loadEvidence_congr {seen : List RobustnessEvidence}
    (h : ∀ manifest, found.robustness.manifests robustnessId = some (.object manifest) →
      ∀ runId ∈ childRunIds (.object manifest), lookup runId = lookup' runId) :
    loadEvidence lookup robustnessId ctx found runId base seen =
      loadEvidence lookup' robustnessId ctx found runId base seen := by
  unfold loadEvidence
  cases hcontent : found.robustness.manifests robustnessId with
  | none => rfl
  | some content =>
    cases content with
    | bytes data => rfl
    | notAnObject => rfl
    | object manifest => simp only [validateRobustnessManifest, verifyRobustnessChildren_congr (h manifest hcontent)]

theorem childNetPnl_congr (h : ∀ runId, childRunId child = some runId → lookup runId = lookup' runId) :
    childNetPnlFromVerifiedRun lookup robustnessId child = childNetPnlFromVerifiedRun lookup' robustnessId child := by
  unfold childNetPnlFromVerifiedRun
  cases hrun : childRunId child with
  | none => rfl
  | some runId => simp only [h runId hrun]

theorem mem_completeChildren (h : child ∈ completeChildren manifest) :
    .object child ∈ manifest.children.getD [] := by
  obtain ⟨entry, hentry, hchild⟩ := List.mem_filterMap.mp h
  cases entry with
  | other => cases hchild
  | object child' =>
    simp only [Option.ite_none_right_eq_some, Option.some.injEq] at hchild
    obtain ⟨-, rfl⟩ := hchild
    exact hentry

theorem measurements_congr {evidence : RobustnessEvidence} (hbase : lookup runId = lookup' runId)
    (h : ∀ runId ∈ childRunIds (.object evidence.manifest), lookup runId = lookup' runId) :
    measurementsFromRobustnessManifest lookup ctx evidence runId =
      measurementsFromRobustnessManifest lookup' ctx evidence runId := by
  have hchild : ∀ child ∈ completeChildren evidence.manifest,
      childNetPnlFromVerifiedRun lookup evidence.robustnessId child =
        childNetPnlFromVerifiedRun lookup' evidence.robustnessId child := by
    intro child hmem
    exact childNetPnl_congr fun runId hrun => h runId (mem_childRunIds (mem_completeChildren hmem) hrun)
  have hfiltered : ∀ p : RobustnessChild → Bool,
      ((completeChildren evidence.manifest).filter p).mapM (childNetPnlFromVerifiedRun lookup evidence.robustnessId) =
        ((completeChildren evidence.manifest).filter p).mapM
          (childNetPnlFromVerifiedRun lookup' evidence.robustnessId) :=
    fun p => mapM_congr fun child hmem => hchild child (List.mem_filter.mp hmem).1
  unfold measurementsFromRobustnessManifest
  simp only [mapM_congr hchild, hfiltered, bootstrapQ05FromSealedEquity, hbase]

theorem evaluateRecord_congr (h : ∀ runId ∈ usedRuns found request, lookup runId = lookup' runId) :
    evaluateRecord lookup ctx found request = evaluateRecord lookup' ctx found request := by
  have hbase : lookup request.runId = lookup' request.runId := h _ List.mem_cons_self
  unfold evaluateRecord
  rw [resolveRun_congr hbase]
  congr 1
  funext policy
  congr 1
  funext ⟨run, base, metrics⟩
  have hload : loadRobustnessEvidence lookup ctx found request.robustnessRunIds request.runId base =
      loadRobustnessEvidence lookup' ctx found request.robustnessRunIds request.runId base := by
    unfold loadRobustnessEvidence
    congr 1
    funext u
    refine foldlM_congr (fun robustnessId hid seen => ?_) []
    exact loadEvidence_congr fun manifest hmanifest runId hrun => h runId (mem_usedRuns hid hmanifest hrun)
  simp only [hload]
  cases hevidence : loadRobustnessEvidence lookup' ctx found request.robustnessRunIds request.runId base with
  | error e => rfl
  | ok evidence =>
    have hmeasured : ((evidence.insertionSort fun a b => a.testType ≤ b.testType).mapM fun e =>
        measurementsFromRobustnessManifest lookup ctx e request.runId) =
        (evidence.insertionSort fun a b => a.testType ≤ b.testType).mapM fun e =>
          measurementsFromRobustnessManifest lookup' ctx e request.runId := by
      refine mapM_congr fun e he => measurements_congr hbase fun runId hrun => ?_
      obtain ⟨hid, hmanifest⟩ := loadRobustnessEvidence_from hevidence e ((List.mem_insertionSort _).mp he)
      exact h runId (mem_usedRuns hid hmanifest hrun)
    simp only [bind, Except.bind, hmeasured]

end Congruence

end TradingBot.Research.GateEvaluator
