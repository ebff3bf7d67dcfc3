import TradingBot.Library.Digests
import TradingBot.Research.ScorecardStore
import TradingBot.Research.ValidationStudy

namespace TradingBot.Research.StudyIdentity

open Library.Dictionary Library.OverlayLog Research.Artifacts Research.Registry Research.Robustness
open Research.GateStore Research.ScorecardStore Research.GateEvaluator
open Research.RecordVerification (AreaContext RecordHashes gateStatusValue verifyPolicyContentHash
  verifyGateRecordArtifactChecksums verifyScorecardRecordArtifactChecksums)
open Research.Registry.ExperimentRegistry (readRunManifest)
open Library.Outcome (except_bind_eq_ok mapError_eq_ok_iff mapM_eq_ok_iff mapM_congr)

/-- What a creation raises: a refusal with the fields it names, or an exception that it does not catch. -/
inductive StudyError
  | writeError (message : String) (fieldErrors : List (String × String))
  | valueError (message : String)
  | evaluation (error : EvaluationError)
deriving DecidableEq, Repr

section Pins

structure PinnedRunEvidence where
  experimentId : String
  runId : String
  checksumsDigest : String
  datasetId : String
  datasetContentHash : String
  gitCommit : String
deriving DecidableEq, Repr

structure PinnedRobustnessEvidence where
  robustnessId : String
  manifestHash : String
deriving DecidableEq, Repr

structure PinnedGateEvidence where
  gateRunId : String
  contentHash : String
deriving DecidableEq, Repr

structure PinnedScorecardEvidence where
  scorecardId : String
  contentHash : String
deriving DecidableEq, Repr

/-- What a snapshot binds, and what its id is computed from. -/
@[ext]
structure StudyEvidenceSnapshot where
  primary : PinnedRunEvidence
  additional : List PinnedRunEvidence
  robustness : List PinnedRobustnessEvidence
  gates : List PinnedGateEvidence
  scorecards : List PinnedScorecardEvidence
deriving DecidableEq, Repr

structure StudyKey where
  experimentId : String
  runId : String
  additionalExperiments : List (String × String)
  robustnessIds : List String
  gateRunIds : List String
  scorecardIds : List String
  evidenceSnapshotId : String
deriving DecidableEq, Repr

end Pins

section Request

/-- A list of ids in the body of a request; `other` is a value that is no list. -/
inductive RawIds
  | missing
  | ids (items : List String)
  | other
deriving DecidableEq, Repr

/-- The fields of a request, texts that are missing as the empty text. -/
structure StudyPayload where
  experimentId : String := ""
  additionalExperimentIds : RawIds := .missing
  robustnessIds : RawIds := .missing
  gateRunIds : RawIds := .missing
  scorecardIds : RawIds := .missing
  name : String := ""
  notes : String := ""
deriving DecidableEq, Repr

def isIdChar (c : Char) : Bool := c.isAlphanum || ['.', '_', '-'].contains c

def assertSafeId (field value : String) : Except String String :=
  match value.toList with
  | first :: rest =>
    if first.isAlphanum && rest.length ≤ 127 && rest.all isIdChar then .ok value else .error ("invalid " ++ field)
  | [] => .error ("invalid " ++ field)

def cleanIdList (field : String) : RawIds → Except StudyError (List String)
  | .missing => .ok []
  | .ids items => items.mapM fun item => (assertSafeId field item).mapError fun text => .writeError text [(field, text)]
  | .other => .error (.writeError (field ++ " muss eine Liste sein") [(field, "muss Liste sein")])

end Request

/-- The parts of a creation that read no file: the settings of the evaluations, the digests, and the hashes of
the registered scorecard policies by their versions. -/
structure StudySettings where
  area : AreaContext
  evaluation : EvaluationContext
  hashes : RecordHashes
  scorecardPolicyHash : String → Option String
  checksumsDigest : Checksums → String
  snapshotDigest : StudyEvidenceSnapshot → String
  studyDigest : StudyKey → String

/-- A record of a study; the strategy id, which is only shown, is left out. -/
structure StudyRecord extends ValidationStudy.StudyRecord where
  createdAt : String
  name : String
  strategyVersion : Option String
  experimentId : String
  runId : String
  additionalExperimentIds : List String
  additionalRunIds : List String
  robustnessIds : List String
  gateRunIds : List String
  scorecardIds : List String
  evidenceSnapshot : StudyEvidenceSnapshot
  notes : String
deriving DecidableEq, Repr

/-- What a creation finds on the disk; the studies are the lines of `validation/registry.jsonl`. -/
structure ValidationStudyService where
  registry : ExperimentRegistry := {}
  artifacts : ArtifactStore := {}
  robustness : RobustnessFiles := {}
  gates : GateResultStore := {}
  scorecards : ScorecardResultStore := {}
  studies : List StudyRecord := []

namespace ValidationStudyService

variable (settings : StudySettings) (service : ValidationStudyService)

/-- `store.get`. -/
def getStudy (studyId : String) : Option StudyRecord := newest (·.studyId) studyId service.studies

def latestStatusByRun (registry : ExperimentRegistry) (experimentId : String) : Dict String RegistryEntry :=
  byKey (·.runId) (registry.listEntries.filter (·.experimentId = experimentId))

def resolveCompleteEntry (registry : ExperimentRegistry) (field experimentId : String) :
    Except StudyError RegistryEntry :=
  let entries := (latestStatusByRun registry experimentId).values
  if entries = [] then
    .error (.writeError ("Experiment " ++ reprText experimentId ++ " ist nicht in der Registry bekannt " ++
      "(nur abgeschlossene Läufe können referenziert werden)") [(field, "unbekannt")])
  else
    match (entries.filter (·.status = .complete)).argmax (·.createdAt) with
    | some entry => .ok entry
    | none =>
      let statuses := ((entries.map fun e => statusValue e.status).dedup).insertionSort (· ≤ ·)
      .error (.writeError ("Experiment " ++ reprText experimentId ++ " hat keinen complete-Lauf (aktueller Status: " ++
        ", ".intercalate statuses ++ ")") [(field, "status=" ++ statuses.headD "")])

def loadPinnedManifest (tree : Tree) : Except ResearchError (RunManifest × String) := do
  let document ← readRunManifest tree
  let manifest ← loadRunManifest tree
  match document.gitCommit with
  | some gitCommit => .ok (manifest, gitCommit)
  | none => .error (.valueError "validation error for RunManifest")

def pinRun (field runId : String) : Except StudyError PinnedRunEvidence := do
  let verified ← (service.registry.showEntry settings.evaluation.sha256 service.artifacts runId true).mapError fun e =>
    .writeError ("run_id " ++ reprText runId ++ " Artefakte nicht verifizierbar: " ++ errorText e)
      [(field, "checksum verify failed")]
  if verified.status ≠ .complete then
    .error (.writeError ("run_id " ++ reprText runId ++ " ist nicht complete (status=" ++
      statusValue verified.status ++ ")") [(field, "status=" ++ statusValue verified.status)])
  else do
    let (manifest, gitCommit) ← (loadPinnedManifest ((service.artifacts.get? verified.artifactPath).getD {})).mapError
      fun _ => .writeError ("run_id " ++ reprText runId ++ ": RunManifest fehlt oder ungültig")
        [(field, "missing run_manifest")]
    pure
      { experimentId := verified.experimentId
        runId := verified.runId
        checksumsDigest := settings.checksumsDigest verified.checksums
        datasetId := manifest.datasetId
        datasetContentHash := manifest.datasetContentHash
        gitCommit }

def pinRunEvidence (field : String) (entry : RegistryEntry) : Except StudyError PinnedRunEvidence :=
  if entry.status ≠ .complete then
    .error (.writeError ("run_id " ++ reprText entry.runId ++ " ist nicht complete (status=" ++
      statusValue entry.status ++ ")") [(field, "status=" ++ statusValue entry.status)])
  else service.pinRun settings field entry.runId

/-- One turn of the loop over the additional experiments. -/
def pinExperiment (field experimentId : String) : Except StudyError PinnedRunEvidence := do
  let entry ← resolveCompleteEntry service.registry field experimentId
  service.pinRunEvidence settings field entry

def pinRobustness (pinnedRunIds : List String) (robustnessId : String) : Except StudyError PinnedRobustnessEvidence :=
  match service.robustness.jobs robustnessId with
  | none => .error (.writeError ("Robustheitstest " ++ reprText robustnessId ++ " ist unbekannt")
      [("robustness_ids", "unbekannt: " ++ robustnessId)])
  | some job =>
    if job.status ≠ .completed then
      .error (.writeError ("Robustheitstest " ++ reprText robustnessId ++ " ist nicht completed (status=" ++
        job.status.value ++ ")") [("robustness_ids", "status=" ++ job.status.value)])
    else if job.baseRunId ∉ pinnedRunIds then
      .error (.writeError ("Robustheitstest " ++ reprText robustnessId ++ " gehört zu run_id " ++
        reprText job.baseRunId ++ ", der nicht in dieser Study gepinnt ist")
        [("robustness_ids", "base_run_id " ++ job.baseRunId ++ " not in study pinned runs")])
    else do
      let manifestHash ← (service.robustness.verifyRobustnessManifestSeal settings.evaluation.digest robustnessId
        job.manifestContentHash).mapError fun e =>
          .writeError ("Robustheitstest " ++ reprText robustnessId ++ ": Manifest-Siegel ungültig (" ++ errorText e ++
            ")") [("robustness_ids", "manifest seal failed: " ++ robustnessId)]
      pure ⟨robustnessId, manifestHash⟩

def pinGate (pinnedRunIds : List String) (gateRunId : String) : Except StudyError PinnedGateEvidence :=
  match service.gates.get gateRunId with
  | none => .error (.writeError ("Gate-Ergebnis " ++ reprText gateRunId ++ " ist unbekannt")
      [("gate_run_ids", "unbekannt: " ++ gateRunId)])
  | some record =>
    if record.status ≠ .active then
      .error (.writeError ("Gate-Ergebnis " ++ reprText gateRunId ++ " ist nicht active (status=" ++
        gateStatusValue record.status ++ ")") [("gate_run_ids", "status=" ++ gateStatusValue record.status)])
    else if record.runId ∉ pinnedRunIds then
      .error (.writeError ("Gate-Ergebnis " ++ reprText gateRunId ++ " gehört zu run_id " ++ reprText record.runId ++
        ", der nicht in dieser Study gepinnt ist")
        [("gate_run_ids", "run_id " ++ record.runId ++ " not in study pinned runs")])
    else do
      (verifyPolicyContentHash settings.evaluation record.policyVersion record.policyContentHash).mapError fun text =>
        .writeError text [("gate_run_ids", "policy_content_hash mismatch — gate untrusted")]
      (verifyGateRecordArtifactChecksums settings.evaluation
        (showRun settings.evaluation.sha256 service.artifacts service.registry) service.robustness record).mapError fun
        | .gateEvaluationError message field reason => .writeError message
            [("gate_run_ids", "artifact_checksums mismatch — gate evidence untrusted"), (field, reason)]
        | e => .evaluation e
      pure ⟨gateRunId, settings.hashes.gateEvidence record⟩

def verifyScorecardPolicyContentHash (version expected : String) : Except String Unit :=
  match settings.scorecardPolicyHash version with
  | none => .error ("unknown scorecard policy version: " ++ reprText version)
  | some actual =>
    if actual = expected then .ok ()
    else .error ("scorecard policy content hash mismatch for version " ++ reprText version ++ ": persisted=" ++
      reprText expected ++ " current=" ++ reprText actual)

def pinScorecard (pinnedRunIds : List String) (scorecardId : String) : Except StudyError PinnedScorecardEvidence :=
  match service.scorecards.get scorecardId with
  | none => .error (.writeError ("Scorecard " ++ reprText scorecardId ++ " ist unbekannt")
      [("scorecard_ids", "unbekannt: " ++ scorecardId)])
  | some record =>
    if record.status ≠ .active then
      .error (.writeError ("Scorecard " ++ reprText scorecardId ++ " ist nicht active (status=" ++
        gateStatusValue record.status ++ ")") [("scorecard_ids", "status=" ++ gateStatusValue record.status)])
    else if record.runId ∉ pinnedRunIds then
      .error (.writeError ("Scorecard " ++ reprText scorecardId ++ " gehört zu run_id " ++ reprText record.runId ++
        ", der nicht in dieser Study gepinnt ist")
        [("scorecard_ids", "run_id " ++ record.runId ++ " not in study pinned runs")])
    else do
      (verifyScorecardPolicyContentHash settings record.policyVersion record.policyContentHash).mapError fun text =>
        .writeError text [("scorecard_ids", "policy_content_hash mismatch — scorecard untrusted")]
      (verifyScorecardRecordArtifactChecksums settings.area settings.evaluation settings.hashes
        (showRun settings.evaluation.sha256 service.artifacts service.registry) service.robustness service.gates
        record.toScorecardRecord).mapError fun
        | .scorecardEvaluationError message field reason => .writeError message
            [("scorecard_ids", "artifact_checksums mismatch — scorecard evidence untrusted"), (field, reason)]
        | e => .evaluation e
      pure ⟨scorecardId, settings.hashes.scorecardEvidence record.toScorecardRecord⟩

structure PinnedRequest where
  experimentId : String
  strategyVersion : String
  additionalExperimentIds : List String
  robustnessIds : List String
  gateRunIds : List String
  scorecardIds : List String
  snapshot : StudyEvidenceSnapshot
deriving DecidableEq, Repr

namespace PinnedRequest

def additionalRunIds (request : PinnedRequest) : List String := request.snapshot.additional.map (·.runId)

def pinnedRunIds (request : PinnedRequest) : List String :=
  request.snapshot.primary.runId :: request.additionalRunIds

end PinnedRequest

def cleanExperimentId (payload : StudyPayload) : Except StudyError String :=
  let raw := strip payload.experimentId
  if raw = "" then
    .error (.writeError "experiment_id ist erforderlich" [("experiment_id", "erforderlich")])
  else (assertSafeId "experiment_id" raw).mapError fun text => .writeError text [("experiment_id", text)]

def pinRequest (payload : StudyPayload) : Except StudyError PinnedRequest := do
  let experimentId ← cleanExperimentId payload
  let primaryEntry ← resolveCompleteEntry service.registry "experiment_id" experimentId
  let primary ← service.pinRunEvidence settings "experiment_id" primaryEntry
  let additionalExperimentIds ← cleanIdList "additional_experiment_ids" payload.additionalExperimentIds
  let additional ← additionalExperimentIds.mapM (service.pinExperiment settings "additional_experiment_ids")
  let pinnedRunIds := primary.runId :: additional.map (·.runId)
  let robustnessIds ← cleanIdList "robustness_ids" payload.robustnessIds
  let robustness ← robustnessIds.mapM (service.pinRobustness settings pinnedRunIds)
  let gateRunIds ← cleanIdList "gate_run_ids" payload.gateRunIds
  let gates ← gateRunIds.mapM (service.pinGate settings pinnedRunIds)
  let scorecardIds ← cleanIdList "scorecard_ids" payload.scorecardIds
  let scorecards ← scorecardIds.mapM (service.pinScorecard settings pinnedRunIds)
  pure
    { experimentId, strategyVersion := primaryEntry.strategyVersion, additionalExperimentIds, robustnessIds
      gateRunIds, scorecardIds, snapshot := { primary, additional, robustness, gates, scorecards } }

end ValidationStudyService

open ValidationStudyService

variable (settings : StudySettings)

def computeSnapshotId (snapshot : StudyEvidenceSnapshot) : String := "evsnap_" ++ settings.snapshotDigest snapshot

def computeStudyId (experimentId runId : String) (additionalExperimentIds additionalRunIds robustnessIds gateRunIds
    scorecardIds : List String) (evidenceSnapshotId : String) : Except StudyError String :=
  if additionalExperimentIds.length ≠ additionalRunIds.length then
    .error (.valueError "additional_run_ids must align with additional_experiment_ids")
  else
    .ok ("study_" ++ settings.studyDigest
      { experimentId, runId
        additionalExperiments := (additionalExperimentIds.zip additionalRunIds).insertionSort fun a b =>
          toLex a ≤ toLex b
        robustnessIds := robustnessIds.insertionSort (· ≤ ·)
        gateRunIds := gateRunIds.insertionSort (· ≤ ·)
        scorecardIds := scorecardIds.insertionSort (· ≤ ·)
        evidenceSnapshotId })

def studyIdOf (request : PinnedRequest) : Except StudyError String :=
  computeStudyId settings request.experimentId request.snapshot.primary.runId request.additionalExperimentIds
    request.additionalRunIds request.robustnessIds request.gateRunIds request.scorecardIds
    (computeSnapshotId settings request.snapshot)

def orNone (text : String) : Option String := if text = "" then none else some text

def newRecord (now studyId : String) (payload : StudyPayload) (request : PinnedRequest) : StudyRecord where
  studyId
  snapshotId := computeSnapshotId settings request.snapshot
  createdAt := now
  name := (orNone (strip payload.name)).getD request.experimentId
  strategyVersion := orNone request.strategyVersion
  experimentId := request.experimentId
  runId := request.snapshot.primary.runId
  additionalExperimentIds := request.additionalExperimentIds
  additionalRunIds := request.additionalRunIds
  robustnessIds := request.robustnessIds
  gateRunIds := request.gateRunIds
  scorecardIds := request.scorecardIds
  evidenceSnapshot := request.snapshot
  notes := payload.notes

/-- The answer of a creation; the view of the record is left out. -/
structure StudyCreated where
  studyId : String
  alreadyExists : Bool
  study : StudyRecord
deriving DecidableEq, Repr

def create (service : ValidationStudyService) (now : String) (payload : StudyPayload) :
    Except StudyError (StudyCreated × ValidationStudyService) := do
  let request ← service.pinRequest settings payload
  let studyId ← studyIdOf settings request
  match service.getStudy studyId with
  | some existing => pure (⟨studyId, true, existing⟩, service)
  | none =>
    let record := newRecord settings now studyId payload request
    pure (⟨studyId, false, record⟩, { service with studies := service.studies ++ [record] })

end TradingBot.Research.StudyIdentity
