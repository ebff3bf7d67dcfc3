import TradingBot.Research.Registry

namespace TradingBot.Research.Robustness

open Market.Models Research.Artifacts Research.Models

def strip (text : String) : String := String.ofList (stripChars text.toList)

def errorText : ResearchError → String
  | .valueError message | .fileNotFoundError message | .fileExistsError message => message
  | .keyError key => "'" ++ key ++ "'"

section Manifest

/-- The fields of a child of a robustness manifest that are read back; one that it does not have is `none`. -/
structure RobustnessChild where
  childId : Option String := none
  label : Option String := none
  status : Option String := none
  runId : Option String := none
  netPnl : Option Decimal := none
deriving DecidableEq, Repr

inductive ChildEntry
  | object (child : RobustnessChild)
  | other
deriving DecidableEq, Repr

/-- The fields of the `config` of a manifest that are read back; a number or a list of numbers that cannot be
read is `none`. -/
structure RobustnessConfig where
  blockLength : Option ℤ := none
  nSimulations : Option ℤ := none
  seed : Option ℤ := none
  quantiles : Option (List String) := some ["0.05", "0.5", "0.95"]
  intDeltas : Option (List (String × List ℤ)) := none
  decimalRelativeSteps : Option (List (String × List String)) := none
deriving DecidableEq, Repr

structure RobustnessManifest where
  schemaVersion : Option String := none
  robustnessId : Option String := none
  testType : Option String := none
  baseRunId : Option String := none
  datasetCatalogId : Option String := none
  config : Option RobustnessConfig := some {}
  children : Option (List ChildEntry) := some []
  nFailed : Option ℤ := none
  bootstrapQ05 : Option Decimal := none
deriving DecidableEq, Repr

/-- What the file `manifest.json` of a robustness test holds. -/
inductive ManifestContent
  | object (manifest : RobustnessManifest)
  | notAnObject
  | bytes (data : List UInt8)
deriving DecidableEq, Repr

end Manifest

inductive RobustnessJobStatus
  | created | queued | running | completed | failed
deriving DecidableEq, Repr

def RobustnessJobStatus.value : RobustnessJobStatus → String
  | .created => "created"
  | .queued => "queued"
  | .running => "running"
  | .completed => "completed"
  | .failed => "failed"

/-- A job by the fields that evaluations read. -/
structure RobustnessJob where
  baseRunId : String
  status : RobustnessJobStatus
  manifestContentHash : Option String := none
deriving DecidableEq, Repr

def RobustnessJob.seal (job : RobustnessJob) : String := strip (job.manifestContentHash.getD "")

structure RobustnessFiles where
  manifests : String → Option ManifestContent := fun _ => none
  sidecars : String → Option String := fun _ => none
  jobs : String → Option RobustnessJob := fun _ => none

namespace RobustnessFiles

variable (digest : ManifestContent → String) (files : RobustnessFiles)

def nonEmpty (text : String) : Option String := if text = "" then none else some text

def readSealedManifestHash (robustnessId : String) : Option String :=
  (files.sidecars robustnessId).bind fun text => nonEmpty (strip text)

/-- The hash that is passed in comes before that of the sidecar. -/
def verifyRobustnessManifestSeal (robustnessId : String) (expectedHash : Option String) :
    Except ResearchError String :=
  match files.manifests robustnessId with
  | none => .error (.fileNotFoundError ("robustness manifest missing: " ++ robustnessId))
  | some content =>
    let current := digest content
    match (nonEmpty (strip (expectedHash.getD ""))).or (files.readSealedManifestHash robustnessId) with
    | none => .error (.valueError ("robustness " ++ robustnessId ++
        " has no sealed manifest trust anchor (job.manifest_content_hash / manifest.json.sha256 missing)"))
    | some expected =>
      if current = expected then .ok current
      else .error (.valueError ("robustness " ++ robustnessId ++ " manifest content hash mismatch (sealed=" ++
        String.ofList (expected.toList.take 12) ++ "… current=" ++ String.ofList (current.toList.take 12) ++ "…)"))

def loadRobustnessManifest (robustnessId : String) : Except ResearchError (Option RobustnessManifest) :=
  match files.manifests robustnessId with
  | none | some .notAnObject => .ok none
  | some (.bytes _) => .error (.valueError "Expecting value")
  | some (.object manifest) => .ok (some manifest)

variable {digest : ManifestContent → String} {files : RobustnessFiles} {robustnessId expected current : String}

end RobustnessFiles

end TradingBot.Research.Robustness
