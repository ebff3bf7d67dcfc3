import TradingBot.Library.Paths
import TradingBot.Research.ScorecardStore

namespace TradingBot.Research.SealedArtifacts

open Library.Dictionary Library.Paths Research.Artifacts Research.Registry Research.GateStore Research.Robustness
open Research.GateEvaluator Research.ScorecardStore
open Research.RecordVerification hiding ScorecardRecord

abbrev Bytes := List UInt8

section Errors

/-- `ArtifactContentError` with its code, text and status, and what goes through uncaught. -/
inductive ReadError
  | artifactContent (code message : String) (status : ℕ)
  | runtimeError (message : String)
  | uncaught (error : EvaluationError)
deriving DecidableEq, Repr

def refuse (refused : Bool) (code message : String) (status : ℕ) : Except ReadError Unit :=
  if refused then .error (.artifactContent code message status) else .ok ()

def evaluationText : EvaluationError → String
  | .gateEvaluationError message _ _ | .scorecardEvaluationError message _ _ | .parameterAreaError message
  | .attributeError message => message
  | .research e => errorText e

def contains (needle text : String) : Bool := decide (needle.toList <:+: text.toList)

end Errors

section Requests

def isSpace (c : Char) : Bool :=
  let n := c.toNat
  (9 ≤ n && n ≤ 13) || (28 ≤ n && n ≤ 32) || n = 0x85 || n = 0xA0 || n = 0x1680 || (0x2000 ≤ n && n ≤ 0x200A) ||
    n = 0x2028 || n = 0x2029 || n = 0x202F || n = 0x205F || n = 0x3000

def stripSpace (text : List Char) : List Char := ((text.dropWhile isSpace).reverse.dropWhile isSpace).reverse

def backslash : Char := Char.ofNat 92

/-- The parts of a path that is written with slashes. -/
def splitPath (text : List Char) : List (List Char) := text.splitOn '/'

/-- `_SAFE_RELATIVE_PATH`. -/
def isSafeRelativePath (text : List Char) : Bool :=
  (splitPath text).all fun part => !part.isEmpty && part.all fun c => c.isAlphanum || c = '.' || c = '_' || c = '-'

/-- The request as it came in, or the first rule that it breaks. -/
def normalizeRelativePath (raw : String) : Except ReadError String := do
  let text := raw.toList
  refuse (Char.ofNat 0 ∈ text) "not_allowlisted" "relative_path must not contain null bytes" 400
  refuse ('%' ∈ text ∨ backslash ∈ text) "not_allowlisted"
    "relative_path contains illegal encoding or separators" 400
  let stripped := stripSpace text
  refuse (stripped = [] ∨ stripped ≠ text) "not_allowlisted" "relative_path must be a non-empty relative path" 400
  refuse (stripped.head? = some '/' ∨ stripped.head? = some backslash) "not_allowlisted"
    "absolute paths are not allowed" 400
  refuse (stripped[1]? = some ':') "not_allowlisted" "absolute paths are not allowed" 400
  refuse (stripped.take 2 = ['/', '/'] ∨ stripped.take 2 = [backslash, backslash]) "not_allowlisted"
    "absolute paths are not allowed" 400
  refuse (!isSafeRelativePath stripped) "not_allowlisted"
    "relative_path is not allowlisted (illegal characters or traversal)" 400
  refuse ((splitPath stripped).any fun part => part = [] || part = ['.'] || part = ['.', '.']) "not_allowlisted"
    "relative_path must not contain '.' or '..' segments" 400
  pure (String.ofList stripped)

def keyOf (path : String) : RelPath := (splitPath path.toList).map String.ofList

def layerFiles : List RelPath :=
  [["regime_labels.json"], ["regime_metrics.json"], ["behavior_profile.json"], ["confidence_profile.json"],
    ["parameter_area.json"]]

def runPinnedChecksums (record : ScorecardRecord) : Checksums :=
  record.artifactChecksums.filterKeys scorecardRecords.isRunFile

def isPinnedRunPath (record : ScorecardRecord) (key : RelPath) : Bool :=
  key ∈ (runPinnedChecksums record).keys || (key ∈ layerFiles && key ∈ record.artifactChecksums.keys)

inductive MediaKind
  | json | text
deriving DecidableEq, Repr

def textSuffixes : List (List Char) := [".txt".toList, ".md".toList, ".csv".toList, ".log".toList, ".tsv".toList]

/-- `Path(name).suffix`: from the last dot on, unless it is the first or the last character. -/
def suffix (name : List Char) : List Char :=
  let tail := (name.reverse.takeWhile (· ≠ '.')).reverse
  if tail.length + 1 < name.length ∧ tail ≠ [] then '.' :: tail else []

def mediaForPath (path : String) : Except ReadError (MediaKind × String) :=
  let lower := path.toList.map Char.toLower
  if ".json".toList <:+ lower then .ok (.json, "application/json; charset=utf-8")
  else if suffix ((splitPath lower).getLastD []) ∈ textSuffixes then .ok (.text, "text/plain; charset=utf-8")
  else .error (.artifactContent "unsupported_media_type" ("unsupported media type for " ++ reprText (some path)) 415)

end Requests

section Disks

/-- A file system with its limits on links, and the working directory, which is canonical. -/
structure Disk where
  tree : FileTree Bytes
  links : ℕ
  depth : ℕ
  cwd : Path
  canonical : tree.Plain [] cwd

def reference : RelPath → Reference
  | "" :: name :: rest => { absolute := true, parts := name :: rest }
  | parts => { parts }

namespace Disk

variable (disk : Disk) (sha256 : Bytes → String)

def find (path : Reference) : Option Path := disk.tree.walk disk.links (path.base disk.cwd) path.parts

def stat (path : Reference) : Option (Node Bytes) := (disk.find path).bind disk.tree.node

def isSymlink (path : Path) : Bool :=
  match disk.tree.walk disk.links [] path.dropLast, path.getLast? with
  | some parent, some name =>
    disk.tree.isDirectory parent && (match disk.tree.step parent name with
      | .follow _ => true
      | _ => false)
  | _, _ => false

def exists? (path : Path) : Bool := (disk.stat { absolute := true, parts := path }).isSome

def resolve (path : Reference) : Except ReadError Path :=
  match disk.tree.realpath disk.depth (path.base disk.cwd) path.parts with
  | none => .error (.runtimeError ("Symlink loop from " ++ posix path.parts))
  | some canonical => .ok canonical

def filesBelow (path : Reference) : List RelPath :=
  match disk.find path with
  | none => []
  | some directory =>
    ((disk.tree.nodes.keys.insertionSort (· ≤ ·)).filter fun p => decide (directory <+: p ∧ p ≠ directory)).filterMap
      fun p =>
        let rel := p.drop directory.length
        match (disk.tree.walk disk.links directory rel).bind disk.tree.node with
        | some (.file _) => some rel
        | _ => none

def unexpectedFiles (path : Reference) (expected : Checksums) : List RelPath :=
  (disk.filesBelow path).filter fun rel => rel ≠ checksumsJson ∧ rel ∉ expected.keys

def verifyFile (path : Reference) (expected : RelPath × String) : Except ResearchError Unit :=
  match disk.stat (path.join (reference expected.1)) with
  | some (.file data) =>
    if sha256 data = expected.2 then .ok ()
    else .error (.valueError ("checksum mismatch for " ++ posix expected.1 ++ " (trusted snapshot)"))
  | _ => .error (.fileNotFoundError ("missing artifact " ++ posix expected.1))

def verifyChecksumsAgainst (path : Reference) (expected : Checksums) : Except ResearchError Unit :=
  if disk.unexpectedFiles path expected ≠ [] then
    .error (.valueError ("unexpected artifacts not in trusted checksums: ['" ++
      "', '".intercalate ((disk.unexpectedFiles path expected).map posix) ++ "']"))
  else forM (expected.entries.insertionSort fun a b => posix a.1 ≤ posix b.1) (disk.verifyFile sha256 path)

def verifyEntryArtifacts (entry : RegistryEntry) : Except ResearchError Unit :=
  let path := reference entry.artifactPath
  if disk.stat path ≠ some .directory then
    .error (.fileNotFoundError ("missing or deleted artifacts for " ++ entry.runId ++ ": " ++
      posix entry.artifactPath))
  else if entry.checksums.entries = [] then
    .error (.valueError ("registry entry for " ++ entry.runId ++ " has empty trusted checksums"))
  else disk.verifyChecksumsAgainst sha256 path entry.checksums

def showVerified (registry : ExperimentRegistry) (runId : String) : Except ResearchError RegistryEntry := do
  let entry ← registry.findEntry runId
  if entry.status = .complete then
    disk.verifyEntryArtifacts sha256 entry
  pure entry

end Disk

end Disks

section Reading

/-- The decoders of the language: of text, and of JSON with what an object has for its items, as texts. -/
structure Codec (J : Type) where
  decodeUtf8 : Bytes → Except String String
  loads : String → Except String J
  items : J → Option Checksums
  isArray : J → Bool

/-- What a read works with. The verification of a scorecard looks at other runs through `lookup`. -/
structure Reader (J : Type) where
  disk : Disk
  root : Reference
  registry : ExperimentRegistry
  policyContentHash : String → Option String
  codec : Codec J
  area : AreaContext
  ctx : EvaluationContext
  hashes : RecordHashes
  lookup : RunLookup
  files : RobustnessFiles
  store : GateResultStore

inductive Payload (J : Type)
  | json (value : J)
  | text (value : String)
deriving DecidableEq, Repr

structure ArtifactContentResult (J : Type) where
  relativePath : String
  checksumSha256 : String
  mediaKind : MediaKind
  contentType : String
  payload : Payload J
  byteLength : ℕ
deriving DecidableEq, Repr

def maxArtifactBytes : ℕ := 2 * 1024 * 1024

variable {J : Type} (reader : Reader J)

namespace Reader

def sha256 (data : Bytes) : String := reader.ctx.sha256 (.bytes data)

/-- `verify_scorecard_policy_content_hash`. -/
def verifyPolicy (record : ScorecardRecord) : Except String Unit :=
  match reader.policyContentHash record.policyVersion with
  | none => .error ("unknown scorecard policy version: " ++ reprText (some record.policyVersion))
  | some actual =>
    if actual = record.policyContentHash then .ok ()
    else .error ("scorecard policy content hash mismatch for version " ++ reprText (some record.policyVersion) ++
      ": persisted=" ++ reprText (some record.policyContentHash) ++ " current=" ++ reprText (some actual))

def verifyScorecardRecordArtifactChecksums (record : RecordVerification.ScorecardRecord) :
    Except EvaluationError Unit := do
  GateEvaluator.reject (strip record.evidenceContentHash = "") (hashError
    "scorecard record missing evidence_content_hash" "missing")
  GateEvaluator.reject (reader.hashes.scorecardEvidence record ≠ record.evidenceContentHash) (hashError
    "scorecard evidence_content_hash mismatch — record fields tampered" "mismatch")
  let family := scorecardRecords
  let entry ← (reader.disk.showVerified reader.sha256 reader.registry record.runId).mapError fun
    | .keyError _ => family.raise ("scorecard run_id not in registry: " ++ record.runId) "run missing"
    | e => family.raise ("scorecard run artifact seal failed: " ++ errorText e) "run checksum mismatch"
  let runChecksums := record.artifactChecksums.filterKeys family.isRunFile
  GateEvaluator.reject (runChecksums.entries = []) (family.raise "scorecard record has no run artifact_checksums"
    "empty run checksums")
  (reader.disk.verifyChecksumsAgainst reader.sha256 (reference entry.artifactPath) runChecksums).mapError fun e =>
    family.raise ("scorecard artifact_checksums mismatch vs current run files: " ++ errorText e) "run file mismatch"
  forM record.artifactChecksums.entries (verifyPinnedManifest family reader.ctx reader.files)
  forM record.robustnessRunIds fun robustnessId =>
    GateEvaluator.reject (robustnessKey robustnessId ∉ record.artifactChecksums.keys) (family.raise
      ("scorecard record missing checksum for robustness " ++ robustnessId) "robustness checksum missing")
  verifyParameterArea reader.area reader.ctx reader.lookup reader.files record
  match record.gateRunId.filter (· ≠ "") with
  | none => .ok ()
  | some gateRunId =>
    verifyBoundGate reader.ctx reader.hashes reader.lookup reader.files reader.store record gateRunId

def sealFailed (path : String) : EvaluationError → ReadError
  | .scorecardEvaluationError message _ _ =>
    if contains ("missing artifact " ++ path) message then
      .artifactContent "not_found" ("artifact file not found: " ++ path) 404
    else if contains "mismatch" message.toLower then
      .artifactContent "checksum_mismatch" ("scorecard artifact seal failed: " ++ message) 409
    else .artifactContent "unsealed_run" ("run directory is not sealed: " ++ message) 409
  | e => .uncaught e

def resolveUnderRoot (root path : Reference) : Except ReadError Path := do
  let rootResolved ← reader.disk.resolve root
  let resolved ← reader.disk.resolve path
  refuse (!decide (rootResolved <+: resolved)) "unsealed_run" "path escapes research artifacts root" 409
  pure resolved

def loadChecksums (runDir : Path) : Except String Checksums :=
  match reader.disk.stat { absolute := true, parts := runDir ++ ["checksums.json"] } with
  | some (.file data) => do
    let text ← reader.codec.decodeUtf8 data
    let value ← reader.codec.loads text
    match reader.codec.items value with
    | none => .error "checksums.json must be an object"
    | some items => pure items
  | _ => .error "No such file or directory: 'checksums.json'"

/-- The loop over the parts below the run directory. -/
def refuseSymlinks (cursor : Path) : List String → Except ReadError Unit
  | [] => .ok ()
  | part :: parts => do
    refuse (reader.disk.exists? (cursor ++ [part]) && reader.disk.isSymlink (cursor ++ [part])) "not_allowlisted"
      "symlink or junction escape is not allowed" 400
    refuseSymlinks (cursor ++ [part]) parts

def assertNotSymlinkEscape (runDir : Path) (key : RelPath) : Except ReadError Path := do
  let runResolved ← reader.disk.resolve { absolute := true, parts := runDir }
  reader.refuseSymlinks runDir key
  let resolved ← reader.disk.resolve { absolute := true, parts := runDir ++ key }
  refuse (!decide (runResolved <+: resolved)) "not_allowlisted" "artifact path escapes canonical run directory" 400
  pure resolved

def decodePayload (data : Bytes) : MediaKind → Except ReadError (Payload J)
  | .json => do
    let value ← (do
      let text ← reader.codec.decodeUtf8 data
      reader.codec.loads text).mapError fun text =>
        .artifactContent "unsupported_media_type" ("artifact is not valid UTF-8 JSON: " ++ text) 415
    refuse ((reader.codec.items value).isNone && !reader.codec.isArray value) "unsupported_media_type"
      "JSON artifact must be an object or array" 415
    pure (.json value)
  | .text => do
    let text ← (reader.codec.decodeUtf8 data).mapError fun text =>
      .artifactContent "unsupported_media_type" ("text artifact is not valid UTF-8: " ++ text) 415
    pure (.text text)

def readTarget (path : String) (target : Path) : Except ReadError Bytes :=
  match reader.disk.stat { absolute := true, parts := target } with
  | none => .error (.artifactContent "not_found" ("artifact file not found: " ++ path) 404)
  | some .directory =>
    .error (.artifactContent "not_allowlisted" "directories cannot be served (no listing)" 400)
  | some (.file data) => do
    refuse (maxArtifactBytes < data.length) "too_large" "artifact exceeds size limit (2097152 bytes)" 413
    pure data
  | some _ => .error (.artifactContent "not_found" ("artifact is not a regular file: " ++ path) 404)

def readSealedArtifactContent (record : ScorecardRecord) (relativePath : String) :
    Except ReadError (ArtifactContentResult J) := do
  refuse (record.status = .invalidated) "invalidated_evidence" "scorecard evidence is invalidated" 409
  (reader.verifyPolicy record).mapError fun text =>
    .artifactContent "invalidated_evidence" ("scorecard policy seal failed: " ++ text) 409
  let rel ← normalizeRelativePath relativePath
  let key := keyOf rel
  refuse (!isPinnedRunPath record key) "not_pinned"
    ("artifact " ++ reprText (some rel) ++ " is not pinned on this scorecard") 404
  let pinnedDigest := (record.artifactChecksums.get? key).getD ""
  refuse (pinnedDigest = "") "not_pinned" ("artifact " ++ reprText (some rel) ++ " has no pinned checksum") 404
  let (mediaKind, contentType) ← mediaForPath rel
  let entry ← (reader.registry.findEntry record.runId).mapError fun _ =>
    .artifactContent "not_found" ("run not found: " ++ record.runId) 404
  refuse (entry.status ≠ .complete) "unsealed_run" ("run status is " ++ reprText (some (statusValue entry.status)) ++
    "; content requires complete sealed run") 409
  let root ← reader.disk.resolve reader.root
  let artifactsRoot ← reader.disk.resolve { absolute := true, parts := root ++ ["artifacts", "research"] }
  let runDir ← reader.resolveUnderRoot { absolute := true, parts := artifactsRoot } (reference entry.artifactPath)
  (reader.verifyScorecardRecordArtifactChecksums record.toScorecardRecord).mapError (sealFailed rel)
  let manifest ← (reader.loadChecksums runDir).mapError fun text =>
    .artifactContent "unsealed_run" ("checksum manifest unreadable: " ++ text) 409
  refuse (key ∉ manifest.keys ∧ key ∉ entry.checksums.keys) "not_allowlisted"
    ("artifact " ++ reprText (some rel) ++ " is not in the run checksum manifest") 404
  let manifestDigest := ((manifest.get? key).filter (· ≠ "")).or ((entry.checksums.get? key).filter (· ≠ ""))
  refuse (manifestDigest.any (· ≠ pinnedDigest)) "checksum_mismatch"
    ("pinned checksum disagrees with run manifest for " ++ reprText (some rel)) 409
  let target ← reader.assertNotSymlinkEscape runDir key
  let data ← reader.readTarget rel target
  let digest := reader.sha256 data
  refuse (digest ≠ pinnedDigest) "checksum_mismatch" ("checksum mismatch for " ++ rel) 409
  refuse (manifestDigest.any (· ≠ digest)) "checksum_mismatch" ("checksum mismatch vs run manifest for " ++ rel) 409
  let payload ← reader.decodePayload data mediaKind
  pure { relativePath := rel, checksumSha256 := digest, mediaKind, contentType, payload, byteLength := data.length }

end Reader

end Reading

end TradingBot.Research.SealedArtifacts
