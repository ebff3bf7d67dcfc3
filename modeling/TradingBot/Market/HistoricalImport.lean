import Mathlib
import TradingBot.Library.Dictionary
import TradingBot.Market.DatasetCatalog
import TradingBot.Market.Ingest

namespace TradingBot.Market.HistoricalImport

open Market.Models Market.ContentHash Market.DatasetCatalog Market.Provider Market.Ingest Exceptions
open Library.Dictionary (setEntry)

abbrev Bytes := List UInt8

/-- The digests: of the rows of a dataset, of raw bytes, and of the seed of a dataset id. -/
structure Digests where
  rows : List CandleRow → String
  bytes : Bytes → String
  seed : String → String

/-- An element of the decoded array. One that is no object is skipped; an object with a missing or unreadable
field raises. -/
inductive SnapshotItem
  | notObject
  | unreadable (exc : Exc)
  | candle (payload : CandlePayload)
deriving DecidableEq, Repr

structure HistoricalImportConfig where
  source : String
  symbol : Symbol
  timeframe : Timeframe
  codeCommit : String
  importConfiguration : List (String × String) := []
  endpoint : String := "https://api.hyperliquid.xyz/info"
deriving DecidableEq, Repr

structure HistoricalImportResult where
  manifest : DatasetManifest
  candlesImported : ℕ
  rawContentHash : String
deriving DecidableEq, Repr

structure ImportCheckpoint where
  jobId : String
  phase : String
  rawContentHash : Option String := none
  rawDatasetId : Option String := none
  datasetId : Option String := none
deriving DecidableEq, Repr

section Parsing

def farFutureEvaluation : Time := 4102444799 * second

def epochToUtcLegacy (value : ℤ) (field : String) : Except Exc Time :=
  if 1000000000000 ≤ value then .ok (value * 1000)
  else if 1000000000 ≤ value then .ok (value * second)
  else .error (.valueError s!"Ambiguous timestamp unit in field {field}: {value} (expected epoch seconds or milliseconds)")

def parseLegacyCandle (payload : CandlePayload) (expectedCoin expectedInterval : String)
    (evaluationTime : Time) : Except Exc RawCandle :=
  match hsymbol : resolveInternalSymbol payload.s.toUpper with
  | .error exc => .error exc
  | .ok _ =>
    if payload.s.toUpper ≠ expectedCoin.toUpper then
      .error (.valueError s!"Symbol mismatch: expected {expectedCoin}, got {payload.s.toUpper}")
    else do
      let (key, timeframe) ← resolveInterval payload.i
      if key ≠ expectedInterval then
        .error (.valueError s!"Interval mismatch: expected {expectedInterval}, got {key}")
      else do
        let openTime ← epochToUtcLegacy payload.t "t"
        let closeTime ← epochToUtcLegacy payload.T "T"
        if closeTime ≤ openTime then
          .error (.valueError "Close timestamp T must be after open timestamp t")
        else pure (rawCandle payload (isOk_of_resolves hsymbol) timeframe openTime closeTime evaluationTime)

def parseItem (config : HistoricalImportConfig) (evaluationTime : Time) :
    SnapshotItem → Except Exc (Option RawCandle)
  | .notObject => .ok none
  | .unreadable exc => .error exc
  | .candle payload => do
    let raw ← parseLegacyCandle payload (coinForSymbol config.symbol) (intervalForTimeframe config.timeframe)
      evaluationTime
    pure (some raw)

def parseHyperliquidSnapshot (json : Bytes → Except Exc (List SnapshotItem)) (payload : Bytes)
    (config : HistoricalImportConfig) (evaluationTime : Time) : Except Exc (List RawCandle) := do
  let items ← json payload
  let raws ← items.mapM (parseItem config evaluationTime)
  pure (raws.filterMap id)

def latestClose : List RawCandle → Option Time
  | [] => none
  | r :: rs => some (rs.foldl (fun t r => max t r.closeTime) r.closeTime)

def stableEvaluationTime (json : Bytes → Except Exc (List SnapshotItem)) (payload : Bytes)
    (config : HistoricalImportConfig) (now : Time) : Option Time → Except Exc Time
  | some evaluationTime => .ok evaluationTime
  | none => do
    let raws ← parseHyperliquidSnapshot json payload config farFutureEvaluation
    pure ((latestClose raws).getD now)

def normalizePayload (json : Bytes → Except Exc (List SnapshotItem)) (payload : Bytes)
    (config : HistoricalImportConfig) (evaluationTime : Time) : Except Exc (List Candle) := do
  let raws ← parseHyperliquidSnapshot json payload config evaluationTime
  let normalized ← normalizeBatch raws evaluationTime
  if normalized = [] then .error (.valueError "no candles parsed from raw payload") else pure normalized

end Parsing

section Manifest

def firstOpen (c : Candle) (cs : List Candle) : Time := cs.foldl (fun t c => min t c.openTime) c.openTime

def lastClose (c : Candle) (cs : List Candle) : Time := cs.foldl (fun t c => max t c.closeTime) c.closeTime

def buildManifest (digests : Digests) (config : HistoricalImportConfig) (normalized : List Candle)
    (record : RawArtifactRecord) (evaluationTime : Time) : Except Exc DatasetManifest :=
  match normalized with
  | [] => .error (.valueError "min() iterable argument is empty")
  | c :: cs =>
    if config.codeCommit.length < 7 then .error (.valueError "code_commit")
    else if record.rawDatasetId = "" then .error (.valueError "raw_dataset_id")
    else .ok
      { source := config.source
        symbols := [config.symbol]
        timeframes := [config.timeframe]
        startTimestamp := firstOpen c cs
        endTimestamp := lastClose c cs
        rowCount := normalized.length
        contentHash := hashNormalizedCandles digests.rows normalized
        rawDatasetId := record.rawDatasetId
        rawContentHash := record.contentHash
        importConfiguration := config.importConfiguration
        codeCommit := config.codeCommit
        createdAt := evaluationTime }

def mergeMetadata (base updates : List (String × String)) : List (String × String) :=
  updates.foldl (fun entries e => setEntry e.1 e.2 entries) base

def timeframeValue : Timeframe → String
  | .daily => "1D"
  | .weekly => "1W"
  | .monthly => "1M"

def storageRelpath (contentHash : String) : String := "raw/" ++ contentHash ++ ".json"

def fetchedRecord (digests : Digests) (config : HistoricalImportConfig) (payload : Bytes) (fetchId : String) :
    RawArtifactRecord where
  rawDatasetId := fetchId
  contentHash := digests.bytes payload
  storageRelpath := storageRelpath (digests.bytes payload)
  source := config.source
  fetchMetadata := mergeMetadata [("endpoint", config.endpoint), ("symbol", config.symbol.value),
    ("timeframe", timeframeValue config.timeframe)] config.importConfiguration

/-- The record of an artifact that is stored already; `purpose` tells why it is read again. -/
def storedRecord (config : HistoricalImportConfig) (contentHash rawDatasetId purpose : String) :
    RawArtifactRecord where
  rawDatasetId
  contentHash
  storageRelpath := storageRelpath contentHash
  source := config.source
  fetchMetadata := mergeMetadata [(purpose, "true")] config.importConfiguration

end Manifest

section Calls

/-- A checkpoint file; one that was cut off while it was written cannot be read. -/
inductive CheckpointFile
  | missing
  | torn
  | saved (checkpoint : ImportCheckpoint)
deriving DecidableEq, Repr

/-- The arguments of a call of `import_from_raw_payload`; a job stands for its checkpoint file. -/
structure ImportRequest where
  payload : Bytes
  config : HistoricalImportConfig
  evaluationTime : Option Time := none
  job : Option String := none
  rawRecord : Option RawArtifactRecord := none
deriving DecidableEq, Repr

structure Call where
  payload : Bytes
  config : HistoricalImportConfig
  evaluationTime : Time
  job : Option String
deriving DecidableEq, Repr

inductive Phase
  | idle
  | storing (call : Call) (record : RawArtifactRecord)
  | registering (call : Call) (record : RawArtifactRecord)
  | noting (call : Call) (record : RawArtifactRecord) (job : String)
  | normalizing (call : Call) (record : RawArtifactRecord)
  | publishing (call : Call) (record : RawArtifactRecord) (manifest : DatasetManifest) (normalized : List Candle)
  | appending (call : Call) (record : RawArtifactRecord) (published : DatasetManifest) (datasetId : String)
      (normalized : List Candle)
  | saving (record : RawArtifactRecord) (job datasetId : String) (result : HistoricalImportResult)
  | returning (result : HistoricalImportResult)
deriving DecidableEq, Repr

/-- The catalog, the files of raw artifacts and checkpoints, and the results returned so far. `batches` tells
for which candles each dataset was published; no step reads it. -/
structure State where
  db : CatalogDb := {}
  rawFiles : String → Option Bytes := fun _ => none
  checkpoints : String → CheckpointFile := fun _ => .missing
  phase : Phase := .idle
  results : List HistoricalImportResult := []
  batches : String → List Candle := fun _ => []

/-- A call starts, makes its next write, or dies; a file it was writing is then cut off after some bytes. -/
inductive Event
  | importPayload (request : ImportRequest) (fetchId : String) (now : Time)
  | renormalize (rawContentHash : String) (config : HistoricalImportConfig) (evaluationTime : Option Time)
      (fetchId : String) (now : Time)
  | resume (config : HistoricalImportConfig) (job : String) (evaluationTime : Option Time) (fetchId : String)
      (now : Time)
  | proceed
  | crash (written : Option ℕ)
deriving DecidableEq, Repr

def existingPublishedResult (db : CatalogDb) (datasetId rawContentHash : String) : Option HistoricalImportResult :=
  match getManifest db datasetId with
  | .error _ => none
  | .ok manifest => some
    { manifest, candlesImported := (listCandles db datasetId).length, rawContentHash }

def given (text : Option String) : Option String := text.filter (· ≠ "")

def ImportCheckpoint.publishedDataset (c : ImportCheckpoint) : Option String :=
  if c.phase = "published" then given c.datasetId else none

def loadImportCheckpoint (s : State) (job : String) : Except Exc (Option ImportCheckpoint) :=
  match s.checkpoints job with
  | .missing => .ok none
  | .torn => .error (.valueError "JSONDecodeError")
  | .saved checkpoint => .ok (some checkpoint)

def jobCheckpoint (s : State) : Option String → Except Exc (Option ImportCheckpoint)
  | none => .ok none
  | some job => loadImportCheckpoint s job

def checkpointResult (db : CatalogDb) (checkpoint : Option ImportCheckpoint) (rawContentHash : String) :
    Option HistoricalImportResult := do
  let c ← checkpoint
  let datasetId ← c.publishedDataset
  existingPublishedResult db datasetId ((given c.rawContentHash).getD rawContentHash)

def loadRaw (digests : Digests) (s : State) (contentHash : String) : Except Exc Bytes :=
  match s.rawFiles contentHash with
  | none => .error (.runtimeError ("raw artifact not found: " ++ contentHash))
  | some data =>
    if digests.bytes data ≠ contentHash then .error (.runtimeError ("raw artifact corrupt: " ++ contentHash))
    else .ok data

variable (digests : Digests) (json : Bytes → Except Exc (List SnapshotItem))

def enterImport (s : State) (request : ImportRequest) (fetchId : String) (now : Time) : Except Exc Phase := do
  let evaluationTime ← stableEvaluationTime json request.payload request.config now request.evaluationTime
  let existing ← jobCheckpoint s request.job
  match checkpointResult s.db existing (hashNormalizedCandles digests.rows []) with
  | some cached => pure (.returning cached)
  | none =>
    let call : Call := ⟨request.payload, request.config, evaluationTime, request.job⟩
    match request.rawRecord with
    | some record => pure (.normalizing call record)
    | none => pure (.storing call (fetchedRecord digests request.config request.payload fetchId))

def enterRenormalize (s : State) (rawContentHash : String) (config : HistoricalImportConfig)
    (evaluationTime : Option Time) (fetchId : String) (now : Time) : Except Exc Phase := do
  let payload ← loadRaw digests s rawContentHash
  let evaluationTime ← stableEvaluationTime json payload config now evaluationTime
  let normalized ← normalizePayload json payload config evaluationTime
  let datasetId := deriveDatasetId digests.seed (hashNormalizedCandles digests.rows normalized) "1.0" config.source
  match existingPublishedResult s.db datasetId rawContentHash with
  | some cached => pure (.returning cached)
  | none => pure (.registering ⟨payload, config, evaluationTime, none⟩
      (storedRecord config rawContentHash fetchId "renormalize"))

def enterResume (s : State) (config : HistoricalImportConfig) (job : String) (evaluationTime : Option Time)
    (fetchId : String) (now : Time) : Except Exc Phase := do
  match ← loadImportCheckpoint s job with
  | none => .error (.valueError ("no checkpoint for job " ++ job))
  | some checkpoint =>
    match checkpointResult s.db (some checkpoint) "", checkpoint.rawContentHash with
    | some cached, _ => pure (.returning cached)
    | none, none => .error (.valueError ("checkpoint " ++ job ++ " missing raw_content_hash"))
    | none, some rawContentHash => do
      let payload ← loadRaw digests s rawContentHash
      let evaluationTime ← stableEvaluationTime json payload config now evaluationTime
      let rawRecord := (given checkpoint.rawDatasetId).map fun rawDatasetId =>
        storedRecord config rawContentHash rawDatasetId "resume"
      enterImport digests json s ⟨payload, config, some evaluationTime, some job, rawRecord⟩ fetchId now

/-- A call that raises before its first write changes nothing. -/
def State.enter (s : State) : Except Exc Phase → State
  | .ok phase => { s with phase }
  | .error _ => s

def State.raise (s : State) : State := { s with phase := .idle }

def State.save (s : State) (job : String) (file : CheckpointFile) : State :=
  { s with checkpoints := Function.update s.checkpoints job file }

def rawStored (record : RawArtifactRecord) (job : String) : ImportCheckpoint :=
  ⟨job, "raw_stored", some record.contentHash, some record.rawDatasetId, none⟩

def published (record : RawArtifactRecord) (job datasetId : String) : ImportCheckpoint :=
  ⟨job, "published", some record.contentHash, some record.rawDatasetId, some datasetId⟩

def finishing (call : Call) (record : RawArtifactRecord) (datasetId : String) (result : HistoricalImportResult) :
    Phase :=
  match call.job with
  | none => .returning result
  | some job => .saving record job datasetId result

def afterRegistering (call : Call) (record : RawArtifactRecord) : Phase :=
  match call.job with
  | none => .normalizing call record
  | some job => .noting call record job

def normalize (db : CatalogDb) (call : Call) (record : RawArtifactRecord) : Except Exc Phase := do
  let normalized ← normalizePayload json call.payload call.config call.evaluationTime
  let datasetId :=
    deriveDatasetId digests.seed (hashNormalizedCandles digests.rows normalized) "1.0" call.config.source
  match existingPublishedResult db datasetId record.contentHash with
  | some cached => pure (finishing call record datasetId cached)
  | none => do
    let manifest ← buildManifest digests call.config normalized record call.evaluationTime
    pure (.publishing call record manifest normalized)

/-- The raw file is written unless it is there; other bytes under the hash are an error. -/
def State.storeRaw (s : State) (call : Call) (record : RawArtifactRecord) : State :=
  match s.rawFiles record.contentHash with
  | some data => if data ≠ call.payload then s.raise else { s with phase := .registering call record }
  | none =>
    { s with
      rawFiles := Function.update s.rawFiles record.contentHash (some call.payload)
      phase := .registering call record }

def proceed (backend : Backend) (s : State) : Phase → Option State
  | .idle => none
  | .storing call record => some (s.storeRaw call record)
  | .registering call record =>
    match registerRawArtifact s.db record with
    | .error _ => some s.raise
    | .ok db => some { s with db, phase := afterRegistering call record }
  | .noting call record job =>
    some { s.save job (.saved (rawStored record job)) with phase := .normalizing call record }
  | .normalizing call record =>
    match normalize digests json s.db call record with
    | .error _ => some s.raise
    | .ok phase => some { s with phase }
  | .publishing call record manifest normalized =>
    match publishDataset digests.seed backend s.db manifest with
    | .error _ => some s.raise
    | .ok (published, db) =>
      let datasetId := manifest.derivedId digests.seed
      some { s with
        db
        phase := .appending call record published datasetId normalized
        batches := Function.update s.batches datasetId normalized }
  | .appending call record published datasetId normalized =>
    let appended := appendCandles backend s.db datasetId normalized
    match appended.outcome with
    | .error _ => some { s.raise with db := appended.db }
    | .ok added => some { s with
        db := appended.db
        phase := finishing call record datasetId ⟨published, added, record.contentHash⟩ }
  | .saving record job datasetId result =>
    some { s.save job (.saved (published record job datasetId)) with phase := .returning result }
  | .returning result => some { s with phase := .idle, results := s.results ++ [result] }

/-- A call that dies leaves a file it was writing cut off. -/
def State.die (s : State) (written : Option ℕ) : State :=
  match s.phase, written with
  | .storing call record, some n =>
    match s.rawFiles record.contentHash with
    | some _ => s.raise
    | none => { s.raise with
        rawFiles := Function.update s.rawFiles record.contentHash (some (call.payload.take n)) }
  | .noting _ _ job, some _ | .saving _ job _ _, some _ => (s.save job .torn).raise
  | _, _ => s.raise

def step (backend : Backend) (s : State) : Event → Option State
  | .importPayload request fetchId now =>
    if s.phase = .idle then some (s.enter (enterImport digests json s request fetchId now)) else none
  | .renormalize rawContentHash config evaluationTime fetchId now =>
    if s.phase = .idle then
      some (s.enter (enterRenormalize digests json s rawContentHash config evaluationTime fetchId now))
    else none
  | .resume config job evaluationTime fetchId now =>
    if s.phase = .idle then
      some (s.enter (enterResume digests json s config job evaluationTime fetchId now))
    else none
  | .proceed => proceed digests json backend s s.phase
  | .crash written => some (s.die written)

end Calls

end TradingBot.Market.HistoricalImport
