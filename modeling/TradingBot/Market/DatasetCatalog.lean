import Mathlib.Logic.Function.Basic
import TradingBot.Market.ContentHash
import TradingBot.Market.Quality

namespace TradingBot.Market.DatasetCatalog

open Market.Models Market.Repository Market.Quality Market.ContentHash

inductive CatalogError
  | catalog (message : String)
  | integrity (constraint : String)
  | numericOverflow
deriving DecidableEq, Repr

structure RawArtifactRecord where
  rawDatasetId : String
  contentHash : String
  storageRelpath : String
  source : String
  fetchMetadata : List (String × String) := []
deriving DecidableEq, Repr

structure DatasetManifest where
  schemaVersion : String := "1.0"
  source : String
  symbols : List Symbol
  timeframes : List Timeframe
  startTimestamp : Time
  endTimestamp : Time
  rowCount : ℕ
  contentHash : String
  rawDatasetId : String
  rawContentHash : String
  importConfiguration : List (String × String) := []
  codeCommit : String
  createdAt : Time
  parentDatasetId : Option String := none
  qualityStatus : DataQualityStatus := .valid
  allowQualityWarnings : Bool := false
  knownIssues : List String := []
  qualityReport : Option DataQualityReport := none
  datasetId : Option String := none
  layer : String := "normalized"
deriving DecidableEq, Repr

/-- The digest of the seed, cut to its first digits, is the parameter. -/
def deriveDatasetId (digest : String → String) (contentHash schemaVersion source : String) : String :=
  digest (schemaVersion ++ ":" ++ source ++ ":" ++ contentHash)

def DatasetManifest.derivedId (digest : String → String) (m : DatasetManifest) : String :=
  deriveDatasetId digest m.contentHash m.schemaVersion m.source

def DatasetManifest.withDatasetId (digest : String → String) (m : DatasetManifest) : DatasetManifest :=
  { m with datasetId := some (m.derivedId digest) }

structure DatasetQualityReportRecord where
  datasetId : String
  report : DataQualityReport
  gapCount : ℕ
  conflictCount : ℕ
  stale : Bool
deriving DecidableEq, Repr

inductive Backend
  | inMemory | postgres
deriving DecidableEq, Repr

/-- The tables; the candles of a dataset stand in the order of their insertion. -/
structure CatalogDb where
  rawArtifacts : String → Option RawArtifactRecord := fun _ => none
  datasets : String → Option DatasetManifest := fun _ => none
  candles : String → List Candle := fun _ => []

section Columns

/-- The nearest integer, and of two the one farther from zero. -/
def roundHalfAway (x : ℚ) : ℤ := if 0 ≤ x then ⌊x + 1 / 2⌋ else ⌈x - 1 / 2⌉

def numericColumn (value : Decimal) : Option Decimal :=
  let stored : ℚ := roundHalfAway (value * 10 ^ 18) / 10 ^ 18
  if |stored| < 10 ^ 20 then some stored else none

def Backend.column : Backend → Decimal → Option Decimal
  | .inMemory, value => some value
  | .postgres, value => numericColumn value

def Backend.columns (backend : Backend) (c : Candle) : Option Candle := do
  let openPrice ← backend.column c.openPrice
  let high ← backend.column c.high
  let low ← backend.column c.low
  let close ← backend.column c.close
  let volume ← backend.column c.volume
  pure { c with openPrice, high, low, close, volume }

theorem key_columns {backend : Backend} {c stored : Candle} (h : backend.columns c = some stored) :
    stored.key = c.key := by
  simp only [Backend.columns, Option.bind_eq_bind, Option.bind_eq_some_iff] at h
  obtain ⟨_, _, _, _, _, _, _, _, _, _, h⟩ := h
  cases h
  rfl

end Columns

section Catalog

def registerRawArtifact (db : CatalogDb) (record : RawArtifactRecord) : Except CatalogError CatalogDb :=
  match db.rawArtifacts record.rawDatasetId with
  | some existing =>
    if existing.contentHash ≠ record.contentHash then .error (.catalog "raw_dataset_id conflict") else .ok db
  | none => .ok { db with rawArtifacts := Function.update db.rawArtifacts record.rawDatasetId (some record) }

def checkPublication (digest : String → String) (db : CatalogDb) (m : DatasetManifest) :
    Backend → Except CatalogError Unit
  | .inMemory =>
    if (db.datasets (m.derivedId digest)).isSome then .error (.catalog "dataset already published")
    else if (db.rawArtifacts m.rawDatasetId).isNone then .error (.catalog "unknown raw_dataset_id")
    else .ok ()
  | .postgres =>
    if (db.rawArtifacts m.rawDatasetId).map (·.contentHash) ≠ some m.rawContentHash then
      .error (.catalog "raw artifact hash mismatch or unknown raw_dataset_id")
    else if (db.datasets (m.derivedId digest)).isSome then .error (.catalog "market_data_datasets_pkey")
    else if m.parentDatasetId.any fun parent => (db.datasets parent).isNone then
      .error (.catalog "fk_market_data_datasets_parent_dataset_id")
    else .ok ()

def publishDataset (digest : String → String) (backend : Backend) (db : CatalogDb) (m : DatasetManifest) :
    Except CatalogError (DatasetManifest × CatalogDb) := do
  checkPublication digest db m backend
  let published := m.withDatasetId digest
  pure (published, { db with datasets := Function.update db.datasets (m.derivedId digest) (some published) })

def getManifest (db : CatalogDb) (datasetId : String) : Except CatalogError DatasetManifest :=
  match db.datasets datasetId with
  | some m => .ok m
  | none => .error (.catalog ("unknown dataset_id: " ++ datasetId))

def listCandles (db : CatalogDb) (datasetId : String) : List Candle := sortCandles (db.candles datasetId)

structure Append where
  known : List Candle
  rows : List Candle
  added : ℕ := 0
  conflicts : List CandleConflict := []

/-- A prior candle under the key is kept, and a different one is noted. -/
def Append.keep (a : Append) (prior c : Candle) : Append :=
  if prior = c then a else { a with conflicts := a.conflicts ++ [⟨c.key, prior, c⟩] }

def appendCandle (backend : Backend) (a : Append) (c : Candle) : Except CatalogError Append :=
  match a.known.find? (·.key = c.key) with
  | some prior => .ok (a.keep prior c)
  | none =>
    match backend.columns c, a.rows.find? (·.key = c.key) with
    | none, _ => .error .numericOverflow
    | some stored, none =>
      .ok { a with known := a.known ++ [c], rows := a.rows ++ [stored], added := a.added + 1 }
    | some _, some prior => .ok (a.keep prior c)

/-- What the loop had noted stays noted when a candle raises. -/
def appendLoop (backend : Backend) : List Candle → Append → Append × Except CatalogError Unit
  | [], a => (a, .ok ())
  | c :: cs, a =>
    match appendCandle backend a c with
    | .error e => (a, .error e)
    | .ok a' => appendLoop backend cs a'

structure AppendResult where
  db : CatalogDb
  outcome : Except CatalogError ℕ
  conflicts : List CandleConflict := []

def appendFrom (backend : Backend) (existing : List Candle) (db : CatalogDb) (datasetId : String)
    (candles : List Candle) : AppendResult :=
  match backend, db.datasets datasetId, candles with
  | .inMemory, none, _ => ⟨db, .error (.catalog "unknown dataset"), []⟩
  | .postgres, none, _ :: _ =>
    ⟨db, .error (.integrity "fk_market_data_normalized_candles_dataset_id"), []⟩
  | _, _, _ =>
    match appendLoop backend candles { known := existing, rows := db.candles datasetId } with
    | (a, .error e) => ⟨db, .error e, a.conflicts⟩
    | (a, .ok ()) => ⟨{ db with candles := Function.update db.candles datasetId a.rows }, .ok a.added, a.conflicts⟩

def appendCandles (backend : Backend) (db : CatalogDb) (datasetId : String) (candles : List Candle) :
    AppendResult :=
  appendFrom backend (listCandles db datasetId) db datasetId candles

def setManifest (db : CatalogDb) (datasetId : String) (f : DatasetManifest → DatasetManifest) :
    Except CatalogError CatalogDb := do
  let m ← getManifest db datasetId
  pure { db with datasets := Function.update db.datasets datasetId (some (f m)) }

def persistQualityReport (db : CatalogDb) (datasetId : String) (record : DatasetQualityReportRecord)
    (knownIssues : List String) : Except CatalogError CatalogDb :=
  setManifest db datasetId fun m =>
    { m with
      qualityStatus := record.report.status
      knownIssues := if knownIssues = [] then m.knownIssues else (m.knownIssues ++ knownIssues).eraseDups
      qualityReport := some record.report }

def updateManifestKnownIssues (db : CatalogDb) (datasetId : String) (knownIssues : List String) :
    Except CatalogError CatalogDb :=
  setManifest db datasetId fun m => { m with knownIssues := (m.knownIssues ++ knownIssues).eraseDups }

end Catalog

section AppendFacts

variable {backend : Backend} {a a' : Append} {c : Candle} {cs : List Candle}

@[simp] theorem keep_known (prior : Candle) : (a.keep prior c).known = a.known := by
  unfold Append.keep
  split_ifs <;> rfl

@[simp] theorem keep_rows (prior : Candle) : (a.keep prior c).rows = a.rows := by
  unfold Append.keep
  split_ifs <;> rfl

theorem appendCandle_ok (h : appendCandle backend a c = .ok a') :
    (∃ prior ∈ a.known ++ a.rows, prior.key = c.key ∧ a' = a.keep prior c) ∨
    c.key ∉ a.rows.map Candle.key ∧ ∃ stored, backend.columns c = some stored ∧
      a' = { a with known := a.known ++ [c], rows := a.rows ++ [stored], added := a.added + 1 } := by
  unfold appendCandle at h
  cases hknown : a.known.find? (·.key = c.key) with
  | some prior =>
    rw [hknown] at h
    cases h
    exact .inl ⟨prior, List.mem_append_left _ (List.mem_of_find?_eq_some hknown),
      by simpa using List.find?_some hknown, rfl⟩
  | none =>
    simp only [hknown] at h
    cases hcolumns : backend.columns c with
    | none => simp [hcolumns] at h
    | some stored =>
      cases hrow : a.rows.find? (·.key = c.key) with
      | some prior =>
        simp only [hcolumns, hrow] at h
        cases h
        exact .inl ⟨prior, List.mem_append_right _ (List.mem_of_find?_eq_some hrow),
          by simpa using List.find?_some hrow, rfl⟩
      | none =>
        simp only [hcolumns, hrow] at h
        cases h
        refine .inr ⟨fun hmem => ?_, stored, rfl, rfl⟩
        obtain ⟨prior, hprior, hkey⟩ := List.mem_map.mp hmem
        simpa [hkey] using List.find?_eq_none.mp hrow prior hprior

structure Append.Indexed (a : Append) : Prop where
  nodup : (a.rows.map Candle.key).Nodup
  known : ∀ c ∈ a.known, c.key ∈ a.rows.map Candle.key

theorem Append.Indexed.key_mem (ha : a.Indexed) {prior : Candle} (h : prior ∈ a.known ++ a.rows) :
    prior.key ∈ a.rows.map Candle.key := by
  rcases List.mem_append.mp h with hknown | hrow
  · exact ha.known prior hknown
  · exact List.mem_map_of_mem hrow

theorem Append.Indexed.step (ha : a.Indexed) (h : appendCandle backend a c = .ok a') : a'.Indexed := by
  rcases appendCandle_ok h with ⟨prior, _, _, rfl⟩ | ⟨hnew, stored, hcolumns, rfl⟩
  · exact ⟨by simpa using ha.nodup, by simpa using ha.known⟩
  · have hkey := key_columns hcolumns
    refine ⟨?_, ?_⟩
    · rw [List.map_append, List.map_singleton, hkey]
      exact List.Nodup.append ha.nodup (List.nodup_singleton _) (by simpa using hnew)
    · intro d hd
      rw [List.map_append, List.map_singleton, hkey]
      rcases List.mem_append.mp hd with hd | hd
      · exact List.mem_append_left _ (ha.known d hd)
      · rw [List.mem_singleton.mp hd]
        exact List.mem_append_right _ (List.mem_singleton_self _)

theorem appendLoop_ok (ha : a.Indexed) (h : appendLoop backend cs a = (a', .ok ())) :
    a'.Indexed ∧ (∀ c ∈ cs, c.key ∈ a'.rows.map Candle.key) ∧
    ∃ firsts stored, firsts.Sublist cs ∧ List.Forall₂ (fun c s => backend.columns c = some s) firsts stored ∧
      a'.rows = a.rows ++ stored := by
  induction cs generalizing a with
  | nil =>
    cases h
    exact ⟨ha, by simp, [], [], List.Sublist.refl _, .nil, (List.append_nil _).symm⟩
  | cons c cs ih =>
    unfold appendLoop at h
    cases hstep : appendCandle backend a c with
    | error e => simp [hstep] at h
    | ok a₁ =>
      simp only [hstep] at h
      obtain ⟨hindexed, hkeys, firsts, stored, hsub, hforall, hrows⟩ := ih (ha.step hstep) h
      have hkept : ∀ k ∈ a₁.rows.map Candle.key, k ∈ a'.rows.map Candle.key := by
        intro k hk
        rw [hrows, List.map_append]
        exact List.mem_append_left _ hk
      rcases appendCandle_ok hstep with ⟨prior, hprior, hkey, rfl⟩ | ⟨_, row, hcolumns, rfl⟩
      · refine ⟨hindexed, List.forall_mem_cons.mpr ⟨hkept _ ?_, hkeys⟩, firsts, stored, hsub.cons c, hforall, ?_⟩
        · rw [keep_rows, ← hkey]
          exact ha.key_mem hprior
        · rw [hrows, keep_rows]
      · refine ⟨hindexed, List.forall_mem_cons.mpr ⟨hkept _ ?_, hkeys⟩, c :: firsts, row :: stored, hsub.cons_cons c,
          .cons hcolumns hforall, ?_⟩
        · rw [List.map_append, List.map_singleton, key_columns hcolumns]
          exact List.mem_append_right _ (List.mem_singleton_self _)
        · rw [hrows, List.append_assoc, List.singleton_append]

theorem appendFrom_published {existing candles : List Candle} {db : CatalogDb} {datasetId : String}
    {m : DatasetManifest} (h : db.datasets datasetId = some m) :
    appendFrom backend existing db datasetId candles =
      match appendLoop backend candles { known := existing, rows := db.candles datasetId } with
      | (a, .error e) => ⟨db, .error e, a.conflicts⟩
      | (a, .ok ()) =>
        ⟨{ db with candles := Function.update db.candles datasetId a.rows }, .ok a.added, a.conflicts⟩ := by
  unfold appendFrom
  rw [h]
  cases backend <;> rfl

end AppendFacts

end TradingBot.Market.DatasetCatalog
