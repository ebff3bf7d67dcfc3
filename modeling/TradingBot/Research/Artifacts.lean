import TradingBot.Research.Metrics

namespace TradingBot.Research.Artifacts

open Library.Dictionary Research.Metrics
open Library.Outcome (except_bind_eq_ok forM_eq_ok_iff)

/-- The exceptions of the research stores, with the text each carries. -/
inductive ResearchError
  | valueError (message : String)
  | keyError (message : String)
  | fileNotFoundError (message : String)
  | fileExistsError (message : String)
deriving DecidableEq, Repr

def refuseIf (refused : Bool) (error : ResearchError) : Except ResearchError Unit :=
  if refused then .error error else .ok ()

theorem refuseIf_ok_iff {refused : Bool} {error : ResearchError} {u : Unit} :
    refuseIf refused error = .ok u ↔ refused = false := by
  cases refused with
  | true => simp [refuseIf]
  | false => simp [refuseIf]

abbrev RelPath := List String

instance RelPath.lawfulBEq : LawfulBEq RelPath := inferInstance

def posix (path : RelPath) : String := "/".intercalate path

def pathName (path : RelPath) : String := path.getLast?.getD ""

/-- The digests of files, by their paths below the directory. -/
abbrev Checksums := Dict RelPath String

/-- The fields of `run_manifest.json` that are read back; one that the file does not have is `none`. -/
structure RunManifestDocument where
  experimentId : Option String := none
  runId : Option String := none
  attemptId : Option String := none
  status : Option String := none
  strategyVersion : Option String := none
  createdAtUtc : Option String := none
  datasetId : Option String := none
  datasetContentHash : Option String := none
  gitCommit : Option String := none
deriving DecidableEq, Repr

/-- The fields of `experiment.json` that are read back. -/
structure ExperimentDocument where
  datasetId : Option String := none
  benchmark : Option String := none
  parameters : List (String × String) := []
deriving DecidableEq, Repr

/-- What a file holds. The JSON files that are read back are given by the fields that are read. -/
inductive Content
  | bytes (data : List UInt8)
  | checksums (entries : Checksums)
  | runManifest (document : RunManifestDocument)
  | experiment (document : ExperimentDocument)
  | costs (costModelVersion : Option String)
  | metrics (document : ResearchMetrics)
deriving DecidableEq, Repr

/-- The files below a directory. -/
abbrev Tree := Dict RelPath Content

def checksumsJson : RelPath := ["checksums.json"]

variable (sha256 : Content → String)

def checksumsForDir (tree : Tree) : Checksums where
  entries := (tree.entries.filter fun e => pathName e.1 ≠ "checksums.json").map fun e => (e.1, sha256 e.2)
  nodup := by
    rw [List.map_map]
    exact tree.nodup.sublist (List.filter_sublist.map _)

def computeArtifactChecksums (directory : Option Tree) : Checksums := checksumsForDir sha256 (directory.getD {})

def loadChecksums (tree : Tree) : Except ResearchError Checksums :=
  match tree.get? checksumsJson with
  | none => .error (.fileNotFoundError "No such file or directory: 'checksums.json'")
  | some (.checksums entries) => .ok entries
  | some (.bytes _) => .error (.valueError "Expecting value")
  | some _ => .error (.valueError "checksums.json must be an object")

/-- The files that the trusted checksums do not know; the seal at the top of the directory may be there. -/
def unexpectedFiles (tree : Tree) (expected : Checksums) : List RelPath :=
  (tree.keys.insertionSort (· ≤ ·)).filter fun rel => rel ≠ checksumsJson ∧ rel ∉ expected.keys

/-- One turn of the loop over the trusted checksums. -/
def verifyFile (tree : Tree) (expected : RelPath × String) : Except ResearchError Unit :=
  match tree.get? expected.1 with
  | none => .error (.fileNotFoundError ("missing artifact " ++ posix expected.1))
  | some content =>
    if sha256 content = expected.2 then .ok ()
    else .error (.valueError ("checksum mismatch for " ++ posix expected.1 ++ " (trusted snapshot)"))

def verifyChecksumsAgainst (tree : Tree) (expected : Checksums) : Except ResearchError Unit :=
  if unexpectedFiles tree expected ≠ [] then
    .error (.valueError ("unexpected artifacts not in trusted checksums: ['" ++
      "', '".intercalate ((unexpectedFiles tree expected).map posix) ++ "']"))
  else forM (expected.entries.insertionSort fun a b => posix a.1 ≤ posix b.1) (verifyFile sha256 tree)

def verifyChecksums (tree : Tree) : Except ResearchError Unit := do
  let expected ← loadChecksums tree
  verifyChecksumsAgainst sha256 tree expected

variable {sha256 : Content → String} {tree : Tree} {expected : Checksums} {rel : RelPath} {digest : String}

theorem get?_checksumsForDir :
    (checksumsForDir sha256 tree).get? rel = some digest ↔
      pathName rel ≠ "checksums.json" ∧ ∃ c, tree.get? rel = some c ∧ sha256 c = digest := by
  rw [Dict.get?_eq_some_iff, checksumsForDir, List.mem_map]
  constructor
  · rintro ⟨e, he, heq⟩
    obtain ⟨rfl, rfl⟩ := Prod.mk.inj heq
    obtain ⟨hmem, hname⟩ := List.mem_filter.mp he
    exact ⟨of_decide_eq_true hname, e.2, Dict.get?_eq_some_iff.mpr hmem, rfl⟩
  · rintro ⟨hname, c, hc, rfl⟩
    exact ⟨(rel, c), List.mem_filter.mpr ⟨Dict.get?_eq_some_iff.mp hc, decide_eq_true hname⟩, rfl⟩

theorem unexpectedFiles_eq_nil_iff :
    unexpectedFiles tree expected = [] ↔ ∀ rel ∈ tree.keys, rel ≠ checksumsJson → rel ∈ expected.keys := by
  rw [unexpectedFiles, List.filter_eq_nil_iff]
  simp only [List.mem_insertionSort, decide_eq_true_eq, not_and, not_not]

theorem verifyFile_ok_iff {e : RelPath × String} :
    verifyFile sha256 tree e = .ok () ↔ ∃ c, tree.get? e.1 = some c ∧ sha256 c = e.2 := by
  unfold verifyFile
  cases tree.get? e.1 with
  | none => simp
  | some c =>
    by_cases h : sha256 c = e.2
    · simp [h]
    · simp [h]

theorem verifyChecksumsAgainst_ok_iff :
    verifyChecksumsAgainst sha256 tree expected = .ok () ↔
      (∀ rel ∈ tree.keys, rel ≠ checksumsJson → rel ∈ expected.keys) ∧
      ∀ rel digest, expected.get? rel = some digest → ∃ c, tree.get? rel = some c ∧ sha256 c = digest := by
  rw [verifyChecksumsAgainst, ← unexpectedFiles_eq_nil_iff]
  by_cases h : unexpectedFiles tree expected = []
  · rw [if_neg (not_not_intro h), forM_eq_ok_iff]
    simp only [h, true_and, List.mem_insertionSort, verifyFile_ok_iff]
    exact ⟨fun hall rel digest hget => hall (rel, digest) (Dict.get?_eq_some_iff.mp hget),
      fun hall e he => hall e.1 e.2 (Dict.get?_eq_some_iff.mpr he)⟩
  · simp [h]

/-- A directory passes under its own checksums, unless a file below a subdirectory is called like the seal. -/
theorem verifyChecksumsAgainst_checksumsForDir :
    verifyChecksumsAgainst sha256 tree (checksumsForDir sha256 tree) = .ok () ↔
      ∀ rel ∈ tree.keys, rel ≠ checksumsJson → pathName rel ≠ "checksums.json" := by
  rw [verifyChecksumsAgainst_ok_iff]
  constructor
  · rintro ⟨hknown, -⟩ rel hrel hseal
    obtain ⟨digest, hdigest⟩ := Option.isSome_iff_exists.mp (Dict.get?_isSome_iff.mpr (hknown rel hrel hseal))
    exact (get?_checksumsForDir.mp hdigest).1
  · intro hnames
    refine ⟨fun rel hrel hseal => ?_, fun rel digest h => (get?_checksumsForDir.mp h).2⟩
    obtain ⟨c, hc⟩ := Option.isSome_iff_exists.mp (Dict.get?_isSome_iff.mpr hrel)
    exact Dict.mem_keys_of_get? (get?_checksumsForDir.mpr ⟨hnames rel hrel hseal, c, hc, rfl⟩)

end TradingBot.Research.Artifacts
