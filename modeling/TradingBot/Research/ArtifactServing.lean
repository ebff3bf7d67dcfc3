import TradingBot.Research.SealedArtifacts

namespace TradingBot.Research.ArtifactServing

open Library.Dictionary Library.Paths Library.Paths.FileTree Research.Artifacts Research.Registry Research.GateStore
open Research.GateEvaluator Research.ScorecardStore Research.SealedArtifacts
open Research.RecordVerification hiding ScorecardRecord
open Library.Outcome (except_bind_eq_ok mapError_eq_ok_iff forM_eq_ok_iff)

section Requests

theorem refuse_ok_iff {refused : Bool} {code message : String} {status : ℕ} {u : Unit} :
    refuse refused code message status = .ok u ↔ refused = false := by
  cases refused with
  | true => simp [refuse]
  | false => simp [refuse]

theorem normalizeRelativePath_ok {raw path : String} (h : normalizeRelativePath raw = .ok path) :
    path = raw ∧ ∀ name ∈ keyOf path, Ordinary name := by
  obtain ⟨_, _, h⟩ := except_bind_eq_ok.mp h
  obtain ⟨_, _, h⟩ := except_bind_eq_ok.mp h
  obtain ⟨_, hstripped, h⟩ := except_bind_eq_ok.mp h
  obtain ⟨_, _, h⟩ := except_bind_eq_ok.mp h
  obtain ⟨_, _, h⟩ := except_bind_eq_ok.mp h
  obtain ⟨_, _, h⟩ := except_bind_eq_ok.mp h
  obtain ⟨_, _, h⟩ := except_bind_eq_ok.mp h
  obtain ⟨_, hparts, h⟩ := except_bind_eq_ok.mp h
  cases h
  simp only [refuse_ok_iff, decide_eq_false_iff_not, not_or, not_not] at hstripped
  rw [refuse_ok_iff] at hparts
  rw [hstripped.2] at hparts ⊢
  refine ⟨String.ofList_toList, ?_⟩
  intro name hname
  simp only [keyOf, String.ofList_toList, List.mem_map] at hname
  obtain ⟨part, hpart, hname⟩ := hname
  have hordinary := List.any_eq_false.mp hparts part hpart
  have hlist : part = name.toList := by
    rw [← hname, String.toList_ofList]
  simp only [Bool.or_eq_true, decide_eq_true_eq, not_or] at hordinary
  obtain ⟨⟨hempty, hsame⟩, hup⟩ := hordinary
  refine ⟨?_, ?_, ?_⟩
  · intro heq
    exact hempty (hlist.trans (by rw [heq]; rfl))
  · intro heq
    exact hsame (hlist.trans (by rw [heq]; rfl))
  · intro heq
    exact hup (hlist.trans (by rw [heq]; rfl))

end Requests

section Disks

variable {disk : Disk}

theorem resolve_ok {path : Reference} {canonical : Path} (h : disk.resolve path = .ok canonical) :
    disk.tree.realpath disk.depth (path.base disk.cwd) path.parts = some canonical := by
  simp only [Disk.resolve] at h
  cases hreal : disk.tree.realpath disk.depth (path.base disk.cwd) path.parts with
  | none =>
    rw [hreal] at h
    cases h
  | some found =>
    rw [hreal] at h
    cases h
    rfl

theorem plain_resolve {path : Reference} {canonical : Path} (h : disk.resolve path = .ok canonical) :
    disk.tree.Plain [] canonical := plain_realpath (resolve_ok h) (plain_base disk.canonical)

theorem resolve_plain {path : Path} (h : disk.tree.Plain [] path) :
    disk.resolve { absolute := true, parts := path } = .ok path := by
  have hreal : disk.tree.realpath disk.depth [] path = some ([] ++ path) := realpath_of_plain h
  simp only [Disk.resolve, Reference.base, if_true, hreal, List.nil_append]

theorem stat_some {path : Reference} {node : Node Bytes} (h : disk.stat path = some node) :
    ∃ found, Leads disk.tree disk.links (path.base disk.cwd) path.parts found ∧ disk.tree.node found = some node := by
  obtain ⟨found, hfound, hnode⟩ := Option.bind_eq_some_iff.mp h
  exact ⟨found, leads_of_walk hfound, hnode⟩

theorem verifyChecksumsAgainst_file {sha256 : Bytes → String} {path : Reference} {expected : Checksums} {key : RelPath}
    {digest : String} (h : disk.verifyChecksumsAgainst sha256 path expected = .ok ())
    (hkey : expected.get? key = some digest) :
    ∃ data, disk.stat (path.join (reference key)) = some (.file data) ∧ sha256 data = digest := by
  simp only [Disk.verifyChecksumsAgainst] at h
  split_ifs at h
  have hfile := forM_eq_ok_iff.mp h (key, digest) (List.mem_insertionSort _ |>.mpr (Dict.get?_eq_some_iff.mp hkey))
  simp only [Disk.verifyFile] at hfile
  split at hfile
  · rename_i data hdata
    split_ifs at hfile with hdigest
    exact ⟨data, hdata, hdigest⟩
  · cases hfile

theorem join_reference {path : Reference} {key : RelPath} (hnames : ∀ name ∈ key, Ordinary name) :
    path.join (reference key) = { path with parts := path.parts ++ key } := by
  have hreference : reference key = { parts := key } := by
    cases key with
    | nil => rfl
    | cons name rest =>
      have hordinary := hnames name List.mem_cons_self
      cases rest with
      | nil => simp [reference]
      | cons second rest => simp [reference, hordinary.1]
  simp [Reference.join, hreference]

theorem exists?_of_leads {path found : Path} (h : Leads disk.tree disk.links [] path found) :
    disk.exists? path = true := by
  have hnode : (disk.tree.node found).isSome :=
    node_of_leads h (by simp [FileTree.node, disk.tree.root])
  have hwalk := walk_of_leads h
  simp only [Disk.exists?, Disk.stat, Disk.find, Reference.base, if_true, hwalk, Option.bind_some, hnode]

theorem isSymlink_of_step {cur : Path} {name : String} {target : Reference}
    (hcur : Leads disk.tree disk.links [] cur cur) (hdirectory : disk.tree.isDirectory cur = true)
    (h : disk.tree.step cur name = .follow target) : disk.isSymlink (cur ++ [name]) = true := by
  have hwalk := walk_of_leads hcur
  simp only [Disk.isSymlink, List.dropLast_concat, hwalk, List.getLast?_concat, hdirectory, h, Bool.and_true]

theorem showVerified_found {sha256 : Bytes → String} {registry : ExperimentRegistry} {runId : String}
    {entry : RegistryEntry} (h : disk.showVerified sha256 registry runId = .ok entry) :
    registry.findEntry runId = .ok entry := by
  obtain ⟨found, hfound, h⟩ := except_bind_eq_ok.mp h
  by_cases hcomplete : found.status = .complete
  · rw [if_pos hcomplete] at h
    obtain ⟨_, _, h⟩ := except_bind_eq_ok.mp h
    cases h
    exact hfound
  · rw [if_neg hcomplete] at h
    cases h
    exact hfound

end Disks

section Serving

variable {J : Type} {reader : Reader J} {record : ScorecardRecord}

theorem plain_of_refuseSymlinks {cur found : Path} {key : RelPath} {links : ℕ}
    (hcur : reader.disk.tree.Plain [] cur) (hnames : ∀ name ∈ key, Ordinary name)
    (hleads : Leads reader.disk.tree links cur key found) (hle : links ≤ reader.disk.links)
    (h : reader.refuseSymlinks cur key = .ok ()) : reader.disk.tree.Plain cur key := by
  induction key generalizing cur with
  | nil => trivial
  | cons name rest ih =>
    obtain ⟨_, hrefused, hrest⟩ := except_bind_eq_ok.mp h
    rw [refuse_ok_iff] at hrefused
    have hordinary := hnames name List.mem_cons_self
    have hothers : ∀ name ∈ rest, Ordinary name := fun name hname => hnames name (List.mem_cons_of_mem _ hname)
    have hsplit : Leads reader.disk.tree links cur ([name] ++ rest) found := hleads
    obtain ⟨middle, hfirst, _⟩ := hsplit.split
    have hdirectory := hleads.isDirectory
    have hhere : Leads reader.disk.tree 0 [] cur cur := leads_of_plain hcur (by simp [isDirectory_iff.mp hdirectory])
    have hmiddle : Leads reader.disk.tree reader.disk.links [] (cur ++ [name]) middle :=
      (hhere.append hfirst).mono (by omega)
    rw [exists?_of_leads hmiddle, Bool.true_and] at hrefused
    cases hleads with
    | into _ hstep hfound =>
      obtain ⟨hnext, hlink⟩ := step_ordinary_into hordinary hstep
      subst hnext
      exact ⟨hordinary, hlink, ih (plain_concat hcur hordinary hlink) hothers hfound hrest⟩
    | follow _ hstep _ =>
      rw [isSymlink_of_step (hhere.mono (Nat.zero_le _)) hdirectory hstep] at hrefused
      cases hrefused

theorem verifyScorecardRecord_files {record : RecordVerification.ScorecardRecord} {u : Unit}
    (h : reader.verifyScorecardRecordArtifactChecksums record = .ok u) :
    ∃ entry, reader.registry.findEntry record.runId = .ok entry ∧
      reader.disk.verifyChecksumsAgainst reader.sha256 (reference entry.artifactPath)
        (record.artifactChecksums.filterKeys scorecardRecords.isRunFile) = .ok () := by
  obtain ⟨_, _, h⟩ := except_bind_eq_ok.mp h
  obtain ⟨_, _, h⟩ := except_bind_eq_ok.mp h
  obtain ⟨entry, hshown, h⟩ := except_bind_eq_ok.mp h
  obtain ⟨_, _, h⟩ := except_bind_eq_ok.mp h
  obtain ⟨_, hfiles, _⟩ := except_bind_eq_ok.mp h
  exact ⟨entry, showVerified_found (mapError_eq_ok_iff.mp hshown), mapError_eq_ok_iff.mp hfiles⟩

theorem isPinnedRunPath_isRunFile {key : RelPath} (h : isPinnedRunPath record key = true) :
    scorecardRecords.isRunFile key = true := by
  simp only [isPinnedRunPath, Bool.or_eq_true, Bool.and_eq_true, decide_eq_true_eq] at h
  cases h with
  | inl hpinned =>
    obtain ⟨_, hentry, hkey⟩ := List.mem_map.mp hpinned
    subst hkey
    exact (List.mem_filter.mp hentry).2
  | inr hlayer =>
    have hall : ∀ key ∈ layerFiles, scorecardRecords.isRunFile key = true := by decide
    exact hall key hlayer.1

theorem get?_runPinned {key : RelPath} {digest : String} (hrun : scorecardRecords.isRunFile key = true)
    (h : record.artifactChecksums.get? key = some digest) :
    (record.artifactChecksums.filterKeys scorecardRecords.isRunFile).get? key = some digest :=
  Dict.get?_eq_some_iff.mpr (List.mem_filter.mpr ⟨Dict.get?_eq_some_iff.mp h, hrun⟩)

theorem resolveUnderRoot_ok {root path : Reference} {resolved : Path}
    (h : reader.resolveUnderRoot root path = .ok resolved) : reader.disk.resolve path = .ok resolved := by
  obtain ⟨_, _, h⟩ := except_bind_eq_ok.mp h
  obtain ⟨found, hfound, h⟩ := except_bind_eq_ok.mp h
  obtain ⟨_, _, h⟩ := except_bind_eq_ok.mp h
  cases h
  exact hfound

theorem readTarget_ok {path : String} {target : Path} {data : Bytes} (h : reader.readTarget path target = .ok data) :
    reader.disk.stat { absolute := true, parts := target } = some (.file data) ∧ data.length ≤ maxArtifactBytes := by
  simp only [Reader.readTarget] at h
  split at h
  · cases h
  · cases h
  · rename_i found hfound
    obtain ⟨_, hsize, h⟩ := except_bind_eq_ok.mp h
    cases h
    rw [refuse_ok_iff, decide_eq_false_iff_not, not_lt] at hsize
    exact ⟨hfound, hsize⟩
  · cases h

theorem target_of_verified {path : Reference} {runDir target : Path} {key : RelPath} {data : Bytes}
    (hnames : ∀ name ∈ key, Ordinary name) (hrun : reader.disk.resolve path = .ok runDir)
    (hfound : reader.disk.stat (path.join (reference key)) = some (.file data))
    (htarget : reader.assertNotSymlinkEscape runDir key = .ok target) :
    target = runDir ++ key ∧ reader.disk.tree.Plain [] target ∧ reader.disk.tree.Plain runDir key := by
  rw [join_reference hnames] at hfound
  obtain ⟨_, hleads, _⟩ := stat_some hfound
  obtain ⟨middle, hmiddle, hbelow⟩ := hleads.split
  have hdirectory : runDir = middle := realpath_eq_of_leads hmiddle (resolve_ok hrun)
  subst hdirectory
  have hplain := plain_resolve hrun
  obtain ⟨_, _, htarget⟩ := except_bind_eq_ok.mp htarget
  obtain ⟨_, hlinks, htarget⟩ := except_bind_eq_ok.mp htarget
  obtain ⟨resolved, hresolved, htarget⟩ := except_bind_eq_ok.mp htarget
  obtain ⟨_, _, htarget⟩ := except_bind_eq_ok.mp htarget
  cases htarget
  have hkey := plain_of_refuseSymlinks hplain hnames hbelow le_rfl hlinks
  have hwhole : reader.disk.tree.Plain [] (runDir ++ key) := plain_append.mpr ⟨hplain, hkey⟩
  rw [resolve_plain hwhole] at hresolved
  cases hresolved
  exact ⟨rfl, hwhole, hkey⟩

theorem file_of_stat_plain {path : Path} {data : Bytes} (hplain : reader.disk.tree.Plain [] path)
    (h : reader.disk.stat { absolute := true, parts := path } = some (.file data)) :
    reader.disk.tree.node path = some (.file data) := by
  obtain ⟨found, hleads, hnode⟩ := stat_some h
  have hfound : found = [] ++ path := eq_append_of_leads hleads hplain
  rw [hfound, List.nil_append] at hnode
  exact hnode

/-- A file that a record may serve: it lies in the directory of the run as it is named, no link on the way, and its
bytes have the digest that the record pins. -/
structure Servable (reader : Reader J) (record : ScorecardRecord) (request : String) (entry : RegistryEntry)
    (runDir : Path) (data : Bytes) : Prop where
  active : record.status = .active
  found : reader.registry.findEntry record.runId = .ok entry
  complete : entry.status = .complete
  directory : reader.disk.resolve (reference entry.artifactPath) = .ok runDir
  runFile : scorecardRecords.isRunFile (keyOf request) = true
  pinned : record.artifactChecksums.get? (keyOf request) = some (reader.sha256 data)
  plain : reader.disk.tree.Plain runDir (keyOf request)
  file : reader.disk.tree.node (runDir ++ keyOf request) = some (.file data)
  size : data.length ≤ maxArtifactBytes

theorem readSealedArtifactContent_ok {request : String} {content : ArtifactContentResult J}
    (h : reader.readSealedArtifactContent record request = .ok content) :
    ∃ entry runDir data, Servable reader record request entry runDir data ∧ content.relativePath = request ∧
      content.checksumSha256 = reader.sha256 data ∧ content.byteLength = data.length ∧
      reader.decodePayload data content.mediaKind = .ok content.payload := by
  simp only [Reader.readSealedArtifactContent] at h
  obtain ⟨_, hactive, h⟩ := except_bind_eq_ok.mp h
  obtain ⟨_, _, h⟩ := except_bind_eq_ok.mp h
  obtain ⟨rel, hrel, h⟩ := except_bind_eq_ok.mp h
  obtain ⟨_, hpinned, h⟩ := except_bind_eq_ok.mp h
  obtain ⟨_, hdigest, h⟩ := except_bind_eq_ok.mp h
  obtain ⟨media, _, h⟩ := except_bind_eq_ok.mp h
  obtain ⟨entry, hentry, h⟩ := except_bind_eq_ok.mp h
  obtain ⟨_, hcomplete, h⟩ := except_bind_eq_ok.mp h
  obtain ⟨_, _, h⟩ := except_bind_eq_ok.mp h
  obtain ⟨_, _, h⟩ := except_bind_eq_ok.mp h
  obtain ⟨runDir, hrunDir, h⟩ := except_bind_eq_ok.mp h
  obtain ⟨_, hverified, h⟩ := except_bind_eq_ok.mp h
  obtain ⟨_, _, h⟩ := except_bind_eq_ok.mp h
  obtain ⟨_, _, h⟩ := except_bind_eq_ok.mp h
  obtain ⟨_, _, h⟩ := except_bind_eq_ok.mp h
  obtain ⟨target, htarget, h⟩ := except_bind_eq_ok.mp h
  obtain ⟨data, hdata, h⟩ := except_bind_eq_ok.mp h
  obtain ⟨_, hsame, h⟩ := except_bind_eq_ok.mp h
  obtain ⟨_, _, h⟩ := except_bind_eq_ok.mp h
  obtain ⟨payload, hpayload, h⟩ := except_bind_eq_ok.mp h
  cases h
  obtain ⟨hrequest, hnames⟩ := normalizeRelativePath_ok hrel
  subst hrequest
  rw [refuse_ok_iff, Bool.not_eq_false'] at hpinned
  simp only [refuse_ok_iff, decide_eq_false_iff_not, not_not] at hactive hcomplete hsame hdigest
  have hstatus : record.status = .active := by
    cases hstatus : record.status with
    | active => rfl
    | invalidated => exact absurd hstatus hactive
  have hrun := isPinnedRunPath_isRunFile hpinned
  have hfound := mapError_eq_ok_iff.mp hentry
  obtain ⟨digest, hget⟩ : ∃ digest, record.artifactChecksums.get? (keyOf rel) = some digest := by
    cases hget : record.artifactChecksums.get? (keyOf rel) with
    | none => simp [hget] at hdigest
    | some digest => exact ⟨digest, rfl⟩
  rw [hget, Option.getD_some] at hsame
  obtain ⟨entry', hfound', hfiles⟩ := verifyScorecardRecord_files (mapError_eq_ok_iff.mp hverified)
  have hentry' : entry' = entry := Except.ok.inj (hfound'.symm.trans hfound)
  subst hentry'
  obtain ⟨_, hstat, _⟩ := verifyChecksumsAgainst_file hfiles (get?_runPinned hrun hget)
  have hdirectory := resolveUnderRoot_ok hrunDir
  obtain ⟨hat, hplain, hbelow⟩ := target_of_verified hnames hdirectory hstat htarget
  obtain ⟨hread, hsize⟩ := readTarget_ok hdata
  have hfile := file_of_stat_plain hplain hread
  rw [hat] at hfile
  refine ⟨entry', runDir, data, ?_, rfl, rfl, rfl, hpayload⟩
  exact {
    active := hstatus
    found := hfound
    complete := hcomplete
    directory := hdirectory
    runFile := hrun
    pinned := hsame ▸ hget
    plain := hbelow
    file := hfile
    size := hsize }

/-- Only a servable file is returned; every other request ends in an error. -/
theorem sealed_artifact_serving (reader : Reader J) (record : ScorecardRecord) (request : String) :
    (∀ content, reader.readSealedArtifactContent record request = .ok content →
      ∃ entry runDir data, Servable reader record request entry runDir data ∧ content.relativePath = request ∧
        content.checksumSha256 = reader.sha256 data ∧ content.byteLength = data.length ∧
        reader.decodePayload data content.mediaKind = .ok content.payload) ∧
    ((¬ ∃ entry runDir data, Servable reader record request entry runDir data) →
      ∃ error, reader.readSealedArtifactContent record request = .error error) := by
  refine ⟨fun content h => readSealedArtifactContent_ok h, ?_⟩
  intro hother
  cases h : reader.readSealedArtifactContent record request with
  | ok content =>
    obtain ⟨entry, runDir, data, hservable, _⟩ := readSealedArtifactContent_ok h
    exact absurd ⟨entry, runDir, data, hservable⟩ hother
  | error error => exact ⟨error, rfl⟩

end Serving

section Sample

def sampleTree : FileTree Bytes where
  nodes :=
    { entries := [([], .directory), (["latest"], .link { parts := ["artifacts", "research", "run"] }),
        (["artifacts"], .directory), (["artifacts", "research"], .directory),
        (["artifacts", "research", "run"], .directory),
        (["artifacts", "research", "run", "checksums.json"], .file [123, 125]),
        (["artifacts", "research", "run", "notes.txt"], .file [111, 107])] }
  root := by decide
  rooted := by decide

def sampleDigestOf : Content → String
  | .bytes [111, 107] => "2689367b205c16ce32ed4200942b8b8b1e262dfc70d9bc9fbc77c49699a4f1df"
  | _ => ""

def samplePinned : Checksums := Dict.set {} ["notes.txt"] (sampleDigestOf (.bytes [111, 107]))

def sampleReader : Reader Checksums where
  disk := { tree := sampleTree, links := 40, depth := 40, cwd := [], canonical := trivial }
  root := { parts := [] }
  registry :=
    { lines := [{ experimentId := "exp", runId := "run", attemptId := "1", strategyVersion := "v1"
                  datasetVersion := "d1", costModelVersion := "c1", benchmarkRef := "none", createdAt := "2024-01-01"
                  artifactPath := ["latest"], checksums := samplePinned, status := .complete }] }
  policyContentHash := fun version => if version = "1.0" then some "policy" else none
  codec :=
    { decodeUtf8 := fun data => .ok (String.ofList (data.map fun byte => Char.ofNat byte.toNat))
      loads := fun text => if text = "\x7b\x7d" then .ok {} else .error "Expecting value"
      items := some
      isArray := fun _ => false }
  area :=
    { reconstructOatVariants := fun _ _ => .ok []
      evaluateParameterArea := fun _ => .error (.attributeError "")
      policyContentHash := fun _ => none }
  ctx :=
    { sha256 := sampleDigestOf
      digest := fun _ => ""
      policyContentHash := fun _ => ""
      gateRunId := fun _ _ _ _ => ""
      bootstrapQ05 := fun _ _ _ _ _ => .ok none }
  hashes := { scorecardEvidence := fun _ => "evidence", gateEvidence := fun _ => "" }
  lookup := fun runId => .error (.keyError runId)
  files := {}
  store := {}

def sampleRecord : ScorecardRecord where
  scorecardId := "scorecard"
  evidenceContentHash := "evidence"
  runId := "run"
  gateRunId := none
  robustnessRunIds := []
  artifactChecksums := samplePinned
  gateEvidenceContentHash := none
  parameterAreaRobustnessId := none
  parameterArea := none
  sealedOverallStatus := none
  policyVersion := "1.0"
  policyContentHash := "policy"
  evaluatedAt := "2024-01-02"

/-- The pinned file is served; the seal of the run is not pinned. -/
theorem sealed_artifact_serving_sample :
    (∃ entry runDir data, Servable sampleReader sampleRecord "notes.txt" entry runDir data) ∧
      ∃ error, sampleReader.readSealedArtifactContent sampleRecord "checksums.json" = .error error := by
  have hserved : sampleReader.readSealedArtifactContent sampleRecord "notes.txt" = .ok
      { relativePath := "notes.txt", checksumSha256 := sampleDigestOf (.bytes [111, 107]), mediaKind := .text
        contentType := "text/plain; charset=utf-8", payload := .text "ok", byteLength := 2 } := by
    decide +kernel
  obtain ⟨entry, runDir, data, hservable, _⟩ :=
    (sealed_artifact_serving sampleReader sampleRecord "notes.txt").1 _ hserved
  refine ⟨⟨entry, runDir, data, hservable⟩, (sealed_artifact_serving sampleReader sampleRecord "checksums.json").2 ?_⟩
  rintro ⟨_, _, _, hother⟩
  have hpinned : sampleRecord.artifactChecksums.get? (keyOf "checksums.json") = none := by decide +kernel
  rw [hother.pinned] at hpinned
  cases hpinned

end Sample

end TradingBot.Research.ArtifactServing
