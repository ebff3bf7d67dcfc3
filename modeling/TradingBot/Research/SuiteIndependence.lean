import TradingBot.Research.RobustnessSuite

namespace TradingBot.Research.SuiteIndependence

open Library.Dictionary Research.Artifacts Research.Registry Research.RobustnessSuite
open Research.ArtifactWriter (sealedTree)
open Library.Outcome (except_bind_eq_ok)

section Registration

def RunOpen (registry : ExperimentRegistry) (runId : String) : Prop :=
  registry.sidecars runId = none ∧ ∀ e ∈ registry.listEntries, e.runId = runId → e.status ≠ .complete

structure FilesMatch (sha256 : Content → String) (directory : Option Tree) (checksums : Checksums) : Prop where
  provided : checksums.sameItems (computeArtifactChecksums sha256 directory) = true
  sealed : ExperimentRegistry.checkSeal directory (computeArtifactChecksums sha256 directory) = .ok ()
  verified : verifyChecksumsAgainst sha256 (directory.getD {}) checksums = .ok ()

variable {sha256 : Content → String} {artifacts : ArtifactStore} {registry registry' : ExperimentRegistry}
  {r : Registration} {runId : String} {entry : RegistryEntry}

theorem registerComplete_ok_iff : registry.registerComplete sha256 artifacts r = .ok registry' ↔
    RunOpen registry r.runId ∧ FilesMatch sha256 (artifacts.get? r.artifactPath) r.checksums ∧
      registry' = { registry with lines := registry.lines ++ [{ r with status := .complete }] } := by
  constructor
  · intro h
    obtain ⟨hmarked, hregistry⟩ := ExperimentRegistry.registerComplete_ok h
    obtain ⟨_, -, h⟩ := except_bind_eq_ok.mp h
    obtain ⟨_, hduplicate, h⟩ := except_bind_eq_ok.mp h
    obtain ⟨_, hprovided, h⟩ := except_bind_eq_ok.mp h
    obtain ⟨_, hseal, h⟩ := except_bind_eq_ok.mp h
    obtain ⟨_, hverified, -⟩ := except_bind_eq_ok.mp h
    rw [refuseIf_ok_iff] at hduplicate hprovided
    refine ⟨⟨hmarked, fun e he hid hstatus => ?_⟩, ⟨by simpa using hprovided, hseal, hverified⟩, hregistry⟩
    rw [List.any_eq_false] at hduplicate
    exact hduplicate e he (decide_eq_true ⟨hid, hstatus⟩)
  · rintro ⟨⟨hmarked, hopen⟩, hfiles, rfl⟩
    have hunmarked : registry.runMarked r.runId = false := by
      rw [ExperimentRegistry.runMarked_eq, hmarked]
      rfl
    refine except_bind_eq_ok.mpr ⟨(), refuseIf_ok_iff.mpr hunmarked, ?_⟩
    refine except_bind_eq_ok.mpr ⟨(), refuseIf_ok_iff.mpr ?_, ?_⟩
    · rw [List.any_eq_false]
      intro e he hcomplete
      obtain ⟨hid, hstatus⟩ := of_decide_eq_true hcomplete
      exact hopen e he hid hstatus
    refine except_bind_eq_ok.mpr ⟨(), refuseIf_ok_iff.mpr (by simpa using hfiles.provided), ?_⟩
    refine except_bind_eq_ok.mpr ⟨(), hfiles.sealed, except_bind_eq_ok.mpr ⟨(), hfiles.verified, ?_⟩⟩
    unfold ExperimentRegistry.append
    rw [if_neg]
    rintro ⟨-, -, hmarked'⟩
    rw [hunmarked] at hmarked'
    cases hmarked'

theorem runOpen_append (h : entry.runId ≠ runId) :
    RunOpen { registry with lines := registry.lines ++ [entry] } runId ↔ RunOpen registry runId := by
  have hview : ExperimentRegistry.listEntries { registry with lines := registry.lines ++ [entry] } =
      registry.listEntries ++ [registry.applySidecar entry] := by
    unfold ExperimentRegistry.listEntries
    rw [List.map_append]
    rfl
  unfold RunOpen
  rw [hview]
  simp only [List.mem_append, List.mem_singleton, or_imp, forall_and, forall_eq,
    ExperimentRegistry.applySidecar_runId, h, false_imp_iff, and_true]

end Registration

variable {ρ : Type}

/-- The child runs, and its run directory is what is registered: on any root that admits the run, it completes. -/
def Sound (ctx : SuiteContext ρ) (spec : SuiteSpec ρ) (ids : RunIds) (metrics : ChildMetrics) : Prop :=
  ctx.identify spec = .ok ids ∧ ∃ work costModelVersion checksums, ctx.execute spec = .ok work ∧
    readMetrics (sealedTree ctx.sha256 work) = .ok metrics ∧
    ExperimentRegistry.readCostModelVersion (sealedTree ctx.sha256 work) = .ok costModelVersion ∧
    loadChecksums (sealedTree ctx.sha256 work) = .ok checksums ∧
    FilesMatch ctx.sha256 (some (sealedTree ctx.sha256 work)) checksums

/-- The root has neither a directory nor a complete registration of the run yet. -/
def Admits (root : ArtifactRoot) (ids : RunIds) : Prop :=
  root.artifacts.get? (runDir ids) = none ∧ RunOpen root.registry ids.runId

/-- A child with these fields completes when it is run on the root. -/
def Completes (ctx : SuiteContext ρ) (root : ArtifactRoot) (spec : SuiteSpec ρ) : Prop :=
  ∃ ids metrics, Sound ctx spec ids metrics ∧ Admits root ids

/-- The digests tell the specs apart. -/
def RunIdsDistinct (ctx : SuiteContext ρ) (specs : List (SuiteSpec ρ)) : Prop :=
  ∀ s ∈ specs, ∀ s' ∈ specs, ∀ ids, ctx.identify s = .ok ids → ∀ ids', ctx.identify s' = .ok ids' →
    ids.runId = ids'.runId → s = s'

structure ChildOutcome where
  childId : String
  status : ChildStatus
  metrics : ChildMetrics
deriving DecidableEq, Repr

def outcome (result : RobustnessChildResult) : ChildOutcome := ⟨result.childId, result.status, result.metrics⟩

variable {ctx : SuiteContext ρ} {stamp stamp' : Stamp} {root root' : ArtifactRoot} {child : RobustnessChildSpec ρ}
  {spec : SuiteSpec ρ} {ids ids' : RunIds} {metrics metrics' : ChildMetrics}

theorem runDir_ne (h : ids.runId ≠ ids'.runId) : runDir ids ≠ runDir ids' := by
  simp only [runDir, ne_eq, List.cons.injEq, and_true, not_and]
  exact fun _ => h

theorem Sound.unique (h : Sound ctx spec ids metrics) (h' : Sound ctx spec ids' metrics') :
    ids = ids' ∧ metrics = metrics' := by
  obtain ⟨hids, work, _, _, hwork, hmetrics, -⟩ := h
  obtain ⟨hids', work', _, _, hwork', hmetrics', -⟩ := h'
  rw [hids, Except.ok.injEq] at hids'
  rw [hwork, Except.ok.injEq] at hwork'
  rw [← hwork', hmetrics, Except.ok.injEq] at hmetrics'
  exact ⟨hids', hmetrics'⟩

theorem runExperiment_ok {artifacts artifacts' : ArtifactStore} {tree : Tree}
    (h : runExperiment ctx artifacts spec = (artifacts', .ok (ids, tree))) :
    ctx.identify spec = .ok ids ∧ artifacts.get? (runDir ids) = none ∧ artifacts' = artifacts.set (runDir ids) tree ∧
      ∃ work, ctx.execute spec = .ok work ∧ tree = sealedTree ctx.sha256 work := by
  unfold runExperiment at h
  cases hids : ctx.identify spec with
  | error e => simp [hids] at h
  | ok ids' =>
    cases hdir : artifacts.get? (runDir ids') with
    | some there => simp [hids, hdir] at h
    | none =>
      cases hwork : ctx.execute spec with
      | error e => simp [hids, hdir, hwork] at h
      | ok work =>
        simp only [hids, hdir, hwork, Option.isSome_none, Bool.false_eq_true, if_false, Prod.mk.injEq,
          Except.ok.injEq] at h
        obtain ⟨rfl, rfl, rfl⟩ := h
        exact ⟨rfl, hdir, rfl, work, rfl, rfl⟩

/-- A run that fails leaves no directory, and would complete at most where its directory is in the way. -/
theorem runExperiment_error {artifacts artifacts' : ArtifactStore} {failure : Option RunIds × String}
    (h : runExperiment ctx artifacts spec = (artifacts', .error failure)) :
    artifacts' = artifacts ∧ ∀ ids metrics, Sound ctx spec ids metrics → artifacts.get? (runDir ids) ≠ none := by
  unfold runExperiment at h
  cases hids : ctx.identify spec with
  | error e =>
    simp only [hids, Prod.mk.injEq] at h
    refine ⟨h.1.symm, fun ids metrics hsound => ?_⟩
    have hidentified := hsound.1
    rw [hids] at hidentified
    cases hidentified
  | ok ids' =>
    cases hdir : artifacts.get? (runDir ids') with
    | some there =>
      simp only [hids, hdir, Option.isSome_some, if_true, Prod.mk.injEq] at h
      refine ⟨h.1.symm, fun ids metrics hsound => ?_⟩
      have hidentified := hsound.1
      rw [hids, Except.ok.injEq] at hidentified
      rw [← hidentified, hdir]
      exact Option.some_ne_none there
    | none =>
      cases hwork : ctx.execute spec with
      | error e =>
        simp only [hids, hdir, hwork, Option.isSome_none, Bool.false_eq_true, if_false, Prod.mk.injEq] at h
        refine ⟨h.1.symm, fun ids metrics hsound => ?_⟩
        obtain ⟨-, work, -, -, hexecuted, -⟩ := hsound
        rw [hwork] at hexecuted
        cases hexecuted
      | ok work => simp [hids, hdir, hwork] at h

theorem registerChild_ok {tree : Tree} {registry : ExperimentRegistry}
    (h : registerChild ctx stamp root spec ids tree = .ok (registry, metrics)) :
    RunOpen root.registry ids.runId ∧ readMetrics tree = .ok metrics ∧
      (∃ entry, entry.runId = ids.runId ∧ registry = { root.registry with lines := root.registry.lines ++ [entry] }) ∧
      ∃ costModelVersion checksums, ExperimentRegistry.readCostModelVersion tree = .ok costModelVersion ∧
        loadChecksums tree = .ok checksums ∧
        FilesMatch ctx.sha256 (root.artifacts.get? (runDir ids)) checksums := by
  obtain ⟨metrics', hmetrics, h⟩ := except_bind_eq_ok.mp h
  obtain ⟨costModelVersion, hcosts, h⟩ := except_bind_eq_ok.mp h
  obtain ⟨checksums, hchecksums, h⟩ := except_bind_eq_ok.mp h
  obtain ⟨registry', hregistry, h⟩ := except_bind_eq_ok.mp h
  cases h
  obtain ⟨hopen, hfiles, hregistry'⟩ := registerComplete_ok_iff.mp hregistry
  exact ⟨hopen, hmetrics, ⟨_, rfl, hregistry'⟩, costModelVersion, checksums, hcosts, hchecksums, hfiles⟩

theorem registerChild_returns {tree : Tree} {costModelVersion : String} {checksums : Checksums}
    (hopen : RunOpen root.registry ids.runId) (hmetrics : readMetrics tree = .ok metrics)
    (hcosts : ExperimentRegistry.readCostModelVersion tree = .ok costModelVersion)
    (hchecksums : loadChecksums tree = .ok checksums)
    (hfiles : FilesMatch ctx.sha256 (root.artifacts.get? (runDir ids)) checksums) :
    ∃ registry, registerChild ctx stamp root spec ids tree = .ok (registry, metrics) := by
  let r := childRegistration ctx stamp spec ids costModelVersion checksums
  have hregistered : root.registry.registerComplete ctx.sha256 root.artifacts r =
      .ok { root.registry with lines := root.registry.lines ++ [{ r with status := .complete }] } :=
    registerComplete_ok_iff.mpr ⟨hopen, hfiles, rfl⟩
  refine ⟨{ root.registry with lines := root.registry.lines ++ [{ r with status := .complete }] }, ?_⟩
  refine except_bind_eq_ok.mpr ⟨metrics, hmetrics, except_bind_eq_ok.mpr ⟨costModelVersion, hcosts, ?_⟩⟩
  exact except_bind_eq_ok.mpr ⟨checksums, hchecksums, except_bind_eq_ok.mpr ⟨_, hregistered, rfl⟩⟩

theorem runChild_cases (ctx : SuiteContext ρ) (stamp : Stamp) (root : ArtifactRoot) (child : RobustnessChildSpec ρ) :
    (∃ ids metrics tree entry, Sound ctx child.spec ids metrics ∧ Admits root ids ∧ entry.runId = ids.runId ∧
      (runChild ctx stamp root child).1 =
        ⟨root.artifacts.set (runDir ids) tree, { root.registry with lines := root.registry.lines ++ [entry] }⟩ ∧
      outcome (runChild ctx stamp root child).2 = ⟨child.childId, .complete, metrics⟩) ∨
    ¬ Completes ctx root child.spec ∧ (runChild ctx stamp root child).1.registry = root.registry ∧
      outcome (runChild ctx stamp root child).2 = ⟨child.childId, .failed, {}⟩ ∧
      ((runChild ctx stamp root child).1.artifacts = root.artifacts ∨ ∃ ids tree, ctx.identify child.spec = .ok ids ∧
        (runChild ctx stamp root child).1.artifacts = root.artifacts.set (runDir ids) tree) := by
  unfold runChild
  rcases hrun : runExperiment ctx root.artifacts child.spec with ⟨artifacts, ⟨ids', e⟩ | ⟨ids, tree⟩⟩
  · refine .inr ⟨?_, rfl, rfl, .inl (runExperiment_error hrun).1⟩
    rintro ⟨ids, metrics, hsound, hdir, -⟩
    exact (runExperiment_error hrun).2 ids metrics hsound hdir
  · obtain ⟨hids, hdir, rfl, work, hwork, rfl⟩ := runExperiment_ok hrun
    have hplaced : (root.artifacts.set (runDir ids) (sealedTree ctx.sha256 work)).get? (runDir ids) =
        some (sealedTree ctx.sha256 work) := Dict.get?_set_self
    cases hregister : registerChild ctx stamp
        { root with artifacts := root.artifacts.set (runDir ids) (sealedTree ctx.sha256 work) } child.spec ids
        (sealedTree ctx.sha256 work) with
    | error e =>
      simp only [hregister]
      refine .inr ⟨?_, trivial, rfl, .inr ⟨ids, _, hids, rfl⟩⟩
      rintro ⟨ids', metrics, ⟨hids', work', costs, checksums, hwork', hmetrics, hcosts, hchecksums, hfiles⟩, -, hopen⟩
      rw [hids, Except.ok.injEq] at hids'
      rw [hwork, Except.ok.injEq] at hwork'
      subst hids' hwork'
      rw [← hplaced] at hfiles
      have hreturns : ∃ registry, registerChild ctx stamp
          { root with artifacts := root.artifacts.set (runDir ids) (sealedTree ctx.sha256 work) } child.spec ids
          (sealedTree ctx.sha256 work) = .ok (registry, metrics) :=
        registerChild_returns hopen hmetrics hcosts hchecksums hfiles
      obtain ⟨registry, hregistered⟩ := hreturns
      rw [hregister] at hregistered
      cases hregistered
    | ok registered =>
      obtain ⟨registry, metrics⟩ := registered
      obtain ⟨hopen, hmetrics, ⟨entry, hentry, rfl⟩, costs, checksums, hcosts, hchecksums, hfiles⟩ :=
        registerChild_ok hregister
      rw [hplaced] at hfiles
      simp only [hregister]
      exact .inl ⟨ids, metrics, _, entry,
        ⟨hids, work, costs, checksums, hwork, hmetrics, hcosts, hchecksums, hfiles⟩, ⟨hdir, hopen⟩, hentry, rfl, rfl⟩

theorem outcome_congr (h : Completes ctx root child.spec ↔ Completes ctx root' child.spec) :
    outcome (runChild ctx stamp root child).2 = outcome (runChild ctx stamp' root' child).2 := by
  rcases runChild_cases ctx stamp root child with ⟨ids, metrics, _, _, hsound, hadmits, -, -, houtcome⟩ |
      ⟨hnot, -, houtcome, -⟩
  · rcases runChild_cases ctx stamp' root' child with ⟨ids', metrics', _, _, hsound', -, -, -, houtcome'⟩ |
        ⟨hnot', -, -, -⟩
    · rw [houtcome, houtcome', (hsound.unique hsound').2]
    · exact absurd (h.mp ⟨ids, metrics, hsound, hadmits⟩) hnot'
  · rcases runChild_cases ctx stamp' root' child with ⟨ids', metrics', _, _, hsound', hadmits', -, -, -⟩ |
        ⟨-, -, houtcome', -⟩
    · exact absurd (h.mpr ⟨ids', metrics', hsound', hadmits'⟩) hnot
    · rw [houtcome, houtcome']

theorem outcome_status : (outcome (runChild ctx stamp root child).2).status = .complete ↔
    Completes ctx root child.spec := by
  rcases runChild_cases ctx stamp root child with ⟨ids, metrics, _, _, hsound, hadmits, -, -, houtcome⟩ |
      ⟨hnot, -, houtcome, -⟩
  · rw [houtcome]
    exact ⟨fun _ => ⟨ids, metrics, hsound, hadmits⟩, fun _ => rfl⟩
  · rw [houtcome]
    exact ⟨fun h => ChildStatus.noConfusion h, fun h => absurd h hnot⟩

theorem get?_set_none {artifacts : ArtifactStore} {dir dir' : RelPath} {tree : Tree} :
    (artifacts.set dir tree).get? dir' = none ↔ dir' ≠ dir ∧ artifacts.get? dir' = none := by
  by_cases h : dir' = dir
  · rw [h, Dict.get?_set_self]
    simp
  · rw [Dict.get?_set_of_ne h]
    simp [h]

theorem completes_runChild (hdistinct : RunIdsDistinct ctx [spec, child.spec]) :
    Completes ctx (runChild ctx stamp root child).1 spec ↔ Completes ctx root spec ∧ spec ≠ child.spec := by
  have hids : ∀ ids ids', ctx.identify spec = .ok ids → ctx.identify child.spec = .ok ids' → spec ≠ child.spec →
      ids.runId ≠ ids'.runId := fun ids ids' hspec hchild hne hid =>
    hne (hdistinct spec (by simp) child.spec (by simp) ids hspec ids' hchild hid)
  rcases runChild_cases ctx stamp root child with
    ⟨ids', metrics', tree, entry, hsound', hadmits', hentry, hroot, -⟩ | ⟨hnot, hregistry, -, hartifacts⟩
  · rw [hroot]
    constructor
    · rintro ⟨ids, metrics, hsound, hdir, hopen⟩
      obtain ⟨hne, hdir⟩ := get?_set_none.mp hdir
      have hspec : spec ≠ child.spec := by
        rintro rfl
        rw [(hsound.unique hsound').1] at hne
        exact hne rfl
      refine ⟨⟨ids, metrics, hsound, hdir, (runOpen_append ?_).mp hopen⟩, hspec⟩
      rw [hentry]
      exact (hids ids ids' hsound.1 hsound'.1 hspec).symm
    · rintro ⟨⟨ids, metrics, hsound, hdir, hopen⟩, hspec⟩
      have hne := hids ids ids' hsound.1 hsound'.1 hspec
      refine ⟨ids, metrics, hsound, get?_set_none.mpr ⟨runDir_ne hne, hdir⟩, (runOpen_append ?_).mpr hopen⟩
      rw [hentry]
      exact hne.symm
  · constructor
    · rintro ⟨ids, metrics, hsound, hdir, hopen⟩
      rw [hregistry] at hopen
      have hdir' : root.artifacts.get? (runDir ids) = none := by
        rcases hartifacts with hsame | ⟨ids', tree, -, hset⟩
        · rwa [hsame] at hdir
        · rw [hset] at hdir
          exact (get?_set_none.mp hdir).2
      have hcompletes : Completes ctx root spec := ⟨ids, metrics, hsound, hdir', hopen⟩
      exact ⟨hcompletes, fun hspec => hnot (hspec ▸ hcompletes)⟩
    · rintro ⟨⟨ids, metrics, hsound, hdir, hopen⟩, hspec⟩
      refine ⟨ids, metrics, hsound, ?_, by rw [hregistry]; exact hopen⟩
      rcases hartifacts with hsame | ⟨ids', tree, hids', hset⟩
      · rwa [hsame]
      · rw [hset]
        exact get?_set_none.mpr ⟨runDir_ne (hids ids ids' hsound.1 hids' hspec), hdir⟩

section Suites

variable {specs X : List (SuiteSpec ρ)} {stamps stamps' : String → Stamp} {children : List (RobustnessChildSpec ρ)}

theorem RunIdsDistinct.pair {s s' : SuiteSpec ρ} (h : RunIdsDistinct ctx specs) (hs : s ∈ specs) (hs' : s' ∈ specs) :
    RunIdsDistinct ctx [s, s'] := by
  intro t ht t' ht'
  refine h t ?_ t' ?_
  · rcases List.mem_pair.mp ht with rfl | rfl
    · exact hs
    · exact hs'
  · rcases List.mem_pair.mp ht' with rfl | rfl
    · exact hs
    · exact hs'

theorem completes_runChildren (hdistinct : RunIdsDistinct ctx specs) (hspec : spec ∈ specs)
    (hchildren : ∀ child ∈ children, child.spec ∈ specs) :
    Completes ctx (runChildren ctx stamps root children).1 spec ↔
      Completes ctx root spec ∧ spec ∉ children.map (·.spec) := by
  induction children generalizing root with
  | nil => simp [runChildren]
  | cons child children ih =>
    have hchild := hchildren child List.mem_cons_self
    rw [runChildren, ih fun c hc => hchildren c (List.mem_cons_of_mem _ hc),
      completes_runChild (hdistinct.pair hspec hchild), List.map_cons, List.mem_cons, not_or, and_assoc]

theorem outcomes_eq_iff (hdistinct : RunIdsDistinct ctx specs) (hchildren : ∀ child ∈ children, child.spec ∈ specs)
    (hroots : ∀ s ∈ specs, Completes ctx root' s ↔ Completes ctx root s ∧ s ∉ X) :
    (runChildren ctx stamps root children).2.map outcome = (runChildren ctx stamps' root' children).2.map outcome ↔
      ∀ child ∈ children, Completes ctx root child.spec → child.spec ∉ X := by
  induction children generalizing root root' with
  | nil => simp [runChildren]
  | cons child children ih =>
    have hchild := hchildren child List.mem_cons_self
    have hrest : ∀ c ∈ children, c.spec ∈ specs := fun c hc => hchildren c (List.mem_cons_of_mem _ hc)
    have hroots' : ∀ s ∈ specs, Completes ctx (runChild ctx (stamps' child.childId) root' child).1 s ↔
        Completes ctx (runChild ctx (stamps child.childId) root child).1 s ∧ s ∉ X := by
      intro s hs
      rw [completes_runChild (hdistinct.pair hs hchild), completes_runChild (hdistinct.pair hs hchild), hroots s hs]
      tauto
    have hhead : outcome (runChild ctx (stamps child.childId) root child).2 =
        outcome (runChild ctx (stamps' child.childId) root' child).2 ↔
          (Completes ctx root child.spec → child.spec ∉ X) := by
      constructor
      · intro heq hcompletes
        have hstatus : (outcome (runChild ctx (stamps child.childId) root child).2).status = .complete :=
          outcome_status.mpr hcompletes
        rw [heq, outcome_status] at hstatus
        exact ((hroots _ hchild).mp hstatus).2
      · intro hnot
        refine outcome_congr ?_
        rw [hroots _ hchild]
        exact ⟨fun hcompletes => ⟨hcompletes, hnot hcompletes⟩, And.left⟩
    simp only [runChildren, List.map_cons, List.cons.injEq, List.forall_mem_cons]
    rw [hhead, ih hrest hroots']
    refine and_congr_right fun hnot => forall₂_congr fun c hc => ?_
    rw [completes_runChild (hdistinct.pair (hrest c hc) hchild)]
    constructor
    · intro h hcompletes
      by_cases hsame : c.spec = child.spec
      · rw [hsame] at hcompletes ⊢
        exact hnot hcompletes
      · exact h ⟨hcompletes, hsame⟩
    · exact fun h hcompletes => h hcompletes.1

def childSpecs (base : SuiteSpec ρ) (suite : SuiteConfig) : List (SuiteSpec ρ) :=
  (suiteChildren base suite).map (·.spec)

/-- The outcomes of a suite are the same whether or not another one ran before it exactly if no child of it that
completes on the artifact root is also a child of the other one. -/
theorem suite_outcomes_independent_iff (ctx : SuiteContext ρ) (base : SuiteSpec ρ) (a b : SuiteConfig)
    (root : ArtifactRoot) (stampsA stampsB stampsB' : String → Stamp)
    (hdistinct : RunIdsDistinct ctx (childSpecs base a ++ childSpecs base b)) :
    (runSuite ctx stampsB base root b).2.map outcome =
        (runSuite ctx stampsB' base (runSuite ctx stampsA base root a).1 b).2.map outcome ↔
      ∀ spec ∈ childSpecs base b, Completes ctx root spec → spec ∉ childSpecs base a := by
  have hroots : ∀ s ∈ childSpecs base a ++ childSpecs base b,
      Completes ctx (runSuite ctx stampsA base root a).1 s ↔ Completes ctx root s ∧ s ∉ childSpecs base a := by
    intro s hs
    refine completes_runChildren hdistinct hs fun child hchild => ?_
    exact List.mem_append_left _ (List.mem_map_of_mem hchild)
  have hchildren : ∀ child ∈ suiteChildren base b, child.spec ∈ childSpecs base a ++ childSpecs base b :=
    fun child hchild => List.mem_append_right _ (List.mem_map_of_mem hchild)
  unfold runSuite at hroots ⊢
  rw [outcomes_eq_iff hdistinct hchildren hroots]
  constructor
  · intro h spec hspec
    obtain ⟨child, hchild, rfl⟩ := List.mem_map.mp hspec
    exact h child hchild
  · exact fun h child hchild => h child.spec (List.mem_map_of_mem hchild)

section Sample

def sampleBase : SuiteSpec Unit where
  hypothesis := "trend"
  timeRange := ⟨0, 0⟩
  feeAssumption := ⟨1 / 2000, 1 / 2000, "1.0"⟩
  slippageAssumption := ⟨5, "1.0"⟩
  fundingAssumption := {}
  parameters := Dict.set {} "atr_period" (.int 14)
  rest := ()

def periodText : Option ParamValue → String
  | some (.int n) => toString n
  | _ => ""

/-- The ids are taken from what tells the children of parameter suites apart; every child completes. -/
def sampleContext : SuiteContext Unit where
  sha256 _ := "digest"
  identify spec := .ok ⟨"exp", spec.hypothesis ++ periodText (spec.parameters.get? "atr_period")⟩
  execute _ := .ok {}
  strategyVersion _ := "1.0"
  datasetId _ := "btc"
  benchmark _ := "buy_and_hold"

def sampleStamps (_ : String) : Stamp := ⟨"attempt", "2024-05-01T00:00:00Z"⟩

def narrower : SuiteConfig := .parameterStability { intDeltas := [("atr_period", [-1])] }

def wider : SuiteConfig := .parameterStability { intDeltas := [("atr_period", [1])] }

/-- The frozen child of the second suite fails because of the first one. -/
theorem second_suite_fails_frozen_child :
    (runSuite sampleContext sampleStamps sampleBase {} wider).2.map (fun r => (r.childId, r.status)) =
        [("frozen", .complete), ("neighbor_01", .complete)] ∧
      (runSuite sampleContext sampleStamps sampleBase
        (runSuite sampleContext sampleStamps sampleBase {} narrower).1 wider).2.map (fun r => (r.childId, r.status)) =
        [("frozen", .failed), ("neighbor_01", .complete)] := by
  constructor
  · decide +kernel
  · decide +kernel

theorem sample_distinct : RunIdsDistinct sampleContext
    (childSpecs sampleBase narrower ++ childSpecs sampleBase wider) := by
  have hkeys : ∀ s ∈ childSpecs sampleBase narrower ++ childSpecs sampleBase wider,
      ∀ s' ∈ childSpecs sampleBase narrower ++ childSpecs sampleBase wider,
      s.hypothesis ++ periodText (s.parameters.get? "atr_period") =
        s'.hypothesis ++ periodText (s'.parameters.get? "atr_period") → s = s' := by
    decide +kernel
  intro s hs s' hs' ids hids ids' hids' hid
  cases hids
  cases hids'
  exact hkeys s hs s' hs' hid

/-- Where the first suite has run before, no child of the second one that completes is one of the first. -/
theorem suites_after_first_independent : ∃ root : ArtifactRoot,
    (runSuite sampleContext sampleStamps sampleBase root wider).2.map outcome =
      (runSuite sampleContext sampleStamps sampleBase
        (runSuite sampleContext sampleStamps sampleBase root narrower).1 wider).2.map outcome := by
  refine ⟨(runSuite sampleContext sampleStamps sampleBase {} narrower).1, ?_⟩
  refine (suite_outcomes_independent_iff sampleContext sampleBase narrower wider _ sampleStamps sampleStamps
    sampleStamps sample_distinct).mpr ?_
  intro spec hspec hcompletes
  have hchildren : ∀ child ∈ suiteChildren sampleBase narrower,
      child.spec ∈ childSpecs sampleBase narrower ++ childSpecs sampleBase wider :=
    fun child hchild => List.mem_append_left _ (List.mem_map_of_mem hchild)
  exact ((completes_runChildren sample_distinct (List.mem_append_right _ hspec) hchildren).mp hcompletes).2

end Sample

end Suites

end TradingBot.Research.SuiteIndependence
