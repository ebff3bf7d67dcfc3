import TradingBot.Research.GateSoundness

namespace TradingBot.Research.TrustedEvidence

open Library.Dictionary Library.OverlayLog Research.Metrics Research.Artifacts Research.Registry Research.GateStore
open Research.Robustness Research.Invalidation Research.GateEvaluator Research.RecordVerification
open Research.GateSoundness (sampleContext sampleRegister)
open Library.Outcome (exists_of_isOk except_bind_eq_ok)

/-- What happens to the registry and the gate store: an operation of one of them, or a gate evaluation in whatever
surroundings it finds. -/
inductive Action
  | stores (op : Invalidation.Op)
  | evaluate (found : Surroundings) (request : GateRequest)

variable (ctx : EvaluationContext)

def act (stores : ResearchStores) : Action → ResearchStores
  | .stores op => Invalidation.apply ctx.sha256 stores op
  | .evaluate found request =>
    match evaluate ctx stores.registry stores.gates found request with
    | .ok (_, gates) => { stores with gates }
    | .error _ => stores

def history (actions : List Action) : ResearchStores := actions.foldl (act ctx) {}

def WasInvalidated (actions : List Action) (runId : String) : Prop :=
  ∃ before createdAt later registry,
    actions = before ++ .stores (.registry (.invalidate runId createdAt)) :: later ∧
      (history ctx before).registry.invalidate runId createdAt = .ok registry

/-- An evaluation uses the files of complete runs that hold what was registered, and those of no other run. -/
structure RestsOnVerified (stores : ResearchStores) (found : Surroundings) (request : GateRequest)
    (outcome : GateRunRecord × GateResultStore) : Prop where
  verified : ∀ runId ∈ usedRuns found request, VerifiedRun ctx.sha256 found.artifacts stores.registry runId
  noOther : ∀ artifacts : ArtifactStore,
    (∀ runId ∈ usedRuns found request, ∀ entry, stores.registry.findEntry runId = .ok entry →
      artifacts.get? entry.artifactPath = found.artifacts.get? entry.artifactPath) →
    evaluate ctx stores.registry stores.gates { found with artifacts } request = .ok outcome

variable {ctx} {stores : ResearchStores} {found : Surroundings} {request : GateRequest} {actions : List Action}
  {runId : String} {outcome : GateRunRecord × GateResultStore}

theorem restsOnVerified (h : evaluate ctx stores.registry stores.gates found request = .ok outcome) :
    RestsOnVerified ctx stores found request outcome := by
  obtain ⟨record, hrecord, hstored⟩ := except_bind_eq_ok.mp h
  obtain ⟨base, hshown⟩ := evaluateRecord_ok hrecord
  refine ⟨fun runId hrun => verifiedRun_of_shown (hshown runId hrun).complete, fun artifacts hagree => ?_⟩
  have hsame : ∀ runId ∈ usedRuns found request, showRun ctx.sha256 found.artifacts stores.registry runId =
      showRun ctx.sha256 artifacts stores.registry runId := by
    intro runId hrun
    obtain ⟨run, hfound, -⟩ := hshown runId hrun
    rw [hfound, showRun_of_agree hfound (hagree runId hrun run.entry (showRun_ok_iff.mp hfound).1)]
  rw [evaluateRecord_congr hsame] at hrecord
  exact except_bind_eq_ok.mpr ⟨record, hrecord, hstored⟩

theorem act_extends (stores : ResearchStores) (action : Action) :
    stores.registry.store.Extends (·.runId) (act ctx stores action).registry.store := by
  cases action with
  | stores op => exact (foldl_extends ctx.sha256 stores [op]).1
  | evaluate found request =>
    have hregistry : (act ctx stores (.evaluate found request)).registry = stores.registry := by
      simp only [act]
      split <;> rfl
    rw [hregistry]
    exact Store.Extends.refl _

theorem history_append (before later : List Action) :
    history ctx (before ++ later) = later.foldl (act ctx) (history ctx before) := by
  rw [history, List.foldl_append]
  rfl

theorem actions_extend (stores : ResearchStores) (actions : List Action) :
    stores.registry.store.Extends (·.runId) (actions.foldl (act ctx) stores).registry.store :=
  Store.extends_foldl (fun s : ResearchStores => s.registry.store) act_extends stores actions

theorem history_wellMarked (actions : List Action) :
    (history ctx actions).registry.store.WellMarked (·.runId) := by
  refine Store.WellMarked.extends (s := ({} : ResearchStores).registry.store) ?_ (actions_extend {} actions)
  exact Store.wellMarked_of_unmarked fun _ => rfl

theorem invalidated_of_wasInvalidated (h : WasInvalidated ctx actions runId) :
    (history ctx actions).registry.Invalidated ctx.sha256 runId := by
  obtain ⟨before, createdAt, later, registry, rfl, hinvalidate⟩ := h
  have hstep : act ctx (history ctx before) (.stores (.registry (.invalidate runId createdAt))) =
      { history ctx before with registry } := by
    simp only [act, Invalidation.apply, ExperimentRegistry.apply, ExperimentRegistry.exec, hinvalidate]
  have hmarked : (registry.sidecars runId).isSome = true := by
    obtain ⟨entry, -, happend⟩ := except_bind_eq_ok.mp hinvalidate
    rw [ExperimentRegistry.append_ok happend]
    simp [ExperimentRegistry.writeSidecar]
  have hextends := @actions_extend ctx { history ctx before with registry } later
  have hhistory : history ctx (before ++ .stores (.registry (.invalidate runId createdAt)) :: later) =
      later.foldl (act ctx) { history ctx before with registry } := by
    rw [history_append, List.foldl_cons, hstep]
  rw [hhistory]
  have hkept := hextends.kept runId hmarked
  refine ExperimentRegistry.invalidated_of_sidecar ctx.sha256 hkept ?_
  rw [← hhistory]
  exact history_wellMarked _ runId (by rw [hhistory]; exact hkept)

theorem not_verified_of_invalidated {registry : ExperimentRegistry} {artifacts : ArtifactStore}
    (h : registry.Invalidated ctx.sha256 runId) : ¬VerifiedRun ctx.sha256 artifacts registry runId := by
  rintro ⟨entry, -, hentry, hstatus, -⟩
  obtain ⟨entry', hshown, -, hinvalidated⟩ := h.shown artifacts false
  have hsame : registry.showEntry ctx.sha256 artifacts runId false = .ok entry := by
    unfold ExperimentRegistry.showEntry
    rw [hentry]
    rfl
  rw [hsame, Except.ok.injEq] at hshown
  rw [hshown, hinvalidated] at hstatus
  cases hstatus

/-- Whatever was registered, invalidated and evaluated before: a gate evaluation that returns rests on complete and
verified runs alone, none of which was invalidated. Persisted records are verified for what they pin. -/
theorem trusted_evidence (ctx : EvaluationContext) (actions : List Action) (found : Surroundings) :
    (∀ request outcome, evaluate ctx (history ctx actions).registry (history ctx actions).gates found request =
        .ok outcome →
      RestsOnVerified ctx (history ctx actions) found request outcome ∧
        ∀ runId, WasInvalidated ctx actions runId → runId ∉ usedRuns found request) ∧
    (∀ record, verifyGateRecordArtifactChecksums ctx
        (showRun ctx.sha256 found.artifacts (history ctx actions).registry) found.robustness record = .ok () ↔
      PinnedRun gateRecords ctx found (history ctx actions).registry record.runId record.artifactChecksums
        record.robustnessRunIds) ∧
    ∀ area hashes record, verifyScorecardRecordArtifactChecksums area ctx hashes
        (showRun ctx.sha256 found.artifacts (history ctx actions).registry) found.robustness
        (history ctx actions).gates record = .ok () →
      PinnedRun scorecardRecords ctx found (history ctx actions).registry record.runId record.artifactChecksums
          record.robustnessRunIds ∧
        RestsOnGate ctx hashes found (history ctx actions).registry (history ctx actions).gates record := by
  refine ⟨fun request outcome h => ⟨restsOnVerified h, fun runId hinvalidated hused => ?_⟩, fun record => pinnedRun_iff,
    fun area hashes record h => (verifyScorecardRecord_ok h).2⟩
  exact not_verified_of_invalidated (invalidated_of_wasInvalidated hinvalidated)
    ((restsOnVerified h).verified runId hused)

section Sample

def sampleFound : Surroundings where
  artifacts := GateSoundness.sampleArtifacts

def sampleActions : List Action :=
  [.stores (sampleRegister "run"), .evaluate sampleFound ⟨"run", "1.1", []⟩,
   .stores (.registry (.invalidate "run" "2024-01-02"))]

theorem wasInvalidated_of_isOk {before : List Action} {createdAt : String}
    (h : ((history ctx before).registry.invalidate runId createdAt).isOk = true) :
    WasInvalidated ctx (before ++ [.stores (.registry (.invalidate runId createdAt))]) runId := by
  obtain ⟨registry, hinvalidate⟩ := exists_of_isOk h
  exact ⟨before, createdAt, [], registry, rfl, hinvalidate⟩

/-- The record of the evaluation outlives the invalidation: its checksums still verify. -/
theorem gate_record_outlives_run : WasInvalidated sampleContext sampleActions "run" ∧
    ∃ record ∈ (history sampleContext sampleActions).gates.lines, record.runId = "run" ∧
      verifyGateRecordArtifactChecksums sampleContext
        (showRun sampleContext.sha256 sampleFound.artifacts (history sampleContext sampleActions).registry)
        sampleFound.robustness record = .ok () :=
  ⟨@wasInvalidated_of_isOk sampleContext "run" (sampleActions.take 2) "2024-01-02" (by decide +kernel), by decide +kernel⟩

def childInvalidated : List Action :=
  [.stores (sampleRegister "run"), .stores (sampleRegister "child"),
   .stores (.registry (.invalidate "child" "2024-01-02"))]

/-- With the child run invalidated, an evaluation of the base run still returns. -/
theorem trusted_evidence_sample : WasInvalidated sampleContext childInvalidated "child" ∧ ∃ outcome,
    evaluate sampleContext (history sampleContext childInvalidated).registry
        (history sampleContext childInvalidated).gates sampleFound ⟨"run", "1.1", []⟩ = .ok outcome ∧
      RestsOnVerified sampleContext (history sampleContext childInvalidated) sampleFound ⟨"run", "1.1", []⟩ outcome ∧
      "child" ∉ usedRuns sampleFound ⟨"run", "1.1", []⟩ := by
  have hinvalidated : WasInvalidated sampleContext childInvalidated "child" :=
    @wasInvalidated_of_isOk sampleContext "child" (childInvalidated.take 2) "2024-01-02" (by decide +kernel)
  have hreturns : (evaluate sampleContext (history sampleContext childInvalidated).registry
      (history sampleContext childInvalidated).gates sampleFound ⟨"run", "1.1", []⟩).isOk = true := by
    decide +kernel
  obtain ⟨outcome, hevaluate⟩ := exists_of_isOk hreturns
  have htrusted := (trusted_evidence sampleContext childInvalidated sampleFound).1 _ _ hevaluate
  exact ⟨hinvalidated, outcome, hevaluate, htrusted.1, htrusted.2 "child" hinvalidated⟩

end Sample

end TradingBot.Research.TrustedEvidence
