import TradingBot.Research.RecordVerification

namespace TradingBot.Research.GateSoundness

open Market.Models Library.Dictionary Library.OverlayLog Research.Metrics Research.Artifacts Research.Registry
open Research.Gates Research.GateStore Research.Robustness Research.GateEvaluator Research.RecordVerification
open Library.Outcome (exists_of_any except_bind_eq_ok mapError_eq_ok_iff mapM_eq_ok_iff mapM_ok_mem)

variable {lookup : RunLookup} {ctx : EvaluationContext} {found : Surroundings} {request : GateRequest}
  {registry : ExperimentRegistry} {store : GateResultStore} {runId : String} {base : RunManifest}
  {record : GateRunRecord}

section Evidence

variable {ids ids' : List String} {evidence evidence' seen : List RobustnessEvidence}

theorem newest_eq_none_iff {e : RobustnessEvidence} :
    newest (·.testType) e.testType seen = none ↔ e.testType ∉ seen.map (·.testType) := by
  rw [← Option.not_isSome_iff_eq_none, newest_isSome_iff, List.mem_map]

theorem loadLoop_ok_iff (hseen : (seen.map (·.testType)).Nodup) :
    ids.foldlM (fun seen robustnessId => loadEvidence lookup robustnessId ctx found runId base seen) seen =
        .ok evidence ↔
      ∃ new, evidence = seen ++ new ∧ List.Forall₂ (Loaded lookup ctx found runId base) ids new ∧
        (evidence.map (·.testType)).Nodup := by
  induction ids generalizing seen with
  | nil =>
    simp only [List.foldlM_nil, List.forall₂_nil_left_iff]
    constructor
    · intro h
      cases h
      exact ⟨[], (List.append_nil _).symm, rfl, hseen⟩
    · rintro ⟨new, rfl, rfl, -⟩
      rw [List.append_nil]
      rfl
  | cons robustnessId ids ih =>
    rw [List.foldlM_cons, except_bind_eq_ok]
    constructor
    · rintro ⟨seen', hturn, hrest⟩
      obtain ⟨e, he, hnew, rfl⟩ := loadEvidence_ok_iff.mp hturn
      have hseen' : ((seen ++ [e]).map (·.testType)).Nodup := by
        rw [List.map_append, List.map_singleton, List.nodup_append_comm, List.singleton_append, List.nodup_cons]
        exact ⟨newest_eq_none_iff.mp hnew, hseen⟩
      obtain ⟨new, rfl, hloaded, hnodup⟩ := (ih hseen').mp hrest
      exact ⟨e :: new, by simp, .cons he hloaded, hnodup⟩
    · rintro ⟨new, rfl, hloaded, hnodup⟩
      cases hloaded with
      | @cons _ e _ rest he hrest =>
        have happend : seen ++ e :: rest = seen ++ [e] ++ rest := by simp
        rw [happend] at hnodup
        have hseen' : ((seen ++ [e]).map (·.testType)).Nodup :=
          hnodup.sublist ((List.sublist_append_left _ _).map _)
        have hfresh : newest (·.testType) e.testType seen = none := by
          rw [List.map_append, List.map_singleton, List.nodup_append_comm, List.singleton_append,
            List.nodup_cons] at hseen'
          exact newest_eq_none_iff.mpr hseen'.1
        exact ⟨seen ++ [e], loadEvidence_ok_iff.mpr ⟨e, he, hfresh, rfl⟩,
          (ih hseen').mpr ⟨rest, happend, hrest, by rwa [happend]⟩⟩

theorem loadRobustnessEvidence_ok_iff :
    loadRobustnessEvidence lookup ctx found ids runId base = .ok evidence ↔
      ids.Nodup ∧ List.Forall₂ (Loaded lookup ctx found runId base) ids evidence ∧
        (evidence.map (·.testType)).Nodup := by
  have hloop := @loadLoop_ok_iff lookup ctx found runId base ids evidence [] List.nodup_nil
  unfold loadRobustnessEvidence
  rw [except_bind_eq_ok]
  constructor
  · rintro ⟨_, hnodup, h⟩
    obtain ⟨new, rfl, hloaded, htypes⟩ := hloop.mp h
    rw [reject_ok_iff, decide_eq_false_iff_not, not_not] at hnodup
    exact ⟨hnodup, hloaded, htypes⟩
  · rintro ⟨hnodup, hloaded, htypes⟩
    refine ⟨(), reject_ok_iff.mpr (decide_eq_false (not_not_intro hnodup)), ?_⟩
    exact hloop.mpr ⟨evidence, rfl, hloaded, htypes⟩

theorem loadRobustnessEvidence_perm (hperm : ids'.Perm ids)
    (h : loadRobustnessEvidence lookup ctx found ids runId base = .ok evidence) :
    ∃ evidence', loadRobustnessEvidence lookup ctx found ids' runId base = .ok evidence' ∧
      evidence'.Perm evidence := by
  obtain ⟨hnodup, hloaded, htypes⟩ := loadRobustnessEvidence_ok_iff.mp h
  obtain ⟨evidence', hloaded', hperm'⟩ := List.perm_comp_forall₂ hperm hloaded
  refine ⟨evidence', loadRobustnessEvidence_ok_iff.mpr ⟨hperm.nodup_iff.mpr hnodup, hloaded', ?_⟩, hperm'⟩
  exact (hperm'.map _).nodup_iff.mpr htypes

theorem sorted_eq_of_perm (hperm : evidence'.Perm evidence) (htypes : (evidence.map (·.testType)).Nodup) :
    (evidence'.insertionSort fun a b => a.testType ≤ b.testType) =
      evidence.insertionSort fun a b => a.testType ≤ b.testType := by
  have hsorted : ∀ l : List RobustnessEvidence,
      (l.insertionSort fun a b => a.testType ≤ b.testType).Pairwise fun a b => a.testType ≤ b.testType := by
    intro l
    have htotal : Std.Total fun a b : RobustnessEvidence => a.testType ≤ b.testType :=
      ⟨fun a b => le_total a.testType b.testType⟩
    have htrans : IsTrans RobustnessEvidence fun a b => a.testType ≤ b.testType :=
      ⟨fun a b c => le_trans⟩
    exact List.pairwise_insertionSort _ l
  have hsame := ((List.perm_insertionSort (fun a b => a.testType ≤ b.testType) evidence').trans hperm).trans
    (List.perm_insertionSort (fun a b => a.testType ≤ b.testType) evidence).symm
  refine List.Perm.eq_of_pairwise (fun a b ha hb hab hba => ?_) (hsorted evidence') (hsorted evidence) hsame
  have ha' := hsame.subset ha
  exact List.inj_on_of_nodup_map htypes ((List.mem_insertionSort _).mp ha') ((List.mem_insertionSort _).mp hb)
    (le_antisymm hab hba)

end Evidence

section Measurements

theorem mem_of_mergeMeasurements {measurements : Measurements} {robustness : List (RobustnessTest × Decimal)}
    {metric : String} {value : Decimal}
    (h : (mergeMeasurements measurements robustness).get? metric = some value) :
    measurements.get? metric = some value ∨ ∃ test, (test, value) ∈ robustness ∧ test.metric = metric := by
  induction robustness generalizing measurements with
  | nil => exact .inl h
  | cons r robustness ih =>
    rcases ih h with hset | ⟨test, hmem, htest⟩
    · by_cases hkey : metric = r.1.metric
      · rw [hkey, Dict.get?_set_self, Option.some.injEq] at hset
        exact .inr ⟨r.1, by simp [← hset], hkey.symm⟩
      · rw [Dict.get?_set_of_ne hkey] at hset
        exact .inl hset
    · exact .inr ⟨test, List.mem_cons_of_mem r hmem, htest⟩

/-- The result of a child of a test is sealed with a complete run of the base run's data, and no copy of it differs. -/
structure SealedResult (lookup : RunLookup) (base : RunManifest) (child : RobustnessChild) (netPnl : Decimal) :
    Prop where
  run : ∃ runId ∈ child.runId, runId ≠ "" ∧ ShownBound lookup base runId ∧
    ∃ metrics, SealedMetrics lookup runId metrics ∧ metrics.netPnl = netPnl
  copied : ∀ copied ∈ child.netPnl, copied = netPnl

/-- A test of the base run that the request names, with its manifest as the completed job sealed it. -/
structure SealedManifest (ctx : EvaluationContext) (found : Surroundings) (request : GateRequest) (testType : String)
    (manifest : RobustnessManifest) : Prop where
  requested : ∃ robustnessId ∈ request.robustnessRunIds,
    found.robustness.manifests robustnessId = some (.object manifest) ∧
    ∃ job, found.robustness.jobs robustnessId = some job ∧ job.status = .completed ∧ job.seal ≠ "" ∧
      ctx.digest (.object manifest) = job.seal
  testType : manifest.testType = some testType
  baseRunId : manifest.baseRunId = some request.runId

inductive MeasuredBy (lookup : RunLookup) (ctx : EvaluationContext) (found : Surroundings) (request : GateRequest)
    (base : RunManifest) : String → Decimal → Prop
  | closedTrades {metrics : ResearchMetrics} (hmetrics : SealedMetrics lookup request.runId metrics) :
      MeasuredBy lookup ctx found request base "closed_trades" metrics.closedTrades
  | netPnl {metrics : ResearchMetrics} (hmetrics : SealedMetrics lookup request.runId metrics) :
      MeasuredBy lookup ctx found request base "net_pnl" metrics.netPnl
  | maxDrawdown {metrics : ResearchMetrics} {drawdown : Decimal}
      (hmetrics : SealedMetrics lookup request.runId metrics) (hdrawdown : metrics.maxDrawdown = some drawdown) :
      MeasuredBy lookup ctx found request base "max_drawdown" drawdown
  | walkForward {manifest : RobustnessManifest} {pnls : List Decimal}
      (hmanifest : SealedManifest ctx found request "walk_forward" manifest)
      (hpnls : List.Forall₂ (SealedResult lookup base) (completeChildren manifest) pnls) (hne : pnls ≠ []) :
      MeasuredBy lookup ctx found request base "walk_forward_fold_pass_ratio"
        (decimalResult (pnls.countP (0 ≤ ·) / pnls.length))
  | costStress {manifest : RobustnessManifest} {child : RobustnessChild} {netPnl : Decimal}
      (hmanifest : SealedManifest ctx found request "cost_stress" manifest)
      (hchild : ((completeChildren manifest).filter (·.childId = some "combined_elevated")).getLast? = some child)
      (hpnl : SealedResult lookup base child netPnl) :
      MeasuredBy lookup ctx found request base "cost_stress_combined_elevated_net_pnl" netPnl
  | parameterStability {manifest : RobustnessManifest} {pnls : List Decimal}
      (hmanifest : SealedManifest ctx found request "parameter_stability" manifest)
      (hpnls : List.Forall₂ (SealedResult lookup base)
        ((completeChildren manifest).filter (·.childId ≠ some "frozen")) pnls) (hne : pnls ≠ []) :
      MeasuredBy lookup ctx found request base "parameter_neighbor_pass_ratio"
        (decimalResult (pnls.countP (0 ≤ ·) / pnls.length))
  | bootstrap {manifest : RobustnessManifest} {config : RobustnessConfig} {blockLength nSimulations seed : ℤ}
      {quantiles : List String} {run : ShownRun} {q05 sealedQ05 : Decimal}
      (hmanifest : SealedManifest ctx found request "bootstrap" manifest) (hconfig : manifest.config = some config)
      (hnumbers : config.blockLength = some blockLength ∧ config.nSimulations = some nSimulations ∧
        config.seed = some seed ∧ config.quantiles = some quantiles)
      (hrun : lookup request.runId = .ok run)
      (hdrawn : ctx.bootstrapQ05 (run.directory.get? ["equity.json"]) blockLength nSimulations seed quantiles =
        .ok (some q05))
      (hsealed : manifest.bootstrapQ05 = some sealedQ05) (hnear : |sealedQ05 - q05| ≤ 1 / 10 ^ 9) :
      MeasuredBy lookup ctx found request base "bootstrap_q05_net_pnl" q05

theorem measuredBy_of_metrics {metrics : ResearchMetrics} {metric : String} {value : Decimal}
    (hmetrics : SealedMetrics lookup request.runId metrics)
    (h : (measurementsFromMetrics metrics).get? metric = some value) :
    MeasuredBy lookup ctx found request base metric value := by
  have hcounted : ∀ {value}, (Dict.set (Dict.set {} "closed_trades" (metrics.closedTrades : Decimal)) "net_pnl"
      metrics.netPnl).get? metric = some value → MeasuredBy lookup ctx found request base metric value := by
    intro value h
    by_cases hnet : metric = "net_pnl"
    · rw [hnet, Dict.get?_set_self, Option.some.injEq] at h
      rw [hnet, ← h]
      exact .netPnl hmetrics
    rw [Dict.get?_set_of_ne hnet] at h
    by_cases hclosed : metric = "closed_trades"
    · rw [hclosed, Dict.get?_set_self, Option.some.injEq] at h
      rw [hclosed, ← h]
      exact .closedTrades hmetrics
    rw [Dict.get?_set_of_ne hclosed] at h
    cases h
  unfold measurementsFromMetrics at h
  cases hdrawdown : metrics.maxDrawdown with
  | none =>
    rw [hdrawdown] at h
    exact hcounted h
  | some drawdown =>
    simp only [hdrawdown] at h
    by_cases hdrawn : metric = "max_drawdown"
    · rw [hdrawn, Dict.get?_set_self, Option.some.injEq] at h
      rw [hdrawn, ← h]
      exact .maxDrawdown hmetrics hdrawdown
    · rw [Dict.get?_set_of_ne hdrawn] at h
      exact hcounted h

theorem childNetPnl_ok {robustnessId : String} {child : RobustnessChild} {netPnl : Decimal}
    (hbound : ∀ runId, childRunId child = some runId → ShownBound lookup base runId)
    (h : childNetPnlFromVerifiedRun lookup robustnessId child = .ok netPnl) : SealedResult lookup base child netPnl := by
  unfold childNetPnlFromVerifiedRun at h
  cases hrun : childRunId child with
  | none =>
    rw [hrun] at h
    cases h
  | some runId =>
    rw [hrun] at h
    obtain ⟨run, hshown, h⟩ := except_bind_eq_ok.mp h
    obtain ⟨document, hdocument, h⟩ := except_bind_eq_ok.mp h
    obtain ⟨metrics, hmetrics, h⟩ := except_bind_eq_ok.mp h
    obtain ⟨_, hcopied, h⟩ := except_bind_eq_ok.mp h
    cases h
    obtain ⟨hid, hnonempty⟩ := Option.filter_eq_some_iff.mp hrun
    rw [reject_ok_iff, Option.any_eq_false] at hcopied
    refine ⟨⟨runId, hid, of_decide_eq_true hnonempty, hbound runId hrun, metrics, ?_, rfl⟩, fun copied hmem => ?_⟩
    · exact ⟨run, document, mapError_eq_ok_iff.mp hshown, mapError_eq_ok_iff.mp hdocument,
        mapError_eq_ok_iff.mp hmetrics⟩
    · simpa using hcopied copied hmem

theorem forall₂_childNetPnl {robustnessId : String} {manifest : RobustnessManifest} {children : List RobustnessChild}
    {pnls : List Decimal} (hchildren : children ⊆ completeChildren manifest)
    (hbound : ∀ runId ∈ childRunIds (.object manifest), ShownBound lookup base runId)
    (h : children.mapM (childNetPnlFromVerifiedRun lookup robustnessId) = .ok pnls) :
    List.Forall₂ (SealedResult lookup base) children pnls := by
  have hruns : ∀ child ∈ children, ∀ runId, childRunId child = some runId → ShownBound lookup base runId :=
    fun child hchild runId hrun => hbound runId (mem_childRunIds (mem_completeChildren (hchildren hchild)) hrun)
  exact ((List.forall₂_and_left _ _).mpr ⟨hruns, mapM_eq_ok_iff.mp h⟩).imp fun child pnl hpnl =>
    childNetPnl_ok hpnl.1 hpnl.2

theorem mem_passRatio {pnls : List Decimal} {test test' : RobustnessTest} {value : Decimal}
    (h : (test, value) ∈ (passRatio pnls).toList.map (test', ·)) :
    test = test' ∧ pnls ≠ [] ∧ value = decimalResult (pnls.countP (0 ≤ ·) / pnls.length) := by
  unfold passRatio at h
  split_ifs at h with hempty
  · cases h
  · obtain ⟨rfl, rfl⟩ := Prod.mk.inj (List.mem_singleton.mp h)
    exact ⟨rfl, hempty, rfl⟩

theorem bootstrapQ05_ok {robustnessId runId : String} {manifest : RobustnessManifest} {q05 : Decimal}
    (h : bootstrapQ05FromSealedEquity lookup robustnessId ctx manifest runId = .ok q05) :
    ∃ config blockLength nSimulations seed quantiles run sealedQ05, manifest.config = some config ∧
      (config.blockLength = some blockLength ∧ config.nSimulations = some nSimulations ∧ config.seed = some seed ∧
        config.quantiles = some quantiles) ∧ lookup runId = .ok run ∧
      ctx.bootstrapQ05 (run.directory.get? ["equity.json"]) blockLength nSimulations seed quantiles =
        .ok (some q05) ∧ manifest.bootstrapQ05 = some sealedQ05 ∧ |sealedQ05 - q05| ≤ 1 / 10 ^ 9 := by
  unfold bootstrapQ05FromSealedEquity at h
  simp only at h
  split at h
  · cases h
  rename_i config hconfig
  split at h
  · rename_i blockLength nSimulations seed hblock hnumber hseed
    split at h
    · cases h
    rename_i quantiles hquantiles
    obtain ⟨run, hrun, h⟩ := except_bind_eq_ok.mp h
    obtain ⟨drawn, hdrawn, h⟩ := except_bind_eq_ok.mp h
    split at h
    · cases h
    · cases h
    · rename_i recomputed sealedQ05 hsealed
      obtain ⟨_, hnear, h⟩ := except_bind_eq_ok.mp h
      cases h
      rw [reject_ok_iff, decide_eq_false_iff_not, not_lt] at hnear
      exact ⟨config, blockLength, nSimulations, seed, quantiles, run, sealedQ05, hconfig,
        ⟨hblock, hnumber, hseed, hquantiles⟩, mapError_eq_ok_iff.mp hrun, mapError_eq_ok_iff.mp hdrawn, hsealed, hnear⟩
  · cases h

theorem sealedManifest_of_loaded {robustnessId : String} {e : RobustnessEvidence}
    (hid : robustnessId ∈ request.robustnessRunIds)
    (h : Loaded lookup ctx found request.runId base robustnessId e) :
    SealedManifest ctx found request e.testType e.manifest := by
  have hcompleted := h.completed
  unfold verifyRobustnessJobCompleted at hcompleted
  cases hjob : found.robustness.jobs robustnessId with
  | none =>
    rw [hjob] at hcompleted
    cases hcompleted
  | some job =>
    rw [hjob] at hcompleted
    obtain ⟨_, hstatus, hseal⟩ := except_bind_eq_ok.mp hcompleted
    rw [reject_ok_iff, decide_eq_false_iff_not] at hstatus hseal
    have hsealed := h.sealed
    simp only [verifyJobSeal, hjob, Option.filter_some, hseal, ne_eq, not_false_eq_true, decide_true, if_true,
      RobustnessFiles.verifyRobustnessManifestSeal, h.manifest] at hsealed
    have hanchor : RobustnessFiles.nonEmpty (strip (job.manifestContentHash.getD "")) = some job.seal := if_neg hseal
    simp only [hanchor, Option.some_or] at hsealed
    have htype : e.manifest.testType = some e.testType := by
      have htype := h.testType
      cases hmanifest : e.manifest.testType with
      | none =>
        rw [hmanifest] at htype
        exact absurd htype h.tested
      | some testType =>
        rw [hmanifest] at htype
        rw [htype]
        rfl
    refine ⟨⟨robustnessId, hid, h.manifest, job, hjob, not_not.mp hstatus, hseal, ?_⟩, htype, h.bound.1⟩
    by_contra hdiffers
    rw [if_neg hdiffers] at hsealed
    cases hsealed

theorem measuredBy_of_manifest {robustnessId : String} {e : RobustnessEvidence}
    {measured : List (RobustnessTest × Decimal)} {test : RobustnessTest} {value : Decimal}
    (hid : robustnessId ∈ request.robustnessRunIds) (he : Loaded lookup ctx found request.runId base robustnessId e)
    (h : measurementsFromRobustnessManifest lookup ctx e request.runId = .ok measured)
    (hvalue : (test, value) ∈ measured) : MeasuredBy lookup ctx found request base test.metric value := by
  have hmanifest := sealedManifest_of_loaded hid he
  have hbound := he.bound.2
  unfold measurementsFromRobustnessManifest at h
  simp only at h
  split at h
  · rename_i htype
    obtain ⟨pnls, hpnls, h⟩ := except_bind_eq_ok.mp h
    cases h
    obtain ⟨rfl, hne, rfl⟩ := mem_passRatio hvalue
    exact .walkForward (htype ▸ hmanifest) (forall₂_childNetPnl (List.Subset.refl _) hbound hpnls) hne
  · rename_i htype
    obtain ⟨pnls, hpnls, h⟩ := except_bind_eq_ok.mp h
    cases h
    obtain ⟨last, hlast, hpair⟩ := List.mem_map.mp hvalue
    obtain ⟨rfl, rfl⟩ := Prod.mk.inj hpair
    have hresults := forall₂_childNetPnl List.filter_sublist.subset hbound hpnls
    obtain ⟨child, hchild, hresult⟩ := Library.Runs.exists_getLast?_related hresults (Option.mem_toList.mp hlast)
    exact .costStress (htype ▸ hmanifest) hchild hresult
  · rename_i htype
    obtain ⟨pnls, hpnls, h⟩ := except_bind_eq_ok.mp h
    cases h
    obtain ⟨rfl, hne, rfl⟩ := mem_passRatio hvalue
    exact .parameterStability (htype ▸ hmanifest) (forall₂_childNetPnl List.filter_sublist.subset hbound hpnls) hne
  · rename_i htype
    obtain ⟨q05, hdrawn, h⟩ := except_bind_eq_ok.mp h
    cases h
    obtain ⟨rfl, rfl⟩ := Prod.mk.inj (List.mem_singleton.mp hvalue)
    obtain ⟨config, blockLength, nSimulations, seed, quantiles, run, sealedQ05, hconfig, hnumbers, hrun, hdrawn,
      hsealed, hnear⟩ := bootstrapQ05_ok hdrawn
    exact .bootstrap (htype ▸ hmanifest) hconfig hnumbers hrun hdrawn hsealed hnear
  · cases h
    cases hvalue

def TreatedAsCritical (gate : GateDefinition) : Prop := gate.category = "" ∨ isCriticalCategory gate.category = true

def Satisfied (measurements : Measurements) (gate : GateDefinition) : Prop :=
  ∃ value, measurements.get? gate.metric = some value ∧
    evaluateComparator gate.comparator value gate.threshold = true

theorem evaluateGate_pass_iff {measurements : Measurements} {gate : GateDefinition} :
    (evaluateGate measurements gate).outcome = .pass ↔ Satisfied measurements gate := by
  unfold evaluateGate Satisfied
  cases hmeasured : measurements.get? gate.metric with
  | none => simp
  | some value =>
    simp only [Option.some.injEq, exists_eq_left']
    split_ifs with hpassed
    · simp [hpassed]
    · simp [hpassed]

theorem evaluateGate_category (measurements : Measurements) (gate : GateDefinition) :
    (evaluateGate measurements gate).category = gate.category := by
  unfold evaluateGate
  split <;> rfl

theorem satisfied_of_overallPass {policy : GatePolicy} {measurements : Measurements}
    (h : overallStatusFromGates (evaluateGates policy measurements) = .pass) {gate : GateDefinition}
    (hgate : gate ∈ policy.gates) (hcritical : TreatedAsCritical gate) : Satisfied measurements gate := by
  have hmem : evaluateGate measurements gate ∈ evaluateGates policy measurements := List.mem_map_of_mem hgate
  unfold overallStatusFromGates at h
  split_ifs at h with _ _ hfailed hall
  · by_contra hunsatisfied
    refine hfailed (List.any_eq_true.mpr ⟨_, hmem, ?_⟩)
    rw [decide_eq_true_eq, evaluateGate_category]
    exact ⟨fun hpass => hunsatisfied (evaluateGate_pass_iff.mp hpass), hcritical⟩
  · have hpassed := List.all_eq_true.mp hall _ hmem
    exact evaluateGate_pass_iff.mp (of_decide_eq_true hpassed)

end Measurements

section Evaluation

/-- A record that holds what its evidence gives. -/
structure Sound (ctx : EvaluationContext) (registry : ExperimentRegistry) (found : Surroundings)
    (request : GateRequest) (record : GateRunRecord) : Prop where
  gates : ∃ policy, getPolicy request.policyVersion = .ok policy ∧
    record.gates = evaluateGates policy record.measurements ∧
    (∀ gate ∈ policy.gates,
      (evaluateGate record.measurements gate).outcome = .pass ↔ Satisfied record.measurements gate) ∧
    (record.overallStatus = .pass → ∀ gate ∈ policy.gates, TreatedAsCritical gate →
      Satisfied record.measurements gate)
  measured : ∃ base,
    (∀ runId ∈ usedRuns found request, VerifiedRun ctx.sha256 found.artifacts registry runId ∧
      ShownBound (showRun ctx.sha256 found.artifacts registry) base runId) ∧
    ∀ metric value, record.measurements.get? metric = some value →
      MeasuredBy (showRun ctx.sha256 found.artifacts registry) ctx found request base metric value

theorem loaded_of_mem {ids : List String} {evidence : List RobustnessEvidence} {e : RobustnessEvidence}
    (h : loadRobustnessEvidence lookup ctx found ids runId base = .ok evidence) (he : e ∈ evidence) :
    e.robustnessId ∈ ids ∧ Loaded lookup ctx found runId base e.robustnessId e := by
  obtain ⟨-, hloaded, -⟩ := loadRobustnessEvidence_ok_iff.mp h
  clear h
  induction hloaded with
  | nil => exact absurd he List.not_mem_nil
  | @cons robustnessId e' ids evidence hfirst hrest ih =>
    rcases List.mem_cons.mp he with rfl | he
    · rw [hfirst.id]
      exact ⟨List.mem_cons_self, hfirst⟩
    · exact ⟨List.mem_cons_of_mem _ (ih he).1, (ih he).2⟩

theorem sound_of_evaluateRecord
    (h : evaluateRecord (showRun ctx.sha256 found.artifacts registry) ctx found request = .ok record) :
    Sound ctx registry found request record := by
  have hused := h
  obtain ⟨policy, hpolicy, h⟩ := except_bind_eq_ok.mp h
  obtain ⟨⟨run, base, metrics⟩, hresolved, h⟩ := except_bind_eq_ok.mp h
  have hbound := evaluateRecord_bound hresolved hused
  obtain ⟨evidence, hevidence, h⟩ := except_bind_eq_ok.mp h
  obtain ⟨measured, hmeasured, h⟩ := except_bind_eq_ok.mp h
  obtain ⟨_, -, h⟩ := except_bind_eq_ok.mp h
  cases h
  refine ⟨⟨policy, mapError_eq_ok_iff.mp hpolicy, rfl, fun gate _ => evaluateGate_pass_iff, ?_⟩, base, ?_, ?_⟩
  · exact fun hpass gate hgate hcritical => satisfied_of_overallPass hpass hgate hcritical
  · exact fun runId hrun => ⟨verifiedRun_of_shown (hbound runId hrun).complete, hbound runId hrun⟩
  · intro metric value hvalue
    rcases mem_of_mergeMeasurements hvalue with hsealed | ⟨test, hmem, rfl⟩
    · exact measuredBy_of_metrics (resolveRun_ok hresolved).2 hsealed
    · obtain ⟨found', hfound', hmem⟩ := List.mem_flatten.mp hmem
      obtain ⟨e, he, hturn⟩ := mapM_ok_mem hmeasured hfound'
      obtain ⟨hid, hloaded⟩ := loaded_of_mem hevidence ((List.mem_insertionSort _).mp he)
      exact measuredBy_of_manifest hid hloaded hturn hmem

theorem exists_loaded {ids : List String} {evidence : List RobustnessEvidence} {id : String}
    (h : List.Forall₂ (Loaded lookup ctx found runId base) ids evidence) (hid : id ∈ ids) :
    ∃ e ∈ evidence, Loaded lookup ctx found runId base id e := by
  induction h with
  | nil => exact absurd hid List.not_mem_nil
  | @cons id' e ids evidence hfirst hrest ih =>
    rcases List.mem_cons.mp hid with rfl | hid
    · exact ⟨e, List.mem_cons_self, hfirst⟩
    · obtain ⟨e', he', hloaded⟩ := ih hid
      exact ⟨e', List.mem_cons_of_mem _ he', hloaded⟩

theorem evaluateRecord_distinct_tests (h : evaluateRecord lookup ctx found request = .ok record) {id id' : String}
    {manifest manifest' : RobustnessManifest} (hid : id ∈ request.robustnessRunIds)
    (hid' : id' ∈ request.robustnessRunIds) (hmanifest : found.robustness.manifests id = some (.object manifest))
    (hmanifest' : found.robustness.manifests id' = some (.object manifest'))
    (htype : manifest.testType = manifest'.testType) : id = id' := by
  obtain ⟨policy, -, h⟩ := except_bind_eq_ok.mp h
  obtain ⟨⟨run, base, metrics⟩, -, h⟩ := except_bind_eq_ok.mp h
  obtain ⟨evidence, hevidence, -⟩ := except_bind_eq_ok.mp h
  obtain ⟨-, hloaded, htypes⟩ := loadRobustnessEvidence_ok_iff.mp hevidence
  obtain ⟨e, he, hfirst⟩ := exists_loaded hloaded hid
  obtain ⟨e', he', hsecond⟩ := exists_loaded hloaded hid'
  have hsame : e = e' := by
    refine List.inj_on_of_nodup_map htypes he he' ?_
    have hcontent := hfirst.manifest.symm.trans hmanifest
    have hcontent' := hsecond.manifest.symm.trans hmanifest'
    rw [Option.some.injEq, ManifestContent.object.injEq] at hcontent hcontent'
    rw [hfirst.testType, hsecond.testType, hcontent, hcontent', htype]
  rw [← hfirst.id, ← hsecond.id, hsame]

theorem evaluateRecord_perm {ids' : List String} (hperm : ids'.Perm request.robustnessRunIds)
    (h : evaluateRecord lookup ctx found request = .ok record) :
    ∃ artifactChecksums, evaluateRecord lookup ctx found { request with robustnessRunIds := ids' } =
      .ok { record with artifactChecksums } := by
  obtain ⟨policy, hpolicy, h⟩ := except_bind_eq_ok.mp h
  obtain ⟨⟨run, base, metrics⟩, hresolved, h⟩ := except_bind_eq_ok.mp h
  obtain ⟨evidence, hevidence, h⟩ := except_bind_eq_ok.mp h
  obtain ⟨measured, hmeasured, h⟩ := except_bind_eq_ok.mp h
  obtain ⟨commit, hcommit, h⟩ := except_bind_eq_ok.mp h
  obtain ⟨evidence', hevidence', hperm'⟩ := loadRobustnessEvidence_perm hperm hevidence
  have hsorted := sorted_eq_of_perm hperm' (loadRobustnessEvidence_ok_iff.mp hevidence).2.2
  have hids : ids'.insertionSort (· ≤ ·) = request.robustnessRunIds.insertionSort (· ≤ ·) := by
    have hsame := ((List.perm_insertionSort (· ≤ ·) ids').trans hperm).trans
      (List.perm_insertionSort (· ≤ ·) request.robustnessRunIds).symm
    exact hsame.eq_of_sortedLE List.sortedLE_insertionSort List.sortedLE_insertionSort
  cases h
  refine ⟨boundChecksums run.entry.checksums evidence', ?_⟩
  refine except_bind_eq_ok.mpr ⟨policy, hpolicy, except_bind_eq_ok.mpr ⟨(run, base, metrics), hresolved, ?_⟩⟩
  refine except_bind_eq_ok.mpr ⟨evidence', hevidence', except_bind_eq_ok.mpr ⟨measured, ?_, ?_⟩⟩
  · rw [hsorted]
    exact hmeasured
  · refine except_bind_eq_ok.mpr ⟨commit, hcommit, ?_⟩
    simp only [hids]
    rfl

theorem append_ok_of_same {store' : GateResultStore} {record' : GateRunRecord}
    (h : store.append record = .ok store') (hid : record'.gateRunId = record.gateRunId) :
    store.append record' = .ok (store.appendLine record') := by
  obtain ⟨hmarked, hget, -⟩ := GateResultStore.append_ok h
  unfold GateResultStore.append
  rw [GateResultStore.gateMarked_eq, hid, hmarked, hget]
  rfl

theorem storeRecord_same {outcome : GateRunRecord × GateResultStore} {record' : GateRunRecord}
    (h : storeRecord store record = .ok outcome) (hid : record'.gateRunId = record.gateRunId) :
    outcome.2 = store ∧ store.get record.gateRunId = some outcome.1 ∧ outcome.1.status = .active ∧
        storeRecord store record' = .ok outcome ∨
      outcome.1 = record ∧ store.append record = .ok outcome.2 ∧
        storeRecord store record' = .ok (record', store.appendLine record') := by
  unfold storeRecord at h ⊢
  rw [hid]
  cases hget : store.get record.gateRunId with
  | some existing =>
    rw [hget] at h
    cases hstatus : existing.status with
    | active =>
      simp only [hstatus] at h
      cases h
      exact .inl ⟨rfl, rfl, hstatus, by simp only [hstatus]⟩
    | invalidated =>
      simp only [hstatus] at h
      cases h
  | none =>
    rw [hget] at h
    obtain ⟨store', happend, h⟩ := except_bind_eq_ok.mp h
    cases h
    have happended := mapError_eq_ok_iff.mp happend
    refine .inr ⟨rfl, happended, except_bind_eq_ok.mpr ⟨store.appendLine record', ?_, rfl⟩⟩
    exact mapError_eq_ok_iff.mpr (append_ok_of_same happended hid)

/-- Every record that an evaluation adds to the store is sound; two manifests of one test type are not accepted;
and another order of the ids gives the same results. -/
theorem gate_evaluation_sound (ctx : EvaluationContext) (registry : ExperimentRegistry) (store : GateResultStore)
    (found : Surroundings) (request : GateRequest) :
    (∀ outcome, evaluate ctx registry store found request = .ok outcome →
      (outcome.2 = store ∧ (∃ gateRunId, store.get gateRunId = some outcome.1) ∧ outcome.1.status = .active) ∨
        (store.append outcome.1 = .ok outcome.2 ∧ Sound ctx registry found request outcome.1)) ∧
    (∀ id ∈ request.robustnessRunIds, ∀ id' ∈ request.robustnessRunIds, ∀ manifest manifest', id ≠ id' →
      found.robustness.manifests id = some (.object manifest) →
      found.robustness.manifests id' = some (.object manifest') → manifest.testType = manifest'.testType →
      ∀ outcome, evaluate ctx registry store found request ≠ .ok outcome) ∧
    ∀ ids', ids'.Perm request.robustnessRunIds → ∀ outcome, evaluate ctx registry store found request = .ok outcome →
      ∃ outcome', evaluate ctx registry store found { request with robustnessRunIds := ids' } = .ok outcome' ∧
        outcome'.1.gates = outcome.1.gates ∧ outcome'.1.overallStatus = outcome.1.overallStatus := by
  refine ⟨fun outcome h => ?_, fun id hid id' hid' manifest manifest' hne hmanifest hmanifest' htype outcome h => ?_,
    fun ids' hperm outcome h => ?_⟩
  · obtain ⟨record, hrecord, hstored⟩ := except_bind_eq_ok.mp h
    rcases storeRecord_same hstored rfl with ⟨hstore, hget, hactive, -⟩ | ⟨hnew, happend, -⟩
    · exact .inl ⟨hstore, ⟨record.gateRunId, hget⟩, hactive⟩
    · rw [hnew]
      exact .inr ⟨happend, sound_of_evaluateRecord hrecord⟩
  · obtain ⟨record, hrecord, -⟩ := except_bind_eq_ok.mp h
    exact hne (evaluateRecord_distinct_tests hrecord hid hid' hmanifest hmanifest' htype)
  · obtain ⟨record, hrecord, hstored⟩ := except_bind_eq_ok.mp h
    obtain ⟨artifactChecksums, hrecord'⟩ := evaluateRecord_perm hperm hrecord
    rcases @storeRecord_same _ _ _ { record with artifactChecksums } hstored rfl with ⟨-, -, -, hsame⟩ | ⟨hnew, -, happend⟩
    · exact ⟨outcome, except_bind_eq_ok.mpr ⟨_, hrecord', hsame⟩, rfl, rfl⟩
    · rw [hnew]
      exact ⟨_, except_bind_eq_ok.mpr ⟨_, hrecord', happend⟩, rfl, rfl⟩

end Evaluation

section Sample

def sampleDirectory (runId : String) (closedTrades : ℕ) (netPnl : Decimal) : Tree :=
  ((Dict.set {} ["metrics.json"] (.metrics
    { schemaVersion := "1.0", startCapital := 100, endCapital := 100 + netPnl, grossPnl := netPnl, netPnl, fees := 0
      slippageCosts := 0, fundingCosts := 0, fundingAssumption := .disabled, signalCount := closedTrades
      orderCount := closedTrades, fillCount := closedTrades, closedTrades, hitRate := some 1, avgWin := none
      avgLoss := none, expectancy := none, profitFactor := none, maxDrawdown := some (1 / 10), timeInMarket := none
      benchmarkResult := none, benchmark := { benchmarkId := "buy_and_hold_BTC", benchmarkVersion := "1.0" } })).set
    ["run_manifest.json"] (.runManifest
      { experimentId := some "exp", runId := some runId, attemptId := some "1", status := some "complete"
        strategyVersion := some "v1", createdAtUtc := some "2024-01-01", datasetId := some "d1"
        datasetContentHash := some "h1", gitCommit := some "c1" }))

def sampleArtifacts : ArtifactStore :=
  (Dict.set {} ["exp", "run"] (sampleDirectory "run" 12 5)).set ["exp", "child"] (sampleDirectory "child" 4 3)

def sampleRegister (runId : String) : Invalidation.Op :=
  .registry (.registerComplete sampleArtifacts { Invalidation.sampleRegistration with
    runId
    artifactPath := ["exp", runId]
    checksums := (Dict.set {} ["metrics.json"] "digest").set ["run_manifest.json"] "digest" })

def sampleRegistry : ExperimentRegistry :=
  (Invalidation.run Invalidation.sampleDigest (["run", "child"].map sampleRegister)).registry

def sampleContext : EvaluationContext where
  sha256 := Invalidation.sampleDigest
  digest := fun _ => "digest"
  policyContentHash := fun _ => "policy"
  gateRunId := fun runId _ _ _ => "gate_" ++ runId
  bootstrapQ05 := fun _ _ _ _ _ => .ok (some 1)

def sampleFound : Surroundings where
  artifacts := sampleArtifacts
  robustness :=
    { manifests := fun testType => some (.object
        { schemaVersion := some "1.0", robustnessId := some testType, testType := some testType
          baseRunId := some "run", config := some { blockLength := some 1, nSimulations := some 1, seed := some 1 }
          children := some [.object { childId := some "combined_elevated", status := some "complete"
                                      runId := some "child", netPnl := some 3 }]
          bootstrapQ05 := some 1 })
      jobs := fun _ => some { baseRunId := "run", status := .completed, manifestContentHash := some "digest" } }

def sampleRequest : GateRequest :=
  ⟨"run", "1.1", ["walk_forward", "cost_stress", "parameter_stability", "bootstrap"]⟩

/-- Every gate passes. -/
theorem gate_evaluation_sound_sample : ∃ outcome,
    evaluate sampleContext sampleRegistry {} sampleFound sampleRequest = .ok outcome ∧
      outcome.1.overallStatus = .pass ∧ Sound sampleContext sampleRegistry sampleFound sampleRequest outcome.1 := by
  have hreturns : ((evaluate sampleContext sampleRegistry {} sampleFound sampleRequest).toOption.any
      fun outcome => outcome.1.overallStatus = .pass) = true := by
    decide +kernel
  obtain ⟨outcome, hevaluate, hpass⟩ := exists_of_any hreturns
  refine ⟨outcome, hevaluate, of_decide_eq_true hpass, ?_⟩
  cases (gate_evaluation_sound sampleContext sampleRegistry {} sampleFound sampleRequest).1 outcome hevaluate with
  | inl hheld =>
    obtain ⟨_, ⟨gateRunId, hget⟩, _⟩ := hheld
    cases hget
  | inr hsound => exact hsound.2

end Sample

end TradingBot.Research.GateSoundness
