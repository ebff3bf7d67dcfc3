import TradingBot.Research.StudyIdentity

namespace TradingBot.Research.StudyIdentity

open Library.Dictionary Library.OverlayLog Research.Artifacts Research.Registry Research.Robustness
open Research.GateStore Research.ScorecardStore Research.GateEvaluator
open Library.Outcome (except_bind_eq_ok mapError_eq_ok_iff mapM_eq_ok_iff mapM_congr mapM_perm map_eq_of_mapM_ok)
open ValidationStudyService

section Statement

def RawIds.items : RawIds → List String
  | .ids items => items
  | .missing | .other => []

inductive RawIds.Permutes : RawIds → RawIds → Prop
  | missing : Permutes .missing .missing
  | ids {items' items : List String} (h : items'.Perm items) : Permutes (.ids items') (.ids items)
  | other : Permutes .other .other

/-- The requests differ at most in the order of their four lists. -/
structure StudyPayload.Permutes (payload' payload : StudyPayload) : Prop where
  experimentId : payload'.experimentId = payload.experimentId
  additional : payload'.additionalExperimentIds.Permutes payload.additionalExperimentIds
  robustness : payload'.robustnessIds.Permutes payload.robustnessIds
  gates : payload'.gateRunIds.Permutes payload.gateRunIds
  scorecards : payload'.scorecardIds.Permutes payload.scorecardIds
  name : payload'.name = payload.name
  notes : payload'.notes = payload.notes

def newestCompleteRun (registry : ExperimentRegistry) (experimentId : String) : Option String :=
  ((resolveCompleteEntry registry "experiment_id" experimentId).toOption).map (·.runId)

/-- The lists name the same evidence place by place: three of them are in the same order, and the fourth
resolves to the same sequence of runs. -/
structure SameOrder (registry : ExperimentRegistry) (payload' payload : StudyPayload) : Prop where
  additional : payload'.additionalExperimentIds.items.map (newestCompleteRun registry) =
    payload.additionalExperimentIds.items.map (newestCompleteRun registry)
  robustness : payload'.robustnessIds = payload.robustnessIds
  gates : payload'.gateRunIds = payload.gateRunIds
  scorecards : payload'.scorecardIds = payload.scorecardIds

end Statement

variable {settings : StudySettings} {service : ValidationStudyService} {payload payload' : StudyPayload}
  {request request' : PinnedRequest} {registry : ExperimentRegistry} {field experimentId runId : String}
  {pin pin' : PinnedRunEvidence} {entry : RegistryEntry}

section Ids

variable {raw raw' : RawIds} {items : List String}

theorem cleanIdList_ok_iff :
    cleanIdList field raw = .ok items ↔ raw ≠ .other ∧ (∀ item ∈ raw.items, assertSafeId field item = .ok item) ∧
      items = raw.items := by
  cases raw with
  | missing =>
    simp only [cleanIdList, RawIds.items, Except.ok.injEq, ne_eq, reduceCtorEq, not_false_eq_true, List.not_mem_nil,
      false_imp_iff, implies_true, true_and]
    exact eq_comm
  | other => simp [cleanIdList]
  | ids list =>
    have hsafe : (fun item value => assertSafeId field item = .ok value) =
        fun item value => assertSafeId field item = .ok item ∧ item = value := by
      funext item value
      unfold assertSafeId
      cases item.toList with
      | nil => simp
      | cons first rest =>
        dsimp only
        split_ifs with h
        · simp
        · simp
    rw [cleanIdList, mapM_eq_ok_iff]
    simp only [mapError_eq_ok_iff]
    rw [hsafe, List.forall₂_and_left, List.forall₂_eq_eq_eq]
    simp only [RawIds.items, ne_eq, reduceCtorEq, not_false_eq_true, true_and]
    exact and_congr_right fun _ => eq_comm

theorem RawIds.Permutes.perm (h : raw'.Permutes raw) : raw'.items.Perm raw.items := by
  cases h with
  | missing | other => exact .refl _
  | ids h => exact h

theorem RawIds.Permutes.eq_iff (h : raw'.Permutes raw) : raw' = raw ↔ raw'.items = raw.items := by
  cases h with
  | missing | other => simp
  | ids h => simp [RawIds.items]

theorem cleanIdList_permutes (h : cleanIdList field raw = .ok items) (hperm : raw'.Permutes raw) :
    cleanIdList field raw' = .ok raw'.items := by
  obtain ⟨hother, hsafe, -⟩ := cleanIdList_ok_iff.mp h
  refine cleanIdList_ok_iff.mpr ⟨?_, fun item hitem => hsafe item (hperm.perm.subset hitem), rfl⟩
  cases hperm with
  | missing | ids _ => simp
  | other => exact absurd rfl hother

theorem items_of_cleanIdList (h : cleanIdList field raw = .ok items) : items = raw.items :=
  (cleanIdList_ok_iff.mp h).2.2

end Ids

section Runs

theorem resolveCompleteEntry_ok_iff :
    resolveCompleteEntry registry field experimentId = .ok entry ↔
      ((latestStatusByRun registry experimentId).values.filter (·.status = .complete)).argmax (·.createdAt) =
        some entry := by
  unfold resolveCompleteEntry
  by_cases hempty : (latestStatusByRun registry experimentId).values = []
  · simp [hempty]
  · simp only [hempty, if_false]
    split
    · next first hfirst => simp [hfirst]
    · next hnone => simp [hnone]

theorem complete_of_resolve (h : resolveCompleteEntry registry field experimentId = .ok entry) :
    entry.status = .complete := by
  have hmem := List.argmax_mem (resolveCompleteEntry_ok_iff.mp h)
  exact of_decide_eq_true (List.mem_filter.mp hmem).2

theorem newestCompleteRun_of_resolve (h : resolveCompleteEntry registry field experimentId = .ok entry) :
    newestCompleteRun registry experimentId = some entry.runId := by
  rw [newestCompleteRun, resolveCompleteEntry_ok_iff.mpr (resolveCompleteEntry_ok_iff.mp h)]
  rfl

theorem pinRun_runId (h : service.pinRun settings field runId = .ok pin) : pin.runId = runId := by
  obtain ⟨verified, hverified, h⟩ := except_bind_eq_ok.mp h
  rw [mapError_eq_ok_iff] at hverified
  obtain ⟨found, hfound, hshown⟩ := except_bind_eq_ok.mp hverified
  have hrun : found.runId = runId := by
    unfold ExperimentRegistry.findEntry at hfound
    split at hfound
    · cases hfound
    · next newestEntry hnewest =>
      cases hfound
      exact (newest_mem hnewest).2
  have hsame : verified = found := by
    split_ifs at hshown
    · obtain ⟨_, -, hpure⟩ := except_bind_eq_ok.mp hshown
      exact (Except.ok.inj hpure).symm
    · exact (Except.ok.inj hshown).symm
  split_ifs at h
  obtain ⟨manifest, -, hpin⟩ := except_bind_eq_ok.mp h
  rw [← Except.ok.inj hpin, ← hrun, hsame]

theorem pinExperiment_ok_iff :
    service.pinExperiment settings field experimentId = .ok pin ↔
      ∃ runId, newestCompleteRun service.registry experimentId = some runId ∧
        service.pinRun settings field runId = .ok pin := by
  constructor
  · intro h
    obtain ⟨entry, hentry, hpin⟩ := except_bind_eq_ok.mp h
    rw [pinRunEvidence, if_neg (not_not_intro (complete_of_resolve hentry))] at hpin
    exact ⟨entry.runId, newestCompleteRun_of_resolve hentry, hpin⟩
  · rintro ⟨runId, hrun, hpin⟩
    cases hentry : resolveCompleteEntry service.registry field experimentId with
    | error e =>
      cases hother : resolveCompleteEntry service.registry "experiment_id" experimentId with
      | error e' =>
        rw [newestCompleteRun, hother] at hrun
        cases hrun
      | ok entry =>
        rw [resolveCompleteEntry_ok_iff.mpr (resolveCompleteEntry_ok_iff.mp hother)] at hentry
        cases hentry
    | ok entry =>
      obtain rfl : entry.runId = runId :=
        Option.some.inj ((newestCompleteRun_of_resolve hentry).symm.trans hrun)
      refine except_bind_eq_ok.mpr ⟨entry, hentry, ?_⟩
      rwa [pinRunEvidence, if_neg (not_not_intro (complete_of_resolve hentry))]

theorem newestCompleteRun_of_pin (h : service.pinExperiment settings field experimentId = .ok pin) :
    newestCompleteRun service.registry experimentId = some pin.runId := by
  obtain ⟨runId, hrun, hpin⟩ := pinExperiment_ok_iff.mp h
  rw [hrun, pinRun_runId hpin]

theorem pinRun_of_pin (h : service.pinExperiment settings field experimentId = .ok pin) :
    service.pinRun settings field pin.runId = .ok pin := by
  obtain ⟨runId, -, hpin⟩ := pinExperiment_ok_iff.mp h
  rwa [pinRun_runId hpin]

end Runs

section Evidence

variable {runs runs' : List String}

theorem pinRobustness_congr (hruns : ∀ runId, runId ∈ runs' ↔ runId ∈ runs) :
    service.pinRobustness settings runs' = service.pinRobustness settings runs := by
  funext robustnessId
  simp only [pinRobustness, hruns]

theorem pinGate_congr (hruns : ∀ runId, runId ∈ runs' ↔ runId ∈ runs) :
    service.pinGate settings runs' = service.pinGate settings runs := by
  funext gateRunId
  simp only [pinGate, hruns]

theorem pinScorecard_congr (hruns : ∀ runId, runId ∈ runs' ↔ runId ∈ runs) :
    service.pinScorecard settings runs' = service.pinScorecard settings runs := by
  funext scorecardId
  simp only [pinScorecard, hruns]

theorem pinRobustness_id {robustnessId : String} {pin : PinnedRobustnessEvidence}
    (h : service.pinRobustness settings runs robustnessId = .ok pin) : robustnessId = pin.robustnessId := by
  unfold pinRobustness at h
  split at h
  · cases h
  · split_ifs at h
    obtain ⟨_, -, hpin⟩ := except_bind_eq_ok.mp h
    rw [← Except.ok.inj hpin]

theorem pinGate_id {gateRunId : String} {pin : PinnedGateEvidence}
    (h : service.pinGate settings runs gateRunId = .ok pin) : gateRunId = pin.gateRunId := by
  unfold pinGate at h
  split at h
  · cases h
  · split_ifs at h
    obtain ⟨_, -, h⟩ := except_bind_eq_ok.mp h
    obtain ⟨_, -, hpin⟩ := except_bind_eq_ok.mp h
    rw [← Except.ok.inj hpin]

theorem pinScorecard_id {scorecardId : String} {pin : PinnedScorecardEvidence}
    (h : service.pinScorecard settings runs scorecardId = .ok pin) : scorecardId = pin.scorecardId := by
  unfold pinScorecard at h
  split at h
  · cases h
  · split_ifs at h
    obtain ⟨_, -, h⟩ := except_bind_eq_ok.mp h
    obtain ⟨_, -, hpin⟩ := except_bind_eq_ok.mp h
    rw [← Except.ok.inj hpin]

end Evidence

section Requests

structure Pinned (settings : StudySettings) (service : ValidationStudyService) (payload : StudyPayload)
    (request : PinnedRequest) : Prop where
  experimentId : cleanExperimentId payload = .ok request.experimentId
  primary : ∃ entry, resolveCompleteEntry service.registry "experiment_id" request.experimentId = .ok entry ∧
    service.pinRunEvidence settings "experiment_id" entry = .ok request.snapshot.primary ∧
    entry.strategyVersion = request.strategyVersion
  additionalIds : cleanIdList "additional_experiment_ids" payload.additionalExperimentIds =
    .ok request.additionalExperimentIds
  additional : request.additionalExperimentIds.mapM (service.pinExperiment settings "additional_experiment_ids") =
    .ok request.snapshot.additional
  robustnessIds : cleanIdList "robustness_ids" payload.robustnessIds = .ok request.robustnessIds
  robustness : request.robustnessIds.mapM (service.pinRobustness settings request.pinnedRunIds) =
    .ok request.snapshot.robustness
  gateRunIds : cleanIdList "gate_run_ids" payload.gateRunIds = .ok request.gateRunIds
  gates : request.gateRunIds.mapM (service.pinGate settings request.pinnedRunIds) = .ok request.snapshot.gates
  scorecardIds : cleanIdList "scorecard_ids" payload.scorecardIds = .ok request.scorecardIds
  scorecards : request.scorecardIds.mapM (service.pinScorecard settings request.pinnedRunIds) =
    .ok request.snapshot.scorecards

theorem pinRequest_ok_iff :
    service.pinRequest settings payload = .ok request ↔ Pinned settings service payload request := by
  constructor
  · intro h
    obtain ⟨experimentId, hid, h⟩ := except_bind_eq_ok.mp h
    obtain ⟨entry, hentry, h⟩ := except_bind_eq_ok.mp h
    obtain ⟨primary, hprimary, h⟩ := except_bind_eq_ok.mp h
    obtain ⟨additionalIds, hadditionalIds, h⟩ := except_bind_eq_ok.mp h
    obtain ⟨additional, hadditional, h⟩ := except_bind_eq_ok.mp h
    obtain ⟨robustnessIds, hrobustnessIds, h⟩ := except_bind_eq_ok.mp h
    obtain ⟨robustness, hrobustness, h⟩ := except_bind_eq_ok.mp h
    obtain ⟨gateRunIds, hgateRunIds, h⟩ := except_bind_eq_ok.mp h
    obtain ⟨gates, hgates, h⟩ := except_bind_eq_ok.mp h
    obtain ⟨scorecardIds, hscorecardIds, h⟩ := except_bind_eq_ok.mp h
    obtain ⟨scorecards, hscorecards, h⟩ := except_bind_eq_ok.mp h
    obtain rfl := Except.ok.inj h
    exact ⟨hid, ⟨entry, hentry, hprimary, rfl⟩, hadditionalIds, hadditional, hrobustnessIds, hrobustness,
      hgateRunIds, hgates, hscorecardIds, hscorecards⟩
  · rintro ⟨hid, ⟨entry, hentry, hprimary, hversion⟩, hadditionalIds, hadditional, hrobustnessIds, hrobustness,
      hgateRunIds, hgates, hscorecardIds, hscorecards⟩
    refine except_bind_eq_ok.mpr ⟨_, hid, ?_⟩
    refine except_bind_eq_ok.mpr ⟨_, hentry, ?_⟩
    refine except_bind_eq_ok.mpr ⟨_, hprimary, ?_⟩
    refine except_bind_eq_ok.mpr ⟨_, hadditionalIds, ?_⟩
    refine except_bind_eq_ok.mpr ⟨_, hadditional, ?_⟩
    refine except_bind_eq_ok.mpr ⟨_, hrobustnessIds, ?_⟩
    refine except_bind_eq_ok.mpr ⟨_, hrobustness, ?_⟩
    refine except_bind_eq_ok.mpr ⟨_, hgateRunIds, ?_⟩
    refine except_bind_eq_ok.mpr ⟨_, hgates, ?_⟩
    refine except_bind_eq_ok.mpr ⟨_, hscorecardIds, ?_⟩
    refine except_bind_eq_ok.mpr ⟨_, hscorecards, ?_⟩
    rw [hversion]
    rfl

/-- The pinned requests differ at most in the order of their lists. -/
structure Rearranged (request' request : PinnedRequest) : Prop where
  experimentId : request'.experimentId = request.experimentId
  primary : request'.snapshot.primary = request.snapshot.primary
  additionalIds : request'.additionalExperimentIds.Perm request.additionalExperimentIds
  robustnessIds : request'.robustnessIds.Perm request.robustnessIds
  gateRunIds : request'.gateRunIds.Perm request.gateRunIds
  scorecardIds : request'.scorecardIds.Perm request.scorecardIds

theorem Pinned.permutes (h : Pinned settings service payload request) (hperm : payload'.Permutes payload) :
    ∃ request', Pinned settings service payload' request' ∧ Rearranged request' request := by
  have hadditionalIds := items_of_cleanIdList h.additionalIds ▸ hperm.additional.perm
  have hrobustnessIds := items_of_cleanIdList h.robustnessIds ▸ hperm.robustness.perm
  have hgateRunIds := items_of_cleanIdList h.gateRunIds ▸ hperm.gates.perm
  have hscorecardIds := items_of_cleanIdList h.scorecardIds ▸ hperm.scorecards.perm
  obtain ⟨additional, hadditional, hpins⟩ := Library.Outcome.mapM_perm hadditionalIds h.additional
  have hruns : ∀ runId, runId ∈ request.snapshot.primary.runId :: additional.map (·.runId) ↔
      runId ∈ request.pinnedRunIds := by
    intro runId
    exact ((hpins.map (·.runId)).cons request.snapshot.primary.runId).mem_iff
  obtain ⟨robustness, hrobustness, -⟩ := Library.Outcome.mapM_perm hrobustnessIds h.robustness
  obtain ⟨gates, hgates, -⟩ := Library.Outcome.mapM_perm hgateRunIds h.gates
  obtain ⟨scorecards, hscorecards, -⟩ := Library.Outcome.mapM_perm hscorecardIds h.scorecards
  rw [← pinRobustness_congr hruns] at hrobustness
  rw [← pinGate_congr hruns] at hgates
  rw [← pinScorecard_congr hruns] at hscorecards
  refine ⟨⟨request.experimentId, request.strategyVersion, payload'.additionalExperimentIds.items,
    payload'.robustnessIds.items, payload'.gateRunIds.items, payload'.scorecardIds.items,
    ⟨request.snapshot.primary, additional, robustness, gates, scorecards⟩⟩, ?_,
    ⟨rfl, rfl, hadditionalIds, hrobustnessIds, hgateRunIds, hscorecardIds⟩⟩
  refine ⟨?_, h.primary, cleanIdList_permutes h.additionalIds hperm.additional, hadditional,
    cleanIdList_permutes h.robustnessIds hperm.robustness, hrobustness,
    cleanIdList_permutes h.gateRunIds hperm.gates, hgates, cleanIdList_permutes h.scorecardIds hperm.scorecards,
    hscorecards⟩
  rw [cleanExperimentId, hperm.experimentId]
  exact h.experimentId

theorem Pinned.runs (h : Pinned settings service payload request) :
    request.additionalExperimentIds.map (newestCompleteRun service.registry) =
      request.additionalRunIds.map some := by
  rw [map_eq_of_mapM_ok (fun _ _ hpin => newestCompleteRun_of_pin hpin) h.additional, PinnedRequest.additionalRunIds,
    List.map_map]
  rfl

theorem Pinned.length (h : Pinned settings service payload request) :
    request.additionalExperimentIds.length = request.additionalRunIds.length := by
  have hlength := congrArg List.length h.runs
  rwa [List.length_map, List.length_map] at hlength

theorem Pinned.zip (h : Pinned settings service payload request) :
    request.additionalExperimentIds.zip request.additionalRunIds =
      request.additionalExperimentIds.map fun e => (e, (newestCompleteRun service.registry e).getD "") := by
  have hruns : request.additionalExperimentIds.map (fun e => (newestCompleteRun service.registry e).getD "") =
      request.additionalRunIds := by
    have hsome := congrArg (List.map (·.getD "")) h.runs
    simpa only [List.map_map, Function.comp_def, Option.getD_some, List.map_id'] using hsome
  rw [← hruns, List.map_prod_left_eq_zip]

theorem Pinned.additional_of_runs (h : Pinned settings service payload request) :
    request.additionalRunIds.mapM (service.pinRun settings "additional_experiment_ids") =
      .ok request.snapshot.additional := by
  rw [mapM_eq_ok_iff, PinnedRequest.additionalRunIds, List.forall₂_map_left_iff, List.forall₂_same]
  intro pin hpin
  obtain ⟨_, -, hpinned⟩ := Library.Outcome.mapM_ok_mem h.additional hpin
  exact pinRun_of_pin hpinned

theorem Pinned.ids (h : Pinned settings service payload request) :
    payload.robustnessIds.items = request.snapshot.robustness.map (·.robustnessId) ∧
      payload.gateRunIds.items = request.snapshot.gates.map (·.gateRunId) ∧
      payload.scorecardIds.items = request.snapshot.scorecards.map (·.scorecardId) := by
  have hrobustness := map_eq_of_mapM_ok (k := id) (fun _ _ hpin => pinRobustness_id hpin) h.robustness
  have hgates := map_eq_of_mapM_ok (k := id) (fun _ _ hpin => pinGate_id hpin) h.gates
  have hscorecards := map_eq_of_mapM_ok (k := id) (fun _ _ hpin => pinScorecard_id hpin) h.scorecards
  rw [List.map_id, items_of_cleanIdList h.robustnessIds] at hrobustness
  rw [List.map_id, items_of_cleanIdList h.gateRunIds] at hgates
  rw [List.map_id, items_of_cleanIdList h.scorecardIds] at hscorecards
  exact ⟨hrobustness, hgates, hscorecards⟩

theorem snapshot_eq_iff (h' : Pinned settings service payload' request') (h : Pinned settings service payload request)
    (hperm : payload'.Permutes payload) (hrearranged : Rearranged request' request) :
    request'.snapshot = request.snapshot ↔ SameOrder service.registry payload' payload := by
  obtain ⟨hrobustness', hgates', hscorecards'⟩ := h'.ids
  obtain ⟨hrobustness, hgates, hscorecards⟩ := h.ids
  have hruns' := items_of_cleanIdList h'.additionalIds ▸ h'.runs
  have hruns := items_of_cleanIdList h.additionalIds ▸ h.runs
  constructor
  · intro heq
    refine ⟨?_, hperm.robustness.eq_iff.mpr ?_, hperm.gates.eq_iff.mpr ?_, hperm.scorecards.eq_iff.mpr ?_⟩
    · rw [hruns', hruns, PinnedRequest.additionalRunIds, PinnedRequest.additionalRunIds, heq]
    · rw [hrobustness', hrobustness, heq]
    · rw [hgates', hgates, heq]
    · rw [hscorecards', hscorecards, heq]
  · intro hsame
    have hids : request'.additionalRunIds = request.additionalRunIds := by
      have hsome := (hruns'.symm.trans hsame.additional).trans hruns
      exact List.map_injective_iff.mpr (Option.some_injective _) hsome
    have hpinned : request'.pinnedRunIds = request.pinnedRunIds := by
      rw [PinnedRequest.pinnedRunIds, PinnedRequest.pinnedRunIds, hids, hrearranged.primary]
    have hadditional := h'.additional_of_runs.symm.trans (hids ▸ h.additional_of_runs)
    have hrobust := h'.robustness
    have hgate := h'.gates
    have hscorecard := h'.scorecards
    rw [hpinned, items_of_cleanIdList h'.robustnessIds, hsame.robustness, ← items_of_cleanIdList h.robustnessIds,
      h.robustness] at hrobust
    rw [hpinned, items_of_cleanIdList h'.gateRunIds, hsame.gates, ← items_of_cleanIdList h.gateRunIds, h.gates] at hgate
    rw [hpinned, items_of_cleanIdList h'.scorecardIds, hsame.scorecards, ← items_of_cleanIdList h.scorecardIds,
      h.scorecards] at hscorecard
    exact StudyEvidenceSnapshot.ext hrearranged.primary (Except.ok.inj hadditional) (Except.ok.inj hrobust).symm
      (Except.ok.inj hgate).symm (Except.ok.inj hscorecard).symm

end Requests

section Ids

def studyKey (settings : StudySettings) (request : PinnedRequest) : StudyKey where
  experimentId := request.experimentId
  runId := request.snapshot.primary.runId
  additionalExperiments := (request.additionalExperimentIds.zip request.additionalRunIds).insertionSort fun a b =>
    toLex a ≤ toLex b
  robustnessIds := request.robustnessIds.insertionSort (· ≤ ·)
  gateRunIds := request.gateRunIds.insertionSort (· ≤ ·)
  scorecardIds := request.scorecardIds.insertionSort (· ≤ ·)
  evidenceSnapshotId := computeSnapshotId settings request.snapshot

theorem studyIdOf_eq (h : Pinned settings service payload request) :
    studyIdOf settings request = .ok ("study_" ++ settings.studyDigest (studyKey settings request)) := by
  rw [studyIdOf, computeStudyId, if_neg (not_not_intro h.length)]
  rfl

theorem insertionSort_of_perm {α : Type} (r : α → α → Prop) [DecidableRel r] [Std.Total r] [IsTrans α r]
    [Std.Antisymm r] {l l' : List α} (h : l.Perm l') : l.insertionSort r = l'.insertionSort r := by
  have hsame := ((List.perm_insertionSort r l).trans h).trans (List.perm_insertionSort r l').symm
  exact hsame.eq_of_pairwise (fun _ _ _ _ => antisymm) (List.pairwise_insertionSort r l)
    (List.pairwise_insertionSort r l')

theorem studyKey_eq_iff (hsnapshot : Function.Injective settings.snapshotDigest)
    (h' : Pinned settings service payload' request') (h : Pinned settings service payload request)
    (hrearranged : Rearranged request' request) :
    studyKey settings request' = studyKey settings request ↔ request'.snapshot = request.snapshot := by
  constructor
  · intro heq
    exact hsnapshot ((String.append_right_inj _).mp (congrArg StudyKey.evidenceSnapshotId heq))
  · intro heq
    have hzip : (request'.additionalExperimentIds.zip request'.additionalRunIds).Perm
        (request.additionalExperimentIds.zip request.additionalRunIds) := by
      rw [h'.zip, h.zip]
      exact hrearranged.additionalIds.map _
    have hantisymm : Std.Antisymm fun a b : String × String => toLex a ≤ toLex b :=
      ⟨fun _ _ hab hba => toLex.injective (le_antisymm hab hba)⟩
    rw [studyKey, studyKey, heq, hrearranged.experimentId, insertionSort_of_perm _ hzip,
      insertionSort_of_perm _ hrearranged.robustnessIds, insertionSort_of_perm _ hrearranged.gateRunIds,
      insertionSort_of_perm _ hrearranged.scorecardIds]

end Ids

section Creation

variable {now now' studyId : String} {created created' : StudyCreated} {service' : ValidationStudyService}

theorem Pinned.withStudies (h : Pinned settings service payload request) (studies : List StudyRecord) :
    Pinned settings { service with studies } payload request :=
  ⟨h.experimentId, h.primary, h.additionalIds, h.additional, h.robustnessIds, h.robustness, h.gateRunIds, h.gates,
    h.scorecardIds, h.scorecards⟩

theorem Pinned.create (h : Pinned settings service payload request)
    (hid : studyId = "study_" ++ settings.studyDigest (studyKey settings request)) :
    create settings service now payload = match service.getStudy studyId with
      | some existing => .ok (⟨studyId, true, existing⟩, service)
      | none => .ok (⟨studyId, false, newRecord settings now studyId payload request⟩,
          { service with studies := service.studies ++ [newRecord settings now studyId payload request] }) := by
  have hstudyId := studyIdOf_eq h
  rw [← hid] at hstudyId
  have hcreate : StudyIdentity.create settings service now payload =
      ((service.pinRequest settings payload) >>= fun request => (studyIdOf settings request) >>= fun studyId =>
        match service.getStudy studyId with
        | some existing => pure (⟨studyId, true, existing⟩, service)
        | none => pure (⟨studyId, false, newRecord settings now studyId payload request⟩,
            { service with studies := service.studies ++ [newRecord settings now studyId payload request] })) := rfl
  rw [hcreate, pinRequest_ok_iff.mpr h]
  dsimp only [bind, Except.bind]
  rw [hstudyId]
  rfl

theorem create_ok (h : StudyIdentity.create settings service now payload = .ok (created, service')) :
    ∃ request, Pinned settings service payload request ∧
      created.studyId = "study_" ++ settings.studyDigest (studyKey settings request) ∧
      (service'.getStudy created.studyId).isSome ∧ service' = { service with studies := service'.studies } ∧
      (service'.studies = service.studies ∨
        ∃ record, record.studyId = created.studyId ∧ service'.studies = service.studies ++ [record]) := by
  obtain ⟨request, hrequest, -⟩ := except_bind_eq_ok.mp h
  have hpinned := pinRequest_ok_iff.mp hrequest
  refine ⟨request, hpinned, ?_⟩
  rw [hpinned.create rfl] at h
  cases hstudy : service.getStudy ("study_" ++ settings.studyDigest (studyKey settings request)) with
  | some existing =>
    rw [hstudy] at h
    obtain ⟨rfl, rfl⟩ := Prod.mk.inj (Except.ok.inj h)
    exact ⟨rfl, by rw [hstudy]; rfl, rfl, .inl rfl⟩
  | none =>
    rw [hstudy] at h
    obtain ⟨rfl, rfl⟩ := Prod.mk.inj (Except.ok.inj h)
    refine ⟨rfl, ?_, rfl, .inr ⟨_, rfl, rfl⟩⟩
    rw [getStudy, newest_append]
    simp only [newRecord, if_true, Option.isSome_some]

/-- A permuted request gets the id of the first exactly when its lists name the same evidence place by place.
It then finds the study; otherwise it stores a second one, unless that was there already. -/
theorem study_id_order_iff (hsnapshot : Function.Injective settings.snapshotDigest)
    (hstudy : Function.Injective settings.studyDigest) (hperm : payload'.Permutes payload)
    (h : create settings service now payload = .ok (created, service')) :
    ∃ created' service'', create settings service' now' payload' = .ok (created', service'') ∧
      (created'.studyId = created.studyId ↔ SameOrder service.registry payload' payload) ∧
      (SameOrder service.registry payload' payload → created'.alreadyExists = true ∧ service'' = service') ∧
      (¬ SameOrder service.registry payload' payload → service.getStudy created'.studyId = none →
        created'.alreadyExists = false ∧ ∃ record, record.studyId = created'.studyId ∧
          service''.studies = service'.studies ++ [record]) := by
  obtain ⟨request, hpinned, hid, hthere, hservice', hstudies⟩ := create_ok h
  obtain ⟨request', hpinned', hrearranged⟩ := hpinned.permutes hperm
  have hiff : "study_" ++ settings.studyDigest (studyKey settings request') = created.studyId ↔
      SameOrder service.registry payload' payload := by
    rw [hid, String.append_right_inj, hstudy.eq_iff, studyKey_eq_iff hsnapshot hpinned' hpinned hrearranged,
      snapshot_eq_iff hpinned' hpinned hperm hrearranged]
  have hcreate : create settings { service with studies := service'.studies } now' payload' = _ :=
    (hpinned'.withStudies service'.studies).create rfl
  rw [← hservice'] at hcreate
  cases hexisting : service'.getStudy ("study_" ++ settings.studyDigest (studyKey settings request')) with
  | some existing =>
    rw [hexisting] at hcreate
    refine ⟨_, _, hcreate, hiff, fun _ => ⟨rfl, rfl⟩, fun hdiffers hnew => absurd hexisting ?_⟩
    have hne := mt hiff.mp hdiffers
    rw [getStudy] at hnew
    cases hstudies with
    | inl hkept => simp [getStudy, hkept, hnew]
    | inr hstored =>
      obtain ⟨record, hrecord, happended⟩ := hstored
      rw [getStudy, happended, newest_append, if_neg (by rw [hrecord]; exact Ne.symm hne), hnew]
      simp
  | none =>
    rw [hexisting] at hcreate
    refine ⟨_, _, hcreate, hiff, fun hsame => ?_, fun _ _ => ⟨rfl, _, rfl, rfl⟩⟩
    rw [← hiff.mpr hsame, hexisting] at hthere
    cases hthere

end Creation

section Sample

deriving instance Countable for PinnedRunEvidence, PinnedRobustnessEvidence, PinnedGateEvidence,
  PinnedScorecardEvidence, StudyEvidenceSnapshot, StudyKey

def sampleTree : Tree :=
  Dict.set {} ["run_manifest.json"] (.runManifest
    { experimentId := some "exp", runId := some "run", attemptId := some "1", status := some "complete"
      strategyVersion := some "v1", createdAtUtc := some "2024-01-01", datasetId := some "d1"
      datasetContentHash := some "h1", gitCommit := some "c1" })

def sampleEntry : RegistryEntry where
  experimentId := "exp"
  runId := "run"
  attemptId := "1"
  strategyVersion := "v1"
  datasetVersion := "d1"
  costModelVersion := "1.1"
  benchmarkRef := "buy_and_hold_BTC"
  createdAt := "2024-01-01"
  artifactPath := ["exp", "run"]
  checksums := Dict.set {} ["run_manifest.json"] "digest"
  status := .complete

def sampleService : ValidationStudyService where
  registry := { lines := [sampleEntry] }
  artifacts := Dict.set {} ["exp", "run"] sampleTree
  robustness :=
    { manifests := fun _ => some .notAnObject
      jobs := fun _ => some { baseRunId := "run", status := .completed, manifestContentHash := some "seal" } }

def sampleSettings (snapshotDigest : StudyEvidenceSnapshot → String) (studyDigest : StudyKey → String) :
    StudySettings where
  area :=
    { reconstructOatVariants := fun _ _ => .ok []
      evaluateParameterArea := fun _ => .error (.parameterAreaError "")
      policyContentHash := fun _ => none }
  evaluation :=
    { sha256 := fun _ => "digest"
      digest := fun _ => "seal"
      policyContentHash := fun _ => "policy"
      gateRunId := fun runId _ _ _ => "gate_" ++ runId
      bootstrapQ05 := fun _ _ _ _ _ => .ok none }
  hashes := { scorecardEvidence := fun _ => "evidence", gateEvidence := fun _ => "evidence" }
  scorecardPolicyHash := fun _ => none
  checksumsDigest := fun _ => "checksums"
  snapshotDigest
  studyDigest

def samplePayload (robustnessIds : List String) : StudyPayload where
  experimentId := "exp"
  robustnessIds := .ids robustnessIds

def samplePinned (robustnessIds : List String) : PinnedRequest where
  experimentId := "exp"
  strategyVersion := "v1"
  additionalExperimentIds := []
  robustnessIds
  gateRunIds := []
  scorecardIds := []
  snapshot :=
    { primary := ⟨"exp", "run", "checksums", "d1", "h1", "c1"⟩
      additional := []
      robustness := robustnessIds.map fun id => ⟨id, "seal"⟩
      gates := []
      scorecards := [] }

theorem samplePinned_pinned (snapshotDigest : StudyEvidenceSnapshot → String) (studyDigest : StudyKey → String) :
    Pinned (sampleSettings snapshotDigest studyDigest) sampleService (samplePayload ["r1", "r2"])
        (samplePinned ["r1", "r2"]) ∧
      Pinned (sampleSettings snapshotDigest studyDigest) sampleService (samplePayload ["r2", "r1"])
        (samplePinned ["r2", "r1"]) := by
  rw [← pinRequest_ok_iff, ← pinRequest_ok_iff]
  have hpinned : (sampleService.pinRequest (sampleSettings (fun _ => "") fun _ => "") (samplePayload ["r1", "r2"]) =
        .ok (samplePinned ["r1", "r2"])) ∧
      (sampleService.pinRequest (sampleSettings (fun _ => "") fun _ => "") (samplePayload ["r2", "r1"]) =
        .ok (samplePinned ["r2", "r1"])) := by
    decide +kernel
  exact hpinned

/-- The ids of two robustness tests in the other order give another study. -/
theorem swapped_robustness_ids_second_study :
    ¬ ∀ (settings : StudySettings) (service : ValidationStudyService) (payload payload' : StudyPayload)
      (now now' : String) (created : StudyCreated) (service' : ValidationStudyService),
      Function.Injective settings.snapshotDigest → Function.Injective settings.studyDigest →
      payload'.Permutes payload → create settings service now payload = .ok (created, service') →
      ∃ created' service'', create settings service' now' payload' = .ok (created', service'') ∧
        created'.studyId = created.studyId := by
  intro h
  obtain ⟨snapshotDigest, hsnapshot⟩ := Library.Digests.exists_injective_text StudyEvidenceSnapshot
  obtain ⟨studyDigest, hstudy⟩ := Library.Digests.exists_injective_text StudyKey
  obtain ⟨hfirst, hsecond⟩ := samplePinned_pinned snapshotDigest studyDigest
  have hperm : (samplePayload ["r2", "r1"]).Permutes (samplePayload ["r1", "r2"]) :=
    ⟨rfl, .missing, .ids (.swap _ _ _), .missing, .missing, rfl, rfl⟩
  have hcreate : create (sampleSettings snapshotDigest studyDigest) sampleService "2024-01-02"
      (samplePayload ["r1", "r2"]) = _ := hfirst.create rfl
  obtain ⟨created', service'', hagain, hid⟩ := h _ _ _ _ _ "2024-01-03" _ _ hsnapshot hstudy hperm hcreate
  obtain ⟨request', hpinned', hid', -⟩ := create_ok hagain
  have hrequest : request' = samplePinned ["r2", "r1"] := by
    have hpin := pinRequest_ok_iff.mpr hpinned'
    exact Except.ok.inj (hpin.symm.trans (pinRequest_ok_iff.mpr (hsecond.withStudies _)))
  rw [hid', hrequest] at hid
  have hkey := hstudy ((String.append_right_inj _).mp hid)
  have hpins := hsnapshot ((String.append_right_inj _).mp (congrArg StudyKey.evidenceSnapshotId hkey))
  have hids := congrArg (fun s => s.robustness.map (·.robustnessId)) hpins
  revert hids
  decide

/-- Repeating the request finds the study; with the two ids swapped it stores a second one. -/
theorem study_id_order_sample : ∃ (settings : StudySettings) (created : StudyCreated)
    (service' : ValidationStudyService),
    create settings sampleService "2024-01-02" (samplePayload ["r1", "r2"]) = .ok (created, service') ∧
      (∃ created' service'', create settings service' "2024-01-03" (samplePayload ["r1", "r2"]) =
        .ok (created', service'') ∧ created'.studyId = created.studyId ∧ created'.alreadyExists = true ∧
          service'' = service') ∧
      ∃ created' service'', create settings service' "2024-01-03" (samplePayload ["r2", "r1"]) =
        .ok (created', service'') ∧ created'.studyId ≠ created.studyId := by
  obtain ⟨snapshotDigest, hsnapshot⟩ := Library.Digests.exists_injective_text StudyEvidenceSnapshot
  obtain ⟨studyDigest, hstudy⟩ := Library.Digests.exists_injective_text StudyKey
  have hcreate : create (sampleSettings snapshotDigest studyDigest) sampleService "2024-01-02"
      (samplePayload ["r1", "r2"]) = _ := (samplePinned_pinned snapshotDigest studyDigest).1.create rfl
  have hsame : SameOrder sampleService.registry (samplePayload ["r1", "r2"]) (samplePayload ["r1", "r2"]) :=
    ⟨rfl, rfl, rfl, rfl⟩
  have hdiffers : ¬SameOrder sampleService.registry (samplePayload ["r2", "r1"]) (samplePayload ["r1", "r2"]) := by
    intro h
    exact absurd h.robustness (by decide)
  have hswap : (samplePayload ["r2", "r1"]).Permutes (samplePayload ["r1", "r2"]) :=
    ⟨rfl, .missing, .ids (.swap _ _ _), .missing, .missing, rfl, rfl⟩
  refine ⟨_, _, _, hcreate, ?_, ?_⟩
  · obtain ⟨created', service'', hagain, hid, hfound, -⟩ := study_id_order_iff hsnapshot hstudy
      ⟨rfl, .missing, .ids (.refl _), .missing, .missing, rfl, rfl⟩ hcreate
    exact ⟨created', service'', hagain, hid.mpr hsame, hfound hsame⟩
  · obtain ⟨created', service'', hagain, hid, -, -⟩ := study_id_order_iff hsnapshot hstudy hswap hcreate
    exact ⟨created', service'', hagain, mt hid.mp hdiffers⟩

end Sample

end TradingBot.Research.StudyIdentity
