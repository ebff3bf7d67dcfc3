import TradingBot.Research.DatasetBinding
import TradingBot.Research.RobustnessSuite
import TradingBot.Research.WalkForwardPlan

namespace TradingBot.Research.ChildBinding

open Market.Models Market.Timeframes Exceptions Backtester.Models
open Library.Outcome (except_bind_eq_ok)
open Research.Models Research.DatasetBinding Research.RobustnessSuite
open Research.WalkForward (WalkForwardFold planWalkForwardFolds)
open Research.WalkForwardPlan (planWalkForwardFolds_exact evalEnd_of_plan)

def checkRange (manifest : DatasetManifest) (range : TimeRange) : Except Exc Unit := do
  ensure (manifest.startTimestamp ≤ range.start) "time_range.start is before DatasetManifest.start_timestamp"
  ensure (range.finish ≤ manifest.endTimestamp) "time_range.end is after DatasetManifest.end_timestamp"

theorem checkRange_eq_ok_iff {manifest : DatasetManifest} {range : TimeRange} :
    checkRange manifest range = .ok () ↔
      manifest.startTimestamp ≤ range.start ∧ range.finish ≤ manifest.endTimestamp := by
  constructor
  · intro h
    obtain ⟨_, hstart, hfinish⟩ := except_bind_eq_ok.mp h
    exact ⟨of_decide_eq_true (ensure_eq_ok hstart), of_decide_eq_true (ensure_eq_ok hfinish)⟩
  · rintro ⟨hstart, hfinish⟩
    exact except_bind_eq_ok.mpr ⟨(), ensure_ok (decide_eq_true hstart), ensure_ok (decide_eq_true hfinish)⟩

theorem checkRange_of_bind {sha256 : List Market.ContentHash.CandleRow → String}
    {manifests : String → Except Exc DatasetManifest} {spec : ExperimentSpec}
    {bundle filtered : HistoricalDataBundle} {manifest : DatasetManifest} {hash : String}
    (h : bindDatasetToBundle sha256 manifests spec bundle = .ok (manifest, filtered, hash)) :
    checkRange manifest spec.timeRange = .ok () :=
  checkRange_eq_ok_iff.mpr (bindDatasetToBundle_ok h).2

variable {ρ : Type} {base : SuiteSpec ρ} {nFolds embargoDays monthlyBars : ℤ}

theorem buildWalkForwardChildSpecs_ok {children : List (RobustnessChildSpec ρ)}
    (h : buildWalkForwardChildSpecs base nFolds embargoDays monthlyBars = .ok children) :
    ∃ folds, planWalkForwardFolds (planRequest base.timeRange nFolds embargoDays monthlyBars) = .ok folds ∧
      children = folds.map (walkForwardChild base) := by
  obtain ⟨folds, hplan, h⟩ := except_bind_eq_ok.mp h
  cases h
  exact ⟨folds, hplan, rfl⟩

theorem dayEnd_mono {a b : ℤ} (h : a ≤ b) : dayEnd a ≤ dayEnd b := by
  have hday : (0 : ℤ) ≤ day := by decide
  exact Int.add_le_add_right (mul_le_mul_of_nonneg_right h hday) _

def HasWholeDays (manifest : DatasetManifest) (range : TimeRange) : Prop :=
  manifest.startTimestamp ≤ dayStart (dayNumber range.start) ∧ dayEnd (dayNumber range.finish) ≤ manifest.endTimestamp

theorem checkRange_children_iff {manifest : DatasetManifest} {children : List (RobustnessChildSpec ρ)}
    (h : buildWalkForwardChildSpecs base nFolds embargoDays monthlyBars = .ok children) :
    (∀ child ∈ children, checkRange manifest child.spec.timeRange = .ok ()) ↔
      HasWholeDays manifest base.timeRange := by
  obtain ⟨folds, hplan, rfl⟩ := buildWalkForwardChildSpecs_ok h
  have hexact := planWalkForwardFolds_exact hplan
  obtain ⟨hends, last, hlast, hend⟩ := evalEnd_of_plan hplan
  simp only [List.forall_mem_map, checkRange_eq_ok_iff]
  have hstart : ∀ fold ∈ folds, fold.featureContextStart = dayNumber base.timeRange.start :=
    fun fold hfold => (hexact.contexts fold hfold).featureStart
  constructor
  · intro hall
    obtain ⟨hlow, hhigh⟩ := hall last hlast
    have hend : last.evalEnd = dayNumber base.timeRange.finish := hend
    dsimp only [walkForwardChild] at hlow hhigh
    rw [hstart last hlast] at hlow
    rw [hend] at hhigh
    exact ⟨hlow, hhigh⟩
  · rintro ⟨hlow, hhigh⟩ fold hfold
    dsimp only [walkForwardChild]
    rw [hstart fold hfold]
    exact ⟨hlow, (dayEnd_mono (hends fold hfold)).trans hhigh⟩

theorem exists_unbindable_child {manifest : DatasetManifest} {children : List (RobustnessChildSpec ρ)}
    (h : buildWalkForwardChildSpecs base nFolds embargoDays monthlyBars = .ok children)
    (hdays : ¬ HasWholeDays manifest base.timeRange) :
    ∃ child ∈ children, ∀ sha256 manifests spec bundle filtered hash, spec.timeRange = child.spec.timeRange →
      bindDatasetToBundle sha256 manifests spec bundle ≠ .ok (manifest, filtered, hash) := by
  rw [← checkRange_children_iff h] at hdays
  push Not at hdays
  obtain ⟨child, hchild, hfails⟩ := hdays
  refine ⟨child, hchild, ?_⟩
  intro sha256 manifests spec bundle filtered hash hrange hbound
  exact hfails (hrange ▸ checkRange_of_bind hbound)

/-- The children pass the range check of the binding exactly when the window of the manifest has the days of the base
range as a whole. -/
theorem children_bindable_iff (manifest : DatasetManifest) (base : SuiteSpec ρ)
    (nFolds embargoDays monthlyBars : ℤ) (children : List (RobustnessChildSpec ρ))
    (h : buildWalkForwardChildSpecs base nFolds embargoDays monthlyBars = .ok children) :
    (∀ child ∈ children, checkRange manifest child.spec.timeRange = .ok ()) ↔
      HasWholeDays manifest base.timeRange :=
  checkRange_children_iff h

section Sample

def noonBase : SuiteSpec Unit where
  hypothesis := "trend"
  timeRange := ⟨0, 59 * day + 43200 * second⟩
  feeAssumption := ⟨1 / 2000, 1 / 2000, "1.0"⟩
  slippageAssumption := ⟨5, "1.0"⟩
  fundingAssumption := {}
  parameters := {}
  rest := ()

def windowTo (finish : Time) : DatasetManifest where
  symbols := [.BTC]
  startTimestamp := 0
  endTimestamp := finish
  contentHash := "digest"
  datasetId := "btc"

theorem children_bindable_noon : ∃ children, buildWalkForwardChildSpecs noonBase 2 3 1 = .ok children ∧
    ∀ child ∈ children, checkRange (windowTo (60 * day)) child.spec.timeRange = .ok () :=
  ⟨_, rfl, (children_bindable_iff (windowTo (60 * day)) noonBase 2 3 1 _ rfl).mpr ⟨by decide, by decide⟩⟩

/-- The manifest ends with the base range, at noon; the last child runs on to the end of that day. -/
theorem last_child_unbindable : ¬ ∀ (manifest : DatasetManifest) (base : SuiteSpec Unit)
    (nFolds embargoDays monthlyBars : ℤ) (children : List (RobustnessChildSpec Unit)),
    checkRange manifest base.timeRange = .ok () →
      buildWalkForwardChildSpecs base nFolds embargoDays monthlyBars = .ok children →
        ∀ child ∈ children, checkRange manifest child.spec.timeRange = .ok () := by
  intro hclaim
  have hall := hclaim (windowTo (59 * day + 43200 * second)) noonBase 2 3 1 _ (by decide) rfl
  revert hall
  decide

end Sample

end TradingBot.Research.ChildBinding
